/-!
# Random bytes

A seed gives a key, the key an endless row of words in blocks of sixteen, and a generator stands at a place
in that row.

* `Random.keyOfSeed` — the key for a seed.
* `Random.block` — the block of a number.
* `Generator.byte` — the random byte at a generator's place.
-/

namespace ChipEight

/-! ### Keys from seeds

A seed of sixty-four bits is stretched to a key of eight words. The seed is run through a linear congruence;
each word is cut from the next value of it, folded onto itself and rotated by its top five bits.
-/

namespace Random

/-- A key of 256 bits. -/
abbrev Key := Vector UInt32 8

/-- The value of the congruence after `s`. -/
def congruence (s : UInt64) : UInt64 := s * 6364136223846793005 + 11634580027462260723

/-- The word cut from a value of the congruence. -/
def cut (s : UInt64) : UInt32 :=
  let folded := (((s >>> 18) ^^^ s) >>> 27).toUInt32
  let turn := (s >>> 59).toUInt32
  folded >>> turn ||| folded <<< (32 - turn)

/-- The key for a seed: word `k` is cut from the value `k + 1` steps after the seed. -/
def keyOfSeed (seed : UInt64) : Key :=
  Vector.ofFn fun k => cut (Nat.repeat congruence (k.val + 1) seed)

/-! ### Blocks of words

The ChaCha block function with twelve rounds. A block of sixteen words is laid out from four fixed words, the
key, the block's number and two zeros; twelve rounds mix it, and the layout is added to the result.
-/

/-- A block of 512 bits. -/
abbrev Block := Vector UInt32 16

/-- Rotates a word to the left. -/
def rotateLeft (w k : UInt32) : UInt32 := w <<< k ||| w >>> (32 - k)

/-- Mixes the four words of a block at the given places. -/
def quarterRound (b : Block) (i j k l : Fin 16) : Block :=
  let w := b[i] + b[j]
  let z := rotateLeft (b[l] ^^^ w) 16
  let y := b[k] + z
  let x := rotateLeft (b[j] ^^^ y) 12
  let w := w + x
  let z := rotateLeft (z ^^^ w) 8
  let y := y + z
  let x := rotateLeft (x ^^^ y) 7
  (((b.set i w).set j x).set k y).set l z

/-- A block has words, which numerals can name. -/
local instance neZero_words : @NeZero Nat Zero.ofOfNat0 16 := ⟨by decide⟩

/-- A round on the columns of the block, then one on its diagonals. -/
def doubleRound (b : Block) : Block :=
  let b := quarterRound b 0 4 8 12
  let b := quarterRound b 1 5 9 13
  let b := quarterRound b 2 6 10 14
  let b := quarterRound b 3 7 11 15
  let b := quarterRound b 0 5 10 15
  let b := quarterRound b 1 6 11 12
  let b := quarterRound b 2 7 8 13
  quarterRound b 3 4 9 14

/-- The block of a number before it is mixed. -/
def layout (key : Key) (number : UInt64) : Block :=
  #v[0x61707865, 0x3320646e, 0x79622d32, 0x6b206574,
    key[0], key[1], key[2], key[3], key[4], key[5], key[6], key[7],
    number.toUInt32, (number >>> 32).toUInt32, 0, 0]

/-- The block of a number. -/
def block (key : Key) (number : UInt64) : Block :=
  let start := layout key number
  (Nat.repeat doubleRound 6 start).zipWith (· + ·) start

end Random

/-! ### Generators

The words of block `0` come first, then those of block `1`, and so on. A random byte is the low end of the
word that the generator stands at.
-/

/-- A place in the row of random words of a key. -/
structure Generator where
  key : Random.Key
  /-- The number of words that were used up. -/
  position : Nat
deriving DecidableEq

namespace Generator

/-- The generator for a seed, with no word used up. -/
def ofSeed (seed : UInt64) : Generator where
  key := Random.keyOfSeed seed
  position := 0

/-- Word `j` of the row of a key. -/
def word (key : Random.Key) (j : Nat) : UInt32 :=
  (Random.block key (UInt64.ofNat (j / 16)))[j % 16]

/-- The byte at the generator's place. -/
def byte (g : Generator) : UInt8 := (word g.key g.position).toUInt8

/-- The generator one word further on. -/
def advance (g : Generator) : Generator := { g with position := g.position + 1 }

end Generator

end ChipEight
