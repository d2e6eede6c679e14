import ChipEight.Machine

/-!
# Memory and registers

An address means the cell at its remainder modulo `memorySize`, which is what the low twelve bits of
it say. From this:

* `toNat_and_addressMask`, `cell_val_eq` — masking an address and taking its cell agree;
* `getElem_write`, `getElem_copy` — every byte after a write and after a block write, the latter
  also where the block wraps around the end of memory;
* `byteAt` — the byte at a place, with `byteAt_copy_inside` and `byteAt_copy_outside` for a block write;
* `copy_slice` — a block that is written where it was read;
* `get_setReg`, `get_setResult`, `get_setRegisters` — every register after the registers were written.
-/

namespace ChipEight

/-- The low twelve bits of an address are its remainder modulo the size of memory. -/
theorem toNat_and_addressMask (a : UInt16) :
    (a &&& addressMask).toNat = a.toNat % memorySize := by
  rw [UInt16.toNat_and]
  exact Nat.and_two_pow_sub_one_eq_mod a.toNat 12

theorem toNat_and_addressMask_le (a : UInt16) : (a &&& addressMask).toNat ≤ 0xFFF := by
  rw [toNat_and_addressMask]
  exact Nat.le_of_lt_succ (Nat.mod_lt _ (by decide))

namespace Memory

theorem cell_val_eq (a : UInt16) : (cell a).val = (a &&& addressMask).toNat :=
  (toNat_and_addressMask a).symm

/-- Neighbouring addresses mean neighbouring cells, the first cell following the last. -/
theorem cell_succ_val (a : UInt16) : (cell (a + 1)).val = ((cell a).val + 1) % memorySize := by
  simp only [cell, memorySize, UInt16.toNat_add, UInt16.toNat_one]
  omega

theorem getElem_write (m : Memory) (a : UInt16) (b : UInt8) (k : Nat) (hk : k < memorySize) :
    (m.write a b).bytes[k] = if (cell a).val = k then b else m.bytes[k] := by
  simp only [write, Vector.getElem_set]

/-- How far a cell lies behind an address, going around the end of memory. -/
def distance (a : UInt16) (k : Nat) : Nat := (k + memorySize - (cell a).val) % memorySize

theorem distance_of_le {a : UInt16} {k : Nat} (hk : k < memorySize) (h : (cell a).val ≤ k) :
    distance a k = k - (cell a).val := by
  rw [distance, show k + memorySize - (cell a).val = k - (cell a).val + memorySize by omega,
    Nat.add_mod_right]
  exact Nat.mod_eq_of_lt (by omega)

theorem distance_of_lt {a : UInt16} {k : Nat} (h : k < (cell a).val) :
    distance a k = k + memorySize - (cell a).val :=
  Nat.mod_eq_of_lt (by omega)

theorem distance_self {a : UInt16} {k : Nat} (h : (cell a).val = k) : distance a k = 0 := by
  have hk := (cell a).isLt
  rw [distance_of_le (by omega) (by omega)]
  omega

/-- The cell of an address is the last that is reached from the address after it. -/
theorem distance_succ_self {a : UInt16} {k : Nat} (h : (cell a).val = k) :
    distance (a + 1) k = memorySize - 1 := by
  have hs := cell_succ_val a
  rcases Nat.lt_or_ge ((cell a).val + 1) memorySize with hlt | hge
  · rw [Nat.mod_eq_of_lt hlt] at hs
    rw [distance_of_lt (by omega)]
    omega
  · have hk := (cell a).isLt
    rw [show (cell a).val + 1 = memorySize by omega, Nat.mod_self] at hs
    rw [distance_of_le (by omega) (by omega)]
    omega

theorem distance_succ_of_ne {a : UInt16} {k : Nat} (hk : k < memorySize)
    (h : (cell a).val ≠ k) : distance a k = distance (a + 1) k + 1 := by
  have hs := cell_succ_val a
  have hc := (cell a).isLt
  rcases Nat.lt_or_gt_of_ne h with hlt | hgt
  · rw [Nat.mod_eq_of_lt (by omega)] at hs
    rw [distance_of_le hk (by omega), distance_of_le hk (by omega)]
    omega
  · rw [distance_of_lt hgt]
    rcases Nat.lt_or_ge ((cell a).val + 1) memorySize with hin | hout
    · rw [Nat.mod_eq_of_lt hin] at hs
      rw [distance_of_lt (by omega)]
      omega
    · rw [show (cell a).val + 1 = memorySize by omega, Nat.mod_self] at hs
      rw [distance_of_le hk (by omega)]
      omega

/-- **Every byte after a block was written.** The cell at a distance below the length of the block
holds the byte of that place in it, every other cell what it held before. -/
theorem getElem_copy (m : Memory) (a : UInt16) (bs : List UInt8) (hbs : bs.length ≤ memorySize)
    (k : Nat) (hk : k < memorySize) :
    (m.copy a bs).bytes[k] = bs[distance a k]?.getD m.bytes[k] := by
  induction bs generalizing m a with
  | nil => rfl
  | cons b bs ih =>
      have hlen : bs.length + 1 ≤ memorySize := hbs
      rw [copy, ih (m.write a b) (a + 1) (by omega), getElem_write]
      by_cases hak : (cell a).val = k
      · -- the first byte: the rest of the block is too short to come around to it again
        have hlast : bs.length ≤ distance (a + 1) k := by
          rw [distance_succ_self hak]
          omega
        rw [distance_self hak, if_pos hak, List.getElem?_eq_none hlast]
        rfl
      · rw [distance_succ_of_ne hk hak, if_neg hak]
        rfl

theorem add_ofNat_succ (a : UInt16) (n : Nat) :
    a + UInt16.ofNat (n + 1) = a + UInt16.ofNat n + 1 := by
  rw [UInt16.ofNat_add, UInt16.add_assoc]
  rfl

theorem succ_add_ofNat (a : UInt16) (n : Nat) :
    a + 1 + UInt16.ofNat n = a + UInt16.ofNat (n + 1) := by
  rw [add_ofNat_succ, UInt16.add_assoc, UInt16.add_comm 1, UInt16.add_assoc]

/-- Two blocks written one behind the other are one block. -/
theorem copy_append (m : Memory) (a : UInt16) (bs cs : List UInt8) :
    m.copy a (bs ++ cs) = (m.copy a bs).copy (a + UInt16.ofNat bs.length) cs := by
  induction bs generalizing m a with
  | nil =>
      show m.copy a cs = m.copy (a + 0) cs
      rw [UInt16.add_zero]
  | cons b bs ih =>
      rw [List.cons_append, copy, ih, List.length_cons, succ_add_ofNat]
      rfl

theorem length_slice (m : Memory) (a : UInt16) (n : Nat) : (m.slice a n).length = n := by
  rw [slice, List.length_map, List.length_range]

theorem slice_succ (m : Memory) (a : UInt16) (n : Nat) :
    m.slice a (n + 1) = m.slice a n ++ [m.read (a + UInt16.ofNat n)] := by
  simp only [slice, List.range_succ, List.map_append, List.map_cons, List.map_nil]

/-! ### Places around the end of memory -/

/-- The byte at a place, places being counted on around the end of memory. -/
def byteAt (m : Memory) (k : Nat) : UInt8 :=
  m.bytes.get ⟨k % memorySize, Nat.mod_lt _ (by decide)⟩

theorem byteAt_of_lt (m : Memory) {k : Nat} (hk : k < memorySize) : m.byteAt k = m.bytes[k] := by
  have hplace : (⟨k % memorySize, Nat.mod_lt _ (by decide)⟩ : Fin memorySize) = ⟨k, hk⟩ :=
    Fin.ext (Nat.mod_eq_of_lt hk)
  rw [byteAt, hplace]
  rfl

theorem byteAt_mod (m : Memory) (k : Nat) : m.byteAt (k % memorySize) = m.byteAt k := by
  simp only [byteAt, Nat.mod_mod]

theorem ext_byteAt {m m' : Memory} (h : ∀ k < memorySize, m.byteAt k = m'.byteAt k) : m = m' := by
  obtain ⟨bytes⟩ := m
  obtain ⟨bytes'⟩ := m'
  refine congrArg Memory.mk (Vector.ext fun k hk => ?_)
  have hbyte := h k hk
  rw [byteAt_of_lt _ hk, byteAt_of_lt _ hk] at hbyte
  exact hbyte

theorem read_add_ofNat (m : Memory) (a : UInt16) (r : Nat) :
    m.read (a + UInt16.ofNat r) = m.byteAt (a.toNat + r) := by
  have hcell : cell (a + UInt16.ofNat r) =
      ⟨(a.toNat + r) % memorySize, Nat.mod_lt _ (by decide)⟩ := by
    simp only [cell, Fin.mk.injEq, memorySize, UInt16.toNat_add, UInt16.toNat_ofNat']
    omega
  show m.bytes.get (cell (a + UInt16.ofNat r)) = _
  rw [hcell]
  rfl

theorem getElem_slice (m : Memory) (a : UInt16) {n r : Nat} (hr : r < (m.slice a n).length) :
    (m.slice a n)[r] = m.byteAt (a.toNat + r) := by
  simp only [slice, List.getElem_map, List.getElem_range, read_add_ofNat]

/-- The places from an address on are at the distances from it. -/
theorem distance_add (a : UInt16) {r : Nat} (hr : r < memorySize) :
    distance a ((a.toNat + r) % memorySize) = r := by
  simp only [distance, cell, memorySize] at *
  omega

theorem add_distance (a : UInt16) {k : Nat} (hk : k < memorySize) :
    (a.toNat + distance a k) % memorySize = k := by
  simp only [distance, cell, memorySize] at *
  omega

variable {block : List UInt8} {r k : Nat}

/-- A block that was written is at its places, which are all different. -/
theorem byteAt_copy_inside (m : Memory) (a : UInt16) (hlen : block.length ≤ memorySize)
    (hr : r < block.length) : (m.copy a block).byteAt (a.toNat + r) = block[r] := by
  have hplace : (a.toNat + r) % memorySize < memorySize := Nat.mod_lt _ (by decide)
  rw [← byteAt_mod, byteAt_of_lt _ hplace, getElem_copy m a block hlen _ hplace,
    distance_add a (by omega), List.getElem?_eq_getElem hr, Option.getD_some]

theorem byteAt_copy_outside (m : Memory) (a : UInt16) (hlen : block.length ≤ memorySize)
    (hk : k < memorySize) (hout : ∀ r < block.length, k ≠ (a.toNat + r) % memorySize) :
    (m.copy a block).byteAt k = m.byteAt k := by
  have hfar : block.length ≤ distance a k := by
    apply Nat.le_of_not_lt
    intro hnear
    exact hout _ hnear (add_distance a hk).symm
  rw [byteAt_of_lt _ hk, byteAt_of_lt _ hk, getElem_copy m a block hlen k hk,
    List.getElem?_eq_none hfar, Option.getD_none]

/-- A block that is written where it was read changes nothing. -/
theorem copy_slice (m : Memory) (a : UInt16) {n : Nat} (hn : n ≤ memorySize) :
    m.copy a (m.slice a n) = m := by
  have hlen := length_slice m a n
  apply ext_byteAt
  intro k hk
  by_cases hnear : distance a k < n
  · have hin : distance a k < (m.slice a n).length := by omega
    have hplace := byteAt_copy_inside m a (by omega) hin
    rw [getElem_slice, ← byteAt_mod, add_distance a hk] at hplace
    rw [hplace, ← byteAt_mod m (a.toNat + _), add_distance a hk]
  · apply byteAt_copy_outside m a (by omega) hk
    intro r hr hkr
    rw [hlen] at hr
    rw [hkr, distance_add a (by omega)] at hnear
    exact hnear hr

end Memory

/-! ### The register file

What each register holds after the register file was written: one register by `setReg`, the flag register by
`setFlag`, a result and after it the flag by `setResult`, and the first registers by `setRegisters`. A
register is named by its place in the file.
-/

/-- The flag is in the last register. -/
theorem place_flag : place 0xF = 15 := rfl

theorem place_val_of_lt {x : UInt8} (h : x.toNat < 16) : (place x).val = x.toNat :=
  Nat.mod_eq_of_lt h

theorem toNat_flagByte (flag : Bool) : (flagByte flag).toNat = flag.toNat := by
  cases flag <;> rfl

namespace State

/-- A register as a number. -/
def value (s : State) (x : UInt8) : Nat := (s.reg x).toNat

variable (s : State) (x b : UInt8) (flag : Bool) (r : Fin registerCount)

theorem get_setReg : (s.setReg x b).v.get r = if r = place x then b else s.v.get r := by
  show (s.v.set (place x) b)[r.val] = if r = place x then b else s.v[r.val]
  rw [Vector.getElem_set]
  simp only [Fin.ext_iff, eq_comm]

theorem get_setFlag : (s.setFlag flag).v.get r = if r = 15 then flagByte flag else s.v.get r := by
  rw [setFlag, get_setReg, place_flag]

/-- The flag is written last and remains. -/
theorem get_setResult : (s.setResult x b flag).v.get r =
    if r = 15 then flagByte flag else if r = place x then b else s.v.get r := by
  rw [setResult, get_setFlag, get_setReg]

theorem get_setRegisters (bytes : List UInt8) :
    (s.setRegisters bytes).v.get r = bytes[r.val]?.getD (s.v.get r) := by
  show (Vector.ofFn fun k : Fin registerCount => bytes[k.val]?.getD s.v[k])[r.val] = _
  rw [Vector.getElem_ofFn]
  rfl

/-- The first registers hold the bytes that they were set to. -/
theorem take_setRegisters {bytes : List UInt8} (h : bytes.length ≤ registerCount) :
    (s.setRegisters bytes).v.toList.take bytes.length = bytes := by
  have hlen : (s.setRegisters bytes).v.toList.length = registerCount := Vector.length_toList
  apply List.ext_getElem
  · rw [List.length_take, hlen]
    exact Nat.min_eq_left h
  · intro r hr hr'
    have hset := get_setRegisters s ⟨r, Nat.lt_of_lt_of_le hr' h⟩ bytes
    rw [List.getElem?_eq_getElem hr', Option.getD_some] at hset
    rw [List.getElem_take, Vector.getElem_toList]
    exact hset

end State

end ChipEight
