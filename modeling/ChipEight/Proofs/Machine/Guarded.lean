import ChipEight.Journal

/-!
# Operations that check every bound

The operations of a machine once more, with nothing left to wrap or to be taken modulo. A sum, a
difference or a product is formed only if the width of its operands holds it; a place of a table is
read or written only if the table has it; a block goes into memory only where it fits. An operation
of which one check fails has no result.

Sums that are meant to wrap (`7xnn`, `8xy4`, `8xy5`, `8xy7`, the timers) and places that are cut to
their low bits (registers, keys, addresses) are not checked beyond that cut. The word at the program
counter is fetched from two plain places of memory, so that it cannot go around its end.
-/

namespace ChipEight.Guarded

/-! ### Numbers and tables -/

def addByte (a b : UInt8) : Option UInt8 :=
  if a.toNat + b.toNat < UInt8.size then some (a + b) else none

def subByte (a b : UInt8) : Option UInt8 := if b.toNat ≤ a.toNat then some (a - b) else none

def addWord (a b : UInt16) : Option UInt16 :=
  if a.toNat + b.toNat < UInt16.size then some (a + b) else none

def mulWord (a b : UInt16) : Option UInt16 :=
  if a.toNat * b.toNat < UInt16.size then some (a * b) else none

/-- The sum of two sizes. Sizes have sixteen bits or more, so the least width is asked for. -/
def addSize (a b : Nat) : Option Nat := if a + b < UInt16.size then some (a + b) else none

def subSize (a b : Nat) : Option Nat := if b ≤ a then some (a - b) else none

/-- Puts a value at a place of a table. -/
def put {α : Type} {n : Nat} (t : Vector α n) (k : Nat) (a : α) : Option (Vector α n) :=
  if h : k < n then some (t.set k a h) else none

/-- Puts a block into the cells from `start` on and before `stop`, which it has to fill. -/
def splice (m : Memory) (start stop : Nat) (block : List UInt8) : Option Memory :=
  if start ≤ stop ∧ stop ≤ memorySize ∧ block.length = stop - start then
    some ⟨Vector.ofFn fun k =>
      if start ≤ k.val ∧ k.val < stop then block.getD (k.val - start) 0 else m.bytes[k]⟩
  else none

/-! ### Parts of the state -/

def read (s : State) (a : UInt16) : Option UInt8 :=
  s.memory.bytes[(a &&& addressMask).toNat]?

def write (s : State) (a : UInt16) (b : UInt8) : Option State := do
  let bytes ← put s.memory.bytes (a &&& addressMask).toNat b
  return { s with memory := ⟨bytes⟩ }

def reg (s : State) (x : UInt8) : Option UInt8 := s.v[(x &&& 0xF).toNat]?

def setReg (s : State) (x b : UInt8) : Option State := do
  let v ← put s.v (x &&& 0xF).toNat b
  return { s with v := v }

/-- The word at an address, from two places that both have to be in memory. -/
def fetch (m : Memory) (a : UInt16) : Option UInt16 := do
  let high ← m.bytes[a.toNat]?
  let low ← m.bytes[a.toNat + 1]?
  return Word.ofBytes high low

def keyIsDown (s : State) (keypad : Keypad) (x : UInt8) : Option Bool := do
  let key ← reg s x
  keypad[(key &&& 0xF).toNat]?

/-! ### Drawing -/

/-- The place of the pixel in a column and a row of the screen. -/
def pixelPlace (x y : Nat) : Option Nat :=
  if x < screenWidth ∧ y < screenHeight then some (y * screenWidth + x) else none

/-- Draws bit `k` of a row whose left end is in column `x`. -/
def drawBit (x y : Nat) (b : UInt8) (p : Frame × Bool) (k : Nat) : Option (Frame × Bool) := do
  let column ← addSize x k
  let shift ← subSize 7 k
  guard (shift < 8)
  let place ← pixelPlace (column % screenWidth) (y % screenHeight)
  let before ← p.1.pixels[place]?
  let after := before ^^ b.toNat.testBit shift
  let pixels ← put p.1.pixels place after
  return (⟨pixels⟩, p.2 || (before && !after))

/-- Draws the row of that number. -/
def drawRow (x y : Nat) (p : Frame × Bool) (row : UInt8 × Nat) : Option (Frame × Bool) := do
  let line ← addSize y row.2
  (List.range 8).foldlM (drawBit x line row.1) p

def drawSprite (f : Frame) (x y : Nat) (sprite : List UInt8) : Option (Frame × Bool) :=
  sprite.zipIdx.foldlM (drawRow x y) (f, false)

/-! ### Instructions -/

/-- How a program goes on after an instruction. -/
inductive Flow where
  | next
  | skip
  | jump (a : UInt16)

def Flow.ofSkip (skip : Bool) : Flow := if skip then .skip else .next

/-- The program counter after an instruction. -/
def Flow.move (pc : UInt16) : Flow → Option UInt16
  | next => addWord pc 2
  | skip => addWord pc 4
  | jump a => some (a &&& addressMask)

/-- The state that an instruction leaves and how it goes on, or the fault that it met. -/
abbrev Effect := Except Fault (State × Flow)

def assign (s : State) (x b : UInt8) : Option Effect := do
  let s ← setReg s x b
  return .ok (s, .next)

def assignFlagged (s : State) (x b : UInt8) (flag : Bool) : Option Effect := do
  let s ← setReg s x b
  let v ← put s.v 0xF (flagByte flag)
  return .ok ({ s with v := v }, .next)

def ret (s : State) : Option Effect :=
  if s.sp = 0 then some (.error (.stackUnderflow s.pc))
  else do
    let sp ← subByte s.sp 1
    let back ← s.stack[sp.toNat]?
    return .ok ({ s with sp := sp }, .jump back)

def call (s : State) (a : UInt16) : Option Effect :=
  if stackDepth ≤ s.sp.toNat then some (.error (.stackOverflow s.pc))
  else do
    let back ← addWord s.pc 2
    let stack ← put s.stack s.sp.toNat (back &&& addressMask)
    let sp ← addByte s.sp 1
    return .ok ({ s with stack := stack, sp := sp }, .jump a)

def draw (s : State) (x y n : UInt8) : Option Effect := do
  let sprite ← (List.range n.toNat).mapM fun row => do
    read s (← addWord s.i (UInt16.ofNat row))
  let vx ← reg s x
  let vy ← reg s y
  let (frame, hit) ← drawSprite s.frame vx.toNat vy.toNat sprite
  let v ← put s.v 0xF (flagByte hit)
  return .ok ({ s with v := v, frame := frame, redraw := true }, .next)

/-- Writes a byte at a distance from the index register. -/
def store (s : State) (b : UInt8 × Nat) : Option State := do
  write s (← addWord s.i (UInt16.ofNat b.2)) b.1

def storeBcd (s : State) (x : UInt8) : Option Effect := do
  let vx ← reg s x
  let s ← (State.decimalDigits vx).zipIdx.foldlM store s
  return .ok (s, .next)

def storeRegister (s : State) (r : Nat) : Option State := do
  store s (← reg s (UInt8.ofNat r), r)

def storeRegisters (s : State) (x : UInt8) : Option Effect := do
  let s ← (List.range ((x &&& 0xF).toNat + 1)).foldlM storeRegister s
  return .ok (s, .next)

def loadRegister (s : State) (r : Nat) : Option State := do
  setReg s (UInt8.ofNat r) (← read s (← addWord s.i (UInt16.ofNat r)))

def loadRegisters (s : State) (x : UInt8) : Option Effect := do
  let s ← (List.range ((x &&& 0xF).toNat + 1)).foldlM loadRegister s
  return .ok (s, .next)

/-- What an instruction does to the state, and how the program goes on. -/
def effect (s : State) (keypad : Keypad) (g : Generator) : Instruction → Option Effect
  | .clearScreen => some (.ok ({ s with frame := Frame.blank, redraw := true }, .next))
  | .ret => ret s
  | .jump a => some (.ok (s, .jump a))
  | .call a => call s a
  | .skipIfEqual x b => do return .ok (s, .ofSkip ((← reg s x) = b))
  | .skipIfNotEqual x b => do return .ok (s, .ofSkip ((← reg s x) ≠ b))
  | .skipIfRegistersEqual x y => do return .ok (s, .ofSkip ((← reg s x) = (← reg s y)))
  | .skipIfRegistersNotEqual x y => do return .ok (s, .ofSkip ((← reg s x) ≠ (← reg s y)))
  | .load x b => assign s x b
  | .add x b => do assign s x ((← reg s x) + b)
  | .move x y => do assign s x (← reg s y)
  | .or x y => do assign s x ((← reg s x) ||| (← reg s y))
  | .and x y => do assign s x ((← reg s x) &&& (← reg s y))
  | .xor x y => do assign s x ((← reg s x) ^^^ (← reg s y))
  | .addRegisters x y => do
    let vx ← reg s x
    let vy ← reg s y
    assignFlagged s x (vx + vy) (255 < vx.toNat + vy.toNat)
  | .sub x y => do
    let vx ← reg s x
    let vy ← reg s y
    assignFlagged s x (vx - vy) (vy ≤ vx)
  | .subN x y => do
    let vx ← reg s x
    let vy ← reg s y
    assignFlagged s x (vy - vx) (vx ≤ vy)
  | .shiftRight x => do
    let vx ← reg s x
    assignFlagged s x (vx >>> 1) (vx.toNat.testBit 0)
  | .shiftLeft x => do
    let vx ← reg s x
    assignFlagged s x (vx <<< 1) (vx.toNat.testBit 7)
  | .loadIndex a => some (.ok ({ s with i := a &&& addressMask }, .next))
  | .jumpOffset a => do
    let target ← addWord a (← reg s 0).toUInt16
    return .ok (s, .jump (target &&& addressMask))
  | .random x b => assign s x (g.byte &&& b)
  | .draw x y n => draw s x y n
  | .skipIfPressed x => do return .ok (s, .ofSkip (← keyIsDown s keypad x))
  | .skipIfNotPressed x => do return .ok (s, .ofSkip (!(← keyIsDown s keypad x)))
  | .readDelay x => assign s x s.delay
  | .awaitKey x => some (.ok ({ s with wait := some (x &&& 0xF) }, .next))
  | .setDelay x => do return .ok ({ s with delay := ← reg s x }, .next)
  | .setSound x => do return .ok ({ s with sound := ← reg s x }, .next)
  | .addIndex x => do
    let i ← addWord s.i (← reg s x).toUInt16
    return .ok ({ s with i := i &&& addressMask }, .next)
  | .loadGlyph x => do
    let offset ← mulWord ((← reg s x) &&& 0xF).toUInt16 glyphSize
    let i ← addWord fontAddress offset
    return .ok ({ s with i := i }, .next)
  | .storeBcd x => storeBcd s x
  | .storeRegisters x => storeRegisters s x
  | .loadRegisters x => loadRegisters s x

/-- The state after an instruction, or the fault that it met. -/
def execute (s : State) (keypad : Keypad) (g : Generator) (ins : Instruction) :
    Option (Except Fault State) := do
  match ← effect s keypad g ins with
  | .error f => return .error f
  | .ok (s, flow) =>
    let pc ← flow.move s.pc
    return .ok { s with pc := pc }

/-! ### Operations -/

/-- Runs or skips the word at the program counter. -/
def stepWord (m : Machine) : Option (Machine × Outcome) := do
  let word ← fetch m.state.memory m.state.pc
  match Instruction.decode? word with
  | none =>
    let pc ← addWord m.state.pc 2
    return ({ m with state := { m.state with pc := pc } },
      .faulted (.invalidOpcode word m.state.pc))
  | some ins =>
    match ← execute m.state m.keypad m.generator ins with
    | .error f => return ({ m with fault := some f }, .faulted f)
    | .ok s =>
      let generator := match ins with
        | .random _ _ => m.generator.advance
        | _ => m.generator
      return ({ m with state := s, generator := generator },
        if lastInstruction < s.pc then .halted else .executed ins)

def step (m : Machine) : Option (Machine × Outcome) :=
  match m.fault with
  | some f => some (m, .faulted f)
  | none =>
    if m.awaitingKey then some (m, .awaitingKey)
    else if lastInstruction < m.state.pc then some (m, .halted)
    else stepWord m

/-- Memory when the power comes on. -/
def powerOn : Option Memory := do
  let stop ← addSize fontAddress.toNat glyphs.length
  splice Memory.blank fontAddress.toNat stop glyphs

def reset (m : Machine) : Option Machine := do
  let stop ← addSize programStart.toNat m.program.length
  let memory ← splice (← powerOn) programStart.toNat stop m.program
  return { state := { memory := memory }, program := m.program, generator := m.generator }

def load (m : Machine) (program : List UInt8) : Option (Machine × Reply) :=
  if maxProgramSize < program.length then
    some (m, .refused (.programTooLarge program.length))
  else do
    return (← reset { m with program := program }, .done)

/-- Puts a key into the register that waits for one. The number of that register is not cut. -/
def completeWait (m : Machine) (key : UInt8) : Option Machine :=
  match m.state.wait with
  | none => some m
  | some x => do
    let v ← put m.state.v x.toNat key
    return { m with state := { m.state with v := v, wait := none } }

def keyEvent (m : Machine) (key : UInt8) (down : Bool) : Option Machine :=
  if 0xF < key.toNat then some m
  else do
    let keypad ← put m.keypad key.toNat down
    let m := { m with keypad := keypad }
    if down then completeWait m key else return m

def isPressed (m : Machine) (key : UInt8) : Option Bool := m.keypad[(key &&& 0xF).toNat]?

def current (m : Machine) : Option (Option Instruction) := do
  let high ← read m.state m.state.pc
  let low ← read m.state (m.state.pc + 1)
  return Instruction.decode? (Word.ofBytes high low)

/-- What an operation makes of a machine, and its answer. -/
def apply (m : Machine) : Operation → Option (Machine × Reply)
  | .load program => load m program
  | .reset => do return (← reset m, .done)
  | .step => do
    let (m, outcome) ← step m
    return (m, .stepped outcome)
  | .tick => some (m.tick, .done)
  | .key k down => do return (← keyEvent m k down, .done)
  | .isPressed k => do return (m, .pressed (← isPressed m k))
  | .current => do return (m, .instruction (← current m))
  | .takeFrame =>
    match m.takeFrame with
    | (m, frame) => some (m, .frame frame)

/-- The machine after a list of operations, none of which failed a check. -/
def run (m : Machine) (ops : List Operation) : Option Machine :=
  ops.foldlM (fun m op => do
    let (m, _) ← apply m op
    return m) m

end ChipEight.Guarded
