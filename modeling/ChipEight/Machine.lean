import ChipEight.Layout
import ChipEight.Instruction
import ChipEight.Frame
import ChipEight.Random
import ChipEight.Fault

/-!
# The machine

A machine is the state of its program, the keypad, the program it was last given, the fault that stopped the
program, and a source of random bytes. Its host loads programs, presses keys, makes steps, counts down the
timers and takes frames.

* `Memory.read`, `Memory.write`, `Memory.slice`, `Memory.copy` — the bytes of the memory.
* `State.faultOf?`, `State.perform`, `State.next` — what an instruction does.
* `Machine.load`, `Machine.reset`, `Machine.tick`, `Machine.keyEvent`, `Machine.takeFrame` — what the host
  does.
* `Machine.pending`, `Machine.execute`, `Machine.step`, `Machine.burst` — steps.
-/

namespace ChipEight

/-! ### Memory

`memorySize` bytes. Addresses are sixteen bits wide and are taken modulo `memorySize`, so each has a byte. A
word is two bytes, the first the more significant.
-/

/-- The bytes of the machine's memory. -/
structure Memory where
  /-- One byte for each address below `memorySize`. -/
  bytes : Vector UInt8 memorySize
deriving DecidableEq

namespace Memory

/-- The place in memory that an address means. -/
def cell (a : UInt16) : Fin memorySize :=
  ⟨a.toNat % memorySize, Nat.mod_lt _ (by decide)⟩

/-- Memory that holds only zeros. -/
def blank : Memory := ⟨Vector.replicate memorySize 0⟩

/-- The byte at an address. -/
def read (m : Memory) (a : UInt16) : UInt8 := m.bytes[cell a]

/-- Puts a byte at an address. -/
def write (m : Memory) (a : UInt16) (b : UInt8) : Memory := ⟨m.bytes.set (cell a) b⟩

/-- The word at an address. -/
def wordAt (m : Memory) (a : UInt16) : UInt16 := Word.ofBytes (m.read a) (m.read (a + 1))

/-- The `n` bytes from an address on. -/
def slice (m : Memory) (a : UInt16) (n : Nat) : List UInt8 :=
  (List.range n).map fun k => m.read (a + UInt16.ofNat k)

/-- Puts bytes at an address and the ones that follow it. -/
def copy (m : Memory) (a : UInt16) : List UInt8 → Memory
  | [] => m
  | b :: bs => (m.write a b).copy (a + 1) bs

/-- Memory when the power comes on: the glyphs at `fontAddress` and zeros elsewhere. -/
def powerOn : Memory := blank.copy fontAddress glyphs

end Memory

/-! ### The state of a program

Everything that a running program can change: its registers, stack and timers, the memory and the frame. The
value `{}` is the state when the power comes on.
-/

/-- What a running program can change. Register numbers are taken modulo sixteen. -/
structure State where
  /-- The registers `V0` to `VF`. `VF` also takes the flag of arithmetic and drawing. -/
  v : Vector UInt8 registerCount := Vector.replicate _ 0
  /-- The index register, an address. -/
  i : UInt16 := 0
  /-- The address of the next instruction. -/
  pc : UInt16 := programStart
  /-- The number of return addresses on the stack. -/
  sp : UInt8 := 0
  /-- The return addresses, the oldest first; those from place `sp` on have no meaning. -/
  stack : Vector UInt16 stackDepth := Vector.replicate _ 0
  delay : UInt8 := 0
  /-- The sound timer; a tone sounds while it is positive. -/
  sound : UInt8 := 0
  memory : Memory := Memory.powerOn
  /-- The picture drawn so far. -/
  frame : Frame := Frame.blank
  /-- Whether the picture was drawn on since it was last taken. -/
  redraw : Bool := false
  /-- The register that waits for a key press. -/
  wait : Option UInt8 := none
deriving DecidableEq

/-- The keys that are down. -/
abbrev Keypad := Vector Bool registerCount

/-- The register, or the key, that a number means. -/
def place (x : UInt8) : Fin registerCount := ⟨x.toNat % registerCount, Nat.mod_lt _ (by decide)⟩

/-- The flag as a byte. -/
def flagByte (flag : Bool) : UInt8 := if flag then 1 else 0

namespace State

/-- The value of register `x`. -/
def reg (s : State) (x : UInt8) : UInt8 := s.v[place x]

/-- Sets register `x`. -/
def setReg (s : State) (x b : UInt8) : State := { s with v := s.v.set (place x) b }

/-- Sets the flag register. -/
def setFlag (s : State) (flag : Bool) : State := s.setReg 0xF (flagByte flag)

/-- The return address on top of the stack. -/
def top (s : State) : UInt16 := s.stack.getD (s.sp - 1).toNat 0

/-- Puts a return address on the stack. -/
def push (s : State) (a : UInt16) : State :=
  { s with stack := s.stack.setIfInBounds s.sp.toNat a, sp := s.sp + 1 }

/-- Takes the return address on top off the stack. -/
def pop (s : State) : State := { s with sp := s.sp - 1 }

/-- The instruction at the program counter. -/
def current? (s : State) : Option Instruction := Instruction.decode? (s.memory.wordAt s.pc)

/-- The timers one count lower, but not below zero. -/
def tick (s : State) : State :=
  { s with
    delay := if s.delay = 0 then 0 else s.delay - 1
    sound := if s.sound = 0 then 0 else s.sound - 1 }

end State

/-- The state when a program has been placed in memory and nothing has run yet. -/
def State.ofProgram (program : List UInt8) : State :=
  { memory := Memory.powerOn.copy programStart program }

/-! ### What instructions do

An instruction is looked at in three ways, all in terms of the state that it finds.

* `State.faultOf?` — the fault that it meets, which is known before it does anything.
* `State.perform` — what it changes, apart from the program counter.
* `State.next` — where the program goes on.
-/

namespace State

/-- The fault that an instruction meets: a call with a full stack or a return with an empty one. -/
def faultOf? (s : State) : Instruction → Option Fault
  | .call _ => if stackDepth ≤ s.sp.toNat then some (.stackOverflow s.pc) else none
  | .ret => if s.sp = 0 then some (.stackUnderflow s.pc) else none
  | _ => none

/-- Sets register `x` to the result of an operation and then the flag, so that the flag remains when
both go to the same register. -/
def setResult (s : State) (x result : UInt8) (flag : Bool) : State :=
  (s.setReg x result).setFlag flag

/-- The number of registers that a block transfer up to register `x` moves. -/
def blockLength (x : UInt8) : Nat := x.toNat % registerCount + 1

/-- Sets the registers from `V0` on to the given bytes. -/
def setRegisters (s : State) (bytes : List UInt8) : State :=
  { s with v := Vector.ofFn fun r => bytes[r.val]?.getD s.v[r] }

/-- The three decimal digits of a byte. -/
def decimalDigits (b : UInt8) : List UInt8 := [b / 100, b / 10 % 10, b % 10]

/-- Draws the `n` rows at the index register with the top left corner in column `Vx` and row `Vy`. -/
def draw (s : State) (x y n : UInt8) : State :=
  match s.frame.drawSprite (s.reg x).toNat (s.reg y).toNat (s.memory.slice s.i n.toNat) with
  | (frame, hit) => { s with frame := frame, redraw := true }.setFlag hit

/-- What an instruction changes, apart from the program counter. -/
def perform (s : State) (g : Generator) : Instruction → State
  | .clearScreen => { s with frame := Frame.blank, redraw := true }
  | .ret => s.pop
  | .jump _ => s
  | .call _ => s.push ((s.pc + 2) &&& addressMask)
  | .skipIfEqual _ _ => s
  | .skipIfNotEqual _ _ => s
  | .skipIfRegistersEqual _ _ => s
  | .load x b => s.setReg x b
  | .add x b => s.setReg x (s.reg x + b)
  | .move x y => s.setReg x (s.reg y)
  | .or x y => s.setReg x (s.reg x ||| s.reg y)
  | .and x y => s.setReg x (s.reg x &&& s.reg y)
  | .xor x y => s.setReg x (s.reg x ^^^ s.reg y)
  | .addRegisters x y =>
    s.setResult x (s.reg x + s.reg y) (255 < (s.reg x).toNat + (s.reg y).toNat)
  | .sub x y => s.setResult x (s.reg x - s.reg y) (s.reg y ≤ s.reg x)
  | .shiftRight x => s.setResult x (s.reg x >>> 1) ((s.reg x).toNat.testBit 0)
  | .subN x y => s.setResult x (s.reg y - s.reg x) (s.reg x ≤ s.reg y)
  | .shiftLeft x => s.setResult x (s.reg x <<< 1) ((s.reg x).toNat.testBit 7)
  | .skipIfRegistersNotEqual _ _ => s
  | .loadIndex a => { s with i := a &&& addressMask }
  | .jumpOffset _ => s
  | .random x b => s.setReg x (g.byte &&& b)
  | .draw x y n => s.draw x y n
  | .skipIfPressed _ => s
  | .skipIfNotPressed _ => s
  | .readDelay x => s.setReg x s.delay
  | .awaitKey x => { s with wait := some (x &&& 0xF) }
  | .setDelay x => { s with delay := s.reg x }
  | .setSound x => { s with sound := s.reg x }
  | .addIndex x => { s with i := (s.i + (s.reg x).toUInt16) &&& addressMask }
  | .loadGlyph x => { s with i := fontAddress + (s.reg x &&& 0xF).toUInt16 * glyphSize }
  | .storeBcd x => { s with memory := s.memory.copy s.i (decimalDigits (s.reg x)) }
  | .storeRegisters x =>
    { s with memory := s.memory.copy s.i (s.v.toList.take (blockLength x)) }
  | .loadRegisters x => s.setRegisters (s.memory.slice s.i (blockLength x))

/-- The address after the next instruction if `skip` holds, and after this one otherwise. -/
def skipIf (s : State) (skip : Bool) : UInt16 := if skip then s.pc + 4 else s.pc + 2

/-- Whether the key in register `x` is down. -/
def keyIsDown (s : State) (keypad : Keypad) (x : UInt8) : Bool :=
  keypad[place (s.reg x)]

/-- Where the program goes on after an instruction. -/
def next (s : State) (keypad : Keypad) : Instruction → UInt16
  | .ret => s.top &&& addressMask
  | .jump a => a &&& addressMask
  | .call a => a &&& addressMask
  | .jumpOffset a => (a + (s.reg 0).toUInt16) &&& addressMask
  | .skipIfEqual x b => s.skipIf (s.reg x = b)
  | .skipIfNotEqual x b => s.skipIf (s.reg x ≠ b)
  | .skipIfRegistersEqual x y => s.skipIf (s.reg x = s.reg y)
  | .skipIfRegistersNotEqual x y => s.skipIf (s.reg x ≠ s.reg y)
  | .skipIfPressed x => s.skipIf (s.keyIsDown keypad x)
  | .skipIfNotPressed x => s.skipIf (!s.keyIsDown keypad x)
  | _ => s.pc + 2

end State

/-! ### Machines and their hosts -/

/-- A machine. -/
structure Machine where
  /-- What the program can change. -/
  state : State := {}
  keypad : Keypad := Vector.replicate _ false
  /-- The program that was last loaded. -/
  program : List UInt8 := []
  /-- The fault that stopped the program. -/
  fault : Option Fault := none
  generator : Generator
deriving DecidableEq

namespace Machine

/-- A machine without a program, with random bytes that a seed determines. -/
def ofSeed (seed : UInt64) : Machine where
  generator := Generator.ofSeed seed

/-- Starts the last program again. The random bytes go on where they were. -/
def reset (m : Machine) : Machine where
  state := State.ofProgram m.program
  program := m.program
  generator := m.generator

/-- Takes a program and starts it. A program that is too large is refused. -/
def load (m : Machine) (program : List UInt8) : Except LoadError Machine :=
  if maxProgramSize < program.length then
    .error (.programTooLarge program.length)
  else
    .ok { m with program := program }.reset

/-- Counts down the timers. -/
def tick (m : Machine) : Machine := { m with state := m.state.tick }

/-- Puts a key into the register that waits for one. -/
def completeWait (m : Machine) (key : UInt8) : Machine :=
  match m.state.wait with
  | none => m
  | some x => { m with state := { m.state.setReg x key with wait := none } }

/-- Presses or releases a key. A press ends a wait for a key. Numbers beyond the keypad's mean no
key. -/
def keyEvent (m : Machine) (key : UInt8) (down : Bool) : Machine :=
  if h : key.toNat < registerCount then
    let m := { m with keypad := m.keypad.set key.toNat down h }
    if down then m.completeWait key else m
  else
    m

/-- Whether a key is down; key numbers are taken modulo sixteen. -/
def isPressed (m : Machine) (key : UInt8) : Bool := m.keypad.get (place key)

/-- Whether the program waits for a key press. -/
def awaitingKey (m : Machine) : Bool := m.state.wait.isSome

/-- Whether a tone sounds. -/
def soundActive (m : Machine) : Bool := 0 < m.state.sound

/-- The instruction at the program counter. -/
def current? (m : Machine) : Option Instruction := m.state.current?

/-- Takes the frame if it was drawn on since it was last taken. -/
def takeFrame (m : Machine) : Machine × Option Frame :=
  if m.state.redraw then
    ({ m with state := { m.state with redraw := false } }, some m.state.frame)
  else
    (m, none)

end Machine

/-! ### Steps

* `Machine.pending` — what the machine is about to do.
* `Machine.execute` — the machine after an instruction.
* `Machine.step` — one step, and what it came to.
* `Machine.burst` — several steps, as far as they lead anywhere.
-/

/-- What a machine is about to do. -/
inductive Pending where
  /-- Nothing: a fault has stopped the program. -/
  | stopped (fault : Fault)
  /-- Nothing: the program waits for a key. -/
  | awaitingKey
  /-- Nothing: the program counter has left the memory. -/
  | pastEnd
  /-- Skip a word that is no instruction. -/
  | skip (word : UInt16)
  /-- Run an instruction. -/
  | run (word : UInt16) (ins : Instruction)
deriving DecidableEq, Repr

/-- What a step came to. -/
inductive Outcome where
  /-- The instruction ran. -/
  | executed (ins : Instruction)
  /-- Nothing ran, since the program waits for a key. -/
  | awaitingKey
  /-- The program counter has left the memory. -/
  | halted
  /-- The instruction met a fault, or a fault has stopped the program before. -/
  | faulted (fault : Fault)
deriving DecidableEq, Repr

/-- How a burst of steps ended. -/
inductive Burst where
  /-- All steps were made, or those left would only wait for a key. -/
  | spent
  /-- The program counter has left the memory. -/
  | halted
  /-- A fault has stopped the program. -/
  | stopped (fault : Fault)
deriving DecidableEq, Repr

namespace Machine

/-- What the machine is about to do. A fault comes before a wait for a key, and that before the end
of memory. -/
def pending (m : Machine) : Pending :=
  match m.fault with
  | some fault => .stopped fault
  | none =>
    if m.awaitingKey then .awaitingKey
    else if lastInstruction < m.state.pc then .pastEnd
    else
      let word := m.state.memory.wordAt m.state.pc
      match Instruction.decode? word with
      | none => .skip word
      | some ins => .run word ins

/-- The machine after an instruction that meets no fault. -/
def execute (m : Machine) (ins : Instruction) : Machine :=
  let pc := m.state.next m.keypad ins
  { m with
    state := { m.state.perform m.generator ins with pc := pc }
    generator := match ins with
      | .random _ _ => m.generator.advance
      | _ => m.generator }

/-- One step. A fault changes nothing but that it is kept, and a word that is no instruction is
skipped and reported. -/
def step (m : Machine) : Machine × Outcome :=
  match m.pending with
  | .stopped fault => (m, .faulted fault)
  | .awaitingKey => (m, .awaitingKey)
  | .pastEnd => (m, .halted)
  | .skip word =>
    ({ m with state := { m.state with pc := m.state.pc + 2 } },
      .faulted (.invalidOpcode word m.state.pc))
  | .run _ ins =>
    match m.state.faultOf? ins with
    | some fault => ({ m with fault := some fault }, .faulted fault)
    | none =>
      let m := m.execute ins
      (m, if lastInstruction < m.state.pc then .halted else .executed ins)

/-- Makes up to `n` steps. Stops early when the program waits for a key, has halted or was stopped
by a fault. -/
def burst : Nat → Machine → Machine × Burst
  | 0, m => (m, .spent)
  | n + 1, m =>
    match m.step with
    | (m, .executed _) => burst n m
    | (m, .awaitingKey) => (m, .spent)
    | (m, .halted) => (m, .halted)
    | (m, .faulted fault) => if fault.isRecoverable then burst n m else (m, .stopped fault)

end Machine

end ChipEight
