import ChipEight.Machine

/-!
# The journal

What a machine and its host do can be written down, one record for each thing worth telling. Records are
values; `Record.line` is the line that stands for one in a log. What a host asks of a machine is a value too,
so that the life of a machine is a list of them.

* `Machine.loadRecords`, `Machine.resetRecords`, `Machine.keyRecords`, `Machine.stepRecords`,
  `Machine.burstRecords` — what the operation of that name writes on a machine.
* `Machine.apply`, `Machine.applyRecords` — what an operation does and answers, and what it writes.
* `Machine.run` — a machine after a list of operations.
-/

namespace ChipEight

/-! ### Records -/

/-- How much a record matters. -/
inductive Level where
  | trace
  | debug
  | info
  | warn
  | error
deriving DecidableEq, Repr

/-- The word for a level. -/
def Level.text : Level → String
  | trace => "TRACE"
  | debug => "DEBUG"
  | info => "INFO"
  | warn => "WARN"
  | error => "ERROR"

/-- A thing worth telling. -/
inductive Record where
  /-- The machine was started again with a program of that many bytes. -/
  | started (size : Nat)
  /-- A program of that many bytes was loaded. -/
  | loaded (size : Nat)
  /-- The word at an address is no instruction. -/
  | skipped (word address : UInt16)
  /-- An instruction is about to run, with the word at its address and what it finds in the
  registers. -/
  | traced (address word : UInt16) (ins : Instruction) (v : Vector UInt8 registerCount)
      (i : UInt16) (sp : UInt8)
  | stopped (fault : Fault)
  | pastEnd (pc : UInt16)
  | ignoredKey (key : UInt8)
  /-- A key press ended the wait of a register. -/
  | completedWait (key register : UInt8)
  | sound (on : Bool)
  /-- The program halted in the last of that many frames. -/
  | halted (frames : Nat)
  /-- A run ends because of a fault. -/
  | failed (fault : Fault)
  /-- Keys are read from a terminal that reports releases, or does not. -/
  | keyboard (reportsReleases : Bool)
  | unmapped (c : Char)
deriving DecidableEq

namespace Record

/-- How much a record matters. -/
def level : Record → Level
  | traced _ _ _ _ _ _ => .trace
  | skipped _ _ => .warn
  | ignoredKey _ => .warn
  | unmapped _ => .warn
  | halted _ => .info
  | failed _ => .error
  | _ => .debug

/-- The registers in hexadecimal. -/
def registersText (v : Vector UInt8 registerCount) : String :=
  "[" ++ ", ".intercalate (v.toList.map fun b => Hex.padded 2 b.toNat) ++ "]"

/-- The number of columns that the text of an instruction is given. -/
def mnemonicWidth : Nat := 16

/-- The text of a record. -/
def text : Record → String
  | started size => s!"reset with {size} byte program"
  | loaded size => s!"loaded {size} byte program at " ++ Hex.marked 3 programStart.toNat
  | skipped w a => "skipping unknown opcode " ++ Hex.padded 4 w.toNat ++ " at " ++ Hex.padded 3 a.toNat
  | traced a w ins v i sp =>
    Hex.padded 3 a.toNat ++ ": " ++ Hex.padded 4 w.toNat ++ " " ++
      String.ofList (ins.mnemonic.toList.rightpad mnemonicWidth ' ') ++ " v" ++ registersText v ++
      " i" ++ Hex.padded 3 i.toNat ++ " sp" ++ toString sp.toNat
  | stopped fault => "program stopped: " ++ fault.message
  | pastEnd pc => "program counter " ++ Hex.marked 4 pc.toNat ++ " is past the end of memory"
  | ignoredKey k => "ignoring event for key " ++ Hex.marked 1 k.toNat ++ "; the keypad has 16 keys"
  | completedWait k x => "key " ++ Hex.plain k.toNat ++ " completed wait into V" ++ Hex.plain x.toNat
  | sound on => "sound " ++ if on then "on" else "off"
  | halted frames => s!"halted after {frames} frames"
  | failed fault => fault.message
  | keyboard reports => s!"console input, key releases reported: {reports}"
  | unmapped c => Quoted.text c ++ " isn't mapped to a keypad key"

/-- The line that stands for a record in a log. -/
def line (r : Record) : String := r.level.text ++ " " ++ r.text

end Record

namespace Machine

/-- What starting the last program again writes. -/
def resetRecords (m : Machine) : List Record := [.started m.program.length]

/-- What loading a program writes. A refused program leaves no trace. -/
def loadRecords (m : Machine) (program : List UInt8) : List Record :=
  match m.load program with
  | .error _ => []
  | .ok m => m.resetRecords ++ [.loaded program.length]

/-- What pressing or releasing a key writes. -/
def keyRecords (m : Machine) (key : UInt8) (down : Bool) : List Record :=
  if registerCount ≤ key.toNat then [.ignoredKey key]
  else
    match down, m.state.wait with
    | true, some x => [.completedWait key x]
    | _, _ => []

/-- What a step writes: a word that is skipped; or the instruction before it runs, and then why the
program stopped if it did. -/
def stepRecords (m : Machine) : List Record :=
  match m.pending with
  | .skip word => [.skipped word m.state.pc]
  | .run word ins =>
    .traced m.state.pc word ins m.state.v m.state.i m.state.sp ::
      match m.step with
      | (_, .faulted fault) => [.stopped fault]
      | (m, .halted) => [.pastEnd m.state.pc]
      | _ => []
  | _ => []

/-- What a burst of steps writes. A fault that stops the program is told once more at the end. -/
def burstRecords : Nat → Machine → List Record
  | 0, _ => []
  | n + 1, m =>
    m.stepRecords ++
      match m.step with
      | (m, .executed _) => burstRecords n m
      | (_, .awaitingKey) => []
      | (_, .halted) => []
      | (m, .faulted fault) => if fault.isRecoverable then burstRecords n m else [.failed fault]

end Machine

/-! ### Histories -/

/-- What a host can ask of a machine. -/
inductive Operation where
  | load (program : List UInt8)
  /-- Start the last program again. -/
  | reset
  | step
  | tick
  | key (key : UInt8) (down : Bool)
  | isPressed (key : UInt8)
  /-- Tell the instruction at the program counter. -/
  | current
  /-- Take the frame if it was drawn on. -/
  | takeFrame
deriving DecidableEq, Repr

/-- What a machine answers. -/
inductive Reply where
  | done
  | refused (error : LoadError)
  | stepped (outcome : Outcome)
  | pressed (down : Bool)
  | instruction (ins : Option Instruction)
  | frame (frame : Option Frame)
deriving DecidableEq

namespace Machine

/-- What an operation makes of a machine, and its answer. -/
def apply (m : Machine) : Operation → Machine × Reply
  | .load program =>
    match m.load program with
    | .ok m => (m, .done)
    | .error e => (m, .refused e)
  | .reset => (m.reset, .done)
  | .step =>
    match m.step with
    | (m, outcome) => (m, .stepped outcome)
  | .tick => (m.tick, .done)
  | .key k down => (m.keyEvent k down, .done)
  | .isPressed k => (m, .pressed (m.isPressed k))
  | .current => (m, .instruction m.current?)
  | .takeFrame =>
    match m.takeFrame with
    | (m, frame) => (m, .frame frame)

/-- What an operation writes. -/
def applyRecords (m : Machine) : Operation → List Record
  | .load program => m.loadRecords program
  | .reset => m.resetRecords
  | .step => m.stepRecords
  | .key k down => m.keyRecords k down
  | _ => []

/-- The machine after a list of operations. -/
def run (m : Machine) (ops : List Operation) : Machine :=
  ops.foldl (fun m op => (m.apply op).1) m

end Machine

end ChipEight
