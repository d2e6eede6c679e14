import ChipEight.Text

/-!
# Instructions

The thirty-four operations of the machine with their operands, the words of sixteen bits that stand for them,
and the conventional way to write them.

* `Instruction.decode?` — the instruction that a word stands for, if it stands for one.
* `Instruction.encode` — a word for an instruction, with zeros in the bits that do not matter.
* `Instruction.assembly` — an instruction as a name and a list of operands.
* `Instruction.mnemonic` — its text.
-/

namespace ChipEight

/-! ### Operations

Operands are as wide as a program text could make them; `Instruction.decode?` only yields register numbers
and counts below sixteen and addresses below 4096.
-/

/-- An instruction. `x` and `y` are register numbers, `byte` is an immediate value, `addr` an
address and `n` a number of rows. -/
inductive Instruction where
  /-- Turn every pixel off. -/
  | clearScreen
  /-- Go back to the address on top of the stack. -/
  | ret
  /-- Go on at `addr`. -/
  | jump (addr : UInt16)
  /-- Put the next address on the stack and go on at `addr`. -/
  | call (addr : UInt16)
  /-- Skip the next instruction if `Vx` is `byte`. -/
  | skipIfEqual (x byte : UInt8)
  /-- Skip the next instruction unless `Vx` is `byte`. -/
  | skipIfNotEqual (x byte : UInt8)
  /-- Skip the next instruction if `Vx` is `Vy`. -/
  | skipIfRegistersEqual (x y : UInt8)
  /-- Set `Vx` to `byte`. -/
  | load (x byte : UInt8)
  /-- Add `byte` to `Vx` and leave the flag alone. -/
  | add (x byte : UInt8)
  /-- Set `Vx` to `Vy`. -/
  | move (x y : UInt8)
  /-- Set `Vx` to the bits in `Vx` or `Vy`. -/
  | or (x y : UInt8)
  /-- Set `Vx` to the bits in both `Vx` and `Vy`. -/
  | and (x y : UInt8)
  /-- Set `Vx` to the bits in one of `Vx` and `Vy`. -/
  | xor (x y : UInt8)
  /-- Add `Vy` to `Vx`; the flag is the carry. -/
  | addRegisters (x y : UInt8)
  /-- Take `Vy` from `Vx`; the flag is set unless that borrows. -/
  | sub (x y : UInt8)
  /-- Halve `Vx`; the flag is the bit that falls out. -/
  | shiftRight (x : UInt8)
  /-- Set `Vx` to `Vy` less `Vx`; the flag is set unless that borrows. -/
  | subN (x y : UInt8)
  /-- Double `Vx`; the flag is the bit that falls out. -/
  | shiftLeft (x : UInt8)
  /-- Skip the next instruction unless `Vx` is `Vy`. -/
  | skipIfRegistersNotEqual (x y : UInt8)
  /-- Set the index register to `addr`. -/
  | loadIndex (addr : UInt16)
  /-- Go on at `addr` plus `V0`. -/
  | jumpOffset (addr : UInt16)
  /-- Set `Vx` to the bits of a random byte that are in `byte`. -/
  | random (x byte : UInt8)
  /-- Draw the `n` rows at the index register at column `Vx` and row `Vy`; the flag says whether a
  lit pixel went out. -/
  | draw (x y n : UInt8)
  /-- Skip the next instruction if the key in `Vx` is down. -/
  | skipIfPressed (x : UInt8)
  /-- Skip the next instruction unless the key in `Vx` is down. -/
  | skipIfNotPressed (x : UInt8)
  /-- Set `Vx` to the delay timer. -/
  | readDelay (x : UInt8)
  /-- Wait until a key is pressed and set `Vx` to it. -/
  | awaitKey (x : UInt8)
  /-- Set the delay timer to `Vx`. -/
  | setDelay (x : UInt8)
  /-- Set the sound timer to `Vx`. -/
  | setSound (x : UInt8)
  /-- Add `Vx` to the index register. -/
  | addIndex (x : UInt8)
  /-- Set the index register to the glyph of the digit in `Vx`. -/
  | loadGlyph (x : UInt8)
  /-- Store the three decimal digits of `Vx` at the index register. -/
  | storeBcd (x : UInt8)
  /-- Store `V0` to `Vx` at the index register. -/
  | storeRegisters (x : UInt8)
  /-- Load `V0` to `Vx` from the index register. -/
  | loadRegisters (x : UInt8)
deriving DecidableEq, Repr, Inhabited

/-! ### Words

The top four bits of a word name a family; the rest holds the operands of the family or tells its members
apart.
-/

namespace Word

/-- The family: bits 12 to 15. -/
def family (w : UInt16) : Nat := w.toNat / 4096

/-- The first register number: bits 8 to 11. -/
def x (w : UInt16) : UInt8 := UInt8.ofNat (w.toNat / 256 % 16)

/-- The second register number: bits 4 to 7. -/
def y (w : UInt16) : UInt8 := UInt8.ofNat (w.toNat / 16 % 16)

/-- The count: bits 0 to 3. -/
def n (w : UInt16) : UInt8 := UInt8.ofNat (w.toNat % 16)

/-- The immediate value: bits 0 to 7. -/
def byte (w : UInt16) : UInt8 := UInt8.ofNat (w.toNat % 256)

/-- The address: bits 0 to 11. -/
def addr (w : UInt16) : UInt16 := UInt16.ofNat (w.toNat % 4096)

/-- The word whose two bytes are `high` and `low`. -/
def ofBytes (high low : UInt8) : UInt16 := UInt16.ofNat (256 * high.toNat + low.toNat)

end Word

namespace Instruction

open Word

/-- The instruction that a word stands for, or `none` if it is not in the instruction set. -/
def decode? (w : UInt16) : Option Instruction :=
  match family w with
  | 0x0 =>
    match w.toNat with
    | 0x00E0 => some clearScreen
    | 0x00EE => some ret
    | _ => none
  | 0x1 => some (jump (addr w))
  | 0x2 => some (call (addr w))
  | 0x3 => some (skipIfEqual (x w) (byte w))
  | 0x4 => some (skipIfNotEqual (x w) (byte w))
  | 0x5 => if w.toNat % 16 = 0 then some (skipIfRegistersEqual (x w) (y w)) else none
  | 0x6 => some (load (x w) (byte w))
  | 0x7 => some (add (x w) (byte w))
  | 0x8 =>
    match w.toNat % 16 with
    | 0x0 => some (move (x w) (y w))
    | 0x1 => some (or (x w) (y w))
    | 0x2 => some (and (x w) (y w))
    | 0x3 => some (xor (x w) (y w))
    | 0x4 => some (addRegisters (x w) (y w))
    | 0x5 => some (sub (x w) (y w))
    | 0x6 => some (shiftRight (x w))
    | 0x7 => some (subN (x w) (y w))
    | 0xE => some (shiftLeft (x w))
    | _ => none
  | 0x9 => if w.toNat % 16 = 0 then some (skipIfRegistersNotEqual (x w) (y w)) else none
  | 0xA => some (loadIndex (addr w))
  | 0xB => some (jumpOffset (addr w))
  | 0xC => some (random (x w) (byte w))
  | 0xD => some (draw (x w) (y w) (n w))
  | 0xE =>
    match w.toNat % 256 with
    | 0x9E => some (skipIfPressed (x w))
    | 0xA1 => some (skipIfNotPressed (x w))
    | _ => none
  | 0xF =>
    match w.toNat % 256 with
    | 0x07 => some (readDelay (x w))
    | 0x0A => some (awaitKey (x w))
    | 0x15 => some (setDelay (x w))
    | 0x18 => some (setSound (x w))
    | 0x1E => some (addIndex (x w))
    | 0x29 => some (loadGlyph (x w))
    | 0x33 => some (storeBcd (x w))
    | 0x55 => some (storeRegisters (x w))
    | 0x65 => some (loadRegisters (x w))
    | _ => none
  | _ => none

/-- A word for an instruction. The two shifts take no second register; its bits are zero there. -/
def encode : Instruction → UInt16
  | clearScreen => 0x00E0
  | ret => 0x00EE
  | jump a => UInt16.ofNat (0x1000 + a.toNat)
  | call a => UInt16.ofNat (0x2000 + a.toNat)
  | skipIfEqual x b => xbyte 0x3000 x b.toNat
  | skipIfNotEqual x b => xbyte 0x4000 x b.toNat
  | skipIfRegistersEqual x y => xyn 0x5000 x y 0
  | load x b => xbyte 0x6000 x b.toNat
  | add x b => xbyte 0x7000 x b.toNat
  | move x y => xyn 0x8000 x y 0x0
  | or x y => xyn 0x8000 x y 0x1
  | and x y => xyn 0x8000 x y 0x2
  | xor x y => xyn 0x8000 x y 0x3
  | addRegisters x y => xyn 0x8000 x y 0x4
  | sub x y => xyn 0x8000 x y 0x5
  | shiftRight x => xyn 0x8000 x 0 0x6
  | subN x y => xyn 0x8000 x y 0x7
  | shiftLeft x => xyn 0x8000 x 0 0xE
  | skipIfRegistersNotEqual x y => xyn 0x9000 x y 0
  | loadIndex a => UInt16.ofNat (0xA000 + a.toNat)
  | jumpOffset a => UInt16.ofNat (0xB000 + a.toNat)
  | random x b => xbyte 0xC000 x b.toNat
  | draw x y n => xyn 0xD000 x y n.toNat
  | skipIfPressed x => xbyte 0xE000 x 0x9E
  | skipIfNotPressed x => xbyte 0xE000 x 0xA1
  | readDelay x => xbyte 0xF000 x 0x07
  | awaitKey x => xbyte 0xF000 x 0x0A
  | setDelay x => xbyte 0xF000 x 0x15
  | setSound x => xbyte 0xF000 x 0x18
  | addIndex x => xbyte 0xF000 x 0x1E
  | loadGlyph x => xbyte 0xF000 x 0x29
  | storeBcd x => xbyte 0xF000 x 0x33
  | storeRegisters x => xbyte 0xF000 x 0x55
  | loadRegisters x => xbyte 0xF000 x 0x65
where
  /-- The word of a family with a register number and a low byte. -/
  xbyte (family : Nat) (x : UInt8) (b : Nat) : UInt16 :=
    UInt16.ofNat (family + 256 * x.toNat + b)
  /-- The word of a family with two register numbers and a low digit. -/
  xyn (family : Nat) (x y : UInt8) (n : Nat) : UInt16 :=
    UInt16.ofNat (family + 256 * x.toNat + 16 * y.toNat + n)

end Instruction

/-! ### Assembly text

The name of the operation, then its operands with commas between them.
-/

/-- An operand in assembly text. -/
inductive Operand where
  | register (x : UInt8)
  | address (addr : UInt16)
  | byte (b : UInt8)
  | rows (n : UInt8)
  /-- A part of the machine with a name of its own. -/
  | named (name : String)
deriving DecidableEq, Repr

/-- Addresses have at least three digits and immediate values two, both hexadecimal and marked;
numbers of rows are decimal. -/
def Operand.text : Operand → String
  | register x => "V" ++ Hex.plain x.toNat
  | address a => Hex.marked 3 a.toNat
  | byte b => Hex.marked 2 b.toNat
  | rows n => toString n.toNat
  | named name => name

namespace Instruction

/-- The name of the operation and its operands. -/
def assembly : Instruction → String × List Operand
  | clearScreen => ("CLS", [])
  | ret => ("RET", [])
  | jump a => ("JP", [.address a])
  | call a => ("CALL", [.address a])
  | skipIfEqual x b => ("SE", [.register x, .byte b])
  | skipIfNotEqual x b => ("SNE", [.register x, .byte b])
  | skipIfRegistersEqual x y => ("SE", [.register x, .register y])
  | load x b => ("LD", [.register x, .byte b])
  | add x b => ("ADD", [.register x, .byte b])
  | move x y => ("LD", [.register x, .register y])
  | or x y => ("OR", [.register x, .register y])
  | and x y => ("AND", [.register x, .register y])
  | xor x y => ("XOR", [.register x, .register y])
  | addRegisters x y => ("ADD", [.register x, .register y])
  | sub x y => ("SUB", [.register x, .register y])
  | shiftRight x => ("SHR", [.register x])
  | subN x y => ("SUBN", [.register x, .register y])
  | shiftLeft x => ("SHL", [.register x])
  | skipIfRegistersNotEqual x y => ("SNE", [.register x, .register y])
  | loadIndex a => ("LD", [.named "I", .address a])
  | jumpOffset a => ("JP", [.register 0, .address a])
  | random x b => ("RND", [.register x, .byte b])
  | draw x y n => ("DRW", [.register x, .register y, .rows n])
  | skipIfPressed x => ("SKP", [.register x])
  | skipIfNotPressed x => ("SKNP", [.register x])
  | readDelay x => ("LD", [.register x, .named "DT"])
  | awaitKey x => ("LD", [.register x, .named "K"])
  | setDelay x => ("LD", [.named "DT", .register x])
  | setSound x => ("LD", [.named "ST", .register x])
  | addIndex x => ("ADD", [.named "I", .register x])
  | loadGlyph x => ("LD", [.named "F", .register x])
  | storeBcd x => ("LD", [.named "B", .register x])
  | storeRegisters x => ("LD", [.named "[I]", .register x])
  | loadRegisters x => ("LD", [.register x, .named "[I]"])

/-- The text of an instruction. -/
def mnemonic (ins : Instruction) : String :=
  match ins.assembly with
  | (name, []) => name
  | (name, operands) => name ++ " " ++ ", ".intercalate (operands.map Operand.text)

example : (draw 0xA 0xB 5).mnemonic = "DRW VA, VB, 5" := by cbv

end Instruction

end ChipEight
