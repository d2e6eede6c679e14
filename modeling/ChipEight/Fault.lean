import ChipEight.Layout
import ChipEight.Text

/-!
# Faults and errors

What can go wrong while a program runs, why a program cannot be loaded, and what the system answers when a
file cannot be read or there is no terminal, with the text for each.
-/

namespace ChipEight

/-! ### Faults -/

/-- What can go wrong while a program runs, and the address of the instruction at which it did. -/
inductive Fault where
  /-- A call found the stack full. -/
  | stackOverflow (address : UInt16)
  /-- A return found the stack empty. -/
  | stackUnderflow (address : UInt16)
  /-- The word is not in the instruction set. -/
  | invalidOpcode (opcode address : UInt16)
deriving DecidableEq, Repr

namespace Fault

/-- Whether the program goes on after the fault. Words that are no instruction are skipped, so they
are only reported. -/
def isRecoverable : Fault → Bool
  | invalidOpcode _ _ => true
  | _ => false

/-- The text of a fault. -/
def message : Fault → String
  | stackOverflow a => "call at " ++ Hex.marked 3 a.toNat ++ " overflowed the stack"
  | stackUnderflow a => "return at " ++ Hex.marked 3 a.toNat ++ " with an empty stack"
  | invalidOpcode w a => "unknown opcode " ++ Hex.marked 4 w.toNat ++ " at " ++ Hex.marked 3 a.toNat

end Fault

/-- Why a program cannot be loaded. -/
inductive LoadError where
  /-- The program has `size` bytes, more than fit. -/
  | programTooLarge (size : Nat)
deriving DecidableEq, Repr

/-- The text of a failed load. -/
def LoadError.message : LoadError → String
  | programTooLarge size =>
    s!"program is {size} bytes but at most {maxProgramSize} bytes fit in memory"

/-! ### Errors of the system

Each error has a number, which its text shows.
-/

/-- Why the system refuses something. -/
inductive SystemError where
  | notFound
  | noDevice
  | denied
  | notADirectory
  | isADirectory
  | nameTooLong
  | tooManyLinks
  | other (number : Nat) (text : String)
deriving DecidableEq, Repr

namespace SystemError

/-- The number of an error. -/
def number : SystemError → Nat
  | notFound => 2
  | noDevice => 6
  | denied => 13
  | notADirectory => 20
  | isADirectory => 21
  | nameTooLong => 36
  | tooManyLinks => 40
  | other n _ => n

/-- The words for an error. -/
def text : SystemError → String
  | notFound => "No such file or directory"
  | noDevice => "No such device or address"
  | denied => "Permission denied"
  | notADirectory => "Not a directory"
  | isADirectory => "Is a directory"
  | nameTooLong => "File name too long"
  | tooManyLinks => "Too many levels of symbolic links"
  | other _ t => t

/-- The errors with a name here. -/
def named : List SystemError :=
  [notFound, noDevice, denied, notADirectory, isADirectory, nameTooLong, tooManyLinks]

/-- The error of a number, with the words for it if it has no name here. -/
def ofNumber (n : Nat) (text : String) : SystemError :=
  (named.find? fun e => e.number = n).getD (other n text)

/-- The text of an error. -/
def message (e : SystemError) : String := s!"{e.text} (os error {e.number})"

end SystemError

end ChipEight
