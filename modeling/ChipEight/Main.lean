import ChipEight.CommandLine

/-!
# The command line

Reads the file that the arguments name, hands it to `CommandLine.report` and prints what that
answers. Everything else is decided there.
-/

namespace ChipEight.CommandLine

/-- The number of an error, which some operations give with its sign turned. -/
def errorNumber (code : UInt32) : Nat := min code.toNat (-code).toNat

/-- The error of the system behind a failed operation on a file. -/
def systemError : IO.Error → SystemError
  | .noFileOrDirectory _ code text
  | .permissionDenied _ code text
  | .inappropriateType _ code text
  | .invalidArgument _ code text
  | .resourceExhausted _ code text
  | .hardwareFault code text
  | .otherError code text => .ofNumber (errorNumber code) text
  | e => .other 0 (toString e)

/-- The bytes of a file, or why it cannot be read. -/
def readRom (path : String) : IO (Except SystemError (List UInt8)) := do
  try
    return .ok (← IO.FS.readBinFile path).toList
  catch e =>
    return .error (systemError e)

/-- A seed that nobody knows beforehand. -/
def entropy : IO UInt64 := do
  let bytes ← IO.getRandomBytes 8
  return bytes.toList.foldl (fun n b => 256 * n + b.toUInt64) 0

end ChipEight.CommandLine

open ChipEight.CommandLine in
/-- Runs the program and answers its exit code. -/
def main (arguments : List String) : IO UInt32 := do
  let rom ← match ChipEight.Settings.ofArguments arguments with
    | .ok settings => readRom settings.rom
    | .error _ => pure (.error .notFound)
  let r := report arguments (fun _ => rom) (← entropy)
  IO.print r.output
  IO.eprint r.errors
  return UInt32.ofNat r.code
