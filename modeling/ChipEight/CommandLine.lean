import ChipEight.Session

/-!
# The command line

What the program prints and with which code it ends, as a function of its arguments and of what it finds in
the file that they name.

* `Token.ofArgument` — what an argument looks like by itself.
* `Reading.take` — what it means after those before it.
* `Settings.ofArguments` — the settings of a command line.
* `CommandLine.runHeadless` — a run without a display, which prints the last frame.
* `CommandLine.report` — the whole program without a terminal.
-/

namespace ChipEight

/-! ### Settings -/

/-- Where frames are shown and keys come from. -/
inductive Frontend where
  | console
  /-- Nowhere: the last frame is printed at the end. -/
  | headless
deriving DecidableEq, Repr

namespace Frontend

/-- The word for a front end on the command line. -/
def name : Frontend → String
  | console => "console"
  | headless => "headless"

/-- The front end of a name. -/
def ofName? (s : String) : Option Frontend := [console, headless].find? fun f => f.name = s

/-- Whether frames follow the wall clock. -/
def isRealtime (f : Frontend) : Bool := f ≠ headless

end Frontend

/-- What a run is asked to do. -/
structure Settings where
  rom : String
  /-- The instructions to run in a second. -/
  speed : Nat := defaultSpeed
  frontend : Frontend := .console
  /-- The number of frames to run at most. -/
  frames : Option Nat := none
  seed : Option Nat := none
deriving DecidableEq, Repr

/-! ### Arguments

An option is given as `--name value` or `--name=value` and the path of the program as an argument of its own;
after `--` all arguments are paths.

A value is only looked at when the next option or path, or the end, shows that it is complete. So of two
mistakes the first counts, except that an argument that means nothing at all hides a mistake in the value
before it.
-/

/-- Why a command line does not lead to a run. -/
inductive Refusal where
  | missingArgument
  /-- An argument means nothing, or there are too many. -/
  | unknownArgument
  /-- A value is missing or is none of those that there are. -/
  | invalidValue
  /-- A value is no number, or too large or too small. -/
  | outOfRange
  | givenTwice
  | needlessValue
  | help
  | version
deriving DecidableEq, Repr

/-- Something that takes a value. -/
inductive Parameter where
  | rom
  | speed
  | frontend
  | frames
  | seed
deriving DecidableEq, Repr

/-- The parameter that an option of a name sets. -/
def Parameter.ofName? : String → Option Parameter
  | "ips" => some speed
  | "frontend" => some frontend
  | "frames" => some frames
  | "seed" => some seed
  | _ => none

/-- The request that a word stands for. -/
def Refusal.ofName? : String → Option Refusal
  | "help" => some help
  | "version" => some version
  | _ => none

/-- The request that a letter stands for. -/
def Refusal.ofLetter? : Char → Option Refusal
  | 'h' => some help
  | 'V' => some version
  | _ => none

/-- What an argument looks like by itself. -/
inductive Token where
  /-- The end of the options. -/
  | endOfOptions
  /-- A name after two dashes, and what follows an equals sign. -/
  | long (name : String) (value : Option String)
  /-- A letter after a dash, whatever follows it. -/
  | short (letter : Char)
  /-- Anything else. -/
  | plain (text : String)
deriving DecidableEq, Repr

/-- What an argument looks like. A dash by itself is nothing special. -/
def Token.ofArgument (s : String) : Token :=
  match s.toList with
  | ['-', '-'] => .endOfOptions
  | '-' :: '-' :: rest =>
    let name := String.ofList (rest.takeWhile (· ≠ '='))
    match rest.dropWhile (· ≠ '=') with
    | [] => .long name none
    | _ :: value => .long name (some (String.ofList value))
  | '-' :: letter :: _ => .short letter
  | _ => .plain s

/-- The number that a decimal numeral stands for; a plus sign may stand in front of it. -/
def natural? (s : String) : Option Nat :=
  let digits := match s.toList with
    | '+' :: rest => rest
    | cs => cs
  if digits.isEmpty || !digits.all Char.isDigit then none
  else some (digits.foldl (fun n c => 10 * n + (c.toNat - '0'.toNat)) 0)

/-- What the arguments so far have said. -/
structure Reading where
  rom : Option String := none
  speed : Option Nat := none
  frontend : Option Frontend := none
  frames : Option Nat := none
  seed : Option Nat := none
  /-- A parameter whose value was not looked at yet, and the value if it has come. -/
  pending : Option (Parameter × Option String) := none
  hasPath : Bool := false
  /-- Whether all further arguments are paths. -/
  onlyPaths : Bool := false
deriving DecidableEq, Repr

namespace Reading

/-- A value that has to be given once. -/
def once {α : Type} (before : Option α) (value : Except Refusal α) : Except Refusal (Option α) :=
  match before with
  | some _ => .error .givenTwice
  | none => value.map some

/-- A number from `low` to `high`. -/
def number (low high : Nat) (value : String) : Except Refusal Nat :=
  match natural? value with
  | some n => if low ≤ n ∧ n ≤ high then .ok n else .error .outOfRange
  | none => .error .outOfRange

/-- The largest number of sixty-four bits. -/
def maxNumber : Nat := UInt64.size - 1

/-- Sets a parameter. -/
def set (r : Reading) (p : Parameter) (value : String) : Except Refusal Reading := do
  match p with
  | .rom =>
    return { r with rom := ← once r.rom (if value.isEmpty then .error .invalidValue else .ok value) }
  | .speed => return { r with speed := ← once r.speed (number 1 maxSpeed value) }
  | .frontend =>
    let frontend := match Frontend.ofName? value with
      | some f => .ok f
      | none => .error .invalidValue
    return { r with frontend := ← once r.frontend frontend }
  | .frames => return { r with frames := ← once r.frames (number 0 maxNumber value) }
  | .seed => return { r with seed := ← once r.seed (number 0 maxNumber value) }

/-- Looks at the value that has come last. -/
def settle (r : Reading) : Except Refusal Reading :=
  match r.pending with
  | none => .ok r
  | some (_, none) => .error .invalidValue
  | some (p, some value) => { r with pending := none }.set p value

/-- Takes a path. -/
def takePath (r : Reading) (path : String) : Except Refusal Reading :=
  if r.hasPath then .error .unknownArgument
  else
    r.settle.map fun r => { r with pending := some (.rom, some path), hasPath := true }

/-- Takes a request for help or for the version. -/
def takeRequest (r : Reading) (request : Option Refusal) : Except Refusal Reading :=
  match request with
  | none => .error .unknownArgument
  | some request => r.settle.bind fun _ => .error request

/-- Takes a name with two dashes. -/
def takeLong (r : Reading) (name : String) (value : Option String) : Except Refusal Reading :=
  match Parameter.ofName? name, value with
  | some p, some value => r.settle.bind fun r => r.set p value
  | some p, none => r.settle.map fun r => { r with pending := some (p, none) }
  | none, none => r.takeRequest (Refusal.ofName? name)
  | none, some _ =>
    .error (if (Refusal.ofName? name).isSome then .needlessValue else .unknownArgument)

/-- Takes an argument. -/
def take (r : Reading) (argument : String) : Except Refusal Reading :=
  if r.onlyPaths then r.takePath argument
  else
    match Token.ofArgument argument with
    | .endOfOptions => .ok { r with onlyPaths := true }
    | .long name value => r.takeLong name value
    | .short letter => r.takeRequest (Refusal.ofLetter? letter)
    | .plain text =>
      match r.pending with
      | some (p, none) => .ok { r with pending := some (p, some text) }
      | _ => r.takePath text

/-- The settings when all arguments were read. -/
def settings (r : Reading) : Except Refusal Settings := do
  let r ← r.settle
  match r.rom with
  | none => throw .missingArgument
  | some rom =>
    if r.frontend = some .headless ∧ r.frames = none then throw .missingArgument
    return { rom
             speed := r.speed.getD defaultSpeed
             frontend := r.frontend.getD .console
             frames := r.frames
             seed := r.seed }

end Reading

/-- The settings of a command line, given without the name of the program. -/
def Settings.ofArguments (arguments : List String) : Except Refusal Settings := do
  (← arguments.foldlM Reading.take {}).settings

/-! ### The program -/

namespace CommandLine

/-- How the program ended. -/
structure Report where
  /-- The exit code: zero if all is well, two for a mistake on the command line, one for the rest. -/
  code : Nat
  output : String := ""
  /-- What it printed about errors. -/
  errors : String := ""
deriving DecidableEq, Repr

/-- The name of the program and its version. -/
def versionText : String := "c8vm 0.1.0\n"

/-- How the program is used. -/
def usage : String :=
  String.join (List.map (· ++ "\n") [
    "Usage: c8vm [OPTIONS] <ROM>",
    "",
    "Options:",
    "  --ips <IPS>            Instructions per second, 700 unless given",
    "  --frontend <FRONTEND>  console or headless",
    "  --frames <FRAMES>      Stop after this many frames; required when headless",
    "  --seed <SEED>          Seed of the random numbers",
    "  -h, --help             Print help",
    "  -V, --version          Print version"])

/-- The end of the program after an error with its causes. -/
def failure (chain : List String) : Report where
  code := 1
  errors := Causes.report chain

/-- The end of the program when the command line does not lead to a run. -/
def refusal : Refusal → Report
  | .help => { code := 0, output := usage }
  | .version => { code := 0, output := versionText }
  | _ => { code := 2, errors := usage }

/-- A machine with the program of a file. `entropy` is the seed if none is given. -/
def machine (settings : Settings) (rom : Except SystemError (List UInt8)) (entropy : UInt64) :
    Except (List String) Machine :=
  match rom with
  | .error e => .error [s!"couldn't read ROM {settings.rom}", e.message]
  | .ok program =>
    let seed := (settings.seed.map UInt64.ofNat).getD entropy
    match (Machine.ofSeed seed).load program with
    | .error e => .error [s!"couldn't load {settings.rom}", e.message]
    | .ok machine => .ok machine

/-- Runs a machine for some frames without a display or keys, and prints the frame that is left. -/
def runHeadless (speed frames : Nat) (machine : Machine) : Report :=
  match (Session.start speed machine ({} : Script) ({} : Discard) {}).frames .simulated frames with
  | (s, exit) =>
    match exit.chain with
    | [] => { code := 0, output := s.machine.state.frame.text }
    | chain => failure chain

/-- The end of the program when there is no terminal: a run on a console needs one. -/
def report (arguments : List String) (readFile : String → Except SystemError (List UInt8))
    (entropy : UInt64) : Report :=
  match Settings.ofArguments arguments with
  | .error r => refusal r
  | .ok settings =>
    match machine settings (readFile settings.rom) entropy with
    | .error chain => failure chain
    | .ok machine =>
      match settings.frontend, settings.frames with
      | .headless, some frames => runHeadless settings.speed frames machine
      | _, _ => failure [SystemError.noDevice.message]

end CommandLine

end ChipEight
