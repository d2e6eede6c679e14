import ChipEight.Input
import ChipEight.Display
import ChipEight.Journal

/-!
# Keyboards

The keypad's keys on a keyboard whose terminal tells which keys were typed; some terminals also tell when a
key is let go. Where a terminal does not, a key counts as down for `Keyboard.holdTime` from its last press.

* `Keyboard.keyOf?` — the key that a character stands for.
* `Keyboard.type` — what one stroke does.
* `Keyboard.releaseStale` — lets go of the keys that were down for long enough.
* `Keyboard.pollBy` — the events of all strokes since the last poll, and then of those releases.
* `Keyboard.attach`, `Keyboard.detach` — what is written to the terminal at the start and at the end.
-/

namespace ChipEight

/-! ### The keypad on a keyboard

The keypad has sixteen keys in four rows. They lie on the left four columns of a keyboard's digits and
letters, row under row:

```text
1 2 3 C        1 2 3 4
4 5 6 D   on   Q W E R
7 8 9 E        A S D F
A 0 B F        Z X C V
```
-/

/-- A key of the keypad. -/
abbrev Key := Fin registerCount

namespace Keyboard

/-- The characters of the keyboard's four rows, from left to right. -/
def characters : List Char :=
  "1234qwerasdfzxcv".toList

/-- The keys of the keypad's four rows, from left to right. -/
def keys : List Key :=
  [0x1, 0x2, 0x3, 0xC, 0x4, 0x5, 0x6, 0xD, 0x7, 0x8, 0x9, 0xE, 0xA, 0x0, 0xB, 0xF]

/-- The key that a character stands for; capital letters count as small ones. -/
def keyOf? (c : Char) : Option Key :=
  (characters.zip keys).lookup c.toLower

example : keyOf? 'V' = some 0xF := by decide

end Keyboard

/-! ### Keys typed on a terminal -/

/-- A key of a terminal. -/
inductive KeyCode where
  | char (c : Char)
  | escape
  | other
deriving DecidableEq, Repr

/-- What happened to a key. -/
inductive KeyAction where
  | press
  | hold
  | release
deriving DecidableEq, Repr

/-- A key with what happened to it. -/
structure Stroke where
  code : KeyCode
  action : KeyAction := .press
  control : Bool := false
deriving DecidableEq, Repr

/-- Whether a stroke asks to stop: escape, or `c` with the control key, whatever happened to it. -/
def Stroke.isQuit (s : Stroke) : Bool :=
  s.code = .escape || (s.code = .char 'c' && s.control)

/-- The keys of the keypad that are held down on a keyboard. -/
structure Keyboard where
  /-- Whether the terminal tells when a key is let go. -/
  reportsReleases : Bool
  /-- For each key that is down, when it was pressed last, in nanoseconds. -/
  held : Vector (Option Nat) registerCount := Vector.replicate _ none
deriving DecidableEq, Repr

namespace Keyboard

/-- How long a key counts as down after a press, in nanoseconds. -/
def holdTime : Nat := 200000000

/-- The event of a key. -/
def keyEvent (k : Key) (down : Bool) : Event := .key (UInt8.ofNat k.val) down

/-- What a stroke of a key does to the keyboard, and its event. -/
def strike (b : Keyboard) (k : Key) (action : KeyAction) (time : Nat) : Keyboard × Event :=
  match action with
  | .release => ({ b with held := b.held.set k none }, keyEvent k false)
  | _ => ({ b with held := b.held.set k (some time) }, keyEvent k true)

/-- What a stroke at a time does to the keyboard, and its event if it has one. -/
def type (b : Keyboard) (time : Nat) (s : Stroke) : Keyboard × Option Event :=
  if s.isQuit then (b, some .quit)
  else
    match s.code with
    | .char c =>
      match keyOf? c with
      | some k =>
        match b.strike k s.action time with
        | (b, e) => (b, some e)
      | none => (b, none)
    | _ => (b, none)

/-- What a stroke writes: a character that stands for no key is worth telling. -/
def typeRecords (s : Stroke) : List Record :=
  if s.isQuit then []
  else
    match s.code with
    | .char c => if (keyOf? c).isNone then [.unmapped c] else []
    | _ => []

/-- What some strokes do, each at its time, and their events. -/
def typeAll (b : Keyboard) : List (Nat × Stroke) → Keyboard × List Event
  | [] => (b, [])
  | (time, s) :: rest =>
    match b.type time s with
    | (b, e) =>
      match b.typeAll rest with
      | (b, es) => (b, e.toList ++ es)

/-- Whether a key has been down since its last press for long enough. -/
def isStale (b : Keyboard) (now : Nat) (k : Key) : Bool :=
  match b.held[k] with
  | some since => holdTime ≤ now - since
  | none => false

/-- Lets go of the keys that have been down for long enough, in the order of their numbers. The clock
is read again for every key. -/
def releaseStale (b : Keyboard) (clock : Key → Nat) : Keyboard × List Event :=
  ({ b with held := Vector.ofFn fun k => if b.isStale (clock k) k then none else b.held.get k },
    ((List.finRange registerCount).filter fun k => b.isStale (clock k) k).map
      fun k => keyEvent k false)

/-- The events of some strokes, each at its time, and of the keys that have been down for long enough
after them where the terminal does not tell, by what the clock shows at each of them. -/
def pollBy (b : Keyboard) (strokes : List (Nat × Stroke)) (clock : Key → Nat) :
    Keyboard × List Event :=
  match b.typeAll strokes with
  | (b, typed) =>
    if b.reportsReleases then (b, typed)
    else
      match b.releaseStale clock with
      | (b, released) => (b, typed ++ released)

/-- A poll in which the keys are looked at in one moment. -/
def poll (b : Keyboard) (strokes : List (Nat × Stroke)) (now : Nat) : Keyboard × List Event :=
  b.pollBy strokes fun _ => now

/-- What a poll writes. -/
def pollRecords (strokes : List (Nat × Stroke)) : List Record :=
  strokes.flatMap fun s => typeRecords s.2

end Keyboard

/-! ### Keyboards and their terminal

To read keys as they are typed, a keyboard puts its terminal into raw mode, asks it whether it can tell when
keys are let go, and if so tells it to do that. All of this is undone at the end.
-/

/-- A terminal. -/
structure Terminal where
  /-- Whether it can tell when keys are let go. -/
  canReportReleases : Bool
  /-- What was written to it. -/
  written : String := ""
  /-- Whether it hands on keys as they are typed. -/
  raw : Bool := false
deriving DecidableEq, Repr

/-- Writes to a terminal. -/
def Terminal.write (t : Terminal) (s : String) : Terminal := { t with written := t.written ++ s }

namespace Keyboard

/-- Asks the terminal how it tells of keys, and what it is; every terminal answers the second. -/
def query : String := Screen.introducer ++ "?u" ++ Screen.introducer ++ "c"

/-- Tells the terminal to report what happens to keys. -/
def pushReports : String := Screen.introducer ++ ">2u"

/-- Takes that back. -/
def popReports : String := Screen.introducer ++ "<1u"

/-- The keyboard of a terminal. -/
def attach (t : Terminal) : Terminal × Keyboard :=
  let t := { t with raw := true }.write query
  (if t.canReportReleases then t.write pushReports else t,
    { reportsReleases := t.canReportReleases })

/-- The keyboard of a terminal, if there is one. -/
def attach? : Option Terminal → Except SystemError (Terminal × Keyboard)
  | some t => .ok (attach t)
  | none => .error .noDevice

/-- What attaching a keyboard writes. -/
def attachRecords (b : Keyboard) : List Record := [.keyboard b.reportsReleases]

/-- The terminal when its keyboard is no longer read. -/
def detach (b : Keyboard) (t : Terminal) : Terminal :=
  { if b.reportsReleases then t.write popReports else t with raw := false }

end Keyboard

end ChipEight
