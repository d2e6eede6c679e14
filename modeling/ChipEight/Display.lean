import ChipEight.Frame

/-!
# Displays

A display is given each frame that differs from the one before it, and shows it or says why it cannot.

* `Discard` — shows nothing.
* `Recorder` — keeps every frame and hands it on.
* `TextSink` — writes each frame as text, as far as there is room.
* `Screen.output` — the characters that show frames in place on a terminal.
-/

namespace ChipEight

/-! ### Displays -/

/-- Why a display cannot show a frame. -/
inductive DisplayError where
  /-- The place it writes to refused to take more. -/
  | write (reason : String)
deriving DecidableEq, Repr

/-- The text of a failure, and of what lies behind it. -/
def DisplayError.chain : DisplayError → List String
  | write reason => ["failed writing to the terminal", reason]

/-- Something that shows frames. -/
class Display (δ : Type) where
  /-- Shows a frame, and says if that failed. -/
  render : δ → Frame → δ × Option DisplayError

/-- A display that shows nothing, for runs of which only the last frame matters. -/
structure Discard where
deriving DecidableEq, Repr

instance : Display Discard where
  render d _ := (d, none)

/-- A display that keeps every frame that it is given and hands it on to another. -/
structure Recorder (δ : Type) where
  display : δ
  /-- The frames in the order in which they came. -/
  frames : Array Frame := #[]

namespace Recorder

variable {δ : Type} [Display δ]

/-- Keeps a frame, whether or not the other display can show it. -/
def render (r : Recorder δ) (f : Frame) : Recorder δ × Option DisplayError :=
  match Display.render r.display f with
  | (display, failure) => ({ display := display, frames := r.frames.push f }, failure)

instance : Display (Recorder δ) where
  render := render

end Recorder

/-! ### Frames on paper

A display that writes each frame as text, with an empty line after it. It writes to a writer that may be
short of room and then refuses to take another character.
-/

/-- A place to write to, which may have room for only so many bytes. -/
structure Writer where
  text : String := ""
  /-- The number of bytes there is room for. -/
  limit : Option Nat := none
deriving DecidableEq, Repr

namespace Writer

/-- Whether there is room for a character. -/
def fits (w : Writer) (c : Char) : Bool :=
  match w.limit with
  | none => true
  | some limit => w.text.utf8ByteSize + c.utf8Size ≤ limit

/-- Writes characters one by one up to the first for which there is no room, and says whether there
was room for all. -/
def write (w : Writer) : List Char → Writer × Bool
  | [] => (w, true)
  | c :: cs => if w.fits c then { w with text := w.text.push c }.write cs else (w, false)

end Writer

/-- Why a writer refuses to take more. -/
def noRoom : String := "disk full"

/-- A display that writes. -/
structure TextSink where
  writer : Writer := {}
  /-- The number of frames that were written as a whole. -/
  frames : Nat := 0
deriving DecidableEq, Repr

namespace TextSink

/-- Writes a frame and an empty line. -/
def render (s : TextSink) (f : Frame) : TextSink × Option DisplayError :=
  match s.writer.write (f.characters ++ ['\n']) with
  | (writer, true) => ({ writer := writer, frames := s.frames + 1 }, none)
  | (writer, false) => ({ s with writer := writer }, some (.write noRoom))

instance : Display TextSink where
  render := render

end TextSink

/-! ### Frames on a terminal

The terminal's second screen is used and the cursor is hidden; each row of a frame is written where it
belongs, and what was on the first screen comes back at the end.
-/

namespace Screen

/-- The start of an escape sequence. -/
def introducer : String := String.ofList [Char.ofNat 0x1B, '[']

/-- Turns to the second screen, hides the cursor and empties the screen. -/
def enter : String := introducer ++ "?1049h" ++ introducer ++ "?25l" ++ introducer ++ "2J"

/-- Moves the cursor to the left end of row `y`; the terminal counts from one. -/
def moveTo (y : Nat) : String := introducer ++ toString (y + 1) ++ ";1H"

/-- Writes every row of a frame in its place. -/
def paint (f : Frame) : String :=
  String.join ((List.range screenHeight).map fun y => moveTo y ++ String.ofList (f.line y))

/-- Shows the cursor again and turns back to the first screen. -/
def leave : String := introducer ++ "?25h" ++ introducer ++ "?1049l"

/-- All that is written to show some frames one after the other. -/
def output (frames : List Frame) : String :=
  enter ++ String.join (frames.map paint) ++ leave

end Screen

end ChipEight
