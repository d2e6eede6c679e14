import ChipEight.Layout

/-!
# Frames

A frame is a picture of `screenWidth` by `screenHeight` pixels, each lit or dark. Coordinates wrap around
both edges: column `x` is column `x % screenWidth` and row `y` is row `y % screenHeight`.

* `Frame.covered` — the places under the set bits of a sprite.
* `Frame.drawSprite` — the frame with these toggled, and whether one of them was lit when its turn came.
* `Frame.text` — the frame as text.
-/

namespace ChipEight

/-! ### Pictures -/

/-- A picture. -/
structure Frame where
  /-- The pixels from left to right and, row by row, from top to bottom. -/
  pixels : Vector Bool (screenWidth * screenHeight)
deriving DecidableEq

namespace Frame

/-- A place in a frame. -/
abbrev Cell := Fin (screenWidth * screenHeight)

/-- The place in column `x` and row `y`. -/
def cell (x y : Nat) : Cell :=
  ⟨y % screenHeight * screenWidth + x % screenWidth, by
    have hx := Nat.mod_lt x (show 0 < screenWidth by decide)
    have hy := Nat.mod_lt y (show 0 < screenHeight by decide)
    simp only [screenWidth, screenHeight] at *
    omega⟩

/-- The frame without a lit pixel. -/
def blank : Frame := ⟨Vector.replicate _ false⟩

/-- Whether the pixel in column `x` and row `y` is lit. -/
def pixel (f : Frame) (x y : Nat) : Bool := f.pixels[cell x y]

/-- The pixels of row `y` from left to right. -/
def row (f : Frame) (y : Nat) : List Bool := (List.range screenWidth).map fun x => f.pixel x y

/-- The rows from top to bottom. -/
def rows (f : Frame) : List (List Bool) := (List.range screenHeight).map f.row

/-- The number of lit pixels. -/
def lit (f : Frame) : Nat := f.pixels.toList.count true

/-! ### Sprites

A sprite is a list of rows of eight pixels, a byte each, the most significant bit leftmost. To draw it is to
toggle the pixels under its set bits, one after the other, wrapping around the edges.
-/

/-- Whether the pixel `k` places from the left of a sprite's row is set. -/
def isSet (b : UInt8) (k : Nat) : Bool := b.toNat.testBit (7 - k)

/-- The places under the set bits of one row whose left end is in column `x` and row `y`. -/
def coveredByRow (x y : Nat) (b : UInt8) : List Cell :=
  ((List.range 8).filter (isSet b)).map fun k => cell (x + k) y

/-- The places under the set bits of a sprite whose top left corner is in column `x` and row `y`. -/
def covered (x y : Nat) : List UInt8 → List Cell
  | [] => []
  | b :: bs => coveredByRow x y b ++ covered x (y + 1) bs

/-- Toggles one pixel, and notes in the flag if that put it out. -/
def toggle : Frame × Bool → Cell → Frame × Bool
  | (f, hit), c =>
    let lit := f.pixels[c]
    (⟨f.pixels.set c (!lit)⟩, hit || lit)

/-- Draws a sprite with its top left corner in column `x` and row `y`, and says whether a lit pixel
went out on the way. -/
def drawSprite (f : Frame) (x y : Nat) (sprite : List UInt8) : Frame × Bool :=
  (covered x y sprite).foldl toggle (f, false)

/-! ### Text

A line for each row, with a block for a lit pixel and a blank for a dark one. Each line is ended.
-/

/-- The character for a pixel. -/
def glyph (lit : Bool) : Char := if lit then '█' else ' '

/-- The characters of row `y`. -/
def line (f : Frame) (y : Nat) : List Char := (f.row y).map glyph

/-- The characters of all rows, each row followed by the end of its line. -/
def characters (f : Frame) : List Char :=
  (List.range screenHeight).flatMap fun y => f.line y ++ ['\n']

/-- The frame as text. -/
def text (f : Frame) : String := String.ofList f.characters

/-- A few words about a frame. -/
def summary (f : Frame) : String := s!"FrameBuffer({f.lit} lit)"

end Frame

end ChipEight
