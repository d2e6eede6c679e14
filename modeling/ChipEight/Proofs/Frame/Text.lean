import Mathlib.Data.String.Basic
import Mathlib.Data.List.OfFn
import Mathlib.Data.List.Flatten
import Mathlib.Data.List.FinRange
import Mathlib.Data.List.GetD
import ChipEight.Frame
import ChipEight.Proofs.Frame.Toggling

/-!
# Reading frames from their text

The text of a frame is a line for each row, and a line is a character for each pixel. A line can be
read back whatever stands behind it, since it has a known number of characters and only then an end;
so can the rows of a frame, and the frame itself.

* `flatten_rows`, `ofPixels` — a frame as the list of its pixels, row by row;
* `lit?_eq_some_iff`, `readLine_eq_some_iff`, `readRows_eq_some_iff` — reading a pixel, a line and some
  rows gives exactly what was written;
* `readFrame_eq_some_iff` — reading a frame and the empty line behind it;
* `utf8Len_characters` — the number of bytes in the text of a frame.
-/

namespace ChipEight.Frame

/-! ### The pixels of a frame as a list -/

/-- The rows of a frame, one behind the other, are its pixels. -/
theorem flatten_rows (f : Frame) : f.rows.flatten = f.pixels.toList := by
  have hrow : ∀ y : Fin screenHeight, f.row y.val =
      List.ofFn fun x : Fin screenWidth =>
        f.isLit ⟨screenWidth * y.val + x.val, by simp only [screenWidth, screenHeight]; omega⟩ := by
    intro y
    rw [row, ← List.map_coe_finRange_eq_range, List.map_map, List.ofFn_eq_map]
    refine List.map_congr_left fun x _ => congrArg f.isLit (Fin.ext ?_)
    show y.val % screenHeight * screenWidth + x.val % screenWidth = _
    rw [Nat.mod_eq_of_lt y.isLt, Nat.mod_eq_of_lt x.isLt, Nat.mul_comm]
  have hpixels : f.pixels.toList = List.ofFn f.isLit := by
    rw [← Vector.toList_ofFn]
    exact congrArg Vector.toList Vector.ofFn_getElem.symm
  rw [hpixels, List.ofFn_mul', rows, ← List.map_coe_finRange_eq_range, List.map_map, List.ofFn_eq_map]
  exact congrArg List.flatten (List.map_congr_left fun y _ => hrow y)

theorem length_rows (f : Frame) : f.rows.length = screenHeight := by
  rw [rows, List.length_map, List.length_range]

theorem length_of_mem_rows {f : Frame} {row : List Bool} (h : row ∈ f.rows) :
    row.length = screenWidth := by
  obtain ⟨y, -, rfl⟩ := List.mem_map.mp h
  rw [Frame.row, List.length_map, List.length_range]

/-- The frame with the given pixels, row by row. -/
def ofPixels (cells : List Bool) : Frame := ⟨Vector.ofFn fun c => cells.getD c.val false⟩

theorem toList_ofPixels {cells : List Bool} (h : cells.length = screenWidth * screenHeight) :
    (ofPixels cells).pixels.toList = cells := by
  rw [ofPixels, Vector.toList_ofFn]
  refine List.ext_getElem (by rw [List.length_ofFn, h]) fun c hc hc' => ?_
  rw [List.getElem_ofFn, List.getD_eq_getElem _ _ hc']

theorem ofPixels_toList (f : Frame) : ofPixels f.pixels.toList = f := by
  refine ext_isLit fun c => ?_
  have hlen : c.val < f.pixels.toList.length := by
    rw [Vector.length_toList]
    exact c.isLt
  show (Vector.ofFn fun c : Cell => f.pixels.toList.getD c.val false)[c.val] = f.pixels[c.val]
  rw [Vector.getElem_ofFn, List.getD_eq_getElem _ _ hlen, Vector.getElem_toList]

theorem length_flatten {rows : List (List Bool)} (h : ∀ row ∈ rows, row.length = screenWidth) :
    rows.flatten.length = rows.length * screenWidth := by
  rw [List.length_flatten, List.map_congr_left h, List.map_const', List.sum_replicate_nat]

/-- Rows of the right size are the rows of a frame. -/
theorem rows_ofPixels {rows : List (List Bool)} (hrows : rows.length = screenHeight)
    (hrow : ∀ row ∈ rows, row.length = screenWidth) : (ofPixels rows.flatten).rows = rows := by
  have hlen : rows.flatten.length = screenWidth * screenHeight := by
    rw [length_flatten hrow, hrows, Nat.mul_comm]
  rw [List.eq_iff_flatten_eq, flatten_rows, toList_ofPixels hlen]
  refine ⟨rfl, ?_⟩
  rw [List.map_congr_left hrow, List.map_congr_left fun row h => length_of_mem_rows h,
    List.map_const', List.map_const', hrows, length_rows]

/-! ### Reading pixels, lines and rows -/

/-- Whether a character stands for a lit pixel or for a dark one, if it stands for one. -/
def lit? : Char → Option Bool
  | '█' => some true
  | ' ' => some false
  | _ => none

/-- The characters of a row and the end of its line. -/
def lineOf (row : List Bool) : List Char := row.map glyph ++ ['\n']

/-- The end of a line at the front of some characters, and what is behind it. -/
def readEnd : List Char → Option (List Char)
  | '\n' :: cs => some cs
  | _ => none

/-- A row of `n` pixels at the front of some characters, and what is behind its line. -/
def readLine : Nat → List Char → Option (List Bool × List Char)
  | 0, cs => (readEnd cs).map fun rest => ([], rest)
  | _ + 1, [] => none
  | n + 1, c :: cs =>
    (lit? c).bind fun b => (readLine n cs).map fun line => (b :: line.1, line.2)

/-- As many rows of the screen at the front of some characters, and what is behind their lines. -/
def readRows : Nat → List Char → Option (List (List Bool) × List Char)
  | 0, cs => some ([], cs)
  | n + 1, cs =>
    (readLine screenWidth cs).bind fun line =>
      (readRows n line.2).map fun lines => (line.1 :: lines.1, lines.2)

/-- A frame and the empty line behind it at the front of some characters, and what is behind these. -/
def readFrame (cs : List Char) : Option (Frame × List Char) :=
  (readRows screenHeight cs).bind fun lines =>
    (readEnd lines.2).map fun rest => (ofPixels lines.1.flatten, rest)

theorem lit?_eq_some_iff {c : Char} {b : Bool} : lit? c = some b ↔ c = glyph b := by
  constructor
  · intro h
    unfold lit? at h
    split at h
    · cases h
      rfl
    · cases h
      rfl
    · cases h
  · rintro rfl
    cases b <;> rfl

theorem readEnd_eq_some_iff {cs rest : List Char} :
    readEnd cs = some rest ↔ cs = '\n' :: rest := by
  constructor
  · intro h
    unfold readEnd at h
    split at h
    · cases h
      rfl
    · cases h
  · rintro rfl
    rfl

/-- **Reading a line** gives the row that was written, whatever is behind it. -/
theorem readLine_eq_some_iff {n : Nat} {cs : List Char} {row : List Bool} {rest : List Char} :
    readLine n cs = some (row, rest) ↔ row.length = n ∧ cs = lineOf row ++ rest := by
  induction n generalizing cs row with
  | zero =>
      rw [readLine, Option.map_eq_some_iff]
      constructor
      · rintro ⟨rest, hend, hline⟩
        cases hline
        exact ⟨rfl, readEnd_eq_some_iff.mp hend⟩
      · rintro ⟨hlen, rfl⟩
        obtain rfl := List.eq_nil_of_length_eq_zero hlen
        exact ⟨rest, rfl, rfl⟩
  | succ n ih =>
      cases cs with
      | nil =>
          refine ⟨fun h => (nomatch h), fun h => ?_⟩
          exact (List.append_ne_nil_of_left_ne_nil (List.append_ne_nil_of_right_ne_nil _
            (List.cons_ne_nil _ _)) rest h.2.symm).elim
      | cons c cs =>
          rw [readLine, Option.bind_eq_some_iff]
          constructor
          · rintro ⟨b, hb, hrest⟩
            obtain ⟨⟨row, rest'⟩, hrow, hline⟩ := Option.map_eq_some_iff.mp hrest
            cases hline
            obtain ⟨hlen, rfl⟩ := ih.mp hrow
            obtain rfl := lit?_eq_some_iff.mp hb
            exact ⟨congrArg (· + 1) hlen, rfl⟩
          · rintro ⟨hlen, hcs⟩
            cases row with
            | nil => cases hlen
            | cons b row =>
                cases hcs
                exact ⟨b, lit?_eq_some_iff.mpr rfl, Option.map_eq_some_iff.mpr
                  ⟨(row, rest), ih.mpr ⟨Nat.succ.inj hlen, rfl⟩, rfl⟩⟩

/-- **Reading some rows** gives those that were written. -/
theorem readRows_eq_some_iff {n : Nat} {cs : List Char} {rows : List (List Bool)}
    {rest : List Char} : readRows n cs = some (rows, rest) ↔
      rows.length = n ∧ (∀ row ∈ rows, row.length = screenWidth) ∧
        cs = rows.flatMap lineOf ++ rest := by
  induction n generalizing cs rows with
  | zero =>
      rw [readRows]
      constructor
      · intro h
        cases h
        exact ⟨rfl, fun _ hrow => (List.not_mem_nil hrow).elim, rfl⟩
      · rintro ⟨hlen, -, rfl⟩
        obtain rfl := List.eq_nil_of_length_eq_zero hlen
        rfl
  | succ n ih =>
      rw [readRows, Option.bind_eq_some_iff]
      constructor
      · rintro ⟨⟨row, cs'⟩, hline, hlines⟩
        obtain ⟨⟨rows, rest'⟩, hrows, hall⟩ := Option.map_eq_some_iff.mp hlines
        cases hall
        obtain ⟨hwidth, rfl⟩ := readLine_eq_some_iff.mp hline
        obtain ⟨hlen, hwidths, rfl⟩ := ih.mp hrows
        refine ⟨congrArg (· + 1) hlen, List.forall_mem_cons.mpr ⟨hwidth, hwidths⟩, ?_⟩
        rw [List.flatMap_cons, List.append_assoc]
      · rintro ⟨hlen, hwidths, rfl⟩
        cases rows with
        | nil => cases hlen
        | cons row rows =>
            obtain ⟨hwidth, hwidths⟩ := List.forall_mem_cons.mp hwidths
            rw [List.flatMap_cons, List.append_assoc]
            exact ⟨(row, _), readLine_eq_some_iff.mpr ⟨hwidth, rfl⟩, Option.map_eq_some_iff.mpr
              ⟨(rows, rest), ih.mpr ⟨Nat.succ.inj hlen, hwidths, rfl⟩, rfl⟩⟩

/-! ### Reading a frame -/

theorem length_line (f : Frame) (y : Nat) : (f.line y).length = screenWidth := by
  rw [line, row, List.length_map, List.length_map, List.length_range]

/-- A line has the character for a pixel in the pixel's column. -/
theorem getElem?_line (f : Frame) {x : Nat} (hx : x < screenWidth) (y : Nat) :
    (f.line y)[x]? = some (glyph (f.pixel x y)) := by
  rw [line, row, List.getElem?_map, List.getElem?_map, List.getElem?_range hx]
  rfl

/-- The text of a frame is made of the lines of its rows. -/
theorem characters_eq (f : Frame) : f.characters = f.rows.flatMap lineOf := by
  rw [rows, List.flatMap_map]
  rfl

/-- **Reading a frame** gives the one that was written, whatever is behind it. -/
theorem readFrame_eq_some_iff {cs : List Char} {f : Frame} {rest : List Char} :
    readFrame cs = some (f, rest) ↔ cs = f.characters ++ '\n' :: rest := by
  rw [readFrame, Option.bind_eq_some_iff, characters_eq]
  constructor
  · rintro ⟨⟨rows, cs'⟩, hrows, hframe⟩
    obtain ⟨rest', hend, hf⟩ := Option.map_eq_some_iff.mp hframe
    obtain ⟨rfl, rfl⟩ := Prod.mk.inj hf
    obtain ⟨hheight, hwidths, rfl⟩ := readRows_eq_some_iff.mp hrows
    obtain rfl := readEnd_eq_some_iff.mp hend
    rw [rows_ofPixels hheight hwidths]
  · rintro rfl
    refine ⟨(f.rows, '\n' :: rest), readRows_eq_some_iff.mpr ⟨f.length_rows,
      fun row => length_of_mem_rows, rfl⟩, Option.map_eq_some_iff.mpr ⟨rest, rfl, ?_⟩⟩
    rw [flatten_rows, ofPixels_toList]

/-- Two frames with the same text are the same. -/
theorem text_injective : Function.Injective Frame.text := by
  intro f g h
  have hcharacters : f.characters = g.characters := by
    rw [← String.ofList_inj]
    exact h
  have hf : readFrame (f.characters ++ ['\n']) = some (f, []) := readFrame_eq_some_iff.mpr rfl
  have hg : readFrame (g.characters ++ ['\n']) = some (g, []) := readFrame_eq_some_iff.mpr rfl
  rw [hcharacters, hg] at hf
  cases hf
  rfl

/-! ### The number of bytes -/

/-- A lit pixel is written in three bytes and a dark one in one. -/
theorem utf8Size_glyph (b : Bool) : (glyph b).utf8Size = 1 + 2 * b.toNat := by
  cases b <;> rfl

theorem utf8Len_lineOf (row : List Bool) :
    String.utf8Len (lineOf row) = row.length + 1 + 2 * row.count true := by
  induction row with
  | nil => rfl
  | cons b row ih =>
      show String.utf8Len (glyph b :: lineOf row) = _
      rw [String.utf8Len_cons, ih, utf8Size_glyph, List.length_cons]
      cases b <;> simp <;> omega

theorem utf8Len_lines (rows : List (List Bool)) : String.utf8Len (rows.flatMap lineOf) =
    rows.flatten.length + rows.length + 2 * rows.flatten.count true := by
  induction rows with
  | nil => rfl
  | cons row rows ih =>
      rw [List.flatMap_cons, String.utf8Len_append, ih, utf8Len_lineOf, List.flatten_cons,
        List.length_append, List.count_append, List.length_cons]
      omega

/-- **The number of bytes** in the text of a frame tells how many pixels are lit. -/
theorem utf8Len_characters (f : Frame) : String.utf8Len f.characters = 2080 + 2 * f.lit := by
  rw [characters_eq, utf8Len_lines, flatten_rows, f.length_rows, Vector.length_toList]
  rfl

end ChipEight.Frame
