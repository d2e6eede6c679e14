import ChipEight.Proofs.Frame.Text
import ChipEight.Proofs.Session.Rendering

/-!
# Reading frames from paper

A display that writes on paper with room for everything writes a sheet for each frame: its text and an
empty line. The bytes that were written can be read back to the frames, and no other bytes can.

* `readSheets_eq_some_iff` — reading sheet after sheet;
* `read_eq_some_iff` — reading bytes;
* `IsGrid`, with `isGrid_lines` — what the lines of a sheet show;
* `paper_tells_frames` — what a display has written tells the frames that it was given.
-/

namespace ChipEight

namespace TextSink

/-! ### Reading sheets -/

/-- A sheet takes at least one character. -/
theorem length_lt_of_readFrame {cs : List Char} {f : Frame} {rest : List Char}
    (h : Frame.readFrame cs = some (f, rest)) : rest.length < cs.length := by
  rw [Frame.readFrame_eq_some_iff.mp h, List.length_append, List.length_cons]
  omega

/-- The frames whose sheets some characters are, if they are sheets and nothing else. -/
def readSheets (cs : List Char) : Option (List Frame) :=
  match hframe : Frame.readFrame cs with
  | some (f, rest) =>
    have := length_lt_of_readFrame hframe
    (readSheets rest).map (f :: ·)
  | none => if cs = [] then some [] else none
termination_by cs.length

theorem readSheets_of_frame {cs : List Char} {f : Frame} {rest : List Char}
    (h : Frame.readFrame cs = some (f, rest)) :
    readSheets cs = (readSheets rest).map (f :: ·) := by
  rw [readSheets]
  split
  · rename_i f' rest' h'
    obtain ⟨rfl, rfl⟩ := Prod.mk.inj (Option.some.inj (h.symm.trans h'))
    rfl
  · rename_i h'
    exact (Option.some_ne_none _ (h.symm.trans h')).elim

theorem readSheets_of_none {cs : List Char} (h : Frame.readFrame cs = none) :
    readSheets cs = if cs = [] then some [] else none := by
  rw [readSheets]
  split
  · rename_i h'
    exact (Option.some_ne_none _ (h'.symm.trans h)).elim
  · rfl

/-- **Reading sheets** gives the frames that were written. -/
theorem readSheets_eq_some_iff {cs : List Char} {fs : List Frame} :
    readSheets cs = some fs ↔ cs = fs.flatMap sheet := by
  constructor
  · intro h
    induction cs using readSheets.induct generalizing fs with
    | case1 cs f rest hframe _ ih =>
        rw [readSheets_of_frame hframe] at h
        obtain ⟨fs', hrest, rfl⟩ := Option.map_eq_some_iff.mp h
        rw [Frame.readFrame_eq_some_iff.mp hframe, ih hrest, List.flatMap_cons, sheet,
          List.append_assoc]
        rfl
    | case2 hframe =>
        rw [readSheets_of_none hframe, if_pos rfl] at h
        cases h
        rfl
    | case3 cs hframe hne =>
        rw [readSheets_of_none hframe, if_neg hne] at h
        cases h
  · rintro rfl
    induction fs with
    | nil => exact (readSheets_of_none rfl).trans (if_pos rfl)
    | cons f fs ih =>
        have hframe : Frame.readFrame ((f :: fs).flatMap sheet) = some (f, fs.flatMap sheet) := by
          rw [Frame.readFrame_eq_some_iff, List.flatMap_cons, sheet, List.append_assoc]
          rfl
        rw [readSheets_of_frame hframe, ih]
        rfl

/-- The frames whose sheets some bytes are, if they are sheets and nothing else. -/
def read (bytes : ByteArray) : Option (List Frame) :=
  (String.fromUTF8? bytes).bind fun text => readSheets text.toList

theorem fromUTF8?_eq_some_iff {bytes : ByteArray} {text : String} :
    String.fromUTF8? bytes = some text ↔ bytes = text.toUTF8 := by
  constructor
  · intro h
    obtain ⟨hvalid, htext⟩ := Option.dite_none_right_eq_some.mp h
    cases htext
    rfl
  · rintro rfl
    exact dif_pos text.isValidUTF8

/-- **Reading bytes** gives the frames that were written, and no bytes but those that are written for
them are read as these frames. -/
theorem read_eq_some_iff {bytes : ByteArray} {fs : List Frame} :
    read bytes = some fs ↔ bytes = (String.ofList (fs.flatMap sheet)).toUTF8 := by
  rw [read, Option.bind_eq_some_iff]
  constructor
  · rintro ⟨text, htext, hsheets⟩
    rw [fromUTF8?_eq_some_iff.mp htext, ← readSheets_eq_some_iff.mp hsheets, String.ofList_toList]
  · rintro rfl
    refine ⟨_, fromUTF8?_eq_some_iff.mpr rfl, readSheets_eq_some_iff.mpr ?_⟩
    rw [String.toList_ofList]

/-! ### What stands on a sheet -/

/-- Some lines show a frame: there is a line for each row, with a character for each pixel. -/
structure IsGrid (lines : List (List Char)) (f : Frame) : Prop where
  height : lines.length = 32
  width : ∀ line ∈ lines, line.length = 64
  cell : ∀ x < 64, ∀ y < 32,
    (lines[y]?.bind fun row => row[x]?) = some (if f.pixel x y then '█' else ' ')

/-- Some lines, each with its end. -/
def ended (lines : List (List Char)) : List Char := lines.flatMap (· ++ ['\n'])

/-- The rows of a frame as lines. -/
theorem isGrid_lines (f : Frame) : IsGrid (f.rows.map fun row => row.map Frame.glyph) f where
  height := by rw [List.length_map, f.length_rows]
  width line hline := by
    obtain ⟨row, hrow, rfl⟩ := List.mem_map.mp hline
    rw [List.length_map, Frame.length_of_mem_rows hrow]
  cell x hx y hy := by
    rw [List.getElem?_map, Frame.rows, List.getElem?_map, List.getElem?_range hy]
    exact f.getElem?_line hx y

/-- A sheet is these lines and an empty one. -/
theorem sheet_eq (f : Frame) :
    sheet f = ended (f.rows.map (fun row => row.map Frame.glyph) ++ [[]]) := by
  rw [sheet, Frame.characters_eq, ended, List.flatMap_append, List.flatMap_map]
  rfl

/-- **The number of bytes** on a sheet. -/
theorem utf8ByteSize_sheet (f : Frame) :
    (String.ofList (sheet f)).utf8ByteSize = 2081 + 2 * f.lit := by
  rw [String.utf8ByteSize_ofList, sheet, String.utf8Len_append, Frame.utf8Len_characters]
  show 2080 + 2 * f.lit + 1 = 2081 + 2 * f.lit
  omega

end TextSink

open TextSink in
/-- **Paper tells the frames.** A display that writes with room for everything shows all frames that it
is given and counts them, and the bytes that it has written can be read back to them. For one more frame
it adds 32 lines of 64 characters that show the frame and an empty line, and of bytes 2081 and two for
each lit pixel. So frames with the same text are the same. -/
theorem paper_tells_frames (fs : List Frame) :
    (Display.renderAll ({} : TextSink) fs).2 = none ∧
    read (Display.renderAll ({} : TextSink) fs).1.writer.text.toUTF8 = some fs ∧
    (Display.renderAll ({} : TextSink) fs).1.frames = fs.length ∧
    (∀ f, ∃ lines, IsGrid lines f ∧
      (Display.renderAll ({} : TextSink) (fs ++ [f])).1.writer.text =
        (Display.renderAll ({} : TextSink) fs).1.writer.text ++
          String.ofList (ended (lines ++ [[]])) ∧
      (String.ofList (ended (lines ++ [[]]))).utf8ByteSize = 2081 + 2 * f.lit) ∧
    Function.Injective Frame.text := by
  have hwritten : ∀ fs : List Frame, Display.renderAll ({} : TextSink) fs =
      ({ writer := { text := String.ofList (fs.flatMap sheet) }, frames := fs.length }, none) := by
    intro fs
    rw [renderAll_of_unlimited rfl, Nat.zero_add]
    simp only [String.empty_append]
  refine ⟨?shown, ?back, ?counted, fun f => ?sheet, Frame.text_injective⟩
  case shown => rw [hwritten]
  case back => rw [hwritten, read_eq_some_iff]
  case counted => rw [hwritten]
  case sheet =>
    refine ⟨_, isGrid_lines f, ?_, ?_⟩
    · rw [hwritten, hwritten, ← sheet_eq, List.flatMap_append, List.flatMap_singleton]
      exact String.ofList_append
    · rw [← sheet_eq]
      exact utf8ByteSize_sheet f

end ChipEight
