import ChipEight.Proofs.Display.Paper

/-!
# Paper that runs out

A writer with room for so many bytes takes the characters of a sheet one by one up to the first for
which there is no room. What a render that fails has written stays, and is missing from the room of the
next one, which may still succeed with characters that take less.

* `Writer.fitting`, with `prefix_fitting` — the front of some characters that there is room for, which is
  the longest;
* `write_of_limit` — what a writer with a limit takes;
* `Tray`, with `putAll_pieces` — the same told in bytes, each character a piece that is taken as a whole
  or refused;
* `TextSink.Rendered`, with `rendered` — one render;
* `short_paper_keeps_fronts` — any number of renders, going on after those that fail.
-/

namespace ChipEight

/-! ### Characters that fit -/

namespace Writer

/-- The characters at the front of some for which there is room. -/
def fitting : Nat → List Char → List Char
  | _, [] => []
  | room, c :: cs => if c.utf8Size ≤ room then c :: fitting (room - c.utf8Size) cs else []

variable {room limit : Nat} {w : Writer} {cs front : List Char}

theorem fitting_front (room : Nat) (cs : List Char) : fitting room cs <+: cs := by
  induction cs generalizing room with
  | nil => exact List.nil_prefix
  | cons c cs ih =>
      rw [fitting]
      split
      · exact List.cons_prefix_cons.mpr ⟨rfl, ih _⟩
      · exact List.nil_prefix

theorem utf8Len_fitting_le (room : Nat) (cs : List Char) :
    String.utf8Len (fitting room cs) ≤ room := by
  induction cs generalizing room with
  | nil => exact Nat.zero_le room
  | cons c cs ih =>
      rw [fitting]
      split
      · rename_i hfits
        have hrest := ih (room - c.utf8Size)
        rw [String.utf8Len_cons]
        omega
      · exact Nat.zero_le room

/-- **No longer front fits.** -/
theorem prefix_fitting (h : front <+: cs) (hfits : String.utf8Len front ≤ room) :
    front <+: fitting room cs := by
  induction cs generalizing room front with
  | nil => exact h
  | cons c cs ih =>
      rcases List.prefix_cons_iff.mp h with rfl | ⟨front, rfl, hfront⟩
      · exact List.nil_prefix
      · rw [String.utf8Len_cons] at hfits
        rw [fitting, if_pos (by omega)]
        exact List.cons_prefix_cons.mpr ⟨rfl, ih hfront (by omega)⟩

theorem fitting_eq_self_iff : fitting room cs = cs ↔ String.utf8Len cs ≤ room := by
  constructor
  · intro h
    rw [← h]
    exact utf8Len_fitting_le room cs
  · intro h
    exact (fitting_front room cs).eq_of_length_le (prefix_fitting List.prefix_rfl h).length_le

/-- **What a writer with a limit takes**: what there is room for beside the text that it has. -/
theorem write_of_limit (hlimit : w.limit = some limit) (cs : List Char) :
    w.write cs =
      ({ w with text := w.text ++ String.ofList (fitting (limit - w.text.utf8ByteSize) cs) },
        decide (fitting (limit - w.text.utf8ByteSize) cs = cs)) := by
  induction cs generalizing w with
  | nil =>
      rw [fitting, String.ofList_nil, String.append_empty]
      rfl
  | cons c cs ih =>
      have hsize := c.utf8Size_pos
      have hroom : w.fits c = decide (c.utf8Size ≤ limit - w.text.utf8ByteSize) := by
        rw [fits, hlimit]
        exact decide_eq_decide.mpr (by omega)
      by_cases hfits : c.utf8Size ≤ limit - w.text.utf8ByteSize
      · have hpush : ({ w with text := w.text.push c } : Writer).limit = some limit := hlimit
        have hleft : limit - (w.text.push c).utf8ByteSize =
            limit - w.text.utf8ByteSize - c.utf8Size := by
          rw [String.utf8ByteSize_push, Nat.sub_add_eq]
        rw [write, hroom, if_pos (decide_eq_true hfits), ih hpush, fitting, if_pos hfits]
        simp only [hleft, push_append, List.cons.injEq, true_and]
      · rw [write, hroom, if_neg (fun h => hfits (of_decide_eq_true h)), fitting, if_neg hfits,
          String.ofList_nil, String.append_empty]
        rfl

end Writer

/-! ### The same in bytes -/

/-- A place for bytes, with room for so many. -/
structure Tray where
  bytes : ByteArray := .empty
  limit : Nat

namespace Tray

/-- Puts a piece down as a whole, or refuses it. -/
def put (t : Tray) (piece : ByteArray) : Tray × Bool :=
  if t.bytes.size + piece.size ≤ t.limit then ({ t with bytes := t.bytes ++ piece }, true)
  else (t, false)

/-- Puts pieces down one after the other, up to the first that is refused. -/
def putAll : List ByteArray → Tray → Tray × Bool
  | [], t => (t, true)
  | piece :: pieces, t =>
    match t.put piece with
    | (t, true) => putAll pieces t
    | (t, false) => (t, false)

/-- Characters as pieces of bytes. -/
def pieces (cs : List Char) : List ByteArray := cs.map fun c => (String.singleton c).toUTF8

/-- Puts frames down one after the other, whether or not there is room for the whole of each. -/
def putFrames (t : Tray) (fs : List Frame) : Tray :=
  fs.foldl (fun t f => (putAll (pieces (TextSink.sheet f)) t).1) t

/-- The bytes of a writer. -/
def ofWriter (w : Writer) (limit : Nat) : Tray := ⟨w.text.toUTF8, limit⟩

/-- A writer has room for a character exactly if there is room for its bytes. -/
theorem put_singleton {w : Writer} {limit : Nat} (hlimit : w.limit = some limit) (c : Char) :
    (ofWriter w limit).put (String.singleton c).toUTF8 =
      if w.fits c then (ofWriter { w with text := w.text.push c } limit, true)
      else (ofWriter w limit, false) := by
  have hroom : w.fits c = decide (w.text.utf8ByteSize + c.utf8Size ≤ limit) := by
    rw [Writer.fits, hlimit]
  have hpush : w.text.toUTF8 ++ (String.singleton c).toUTF8 = (w.text.push c).toUTF8 := by
    show w.text.toByteArray ++ (String.singleton c).toByteArray = (w.text.push c).toByteArray
    rw [← String.toByteArray_append, String.append_singleton]
  have hused : w.text.toUTF8.size = w.text.utf8ByteSize := String.size_toByteArray
  have hsize : (String.singleton c).toUTF8.size = c.utf8Size :=
    String.size_toByteArray.trans String.utf8ByteSize_singleton
  simp only [put, ofWriter, hsize, hpush, hused, hroom, decide_eq_true_eq]

/-- **A writer is a place for bytes** into which it puts its characters piece by piece. -/
theorem putAll_pieces {w : Writer} {limit : Nat} (hlimit : w.limit = some limit) (cs : List Char) :
    putAll (pieces cs) (ofWriter w limit) = (ofWriter (w.write cs).1 limit, (w.write cs).2) := by
  induction cs generalizing w with
  | nil => rfl
  | cons c cs ih =>
      have hpush : ({ w with text := w.text.push c } : Writer).limit = some limit := hlimit
      rw [pieces, List.map_cons, putAll, put_singleton hlimit, Writer.write]
      cases w.fits c with
      | true => exact ih hpush
      | false => rfl

end Tray

/-! ### One render -/

namespace TextSink

/-- A sink on a writer with room for so many bytes. -/
def ofLimit (limit : Nat) : TextSink := { writer := { limit := some limit } }

/-- The writer has room for so many bytes and has not taken more. -/
structure Within (limit : Nat) (s : TextSink) : Prop where
  limit_eq : s.writer.limit = some limit
  size_le : s.writer.text.utf8ByteSize ≤ limit

/-- The longest front of some characters that fits beside so many bytes. -/
structure LongestFront (used limit : Nat) (cs front : List Char) : Prop where
  isFront : front <+: cs
  fits : used + String.utf8Len front ≤ limit
  longest : ∀ other, other <+: cs → used + String.utf8Len other ≤ limit → other <+: front

/-- What a render comes to on a writer with room for so many bytes. -/
structure Rendered (limit : Nat) (s : TextSink) (f : Frame) : Prop where
  shown_iff : (Display.render s f).2 = none ↔
    s.writer.text.utf8ByteSize + 2081 + 2 * f.lit ≤ limit
  reason : ∀ e, (Display.render s f).2 = some e → e = .write noRoom
  counted : (Display.render s f).1.frames =
    s.frames + if (Display.render s f).2 = none then 1 else 0
  written : ∃ front, (Display.render s f).1.writer.text = s.writer.text ++ String.ofList front ∧
    LongestFront s.writer.text.utf8ByteSize limit (sheet f) front

variable {limit : Nat} {s : TextSink}

theorem within_ofLimit (limit : Nat) : Within limit (ofLimit limit) := ⟨rfl, Nat.zero_le limit⟩

/-- A render counts and succeeds if its writer takes the whole sheet. -/
theorem render_eq (s : TextSink) (f : Frame) :
    Display.render s f =
      ({ writer := (s.writer.write (sheet f)).1
         frames := if (s.writer.write (sheet f)).2 then s.frames + 1 else s.frames },
        if (s.writer.write (sheet f)).2 then none else some (.write noRoom)) := by
  show TextSink.render s f = _
  rw [render, ← sheet]
  rcases s.writer.write (sheet f) with ⟨w, _ | _⟩ <;> rfl

/-- There is room for the whole sheet if there is room for its bytes. -/
theorem write_sheet_iff (h : Within limit s) (f : Frame) :
    (s.writer.write (sheet f)).2 = true ↔
      s.writer.text.utf8ByteSize + 2081 + 2 * f.lit ≤ limit := by
  have hsize := utf8ByteSize_sheet f
  have hused := h.size_le
  rw [String.utf8ByteSize_ofList] at hsize
  rw [Writer.write_of_limit h.limit_eq, decide_eq_true_iff, Writer.fitting_eq_self_iff, hsize]
  omega

theorem Within.render (h : Within limit s) (f : Frame) : Within limit (Display.render s f).1 := by
  rw [render_eq, Writer.write_of_limit h.limit_eq]
  refine ⟨h.limit_eq, ?_⟩
  have hfits := Writer.utf8Len_fitting_le (limit - s.writer.text.utf8ByteSize) (sheet f)
  have hused := h.size_le
  rw [String.utf8ByteSize_append, String.utf8ByteSize_ofList]
  omega

/-- **One render** on a writer with a limit. -/
theorem rendered (h : Within limit s) (f : Frame) : Rendered limit s f where
  shown_iff := by
    rw [← write_sheet_iff h, render_eq]
    cases (s.writer.write (sheet f)).2 <;> simp
  reason e he := by
    rw [render_eq] at he
    split at he
    · cases he
    · exact (Option.some.inj he).symm
  counted := by
    rw [render_eq]
    cases (s.writer.write (sheet f)).2 <;> rfl
  written := by
    have hfits := Writer.utf8Len_fitting_le (limit - s.writer.text.utf8ByteSize) (sheet f)
    have hused := h.size_le
    refine ⟨Writer.fitting (limit - s.writer.text.utf8ByteSize) (sheet f), ?_,
      Writer.fitting_front _ _, by omega, fun other hfront hother => ?_⟩
    · rw [render_eq, Writer.write_of_limit h.limit_eq]
    · exact Writer.prefix_fitting hfront (by omega)

end TextSink

/-! ### Any number of renders -/

/-- Shows frames one after the other, going on after those that cannot be shown, and says of each whether
it could be. -/
def Display.renderEach {δ : Type} [Display δ] : δ → List Frame → δ × List (Option DisplayError)
  | d, [] => (d, [])
  | d, f :: fs =>
    match renderEach (Display.render d f).1 fs with
    | (last, failures) => (last, (Display.render d f).2 :: failures)

namespace TextSink

variable {limit : Nat} {s : TextSink}

theorem renderEach_cons (s : TextSink) (f : Frame) (fs : List Frame) :
    Display.renderEach s (f :: fs) =
      ((Display.renderEach (Display.render s f).1 fs).1,
        (Display.render s f).2 :: (Display.renderEach (Display.render s f).1 fs).2) := rfl

theorem Within.renderEach (h : Within limit s) (fs : List Frame) :
    Within limit (Display.renderEach s fs).1 := by
  induction fs generalizing s with
  | nil => exact h
  | cons f fs ih => exact ih (h.render f)

/-- **The frames that are counted** are those that were shown. -/
theorem frames_renderEach (h : Within limit s) (fs : List Frame) :
    (Display.renderEach s fs).1.frames = s.frames + (Display.renderEach s fs).2.count none := by
  induction fs generalizing s with
  | nil => rfl
  | cons f fs ih =>
      rw [renderEach_cons, ih (h.render f), (rendered h f).counted, List.count_cons, Nat.add_assoc,
        Nat.add_comm (ite _ _ _)]
      simp only [beq_iff_eq]

/-- What is on the tray is what the writer has taken. -/
theorem putFrames_ofWriter (h : Within limit s) (fs : List Frame) :
    (Tray.ofWriter s.writer limit).putFrames fs =
      Tray.ofWriter (Display.renderEach s fs).1.writer limit := by
  induction fs generalizing s with
  | nil => rfl
  | cons f fs ih =>
      have hwriter : (Display.render s f).1.writer = (s.writer.write (sheet f)).1 := by
        rw [render_eq]
      rw [renderEach_cons, ← ih (h.render f), Tray.putFrames, List.foldl_cons,
        Tray.putAll_pieces h.limit_eq, hwriter]
      rfl

end TextSink

open TextSink in
/-- **A writer that runs short keeps the fronts of sheets.** Frames are shown one after the other on a
writer with room for so many bytes, going on after those that cannot be shown. Then the next one can be
shown exactly if there is room for its 2081 bytes and two for each lit pixel; it adds the longest front of
its sheet that there is room for, which is all of it or the whole characters that fit, and if it fails it
says so and is not counted. The frames that are counted are those that were shown. As bytes, with each
character taken or refused as a whole, what was written is the text of the writer, so it is always
well-formed, and there are never more bytes than there is room for. -/
theorem short_paper_keeps_fronts (limit : Nat) (fs : List Frame) :
    (∀ f, Rendered limit (Display.renderEach (ofLimit limit) fs).1 f) ∧
    (Display.renderEach (ofLimit limit) fs).1.frames =
      (Display.renderEach (ofLimit limit) fs).2.count none ∧
    ((Tray.mk .empty limit).putFrames fs).bytes =
      (Display.renderEach (ofLimit limit) fs).1.writer.text.toUTF8 ∧
    ((Tray.mk .empty limit).putFrames fs).bytes.IsValidUTF8 ∧
    ((Tray.mk .empty limit).putFrames fs).bytes.size ≤ limit := by
  have hstart := within_ofLimit limit
  have hwithin := hstart.renderEach fs
  have hempty : Tray.mk .empty limit = Tray.ofWriter (ofLimit limit).writer limit := rfl
  have hbytes : ((Tray.mk .empty limit).putFrames fs).bytes =
      (Display.renderEach (ofLimit limit) fs).1.writer.text.toUTF8 := by
    rw [hempty, putFrames_ofWriter hstart]
    rfl
  refine ⟨rendered hwithin, ?_, hbytes, ?_, ?_⟩
  · rw [frames_renderEach hstart]
    exact Nat.zero_add _
  · rw [hbytes]
    exact String.isValidUTF8 _
  · rw [hbytes]
    exact (Nat.le_of_eq String.size_toByteArray).trans hwithin.size_le

end ChipEight
