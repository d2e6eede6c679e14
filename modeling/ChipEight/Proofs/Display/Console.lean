import ChipEight.Proofs.Frame.Text
import ChipEight.Proofs.Display.Monitor

/-!
# Frames on a monitor

Every row of a frame is written to its place on the second screen, so that nothing of the frame before is
left, and no row goes beyond its end. What was on the first screen stays there and is seen again at the
end.

* `Mark.InFrame`, `Monitor.Confined` — what may be printed on, and all that must not change;
* `reads_row`, `reads_paint` — a row of a frame and a frame;
* `reads_paints` — frames one after the other;
* `Monitor.Shows`, with `console_shows_last_frame` — what is seen after each frame and at the end.
-/

namespace ChipEight

/-- The cell is one of those that a frame takes on the second screen. -/
structure Mark.InFrame (k : Mark) : Prop where
  onSecond : k.onSecond = true
  row_lt : k.row < 32
  column_lt : k.column < 64

/-- What has been written once some frames have been shown, before the end. -/
def Screen.begun (fs : List Frame) : String := enter ++ String.join (fs.map paint)

namespace Monitor

/-- The two differ in the second screen and the cursor's place only, and nothing was printed between them
but on the cells that a frame takes. -/
structure Confined (m m' : Monitor) : Prop where
  width_eq : m'.width = m.width
  height_eq : m'.height = m.height
  first_eq : m'.first = m.first
  onSecond_eq : m'.onSecond = m.onSecond
  cursorShown_eq : m'.cursorShown = m.cursorShown
  marked : ∃ marks, m'.marks = marks ++ m.marks ∧ ∀ k ∈ marks, k.InFrame

/-- The monitor shows a frame on its second screen, and nothing beside it. -/
structure Shows (m : Monitor) (f : Frame) : Prop where
  onSecond : m.onSecond = true
  cursorHidden : m.cursorShown = false
  cell : ∀ y < 32, ∀ x < 64, m.second y x = some (if f.pixel x y then '█' else ' ')
  beside : ∀ y x, ¬ (y < 32 ∧ x < 64) → m.second y x = none

variable {m m' m'' : Monitor} {f : Frame}

theorem Confined.refl (m : Monitor) : m.Confined m :=
  ⟨rfl, rfl, rfl, rfl, rfl, [], rfl, fun _ hk => (List.not_mem_nil hk).elim⟩

theorem Confined.trans (h : m.Confined m') (h' : m'.Confined m'') : m.Confined m'' := by
  obtain ⟨marks, hmarks, hin⟩ := h.marked
  obtain ⟨marks', hmarks', hin'⟩ := h'.marked
  refine ⟨h'.width_eq.trans h.width_eq, h'.height_eq.trans h.height_eq,
    h'.first_eq.trans h.first_eq, h'.onSecond_eq.trans h.onSecond_eq,
    h'.cursorShown_eq.trans h.cursorShown_eq, marks' ++ marks, ?_,
    List.forall_mem_append.mpr ⟨hin', hin⟩⟩
  rw [hmarks', hmarks, List.append_assoc]

/-! ### A row and a frame -/

theorem visible_of_mem_line {f : Frame} {y : Nat} {c : Char} (h : c ∈ f.line y) : Visible c := by
  obtain ⟨lit, -, rfl⟩ := List.mem_map.mp h
  cases lit <;> decide

/-- **A row** is written to its place. -/
theorem reads_row (hsecond : m.onSecond = true) (hwidth : 64 ≤ m.width) (f : Frame) {y : Nat}
    (hy : y < 32) (hrow : y < m.height) :
    ∃ m', m.Reads ((Screen.moveTo y).toList ++ f.line y) m' ∧ m.Confined m' ∧ ∀ r x, m'.second r x =
      if r = y ∧ x < 64 then some (Frame.glyph (f.pixel x y)) else m.second r x := by
  have hlength : (f.line y).length = 64 := f.length_line y
  have hvisible : ∀ c ∈ f.line y, Visible c := fun c => visible_of_mem_line
  have hfits : 0 + (f.line y).length ≤ m.width := by
    rw [hlength, Nat.zero_add]
    exact hwidth
  have htext := reads_text (m := { m with row := y, column := 0 }) hsecond hvisible hfits
  refine ⟨_, (m.reads_moveTo hrow).append htext, ?confined, fun r x => ?cells⟩
  case confined =>
    refine ⟨rfl, rfl, rfl, rfl, rfl, _, rfl, fun k hk => ?_⟩
    obtain ⟨honSecond, hkrow, hkcolumn⟩ := mem_marksOf hk
    rw [hlength, Nat.zero_add] at hkcolumn
    exact ⟨honSecond, hkrow.trans_lt hy, hkcolumn⟩
  case cells =>
    show m.second.write y 0 (f.line y) r x = _
    rw [Cells.write_apply, hlength, Nat.zero_add, Nat.sub_zero]
    by_cases hcell : r = y ∧ x < 64
    · rw [if_pos ⟨hcell.1, x.zero_le, hcell.2⟩, if_pos hcell, f.getElem?_line hcell.2]
    · rw [if_neg (fun h => hcell ⟨h.1, h.2.2⟩), if_neg hcell]

/-- The first rows of a frame go to theirs. -/
theorem reads_rows (hsecond : m.onSecond = true) (hwidth : 64 ≤ m.width) (hheight : 32 ≤ m.height)
    (f : Frame) {n : Nat} (hn : n ≤ 32) :
    ∃ m', m.Reads ((List.range n).flatMap fun y => (Screen.moveTo y).toList ++ f.line y) m' ∧
      m.Confined m' ∧ ∀ y x, m'.second y x =
        if y < n ∧ x < 64 then some (Frame.glyph (f.pixel x y)) else m.second y x := by
  induction n with
  | zero => exact ⟨m, Reads.nil m, Confined.refl m, fun y x => (if_neg (by omega)).symm⟩
  | succ n ih =>
      obtain ⟨m', hreads, hconfined, hcells⟩ := ih (Nat.le_of_succ_le hn)
      obtain ⟨m'', hreads', hconfined', hcells'⟩ := reads_row (m := m') (y := n)
        (hconfined.onSecond_eq.trans hsecond) (hwidth.trans_eq hconfined.width_eq.symm) f hn
        (hn.trans (hheight.trans_eq hconfined.height_eq.symm))
      refine ⟨m'', ?_, hconfined.trans hconfined', fun y x => ?_⟩
      · rw [List.range_succ, List.flatMap_append, List.flatMap_singleton]
        exact hreads.append hreads'
      · rw [hcells', hcells]
        by_cases hlast : y = n ∧ x < 64
        · rw [if_pos hlast, if_pos ⟨by omega, hlast.2⟩, hlast.1]
        · by_cases hbefore : y < n ∧ x < 64
          · rw [if_neg hlast, if_pos hbefore, if_pos ⟨Nat.lt_succ_of_lt hbefore.1, hbefore.2⟩]
          · rw [if_neg hlast, if_neg hbefore, if_neg (by omega)]

/-- **A frame** takes its cells and no others. -/
theorem reads_paint (hsecond : m.onSecond = true) (hwidth : 64 ≤ m.width)
    (hheight : 32 ≤ m.height) (f : Frame) :
    ∃ m', m.Reads (Screen.paint f).toList m' ∧ m.Confined m' ∧ ∀ y x, m'.second y x =
      if y < 32 ∧ x < 64 then some (Frame.glyph (f.pixel x y)) else m.second y x := by
  have htext : (Screen.paint f).toList =
      (List.range 32).flatMap fun y => (Screen.moveTo y).toList ++ f.line y := by
    rw [Screen.paint, String.toList_join, List.flatMap_map]
    simp only [String.toList_append, String.toList_ofList]
  rw [htext]
  exact reads_rows hsecond hwidth hheight f (Nat.le_refl 32)

/-- **Frames one after the other** leave all other cells as they are. -/
theorem reads_paints (hsecond : m.onSecond = true) (hwidth : 64 ≤ m.width)
    (hheight : 32 ≤ m.height) (fs : List Frame) :
    ∃ m', m.Reads (String.join (fs.map Screen.paint)).toList m' ∧ m.Confined m' ∧
      ∀ y x, ¬ (y < 32 ∧ x < 64) → m'.second y x = m.second y x := by
  induction fs generalizing m with
  | nil => exact ⟨m, Reads.nil m, Confined.refl m, fun _ _ _ => rfl⟩
  | cons f fs ih =>
      obtain ⟨m', hreads, hconfined, hcells⟩ := reads_paint hsecond hwidth hheight f
      obtain ⟨m'', hreads', hconfined', hbeside⟩ := ih (m := m')
        (hconfined.onSecond_eq.trans hsecond) (hwidth.trans_eq hconfined.width_eq.symm)
        (hheight.trans_eq hconfined.height_eq.symm)
      refine ⟨m'', ?_, hconfined.trans hconfined', fun y x hout => ?_⟩
      · rw [List.map_cons, String.join_cons, String.toList_append]
        exact hreads.append hreads'
      · rw [hbeside y x hout, hcells, if_neg hout]

/-! ### From the start to the end -/

/-- The monitor once its second screen was turned to. -/
def entered (m : Monitor) : Monitor :=
  { m with
    second := fun _ _ => none
    onSecond := true
    cursorShown := false
    saved := (m.row, m.column) }

/-- The monitor once its first screen was turned back to. -/
def left (m : Monitor) : Monitor :=
  { m with onSecond := false, cursorShown := true, row := m.saved.1, column := m.saved.2 }

theorem reads_enter (m : Monitor) : m.Reads Screen.enter.toList m.entered := by
  exact rfl

theorem reads_leave (m : Monitor) : m.Reads Screen.leave.toList m.left := by
  exact rfl

/-- What has been written when some frames have been shown leaves the second screen on, with nothing beside
the frames. -/
theorem reads_begun (hwidth : 64 ≤ m.width) (hheight : 32 ≤ m.height) (fs : List Frame) :
    ∃ m', m.Reads (Screen.begun fs).toList m' ∧ m.entered.Confined m' ∧
      ∀ y x, ¬ (y < 32 ∧ x < 64) → m'.second y x = none := by
  obtain ⟨m', hreads, hconfined, hbeside⟩ :=
    reads_paints (m := m.entered) rfl hwidth hheight fs
  refine ⟨m', ?_, hconfined, hbeside⟩
  rw [Screen.begun, String.toList_append]
  exact m.reads_enter.append hreads

end Monitor

theorem Screen.begun_concat (fs : List Frame) (f : Frame) :
    begun (fs ++ [f]) = begun fs ++ paint f := by
  rw [begun, begun, List.map_append, String.join_append, List.map_singleton, String.join_cons,
    String.join_nil, String.append_empty, String.append_assoc]

/-- What has been written for some frames is the front of what is written for more. -/
theorem Screen.begun_front (fs gs : List Frame) :
    (begun fs).toList <+: (output (fs ++ gs)).toList := by
  have hrest : output (fs ++ gs) = begun fs ++ (String.join (gs.map paint) ++ leave) := by
    rw [output, begun, List.map_append, String.join_append, String.append_assoc, String.append_assoc,
      String.append_assoc]
  rw [hrest, String.toList_append]
  exact List.prefix_append _ _

open Monitor in
/-- **A monitor shows the last frame.** On a terminal with room for a frame, whatever it shows before, each
frame that is shown is seen on the second screen as soon as it has been written, with nothing left of the
frames before and nothing beside it, while the first screen stays as it was. Nothing is ever printed on a
cell that frames do not take. At the end the first screen is seen again as it was, and the cursor too. -/
theorem console_shows_last_frame {m : Monitor} (hwidth : 64 ≤ m.width) (hheight : 32 ≤ m.height)
    (fs : List Frame) :
    (∀ f gs, (Screen.begun (fs ++ [f])).toList <+: (Screen.output (fs ++ [f] ++ gs)).toList ∧
      (m.read (Screen.begun (fs ++ [f])).toList).Shows f ∧
      (m.read (Screen.begun (fs ++ [f])).toList).first = m.first) ∧
    (∃ marks, (m.read (Screen.output fs).toList).marks = marks ++ m.marks ∧
      ∀ k ∈ marks, k.InFrame) ∧
    (m.read (Screen.output fs).toList).onSecond = false ∧
    (m.read (Screen.output fs).toList).cursorShown = true ∧
    (m.read (Screen.output fs).toList).first = m.first := by
  obtain ⟨m', hbegun, hconfined, hbeside⟩ := reads_begun hwidth hheight fs
  have hsecond : m'.onSecond = true := hconfined.onSecond_eq
  refine ⟨fun f gs => ⟨Screen.begun_front _ gs, ?shown⟩, ?ended⟩
  case shown =>
    obtain ⟨m'', hpaint, hconfined', hcells⟩ := reads_paint hsecond
      (hwidth.trans_eq hconfined.width_eq.symm) (hheight.trans_eq hconfined.height_eq.symm) f
    have hreads : m.Reads (Screen.begun (fs ++ [f])).toList m'' := by
      rw [Screen.begun_concat, String.toList_append]
      exact hbegun.append hpaint
    rw [hreads.read_eq]
    refine ⟨⟨hconfined'.onSecond_eq.trans hsecond,
      hconfined'.cursorShown_eq.trans hconfined.cursorShown_eq, fun y hy x hx => ?_,
      fun y x hout => ?_⟩, hconfined'.first_eq.trans hconfined.first_eq⟩
    · rw [hcells, if_pos ⟨hy, hx⟩]
      rfl
    · rw [hcells, if_neg hout, hbeside y x hout]
  case ended =>
    have hreads : m.Reads (Screen.output fs).toList m'.left := by
      rw [Screen.output, String.toList_append]
      exact hbegun.append m'.reads_leave
    rw [hreads.read_eq]
    exact ⟨hconfined.marked, rfl, rfl, hconfined.first_eq⟩

/-- A monitor that is no larger than a frame, with a letter in every cell of its first screen, and the cursor
behind the last. -/
def Monitor.smallest : Monitor where
  width := 64
  height := 32
  first := fun _ _ => some 'x'
  row := 31
  column := 64

/-- A frame with a bar in its top right corner. -/
def Frame.bar : Frame := (Frame.blank.drawSprite 60 0 [0xF0]).1

/-- A frame with its bottom right and its top left pixel lit. -/
def Frame.corners : Frame := (Frame.blank.drawSprite 63 31 [0x80, 0x40]).1

/-- On the smallest monitor the two corners are seen, the bar is no longer, and there is nothing in the row
below. At the end there are letters. -/
theorem smallest_shows_corners :
    (64 ≤ Monitor.smallest.width ∧ 32 ≤ Monitor.smallest.height) ∧
    (Frame.bar.pixel 63 0 = true ∧
      (Monitor.smallest.read (Screen.begun [.bar, .corners]).toList).second 0 63 = some ' ') ∧
    (Monitor.smallest.read (Screen.begun [.bar, .corners]).toList).second 0 0 = some '█' ∧
    (Monitor.smallest.read (Screen.begun [.bar, .corners]).toList).second 31 63 = some '█' ∧
    (Monitor.smallest.read (Screen.begun [.bar, .corners]).toList).second 32 0 = none ∧
    (Monitor.smallest.read (Screen.output [.bar]).toList).first 31 63 = some 'x' := by
  have hwidth : 64 ≤ Monitor.smallest.width := by decide
  have hheight : 32 ≤ Monitor.smallest.height := by decide
  obtain ⟨hshown, -, -, -, hfirst⟩ := console_shows_last_frame hwidth hheight [.bar]
  have hcorners : (Monitor.smallest.read (Screen.begun [.bar, .corners]).toList).Shows .corners :=
    (hshown .corners []).2.1
  have hpixels : Frame.bar.pixel 63 0 = true ∧ Frame.corners.pixel 63 0 = false ∧
      Frame.corners.pixel 0 0 = true ∧ Frame.corners.pixel 63 31 = true := by decide +kernel
  obtain ⟨hbar, hgone, htop, hbottom⟩ := hpixels
  refine ⟨⟨hwidth, hheight⟩, ⟨hbar, ?_⟩, ?_, ?_, hcorners.beside 32 0 (by decide), ?_⟩
  · rw [hcorners.cell 0 (by decide) 63 (by decide), hgone]
    rfl
  · rw [hcorners.cell 0 (by decide) 0 (by decide), htop]
    rfl
  · rw [hcorners.cell 31 (by decide) 63 (by decide), hbottom]
    rfl
  · rw [hfirst]
    rfl

end ChipEight
