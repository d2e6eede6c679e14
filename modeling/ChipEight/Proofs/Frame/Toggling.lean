import ChipEight.Frame

/-!
# Toggling many pixels

To draw is to toggle the pixels at a list of places, one after the other. What comes of it is told
by how often each place is in the list:

* `isLit_foldl_toggle` — a pixel changes if its place is there an odd number of times;
* `foldl_toggle_hit_iff` — when a lit pixel goes out on the way;
* `wentOut` — how often that happens, with `lit_foldl_toggle` and `foldl_toggle_hit` for the number of
  lit pixels and for the flag;
* `ext_isLit`, `cell_eq_iff` — frames are equal pixel by pixel, and places are columns and rows.
-/

namespace ChipEight.Frame

/-! ### Places and pixels -/

/-- Whether the pixel at a place is lit. -/
def isLit (f : Frame) (c : Cell) : Bool := f.pixels.get c

/-- Two frames with the same pixels are the same. -/
theorem ext_isLit {f g : Frame} (h : ∀ c, f.isLit c = g.isLit c) : f = g := by
  obtain ⟨pixels⟩ := f
  obtain ⟨pixels'⟩ := g
  exact congrArg Frame.mk (Vector.ext fun k hk => h ⟨k, hk⟩)

/-- A column and a row of the screen have a place of their own. -/
theorem cell_eq_iff {a b x y : Nat} (hx : x < screenWidth) (hy : y < screenHeight) :
    cell a b = cell x y ↔ a % screenWidth = x ∧ b % screenHeight = y := by
  simp only [cell, Fin.mk.injEq, screenWidth, screenHeight] at *
  omega

/-- Coordinates wrap around both edges. -/
theorem cell_mod (a b : Nat) : cell (a % screenWidth) (b % screenHeight) = cell a b := by
  simp only [cell, Nat.mod_mod]

theorem pixel_mod (f : Frame) (x y : Nat) :
    f.pixel (x % screenWidth) (y % screenHeight) = f.pixel x y :=
  congrArg f.isLit (cell_mod x y)

/-- Every place is in a column and a row of the screen. -/
theorem exists_cell (c : Cell) : ∃ x < screenWidth, ∃ y < screenHeight, c = cell x y := by
  refine ⟨c.val % screenWidth, Nat.mod_lt _ (by decide), c.val / screenWidth, ?_, ?_⟩
  · exact Nat.div_lt_of_lt_mul c.isLt
  · have hc := c.isLt
    simp only [cell, Fin.ext_iff, screenWidth, screenHeight] at *
    omega

/-! ### One pixel -/

/-- The frame with one pixel toggled. -/
def toggled (f : Frame) (c : Cell) : Frame := (toggle (f, false) c).1

theorem toggle_eq (f : Frame) (hit : Bool) (c : Cell) :
    toggle (f, hit) c = (f.toggled c, hit || f.isLit c) := rfl

theorem isLit_toggled (f : Frame) (c d : Cell) :
    (f.toggled c).isLit d = if c = d then !f.isLit d else f.isLit d := by
  have hset : (f.toggled c).isLit d = (f.pixels.set c (!f.pixels[c]))[d] := rfl
  rw [hset, Fin.getElem_fin, Vector.getElem_set]
  by_cases h : c = d
  · subst h
    rw [if_pos rfl, if_pos rfl]
    rfl
  · rw [if_neg h, if_neg (Fin.val_ne_of_ne h)]
    rfl

/-- Toggling a pixel lights it or puts it out. -/
theorem lit_toggled (f : Frame) (c : Cell) :
    (f.toggled c).lit + 2 * (f.isLit c).toNat = f.lit + 1 := by
  have hset : (f.toggled c).pixels.toList = f.pixels.toList.set c.val (!f.isLit c) :=
    Vector.toList_set c.isLt
  have hlen : c.val < f.pixels.toList.length := by
    rw [Vector.length_toList]
    exact c.isLt
  have hget : f.pixels.toList[c.val] = f.isLit c := Vector.getElem_toList hlen
  rw [lit, hset, List.count_set hlen, hget]
  cases hc : f.isLit c with
  | false => rfl
  | true =>
      have hpos : 0 < f.pixels.toList.count true :=
        List.count_pos_iff.mpr (hget.trans hc ▸ List.getElem_mem hlen)
      show f.pixels.toList.count true - 1 + 0 + 2 * 1 = f.lit + 1
      rw [lit]
      omega

/-! ### Pixel by pixel -/

/-- A pixel goes out at least once if it is toggled that many times. -/
def GoesOut (lit : Bool) (times : Nat) : Prop :=
  lit = true ∧ 1 ≤ times ∨ lit = false ∧ 2 ≤ times

theorem not_goesOut_zero (lit : Bool) : ¬ GoesOut lit 0 := by
  rintro (⟨-, h⟩ | ⟨-, h⟩) <;> omega

/-- The first of several times. -/
theorem goesOut_succ (lit : Bool) (times : Nat) :
    GoesOut lit (times + 1) ↔ lit = true ∨ GoesOut (!lit) times := by
  cases lit <;> simp [GoesOut]

/-- A pixel that is toggled at most once goes out if it was lit and is dark in the end. -/
theorem goesOut_iff_of_le_one {lit lit' : Bool} {times : Nat} (h : times ≤ 1)
    (hafter : lit' = (lit ^^ decide (times % 2 = 1))) :
    GoesOut lit times ↔ lit = true ∧ lit' = false := by
  have htimes : times = 0 ∨ times = 1 := by omega
  rcases htimes with rfl | rfl
  · cases lit <;> simp [GoesOut, hafter]
  · cases lit <;> simp [GoesOut, hafter]

/-- **A pixel changes** if its place is in the list an odd number of times. -/
theorem isLit_foldl_toggle (cells : List Cell) (f : Frame) (hit : Bool) (c : Cell) :
    (cells.foldl toggle (f, hit)).1.isLit c =
      (f.isLit c ^^ decide (cells.count c % 2 = 1)) := by
  induction cells generalizing f hit with
  | nil => exact (Bool.xor_false _).symm
  | cons d cells ih =>
      rw [List.foldl_cons, toggle_eq, ih, isLit_toggled, List.count_cons]
      by_cases hd : d = c
      · have hodd : decide ((cells.count c + 1) % 2 = 1) = !decide (cells.count c % 2 = 1) := by
          rw [← decide_not, decide_eq_decide]
          omega
        simp only [hd, if_true, beq_self_eq_true, hodd, Bool.not_xor, Bool.xor_not]
      · simp only [hd, if_false, beq_iff_eq, Nat.add_zero]

/-- **A lit pixel goes out on the way** if some pixel is toggled often enough. -/
theorem foldl_toggle_hit_iff (cells : List Cell) (f : Frame) (hit : Bool) :
    (cells.foldl toggle (f, hit)).2 = true ↔
      hit = true ∨ ∃ c, GoesOut (f.isLit c) (cells.count c) := by
  induction cells generalizing f hit with
  | nil =>
      refine ⟨.inl, ?_⟩
      rintro (h | ⟨c, h⟩)
      · exact h
      · exact (not_goesOut_zero _ h).elim
  | cons d cells ih =>
      -- the place toggled first is looked at apart from the others
      have hself : GoesOut (f.isLit d) ((d :: cells).count d) ↔
          f.isLit d = true ∨ GoesOut ((f.toggled d).isLit d) (cells.count d) := by
        rw [List.count_cons_self, goesOut_succ, isLit_toggled, if_pos rfl]
      have hother : ∀ c, d ≠ c → (GoesOut (f.isLit c) ((d :: cells).count c) ↔
          GoesOut ((f.toggled d).isLit c) (cells.count c)) := by
        intro c hc
        rw [List.count_cons_of_ne hc, isLit_toggled, if_neg hc]
      rw [List.foldl_cons, toggle_eq, ih, Bool.or_eq_true, or_assoc]
      refine or_congr_right ⟨?_, ?_⟩
      · rintro (h | ⟨c, h⟩)
        · exact ⟨d, hself.mpr (.inl h)⟩
        · by_cases hc : d = c
          · subst hc
            exact ⟨d, hself.mpr (.inr h)⟩
          · exact ⟨c, (hother c hc).mpr h⟩
      · rintro ⟨c, h⟩
        by_cases hc : d = c
        · subst hc
          exact (hself.mp h).imp_right fun h => ⟨d, h⟩
        · exact .inr ⟨c, (hother c hc).mp h⟩

/-! ### Counting -/

/-- How often a lit pixel goes out when the pixels at some places are toggled. -/
def wentOut : Frame → List Cell → Nat
  | _, [] => 0
  | f, c :: cells => (f.isLit c).toNat + wentOut (f.toggled c) cells

/-- **The flag** says whether a lit pixel went out at all. -/
theorem foldl_toggle_hit (cells : List Cell) (f : Frame) (hit : Bool) :
    (cells.foldl toggle (f, hit)).2 = (hit || decide (0 < f.wentOut cells)) := by
  induction cells generalizing f hit with
  | nil => exact (Bool.or_false hit).symm
  | cons c cells ih =>
      rw [List.foldl_cons, toggle_eq, ih, wentOut, Bool.or_assoc]
      cases f.isLit c with
      | false => simp only [Bool.false_or, Bool.toNat_false, Nat.zero_add]
      | true =>
          have hpos : 0 < Bool.toNat true + (f.toggled c).wentOut cells :=
            Nat.add_pos_left Nat.one_pos _
          simp only [Bool.true_or, decide_eq_true hpos]

/-- **The number of lit pixels**: each place counts for one more, but for one less if its pixel goes
out. -/
theorem lit_foldl_toggle (cells : List Cell) (f : Frame) (hit : Bool) :
    (cells.foldl toggle (f, hit)).1.lit + 2 * f.wentOut cells = f.lit + cells.length := by
  induction cells generalizing f hit with
  | nil => rfl
  | cons c cells ih =>
      have hfirst := lit_toggled f c
      have hrest := ih (f.toggled c) (hit || f.isLit c)
      rw [List.foldl_cons, toggle_eq, wentOut, List.length_cons]
      omega

/-- No frame has more lit pixels than the screen has pixels. -/
theorem lit_le (f : Frame) : f.lit ≤ screenWidth * screenHeight := by
  have hle := List.count_le_length (a := true) (l := f.pixels.toList)
  rwa [Vector.length_toList] at hle

end ChipEight.Frame
