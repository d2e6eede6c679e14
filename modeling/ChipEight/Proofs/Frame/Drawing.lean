import Mathlib.Data.List.Nodup
import Mathlib.Data.List.ProdSigma
import ChipEight.Proofs.Frame.Toggling

/-!
# Drawing a sprite, bit by bit

A sprite is looked at as the pairs of a row and a place in it whose bit is set. How many of them fall
on a pixel, going around both edges of the screen, tells all that drawing the sprite does:

* `setBits`, `hits` — the set bits of a sprite, and those that fall on a pixel;
* `covered_eq_map`, `hits_eq_count` — the places that are toggled are the ones under the set bits;
* `nodup_covered` — a sprite no taller than the screen toggles no pixel twice;
* `drawSprite_exact` — every pixel and the flag after a sprite was drawn;
* `pixel_drawSprite_of_bit`, `pixel_drawSprite_of_no_bit` — the pixels after a sprite no taller than the
  screen, bit by bit;
* `lit_drawSprite` — the number of lit pixels.
-/

namespace ChipEight.Frame

/-- The set bits of a sprite: the number of the row and the place in the row, counted from the most
significant bit. -/
def setBits (sprite : List UInt8) : List (Nat × Nat) :=
  (List.range sprite.length ×ˢ List.range 8).filter fun p =>
    (sprite.getD p.1 0).toNat.testBit (7 - p.2)

/-- How many set bits of a sprite with its top left corner in column `ox` and row `oy` fall on the
pixel in column `x` and row `y`. -/
def hits (ox oy : Nat) (sprite : List UInt8) (x y : Nat) : Nat :=
  (setBits sprite).countP fun p =>
    (ox + p.2) % screenWidth = x ∧ (oy + p.1) % screenHeight = y

variable {sprite : List UInt8} {ox oy x y : Nat}

/-! ### The places under the set bits -/

theorem mem_setBits {r k : Nat} : (r, k) ∈ setBits sprite ↔
    (r < sprite.length ∧ k < 8) ∧ (sprite.getD r 0).toNat.testBit (7 - k) = true := by
  simp only [setBits, List.mem_filter, List.mem_product, List.mem_range]

/-- The set bits of the first row, and those of the rows below it. -/
theorem setBits_cons (b : UInt8) (bs : List UInt8) : setBits (b :: bs) =
    ((List.range 8).filter (isSet b)).map (fun k => (0, k)) ++
      (setBits bs).map fun p => (p.1 + 1, p.2) := by
  have hrows : (List.range bs.length).map Nat.succ ×ˢ List.range 8 =
      (List.range bs.length ×ˢ List.range 8).map fun p => (p.1 + 1, p.2) := by
    simp only [SProd.sprod, List.product, List.flatMap_map, List.map_flatMap, List.map_map]
    rfl
  rw [setBits, List.length_cons, List.range_succ_eq_map, List.product_cons, List.filter_append,
    hrows, List.filter_map, List.filter_map]
  rfl

/-- **The places that are toggled** are the ones under the set bits. -/
theorem covered_eq_map (ox oy : Nat) (sprite : List UInt8) :
    covered ox oy sprite = (setBits sprite).map fun p => cell (ox + p.2) (oy + p.1) := by
  induction sprite generalizing oy with
  | nil => rfl
  | cons b bs ih =>
      rw [covered, ih, coveredByRow, setBits_cons, List.map_append, List.map_map, List.map_map]
      simp only [Function.comp_def, Nat.add_zero, Nat.add_assoc, Nat.add_comm 1]

theorem length_covered (ox oy : Nat) (sprite : List UInt8) :
    (covered ox oy sprite).length = (setBits sprite).length := by
  rw [covered_eq_map, List.length_map]

theorem hits_eq_count (ox oy : Nat) (sprite : List UInt8) (hx : x < screenWidth)
    (hy : y < screenHeight) : hits ox oy sprite x y = (covered ox oy sprite).count (cell x y) := by
  rw [covered_eq_map, List.count, List.countP_map, hits]
  refine List.countP_congr fun p _ => ?_
  simp only [Function.comp_apply, decide_eq_true_eq, beq_iff_eq, cell_eq_iff hx hy]

/-- Two bits of a sprite no taller than the screen fall on different pixels. -/
theorem eq_of_cell_eq {r k r' k' : Nat} (hr : r < screenHeight) (hk : k < 8)
    (hr' : r' < screenHeight) (hk' : k' < 8)
    (hcell : cell (ox + k) (oy + r) = cell (ox + k') (oy + r')) : r = r' ∧ k = k' := by
  -- rows and columns are less than the size of the screen apart
  obtain ⟨hcolumn, hrow⟩ := (cell_eq_iff (Nat.mod_lt _ (by decide)) (Nat.mod_lt _ (by decide))).mp
    (hcell.trans (cell_mod (ox + k') (oy + r')).symm)
  simp only [screenWidth, screenHeight] at *
  omega

/-- **A sprite no taller than the screen** toggles no pixel twice. -/
theorem nodup_covered (ox oy : Nat) (h : sprite.length ≤ screenHeight) :
    (covered ox oy sprite).Nodup := by
  rw [covered_eq_map]
  refine List.Nodup.map_on ?_ ((List.nodup_range.product List.nodup_range).filter _)
  rintro ⟨r, k⟩ hp ⟨r', k'⟩ hp' hcell
  obtain ⟨⟨hr, hk⟩, -⟩ := mem_setBits.mp hp
  obtain ⟨⟨hr', hk'⟩, -⟩ := mem_setBits.mp hp'
  rw [Prod.mk.injEq]
  exact eq_of_cell_eq (Nat.lt_of_lt_of_le hr h) hk (Nat.lt_of_lt_of_le hr' h) hk' hcell

theorem mem_covered {c : Cell} : c ∈ covered ox oy sprite ↔ ∃ r < sprite.length, ∃ k < 8,
    (sprite.getD r 0).toNat.testBit (7 - k) = true ∧ cell (ox + k) (oy + r) = c := by
  rw [covered_eq_map, List.mem_map]
  constructor
  · rintro ⟨⟨r, k⟩, hp, hcell⟩
    obtain ⟨⟨hr, hk⟩, hbit⟩ := mem_setBits.mp hp
    exact ⟨r, hr, k, hk, hbit, hcell⟩
  · rintro ⟨r, hr, k, hk, hbit, hcell⟩
    exact ⟨(r, k), mem_setBits.mpr ⟨⟨hr, hk⟩, hbit⟩, hcell⟩

/-! ### Pixels and the flag -/

/-- A pixel changes if its place is toggled an odd number of times. -/
theorem isLit_drawSprite (f : Frame) (ox oy : Nat) (sprite : List UInt8) (c : Cell) :
    (f.drawSprite ox oy sprite).1.isLit c =
      (f.isLit c ^^ decide ((covered ox oy sprite).count c % 2 = 1)) :=
  isLit_foldl_toggle (covered ox oy sprite) f false c

theorem isLit_drawSprite_of_not_mem (f : Frame) {c : Cell} (h : c ∉ covered ox oy sprite) :
    (f.drawSprite ox oy sprite).1.isLit c = f.isLit c := by
  rw [isLit_drawSprite, List.count_eq_zero_of_not_mem h]
  exact Bool.xor_false _

/-- A sprite no taller than the screen changes the pixels under its set bits. -/
theorem isLit_drawSprite_of_mem (f : Frame) (hshort : sprite.length ≤ screenHeight) {c : Cell}
    (h : c ∈ covered ox oy sprite) : (f.drawSprite ox oy sprite).1.isLit c = !f.isLit c := by
  rw [isLit_drawSprite, List.count_eq_one_of_mem (nodup_covered ox oy hshort) h]
  exact Bool.xor_true _

/-- The pixel under a bit is toggled if the bit is set. -/
theorem pixel_drawSprite_of_bit (f : Frame) (h : sprite.length ≤ screenHeight) {r k : Nat}
    (hr : r < sprite.length) (hk : k < 8) :
    (f.drawSprite ox oy sprite).1.pixel (ox + k) (oy + r) =
      (f.pixel (ox + k) (oy + r) ^^ (sprite.getD r 0).toNat.testBit (7 - k)) := by
  have hmem : cell (ox + k) (oy + r) ∈ covered ox oy sprite ↔
      (sprite.getD r 0).toNat.testBit (7 - k) = true := by
    rw [mem_covered]
    constructor
    · rintro ⟨r', hr', k', hk', hbit, hcell⟩
      obtain ⟨rfl, rfl⟩ := eq_of_cell_eq (Nat.lt_of_lt_of_le hr' h) hk'
        (Nat.lt_of_lt_of_le hr h) hk hcell
      exact hbit
    · intro hbit
      exact ⟨r, hr, k, hk, hbit, rfl⟩
  cases hbit : (sprite.getD r 0).toNat.testBit (7 - k) with
  | true =>
      rw [Bool.xor_true]
      exact isLit_drawSprite_of_mem f h (hmem.mpr hbit)
  | false =>
      rw [Bool.xor_false]
      exact isLit_drawSprite_of_not_mem f (mt hmem.mp (Bool.eq_false_iff.mp hbit))

/-- A pixel under no bit is left alone. -/
theorem pixel_drawSprite_of_no_bit (f : Frame) (hx : x < screenWidth) (hy : y < screenHeight)
    (hno : ∀ r < sprite.length, ∀ k < 8,
      ¬ ((ox + k) % screenWidth = x ∧ (oy + r) % screenHeight = y)) :
    (f.drawSprite ox oy sprite).1.pixel x y = f.pixel x y := by
  have hmem : cell x y ∉ covered ox oy sprite := by
    rw [mem_covered]
    rintro ⟨r, hr, k, hk, -, hcell⟩
    exact hno r hr k hk ((cell_eq_iff hx hy).mp hcell)
  exact isLit_drawSprite_of_not_mem f hmem

theorem drawSprite_hit_iff (f : Frame) (ox oy : Nat) (sprite : List UInt8) :
    (f.drawSprite ox oy sprite).2 = true ↔
      ∃ c, GoesOut (f.isLit c) ((covered ox oy sprite).count c) := by
  have hflag := foldl_toggle_hit_iff (covered ox oy sprite) f false
  simp only [Bool.false_eq_true, false_or] at hflag
  exact hflag

/-- What holds of the pixel of some place holds of one in some column and row of the screen. -/
theorem exists_cell_iff {P : Cell → Prop} : (∃ c, P c) ↔
    ∃ x < screenWidth, ∃ y < screenHeight, P (cell x y) := by
  constructor
  · rintro ⟨c, h⟩
    obtain ⟨x, hx, y, hy, rfl⟩ := exists_cell c
    exact ⟨x, hx, y, hy, h⟩
  · rintro ⟨x, -, y, -, h⟩
    exact ⟨cell x y, h⟩

/-- **Drawing a sprite is exact.** A pixel changes if the number of set bits that fall on it is odd.
The flag says that a set bit fell on a pixel that was lit, or that two fell on one that was dark. For a
sprite no taller than the screen it says that a pixel was lit before and is dark after. -/
theorem drawSprite_exact (f : Frame) (ox oy : Nat) (sprite : List UInt8) :
    (∀ x < screenWidth, ∀ y < screenHeight, (f.drawSprite ox oy sprite).1.pixel x y =
      (f.pixel x y ^^ decide (hits ox oy sprite x y % 2 = 1))) ∧
    ((f.drawSprite ox oy sprite).2 = true ↔ ∃ x < screenWidth, ∃ y < screenHeight,
      f.pixel x y = true ∧ 1 ≤ hits ox oy sprite x y ∨
        f.pixel x y = false ∧ 2 ≤ hits ox oy sprite x y) ∧
    (sprite.length ≤ screenHeight →
      ((f.drawSprite ox oy sprite).2 = true ↔ ∃ x < screenWidth, ∃ y < screenHeight,
        f.pixel x y = true ∧ (f.drawSprite ox oy sprite).1.pixel x y = false)) := by
  refine ⟨?_, ?_, ?_⟩
  · intro x hx y hy
    rw [hits_eq_count ox oy sprite hx hy]
    exact isLit_drawSprite f ox oy sprite (cell x y)
  · rw [drawSprite_hit_iff, exists_cell_iff]
    refine exists_congr fun x => and_congr_right fun hx =>
      exists_congr fun y => and_congr_right fun hy => ?_
    rw [hits_eq_count ox oy sprite hx hy]
    rfl
  · intro hshort
    have honce := List.nodup_iff_count_le_one.mp (nodup_covered ox oy hshort)
    rw [drawSprite_hit_iff, exists_cell_iff]
    refine exists_congr fun x => and_congr_right fun _ =>
      exists_congr fun y => and_congr_right fun _ => ?_
    have hpixel := isLit_drawSprite f ox oy sprite (cell x y)
    have hle := honce (cell x y)
    exact goesOut_iff_of_le_one hle hpixel

/-- A frame on which a sprite was drawn around both edges. -/
def corner : Frame := (blank.drawSprite 60 31 [0xFF, 0x81]).1

/-- A sprite around the same edges puts out a pixel in the first row, so that one is lit before and dark
after. A sprite of thirty-three rows meets itself on a blank frame. -/
theorem corner_collides : (corner.drawSprite 62 31 [0xC0, 0xFF]).1.pixel 3 0 = false ∧
    (∃ x < screenWidth, ∃ y < screenHeight, corner.pixel x y = true ∧
      (corner.drawSprite 62 31 [0xC0, 0xFF]).1.pixel x y = false) ∧
    (blank.drawSprite 0 5 (List.replicate 33 0x80)).2 = true := by
  obtain ⟨hpixel, hflag, hshort⟩ := drawSprite_exact corner 62 31 [0xC0, 0xFF]
  obtain ⟨-, htall, -⟩ := drawSprite_exact blank 0 5 (List.replicate 33 0x80)
  have hhit : (corner.drawSprite 62 31 [0xC0, 0xFF]).2 = true :=
    hflag.mpr ⟨3, by decide, 0, by decide, .inl (by decide +kernel)⟩
  refine ⟨?_, (hshort (by decide)).mp hhit, ?_⟩
  · rw [hpixel 3 (by decide) 0 (by decide)]
    decide +kernel
  · exact htall.mpr ⟨0, by decide, 5, by decide, .inr (by decide +kernel)⟩

/-! ### The number of lit pixels -/

/-- Each set bit counts for one lit pixel more, but for one less if a lit pixel goes out. -/
theorem lit_drawSprite_add (f : Frame) (ox oy : Nat) (sprite : List UInt8) :
    (f.drawSprite ox oy sprite).1.lit + 2 * f.wentOut (covered ox oy sprite) =
      f.lit + (setBits sprite).length := by
  rw [← length_covered ox oy sprite]
  exact lit_foldl_toggle (covered ox oy sprite) f false

theorem drawSprite_hit (f : Frame) (ox oy : Nat) (sprite : List UInt8) :
    (f.drawSprite ox oy sprite).2 = decide (0 < f.wentOut (covered ox oy sprite)) :=
  foldl_toggle_hit (covered ox oy sprite) f false

/-- **Counting lit pixels.** Each set bit of a sprite lights a pixel or puts one out. So the number of
lit pixels grows by at most the number of set bits and has the parity of the sum, and the flag says that
it falls short of it. No frame has more lit pixels than the screen has pixels. -/
theorem lit_drawSprite (f : Frame) (ox oy : Nat) (sprite : List UInt8) :
    (f.drawSprite ox oy sprite).1.lit ≤ f.lit + (setBits sprite).length ∧
    (f.drawSprite ox oy sprite).1.lit % 2 = (f.lit + (setBits sprite).length) % 2 ∧
    ((f.drawSprite ox oy sprite).2 = true ↔
      (f.drawSprite ox oy sprite).1.lit ≠ f.lit + (setBits sprite).length) ∧
    f.lit ≤ 2048 := by
  have hlit := lit_drawSprite_add f ox oy sprite
  refine ⟨Nat.le.intro hlit, ?_, ?_, f.lit_le⟩
  · rw [← hlit]
    exact (Nat.add_mul_mod_self_left _ 2 _).symm
  · rw [drawSprite_hit, decide_eq_true_eq]
    omega

end ChipEight.Frame
