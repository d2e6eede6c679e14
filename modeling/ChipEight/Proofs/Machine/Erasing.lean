import Mathlib.Data.List.GetD
import ChipEight.Proofs.Frame.Drawing
import ChipEight.Proofs.Machine.Redraw

/-!
# Drawing twice erases

Drawing a sprite changes each pixel or leaves it, whatever the frame is. So the order of two sprites
does not matter, and the same sprite at the same place undoes itself. A program that draws the same rows
at the same place once more therefore gets back the frame that it had:

* `drawSprite_comm`, `drawSprite_drawSprite`, `hit_or_hit_iff` — frames;
* `State.DrawsAlike` — two states in which an instruction draws the same rows at the same place;
* `perform_draw_again` — states;
* `drawing_commutes_and_erases` — frames and machines.
-/

namespace ChipEight

/-! ### Frames -/

namespace Frame

/-- **The order of two sprites does not matter.** -/
theorem drawSprite_comm (f : Frame) (ax ay bx by' : Nat) (a b : List UInt8) :
    ((f.drawSprite ax ay a).1.drawSprite bx by' b).1 =
      ((f.drawSprite bx by' b).1.drawSprite ax ay a).1 :=
  ext_isLit fun c => by
    simp only [isLit_drawSprite]
    exact Bool.xor_right_comm _ _ _

/-- **A sprite undoes itself.** -/
theorem drawSprite_drawSprite (f : Frame) (x y : Nat) (sprite : List UInt8) :
    ((f.drawSprite x y sprite).1.drawSprite x y sprite).1 = f :=
  ext_isLit fun c => by
    rw [isLit_drawSprite, isLit_drawSprite, Bool.xor_assoc, Bool.xor_self, Bool.xor_false]

/-- A sprite has a set bit if one of its rows has one. -/
theorem length_setBits_pos_iff {sprite : List UInt8} :
    0 < (setBits sprite).length ↔ ∃ b ∈ sprite, ∃ k < 8, b.toNat.testBit k = true := by
  rw [List.length_pos_iff_exists_mem]
  constructor
  · rintro ⟨⟨r, k⟩, hp⟩
    obtain ⟨⟨hr, -⟩, hbit⟩ := mem_setBits.mp hp
    rw [List.getD_eq_getElem _ _ hr] at hbit
    exact ⟨sprite[r], List.getElem_mem hr, 7 - k, by omega, hbit⟩
  · rintro ⟨b, hb, k, hk, hbit⟩
    obtain ⟨r, hr, rfl⟩ := List.getElem_of_mem hb
    refine ⟨(r, 7 - k), mem_setBits.mpr ⟨⟨hr, by omega⟩, ?_⟩⟩
    rw [List.getD_eq_getElem _ _ hr, show 7 - (7 - k) = k by omega]
    exact hbit

/-- Every set bit puts out a pixel in one of the two times that a sprite is drawn. -/
theorem wentOut_add_wentOut (f : Frame) (x y : Nat) (sprite : List UInt8) :
    f.wentOut (covered x y sprite) + (f.drawSprite x y sprite).1.wentOut (covered x y sprite) =
      (setBits sprite).length := by
  have hfirst := lit_drawSprite_add f x y sprite
  have hsecond := lit_drawSprite_add (f.drawSprite x y sprite).1 x y sprite
  rw [drawSprite_drawSprite] at hsecond
  omega

/-- **One of the two times collides** if there is a set bit at all. -/
theorem hit_or_hit_iff (f : Frame) (x y : Nat) (sprite : List UInt8) :
    (f.drawSprite x y sprite).2 = true ∨
        ((f.drawSprite x y sprite).1.drawSprite x y sprite).2 = true ↔
      ∃ b ∈ sprite, ∃ k < 8, b.toNat.testBit k = true := by
  have htotal := wentOut_add_wentOut f x y sprite
  rw [← length_setBits_pos_iff, drawSprite_hit, drawSprite_hit, decide_eq_true_eq,
    decide_eq_true_eq]
  omega

end Frame

/-! ### States and machines -/

/-- An instruction that draws finds the same corner and the same rows in both states. -/
structure State.DrawsAlike (s t : State) (x y n : UInt8) : Prop where
  column_eq : t.reg x = s.reg x
  row_eq : t.reg y = s.reg y
  i_eq : t.i = s.i
  rows_eq : ∀ k < n.toNat,
    t.memory.read (s.i + UInt16.ofNat k) = s.memory.read (s.i + UInt16.ofNat k)

variable {s t : State} {x y n : UInt8}

theorem State.DrawsAlike.slice_eq (h : s.DrawsAlike t x y n) :
    t.memory.slice t.i n.toNat = s.memory.slice s.i n.toNat := by
  rw [h.i_eq]
  exact List.map_congr_left fun k hk => h.rows_eq k (List.mem_range.mp hk)

/-- **Drawing once more** gives back the frame from before. -/
theorem State.perform_draw_again (g g' : Generator) (h : s.DrawsAlike t x y n)
    (hframe : t.frame = (s.perform g (.draw x y n)).frame) :
    (t.perform g' (.draw x y n)).frame = s.frame := by
  rw [perform_frame] at hframe ⊢
  simp only [hframe, h.column_eq, h.row_eq, h.slice_eq]
  exact s.frame.drawSprite_drawSprite _ _ _

theorem Machine.execute_draw_again {m m' : Machine} (h : m.state.DrawsAlike m'.state x y n)
    (hframe : m'.state.frame = (m.execute (.draw x y n)).state.frame) :
    (m'.execute (.draw x y n)).state.frame = m.state.frame :=
  State.perform_draw_again m.generator m'.generator h hframe

/-- **Drawing commutes and erases.** Two sprites may be drawn in either order. A sprite drawn twice at
one place leaves the frame as it was, and one of the two times reports a collision if and only if the
sprite has a set bit. A machine that executes the instruction for the second time has the frame from
before the first time, if it finds the frame that the first time left, and the corner, the index register
and the rows as they were; so also after any history between two steps. The flag register may hold a
corner, and then it has to be set back. -/
theorem drawing_commutes_and_erases :
    (∀ (f : Frame) (ax ay bx by' : Nat) (a b : List UInt8),
      ((f.drawSprite ax ay a).1.drawSprite bx by' b).1 =
        ((f.drawSprite bx by' b).1.drawSprite ax ay a).1) ∧
    (∀ (f : Frame) (x y : Nat) (sprite : List UInt8),
      ((f.drawSprite x y sprite).1.drawSprite x y sprite).1 = f ∧
      ((f.drawSprite x y sprite).2 = true ∨
          ((f.drawSprite x y sprite).1.drawSprite x y sprite).2 = true ↔
        ∃ b ∈ sprite, ∃ k < 8, b.toNat.testBit k = true)) ∧
    (∀ (m m' : Machine) (x y n : UInt8), m.state.DrawsAlike m'.state x y n →
      m'.state.frame = (m.execute (.draw x y n)).state.frame →
      (m'.execute (.draw x y n)).state.frame = m.state.frame) ∧
    ∀ (m : Machine) (ops : List Operation) (x y n : UInt8),
      m.executed? = some (.draw x y n) →
      (m.run (.step :: ops)).executed? = some (.draw x y n) →
      m.state.DrawsAlike (m.run (.step :: ops)).state x y n →
      (m.run (.step :: ops)).state.frame = (m.run [.step]).state.frame →
      (m.run (.step :: ops ++ [.step])).state.frame = m.state.frame := by
  refine ⟨Frame.drawSprite_comm, fun f x y sprite =>
    ⟨f.drawSprite_drawSprite x y sprite, f.hit_or_hit_iff x y sprite⟩,
    fun m m' x y n halike hframe => Machine.execute_draw_again halike hframe, ?_⟩
  intro m ops x y n hfirst hsecond halike hframe
  have hleft : (m.run [.step]).state = (m.execute (.draw x y n)).state :=
    congrArg Machine.state (Machine.step_of_executed hfirst)
  have hlast : m.run (.step :: ops ++ [.step]) =
      (m.run (.step :: ops)).execute (.draw x y n) := by
    rw [Machine.run_concat]
    exact Machine.step_of_executed hsecond
  rw [hlast]
  exact Machine.execute_draw_again halike (hframe.trans (congrArg State.frame hleft))

/-- A program that draws a digit and then, over it, the same digit twice. The row of these two is in the
flag register, which the first of them changes and the next instruction sets again. -/
def overdrawn : Machine := (Machine.ofSeed 0).run
  [.load [0xF0, 0x29, 0xD0, 0x05, 0x6F, 0x03, 0xD0, 0xF5, 0x6F, 0x03, 0xD0, 0xF5],
    .step, .step, .step]

/-- It executes the instruction twice, with the same corner and the same rows. -/
theorem overdrawn_draws : (overdrawn.executed? = some (.draw 0 0xF 5) ∧
      (overdrawn.run [.step]).executed? = some (.load 0xF 3) ∧
      (overdrawn.run [.step, .step]).executed? = some (.draw 0 0xF 5)) ∧
    ((overdrawn.run [.step, .step]).state.reg 0 = overdrawn.state.reg 0 ∧
      (overdrawn.run [.step, .step]).state.reg 0xF = overdrawn.state.reg 0xF ∧
      (overdrawn.run [.step, .step]).state.i = overdrawn.state.i ∧
      ∀ k < 5, (overdrawn.run [.step, .step]).state.memory.read
        (overdrawn.state.i + UInt16.ofNat k) =
          overdrawn.state.memory.read (overdrawn.state.i + UInt16.ofNat k)) ∧
    overdrawn.state.frame.pixel 0 3 = true ∧
    (overdrawn.run [.step]).state.frame.pixel 0 3 = false ∧
    (overdrawn.run [.step]).state.reg 0xF = 1 := by
  decide +kernel

/-- A pixel of the first digit goes out and comes back, with all of the frame. -/
theorem overdrawn_erases : (overdrawn.run [.step]).state.reg 0xF = 1 ∧
    overdrawn.state.frame.pixel 0 3 = true ∧ (overdrawn.run [.step]).state.frame.pixel 0 3 = false ∧
    (overdrawn.run ([.step, .step] ++ [.step])).state.frame = overdrawn.state.frame := by
  obtain ⟨⟨hfirst, hbetween, hsecond⟩, ⟨hcolumn, hrow, hi, hrows⟩, hlit, hdark, hflag⟩ :=
    overdrawn_draws
  have hrun : overdrawn.run [.step, .step] = (overdrawn.run [.step]).step.1 :=
    (Machine.run_around_step overdrawn [.step] []).trans (Machine.run_nil _)
  have hframe : (overdrawn.run [.step, .step]).state.frame =
      (overdrawn.run [.step]).state.frame := by
    rw [hrun]
    apply Machine.frame_step
    rw [hbetween]
    rfl
  have halike : overdrawn.state.DrawsAlike (overdrawn.run [.step, .step]).state 0 0xF 5 :=
    ⟨hcolumn, hrow, hi, hrows⟩
  exact ⟨hflag, hlit, hdark, drawing_commutes_and_erases.2.2.2 overdrawn [.step] 0 0xF 5 hfirst
    hsecond halike hframe⟩

end ChipEight
