import Mathlib.Data.List.GetD
import ChipEight.Proofs.Frame.Drawing
import ChipEight.Proofs.Machine.InRange
import ChipEight.Proofs.Machine.Storage
import ChipEight.Proofs.Machine.Step

/-!
# Drawing, from memory to the screen

The instruction that draws takes the rows of its sprite from memory, going around its end, and its corner
from two registers, which are read before the flag register is written. What it makes of a machine is said
here bit by bit: each bit of a row is put onto the pixel that it falls on, going around the edges of the
screen.

* `Machine.Drawn` — a machine after another one has drawn;
* `drawSprite_slice_of_bit`, `drawSprite_slice_of_no_bit` — the frame, with the rows as bytes of memory;
* `draw_exact` — the instruction does so.
-/

namespace ChipEight

namespace Machine

/-- The second machine is the first after it has drawn `n` rows. Bit `b` of row `r` is put onto the pixel
that it falls on, and the pixels under no bit stay. The flag register says whether a lit pixel is dark
now. No other register changes, the mark is set, and the program goes on with the next word. -/
structure Drawn (m : Machine) (x y n : UInt8) (m' : Machine) : Prop where
  pixel_of_bit : ∀ r < n.toNat, ∀ b < 8,
    m'.state.frame.pixel ((m.state.value x + b) % 64) ((m.state.value y + r) % 32) =
      (m.state.frame.pixel ((m.state.value x + b) % 64) ((m.state.value y + r) % 32) ^^
        (m.state.memory.byteAt (m.state.i.toNat + r)).toNat.testBit (7 - b))
  pixel_of_no_bit : ∀ px < 64, ∀ py < 32,
    (∀ r < n.toNat, ∀ b < 8,
      ¬ ((m.state.value x + b) % 64 = px ∧ (m.state.value y + r) % 32 = py)) →
    m'.state.frame.pixel px py = m.state.frame.pixel px py
  flag_of_dark : (∃ px < 64, ∃ py < 32, m.state.frame.pixel px py = true ∧
    m'.state.frame.pixel px py = false) → m'.state.v.get 15 = 1
  flag_of_not_dark : (¬ ∃ px < 64, ∃ py < 32, m.state.frame.pixel px py = true ∧
    m'.state.frame.pixel px py = false) → m'.state.v.get 15 = 0
  others_eq : ∀ r, r ≠ 15 → m'.state.v.get r = m.state.v.get r
  rest_eq : m' = { m with state := { m.state with
    v := m'.state.v, frame := m'.state.frame, redraw := true, pc := m.state.pc + 2 } }

/-! ### The frame -/

variable {f : Frame} {memory : Memory} {i : UInt16} {ox oy n x y : Nat}

theorem drawSprite_slice_of_bit (hn : n ≤ screenHeight) {r b : Nat} (hr : r < n) (hb : b < 8) :
    (f.drawSprite ox oy (memory.slice i n)).1.pixel ((ox + b) % screenWidth)
        ((oy + r) % screenHeight) =
      (f.pixel ((ox + b) % screenWidth) ((oy + r) % screenHeight) ^^
        (memory.byteAt (i.toNat + r)).toNat.testBit (7 - b)) := by
  have hlen := Memory.length_slice memory i n
  have hrow : (memory.slice i n).getD r 0 = memory.byteAt (i.toNat + r) := by
    rw [List.getD_eq_getElem _ _ (by omega), Memory.getElem_slice]
  rw [Frame.pixel_mod, Frame.pixel_mod,
    Frame.pixel_drawSprite_of_bit f (by omega) (by omega) hb, hrow]

theorem drawSprite_slice_of_no_bit (hx : x < screenWidth) (hy : y < screenHeight)
    (hno : ∀ r < n, ∀ b < 8,
      ¬ ((ox + b) % screenWidth = x ∧ (oy + r) % screenHeight = y)) :
    (f.drawSprite ox oy (memory.slice i n)).1.pixel x y = f.pixel x y := by
  have hlen := Memory.length_slice memory i n
  apply Frame.pixel_drawSprite_of_no_bit f hx hy
  intro r hr
  exact hno r (by omega)

/-! ### The instruction -/

/-- What a drawing instruction leaves, by the frame and the flag that the sprite leaves. -/
theorem execute_draw (m : Machine) (x y n : UInt8) :
    let drawn := m.state.frame.drawSprite (m.state.value x) (m.state.value y)
      (m.state.memory.slice m.state.i n.toNat)
    m.execute (.draw x y n) = { m with state := { m.state with
      v := (m.state.setFlag drawn.2).v, frame := drawn.1, redraw := true, pc := m.state.pc + 2 } } :=
  rfl

/-- **The instruction that draws is exact**, with an index register of twelve bits and less than sixteen
rows, whichever registers hold the corner. It meets no fault, and none of its sums passes its width. -/
theorem draw_exact (m : Machine) {n : UInt8} (hi : m.state.i.toNat ≤ 0xFFF) (hn : n.toNat < 16)
    (x y : UInt8) :
    m.Drawn x y n (m.execute (.draw x y n)) ∧
    m.state.faultOf? (.draw x y n) = none ∧
    (m.state.pc.toNat + 2 < UInt16.size →
      Guarded.execute m.state m.keypad m.generator (.draw x y n) =
        some (.ok (m.execute (.draw x y n)).state)) := by
  have hshort : n.toNat ≤ screenHeight := Nat.le_trans (Nat.le_of_lt hn) (by decide)
  have hlen := Memory.length_slice m.state.memory m.state.i n.toNat
  have hexecute := execute_draw m x y n
  generalize hdrawn : m.state.frame.drawSprite (m.state.value x) (m.state.value y)
    (m.state.memory.slice m.state.i n.toNat) = drawn at hexecute
  have hflag : drawn.2 = true ↔ ∃ px < 64, ∃ py < 32,
      m.state.frame.pixel px py = true ∧ drawn.1.pixel px py = false := by
    rw [← hdrawn]
    exact (Frame.drawSprite_exact _ _ _ _).2.2 (by omega)
  refine ⟨?_, rfl, Guarded.execute_of_next (Guarded.draw_eq hi hn x y) rfl⟩
  rw [hexecute]
  refine ⟨?_, ?_, ?_, ?_, ?_, rfl⟩
  · intro r hr b hb
    show drawn.1.pixel _ _ = _
    rw [← hdrawn]
    exact drawSprite_slice_of_bit hshort hr hb
  · intro px hpx py hpy hno
    show drawn.1.pixel _ _ = _
    rw [← hdrawn]
    exact drawSprite_slice_of_no_bit hpx hpy hno
  · intro hdark
    show (m.state.setFlag drawn.2).v.get 15 = 1
    rw [State.get_setFlag, if_pos rfl, hflag.mpr hdark]
    rfl
  · intro hnot
    show (m.state.setFlag drawn.2).v.get 15 = 0
    rw [State.get_setFlag, if_pos rfl, Bool.eq_false_iff.mpr (mt hflag.mp hnot)]
    rfl
  · intro r hr
    show (m.state.setFlag drawn.2).v.get r = m.state.v.get r
    rw [State.get_setFlag, if_neg hr]

/-- A machine with three rows around the end of memory and a frame with lit pixels around a corner of the
screen. The flag register holds the column and the row. -/
def cornered : Machine :=
  { ofSeed 0 with state := { ({} : State).setReg 0xF 0x3F with
    i := 0xFFE
    memory := Memory.powerOn.copy 0xFFE [0xC3, 0xFF, 0x81]
    frame := Frame.corner } }

/-- A pixel on the right edge goes out, the one next to it stays, and the third row, from the first byte of
memory, lights one in the second row of the screen. The flag takes the place of the corner. -/
theorem cornered_draws : (cornered.state.i.toNat = 0xFFE ∧ cornered.state.value 0xF = 0x3F) ∧
    (cornered.execute (.draw 0xF 0xF 3)).state.frame.pixel 63 31 = false ∧
    (cornered.execute (.draw 0xF 0xF 3)).state.frame.pixel 62 31 = true ∧
    (cornered.execute (.draw 0xF 0xF 3)).state.frame.pixel 6 1 = true ∧
    (cornered.execute (.draw 0xF 0xF 3)).state.v.get 15 = 1 := by
  have hi : cornered.state.i.toNat = 0xFFE := rfl
  have hcorner : cornered.state.value 0xF = 0x3F := by decide +kernel
  obtain ⟨hedge, hbeside, hbelow⟩ : cornered.state.frame.pixel 63 31 = true ∧
      cornered.state.frame.pixel 62 31 = true ∧ cornered.state.frame.pixel 6 1 = false := by
    decide +kernel
  have hlen : [0xC3, 0xFF, (0x81 : UInt8)].length ≤ memorySize := by decide
  have htop : cornered.state.memory.byteAt 0xFFE = 0xC3 :=
    Memory.byteAt_copy_inside (r := 0) _ 0xFFE hlen (by decide)
  have hbottom : cornered.state.memory.byteAt 0x1000 = 0x81 :=
    Memory.byteAt_copy_inside (r := 2) _ 0xFFE hlen (by decide)
  obtain ⟨hdrawn, -, -⟩ := draw_exact (n := 3) cornered (by omega) (by decide) 0xF 0xF
  have hout := hdrawn.pixel_of_bit 0 (by decide) 0 (by decide)
  have hstays := hdrawn.pixel_of_no_bit 62 (by decide) 31 (by decide)
  have hlights := hdrawn.pixel_of_bit 2 (by decide) 7 (by decide)
  rw [hcorner, hi] at hout hlights
  rw [hcorner] at hstays
  have hdark : (cornered.execute (.draw 0xF 0xF 3)).state.frame.pixel 63 31 = false :=
    hout.trans (by rw [htop, hedge]; rfl)
  refine ⟨⟨hi, hcorner⟩, hdark, ?_, hlights.trans (by rw [hbottom, hbelow]; rfl),
    hdrawn.flag_of_dark ⟨63, by decide, 31, by decide, hedge, hdark⟩⟩
  rw [hstays (by decide)]
  exact hbeside

end Machine

end ChipEight
