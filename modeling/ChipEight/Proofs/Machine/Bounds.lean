import ChipEight.Proofs.Instruction.Encoding
import ChipEight.Proofs.Machine.Footprint
import ChipEight.Proofs.Machine.History

/-!
# The bounds that every reachable machine keeps

The program counter, the index register and the return addresses are sixteen bits wide and masked in
some places only: the program counter is not masked when a word is passed over. What keeps them in
bounds is one invariant, `State.WellFormed` with `Machine.WellFormed`, that all operations keep:

* `State.wellFormed_perform`, `State.next_le` — what an instruction writes and where it goes on;
* `Machine.wellFormed_step` — one step, by its six cases;
* `Machine.Reachable.wellFormed` — every reachable machine.
-/

namespace ChipEight

/-- The numbers of a state are within bounds. The program counter may be up to four behind the last
address at which an instruction can start. -/
structure State.WellFormed (s : State) : Prop where
  i_le : s.i.toNat ≤ 0xFFF
  pc_le : s.pc.toNat ≤ 0x1002
  sp_le : s.sp.toNat ≤ 16
  stack_le : ∀ k (hk : k < stackDepth), s.stack[k].toNat ≤ 0xFFF
  wait_lt : ∀ x, s.wait = some x → x.toNat < 16

/-- The state of a machine is within bounds and its program fits into memory. -/
structure Machine.WellFormed (m : Machine) : Prop where
  state : m.state.WellFormed
  program_le : m.program.length ≤ 3583

namespace State

variable {s : State} {ins : Instruction}

/-! ### Words and masks -/

theorem pc_toNat_le (h : s.pc ≤ lastInstruction) : s.pc.toNat ≤ 0xFFE :=
  UInt16.le_iff_toNat_le.mp h

/-- Passing over a word does not wrap around. -/
theorem pc_add_toNat (h : s.pc ≤ lastInstruction) {k : UInt16} (hk : k.toNat ≤ 4) :
    (s.pc + k).toNat = s.pc.toNat + k.toNat := by
  have hpc := pc_toNat_le h
  rw [UInt16.toNat_add]
  exact Nat.mod_eq_of_lt (by omega)

/-- The low four bits of a number name a register. -/
theorem toNat_and_digit (x : UInt8) : (x &&& 0xF).toNat = x.toNat % registerCount := by
  rw [UInt8.toNat_and]
  exact Nat.and_two_pow_sub_one_eq_mod x.toNat 4

theorem toNat_and_digit_lt (x : UInt8) : (x &&& 0xF).toNat < 16 := by
  rw [toNat_and_digit]
  exact Nat.mod_lt _ (by decide)

/-- A glyph lies among the glyphs. -/
theorem glyphAddress_toNat (b : UInt8) :
    (fontAddress + (b &&& 0xF).toUInt16 * glyphSize).toNat = 0x50 + b.toNat % 16 * 5 := by
  have hb : b.toNat % 16 < 16 := Nat.mod_lt _ (by decide)
  rw [UInt16.toNat_add, UInt16.toNat_mul, UInt8.toNat_toUInt16, toNat_and_digit]
  simp only [fontAddress, glyphSize, registerCount, UInt16.reduceToNat]
  omega

/-! ### Instructions -/

theorem i_le_perform (h : s.WellFormed) (g : Generator) :
    (s.perform g ins).i.toNat ≤ 0xFFF := by
  rw [perform_i]
  split
  · exact toNat_and_addressMask_le _
  · exact toNat_and_addressMask_le _
  · rw [glyphAddress_toNat]
    omega
  · exact h.i_le

/-- Without a fault neither end of the stack is passed. -/
theorem sp_le_perform (h : s.WellFormed) (g : Generator) (hx : s.faultOf? ins = none) :
    (s.perform g ins).sp.toNat ≤ 16 := by
  have hsp := h.sp_le
  rw [perform_sp]
  cases ins with
  | call a =>
      have hroom := sp_lt_of_call hx
      simp only [UInt8.toNat_add, UInt8.toNat_one]
      omega
  | ret =>
      simp only [sp_sub_one_toNat hx]
      omega
  | _ => exact hsp

theorem stack_le_perform (h : s.WellFormed) (g : Generator) (k : Nat) (hk : k < stackDepth) :
    (s.perform g ins).stack[k].toNat ≤ 0xFFF := by
  simp only [perform_stack]
  split
  · rw [Vector.getElem_setIfInBounds]
    split
    · exact toNat_and_addressMask_le _
    · exact h.stack_le k hk
  · exact h.stack_le k hk

theorem wait_lt_perform (h : s.WellFormed) (g : Generator) (x : UInt8)
    (hw : (s.perform g ins).wait = some x) : x.toNat < 16 := by
  rw [perform_wait] at hw
  split at hw
  · cases hw
    exact toNat_and_digit_lt _
  · exact h.wait_lt x hw

/-- From an address at which an instruction can start, the program counter gets at most four
further. -/
theorem next_le (keypad : Keypad) (ins : Instruction) (hp : s.pc ≤ lastInstruction) :
    (s.next keypad ins).toNat ≤ 0x1002 := by
  have hpc := pc_toNat_le hp
  rcases s.next_cases ins keypad with h | h | ⟨a, h⟩
  · rw [h, pc_add_toNat hp (by decide)]
    exact Nat.le_trans (Nat.add_le_add_right hpc _) (by decide)
  · rw [h, pc_add_toNat hp (by decide)]
    exact Nat.le_trans (Nat.add_le_add_right hpc _) (by decide)
  · rw [h]
    exact Nat.le_trans (toNat_and_addressMask_le a) (by decide)

/-- **An instruction without a fault keeps the bounds.** -/
theorem wellFormed_perform (h : s.WellFormed) (g : Generator) (keypad : Keypad)
    (hp : s.pc ≤ lastInstruction) (hx : s.faultOf? ins = none) :
    ({ s.perform g ins with pc := s.next keypad ins } : State).WellFormed where
  i_le := i_le_perform h g
  pc_le := next_le keypad ins hp
  sp_le := sp_le_perform h g hx
  stack_le := stack_le_perform h g
  wait_lt := wait_lt_perform h g

/-- The state before anything has run is within bounds, whatever lies in memory. -/
theorem wellFormed_start (memory : Memory) : ({ memory := memory } : State).WellFormed where
  i_le := Nat.zero_le _
  pc_le := show programStart.toNat ≤ 0x1002 by decide
  sp_le := Nat.zero_le _
  stack_le := fun k hk => by
    rw [Vector.getElem_replicate]
    exact Nat.zero_le _
  wait_lt := fun x hx => by cases hx

end State

namespace Machine

variable {m : Machine}

/-! ### Operations -/

/-- **A step keeps the bounds.** -/
theorem wellFormed_step (h : m.WellFormed) : m.step.1.WellFormed := by
  generalize hs : m.step = r
  obtain ⟨m', o⟩ := r
  cases stepped_of_eq hs with
  | stopped hf => exact h
  | waiting hf hw => exact h
  | pastEnd hf hw hp => exact h
  | stop ha hd hx => exact ⟨h.state, h.program_le⟩
  | skip ha hd =>
      have hpc : (m.state.pc + 2).toNat ≤ 0x1002 := by
        rw [State.pc_add_toNat ha.pc_le (by decide)]
        exact Nat.le_trans (Nat.add_le_add_right (State.pc_toNat_le ha.pc_le) _) (by decide)
      exact ⟨{ h.state with pc_le := hpc }, h.program_le⟩
  | run ha hd hx =>
      exact ⟨State.wellFormed_perform h.state _ _ ha.pc_le hx, h.program_le⟩

theorem wellFormed_reset (h : m.program.length ≤ 3583) : m.reset.WellFormed :=
  ⟨State.wellFormed_start _, h⟩

theorem wellFormed_completeWait (h : m.WellFormed) (k : UInt8) :
    (m.completeWait k).WellFormed := by
  unfold completeWait
  split
  · exact h
  · exact ⟨{ h.state with wait_lt := fun x hx => by cases hx }, h.program_le⟩

theorem wellFormed_keyEvent (h : m.WellFormed) (k : UInt8) (down : Bool) :
    (m.keyEvent k down).WellFormed := by
  unfold keyEvent
  split
  · split
    · apply wellFormed_completeWait
      exact ⟨h.state, h.program_le⟩
    · exact ⟨h.state, h.program_le⟩
  · exact h

theorem wellFormed_takeFrame (h : m.WellFormed) : m.takeFrame.1.WellFormed := by
  unfold takeFrame
  split
  · exact ⟨{ h.state with }, h.program_le⟩
  · exact h

/-- Every operation keeps the bounds, an accepted program being short enough. -/
theorem wellFormed_apply (h : m.WellFormed) (op : Operation) : (m.apply op).1.WellFormed := by
  cases op with
  | load program =>
      simp only [apply, load]
      by_cases hlong : maxProgramSize < program.length
      · simp only [if_pos hlong]
        exact h
      · simp only [if_neg hlong]
        exact wellFormed_reset (m := { m with program := program }) (Nat.le_of_not_lt hlong)
  | reset => exact wellFormed_reset h.program_le
  | step => exact wellFormed_step h
  | tick => exact ⟨{ h.state with }, h.program_le⟩
  | key k down => exact wellFormed_keyEvent h k down
  | isPressed k => exact h
  | current => exact h
  | takeFrame => exact wellFormed_takeFrame h

theorem wellFormed_ofSeed (seed : UInt64) : (ofSeed seed).WellFormed :=
  ⟨State.wellFormed_start _, Nat.zero_le _⟩

/-- **Every reachable machine keeps the bounds.** -/
theorem Reachable.wellFormed (h : m.Reachable) : m.WellFormed :=
  h.induction wellFormed_ofSeed fun _ op hm => wellFormed_apply hm op

end Machine

end ChipEight
