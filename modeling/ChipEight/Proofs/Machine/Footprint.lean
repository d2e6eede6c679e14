import ChipEight.Machine
import ChipEight.Proofs.Machine.Storage

/-!
# What instructions leave alone

For each part of the state except the registers, the instructions that write it and what they write;
all others leave it as it was. The register file is reached only through `setReg` and `setRegisters`,
so the parts besides it do not see the instructions that only compute. Then the three ways in which
the program goes on, with the next word, with the one after it, or at an address of twelve bits, and
the two in which an instruction meets a fault.
-/

namespace ChipEight.State

variable (s : State) (g : Generator) (ins : Instruction) (keypad : Keypad)

/-- Setting registers reaches the register file alone. -/
theorem setRegisters_eq (bytes : List UInt8) :
    s.setRegisters bytes = { s with v := (s.setRegisters bytes).v } := by
  simp only [setRegisters]

theorem setRegisters_i (bytes : List UInt8) : (s.setRegisters bytes).i = s.i := by
  rw [setRegisters_eq]

theorem setRegisters_memory (bytes : List UInt8) : (s.setRegisters bytes).memory = s.memory := by
  rw [setRegisters_eq]

theorem perform_pc : (s.perform g ins).pc = s.pc := by
  cases ins with
  | loadRegisters x => rw [perform, setRegisters_eq]
  | _ => rfl

theorem perform_i : (s.perform g ins).i = match ins with
    | .loadIndex a => a &&& addressMask
    | .addIndex x => (s.i + (s.reg x).toUInt16) &&& addressMask
    | .loadGlyph x => fontAddress + (s.reg x &&& 0xF).toUInt16 * glyphSize
    | _ => s.i := by
  cases ins with
  | loadRegisters x => rw [perform, setRegisters_eq]
  | _ => rfl

theorem perform_sp : (s.perform g ins).sp = match ins with
    | .call _ => s.sp + 1
    | .ret => s.sp - 1
    | _ => s.sp := by
  cases ins with
  | loadRegisters x => rw [perform, setRegisters_eq]
  | _ => rfl

theorem perform_stack : (s.perform g ins).stack = match ins with
    | .call _ => s.stack.setIfInBounds s.sp.toNat ((s.pc + 2) &&& addressMask)
    | _ => s.stack := by
  cases ins with
  | loadRegisters x => rw [perform, setRegisters_eq]
  | _ => rfl

theorem perform_memory : (s.perform g ins).memory = match ins with
    | .storeBcd x => s.memory.copy s.i (decimalDigits (s.reg x))
    | .storeRegisters x => s.memory.copy s.i (s.v.toList.take (blockLength x))
    | _ => s.memory := by
  cases ins with
  | loadRegisters x => rw [perform, setRegisters_eq]
  | _ => rfl

theorem perform_wait : (s.perform g ins).wait = match ins with
    | .awaitKey x => some (x &&& 0xF)
    | _ => s.wait := by
  cases ins with
  | loadRegisters x => rw [perform, setRegisters_eq]
  | _ => rfl

theorem perform_frame : (s.perform g ins).frame = match ins with
    | .clearScreen => Frame.blank
    | .draw x y n =>
      (s.frame.drawSprite (s.reg x).toNat (s.reg y).toNat (s.memory.slice s.i n.toNat)).1
    | _ => s.frame := by
  cases ins with
  | loadRegisters x => rw [perform, setRegisters_eq]
  | _ => rfl

theorem perform_redraw : (s.perform g ins).redraw = match ins with
    | .clearScreen => true
    | .draw _ _ _ => true
    | _ => s.redraw := by
  cases ins with
  | loadRegisters x => rw [perform, setRegisters_eq]
  | _ => rfl

theorem skipIf_cases (skip : Bool) : s.skipIf skip = s.pc + 2 ∨ s.skipIf skip = s.pc + 4 := by
  cases skip
  · exact .inl rfl
  · exact .inr rfl

/-- **Where a program goes on**: at one of the next two words or at a masked address. -/
theorem next_cases : s.next keypad ins = s.pc + 2 ∨ s.next keypad ins = s.pc + 4 ∨
    ∃ a : UInt16, s.next keypad ins = a &&& addressMask := by
  have hskip : ∀ b, s.skipIf b = s.pc + 2 ∨ s.skipIf b = s.pc + 4 ∨
      ∃ a : UInt16, s.skipIf b = a &&& addressMask := fun b =>
    (s.skipIf_cases b).imp_right .inl
  cases ins with
  | ret => exact .inr (.inr ⟨_, rfl⟩)
  | jump a => exact .inr (.inr ⟨_, rfl⟩)
  | call a => exact .inr (.inr ⟨_, rfl⟩)
  | jumpOffset a => exact .inr (.inr ⟨_, rfl⟩)
  | skipIfEqual x b => exact hskip _
  | skipIfNotEqual x b => exact hskip _
  | skipIfRegistersEqual x y => exact hskip _
  | skipIfRegistersNotEqual x y => exact hskip _
  | skipIfPressed x => exact hskip _
  | skipIfNotPressed x => exact hskip _
  | _ => exact .inl rfl

/-! ### The fault that an instruction meets -/

variable {s ins}

/-- Only a call with a full stack and a return with an empty one meet a fault. -/
theorem faultOf?_cases {f : Fault} (h : s.faultOf? ins = some f) :
    (∃ a, ins = .call a ∧ stackDepth ≤ s.sp.toNat ∧ f = .stackOverflow s.pc) ∨
      (ins = .ret ∧ s.sp = 0 ∧ f = .stackUnderflow s.pc) := by
  cases ins with
  | call a =>
      by_cases hfull : stackDepth ≤ s.sp.toNat
      · have hfault : s.faultOf? (.call a) = some (.stackOverflow s.pc) := if_pos hfull
        rw [hfault] at h
        cases h
        exact .inl ⟨a, rfl, hfull, rfl⟩
      · have hnone : s.faultOf? (.call a) = none := if_neg hfull
        rw [hnone] at h
        cases h
  | ret =>
      by_cases hempty : s.sp = 0
      · have hfault : s.faultOf? .ret = some (.stackUnderflow s.pc) := if_pos hempty
        rw [hfault] at h
        cases h
        exact .inr ⟨rfl, hempty, rfl⟩
      · have hnone : s.faultOf? .ret = none := if_neg hempty
        rw [hnone] at h
        cases h
  | _ => cases h

theorem sp_lt_of_call {a : UInt16} (h : s.faultOf? (.call a) = none) : s.sp.toNat < 16 := by
  apply Nat.lt_of_not_le
  intro hfull
  have hfault : s.faultOf? (.call a) = some (.stackOverflow s.pc) := if_pos hfull
  rw [h] at hfault
  cases hfault

theorem sp_pos_of_ret (h : s.faultOf? .ret = none) : 1 ≤ s.sp.toNat := by
  apply Nat.one_le_iff_ne_zero.mpr
  intro hzero
  have hfault : s.faultOf? .ret = some (.stackUnderflow s.pc) :=
    if_pos (UInt8.toNat_inj.mp hzero)
  rw [h] at hfault
  cases hfault

/-- A return address is taken off without wrapping around. -/
theorem sp_sub_one_toNat (h : s.faultOf? .ret = none) : (s.sp - 1).toNat = s.sp.toNat - 1 :=
  UInt8.toNat_sub_of_le _ _ (UInt8.le_iff_toNat_le.mpr (sp_pos_of_ret h))

end ChipEight.State
