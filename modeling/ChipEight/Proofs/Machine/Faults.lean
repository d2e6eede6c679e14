import ChipEight.Proofs.Machine.Bounds
import ChipEight.Proofs.Machine.Standstill

/-!
# Stack faults stop a program for good

A call with a full stack and a return with an empty one are found out before anything is written.
What the machine records then stays true: the program counter is still at the instruction, and the
stack is still as it was. The file proves

* `raises_iff` — which fault a step raises, by the word at the program counter;
* `Reachable.stopped` — what a recorded fault says of the machine;
* `Stopped.run` — a history that does not start the program again keeps all of that;
* `stack_fault_sticks` — the three together.
-/

namespace ChipEight

/-- The word at the program counter is a call with a full stack or a return with an empty one, and
the fault says which of them and where. -/
inductive State.Meets (s : State) : Fault → Prop
  | overflow {a : UInt16} (hins : s.current? = some (.call a)) (hsp : s.sp = 16) :
      s.Meets (.stackOverflow s.pc)
  | underflow (hins : s.current? = some .ret) (hsp : s.sp = 0) :
      s.Meets (.stackUnderflow s.pc)

namespace State

variable {s s' : State} {ins : Instruction} {f : Fault}

theorem sp_eq_of_full (h : s.WellFormed) (hfull : stackDepth ≤ s.sp.toNat) : s.sp = 16 :=
  UInt8.toNat_inj.mp (Nat.le_antisymm h.sp_le hfull)

theorem meets_of_faultOf (h : s.WellFormed) (hins : s.current? = some ins)
    (hx : s.faultOf? ins = some f) : s.Meets f := by
  rcases faultOf?_cases hx with ⟨a, rfl, hfull, rfl⟩ | ⟨rfl, hempty, rfl⟩
  · exact .overflow hins (sp_eq_of_full h hfull)
  · exact .underflow hins hempty

theorem Meets.faultOf (h : s.Meets f) :
    ∃ ins, s.current? = some ins ∧ s.faultOf? ins = some f := by
  cases h with
  | @overflow a hins hsp =>
      refine ⟨.call a, hins, if_pos ?_⟩
      rw [hsp]
      decide
  | underflow hins hsp => exact ⟨.ret, hins, if_pos hsp⟩

theorem Meets.not_recoverable (h : s.Meets f) : f.isRecoverable = false := by
  cases h <;> rfl

/-- Whether a fault is met depends on memory, program counter and stack pointer alone. -/
theorem Meets.of_sameStore (h : s.Meets f) (hs : s.SameStore s') : s'.Meets f := by
  cases h with
  | overflow hins hsp =>
      rw [← hs.pc_eq]
      exact .overflow (hs.current?_eq.trans hins) (hs.sp_eq.trans hsp)
  | underflow hins hsp =>
      rw [← hs.pc_eq]
      exact .underflow (hs.current?_eq.trans hins) (hs.sp_eq.trans hsp)

end State

namespace Machine

variable {m : Machine} {f : Fault} {ops : List Operation}

/-! ### Raising a fault -/

/-- The next step meets the fault, and none was recorded before. -/
def Raises (m : Machine) (f : Fault) : Prop := m.fault = none ∧ m.step.2 = .faulted f

/-- **When a step raises a fault that stops the program.** -/
theorem raises_iff (h : m.WellFormed) (hf : f.isRecoverable = false) :
    m.Raises f ↔ m.Active ∧ m.state.Meets f := by
  constructor
  · rintro ⟨hnone, ho⟩
    generalize hs : m.step = r at ho
    obtain ⟨m', o⟩ := r
    cases stepped_of_eq hs with
    | stopped hsome =>
        rw [hnone] at hsome
        cases hsome
    | waiting hnone hw => cases ho
    | pastEnd hnone hw hp => cases ho
    | skip ha hd =>
        cases ho
        cases hf
    | stop ha hd hx =>
        cases ho
        exact ⟨ha, State.meets_of_faultOf h.state hd hx⟩
    | run ha hd hx => exact (outcomeOf_ne_faulted _ _ _ ho).elim
  · rintro ⟨ha, hmeets⟩
    obtain ⟨ins, hd, hx⟩ := hmeets.faultOf
    refine ⟨ha.fault_none, ?_⟩
    rw [step_stop ha hd hx]

/-- The step that raises the fault does nothing but record it. -/
theorem step_of_meets (ha : m.Active) (h : m.state.Meets f) :
    m.step = (m.stop f, .faulted f) := by
  obtain ⟨ins, hd, hx⟩ := h.faultOf
  exact step_stop ha hd hx

/-! ### A recorded fault -/

/-- The machine has recorded a fault that the word at its program counter still meets. -/
structure Stopped (m : Machine) (f : Fault) : Prop where
  fault_eq : m.fault = some f
  wait_none : m.state.wait = none
  meets : m.state.Meets f

/-- What a step has recorded is met by the program. -/
theorem stopped_step (hw : m.WellFormed) (h : ∀ f, m.fault = some f → m.Stopped f)
    (hf : m.step.1.fault = some f) : m.step.1.Stopped f := by
  generalize hs : m.step = r at hf
  obtain ⟨m', o⟩ := r
  cases stepped_of_eq hs with
  | stopped hsome => exact h f hf
  | waiting hnone hwait => exact h f hf
  | pastEnd hnone hwait hp => exact h f hf
  | skip ha hd =>
      have hnone : m.skipWord.fault = none := ha.fault_none
      rw [hnone] at hf
      cases hf
  | stop ha hd hx =>
      cases hf
      exact ⟨rfl, ha.wait_none, State.meets_of_faultOf hw.state hd hx⟩
  | run ha hd hx =>
      rw [execute_fault, ha.fault_none] at hf
      cases hf

/-- Between steps a host does not change what a recorded fault says. -/
theorem Stopped.of_state {m' : Machine} (h : m.Stopped f) (hf : m'.fault = m.fault)
    (hr : m.state.SameRegisters m'.state) (hs : m.state.SameStore m'.state) : m'.Stopped f where
  fault_eq := hf.trans h.fault_eq
  wait_none := hr.wait_eq.trans h.wait_none
  meets := h.meets.of_sameStore hs

theorem Stopped.keyEvent_state (h : m.Stopped f) (k : UInt8) (down : Bool) :
    (m.keyEvent k down).state = m.state := by
  rw [Machine.keyEvent_state, State.receive_of_wait_none h.wait_none]

theorem Stopped.tick (h : m.Stopped f) : m.tick.Stopped f :=
  h.of_state rfl (sameRegisters_tick m) (sameStore_tick m)

theorem Stopped.keyEvent (h : m.Stopped f) (k : UInt8) (down : Bool) :
    (m.keyEvent k down).Stopped f := by
  apply h.of_state (keyEvent_fault m k down)
  · rw [h.keyEvent_state]
    exact .rfl
  · rw [h.keyEvent_state]
    exact .rfl

theorem Stopped.takeFrame (h : m.Stopped f) : m.takeFrame.1.Stopped f :=
  h.of_state (takeFrame_fault m) (sameRegisters_takeFrame m) (sameStore_takeFrame m)

/-- Starting the program again forgets the fault. -/
theorem fault_of_not_continues {op : Operation} (h : ¬ op.Continues) :
    (m.apply op).1.fault = none := by
  obtain ⟨program, hstart⟩ := apply_of_not_continues m h
  rw [hstart]
  rfl

/-- **What a recorded fault says of a reachable machine.** -/
theorem Reachable.stopped (h : m.Reachable) (hf : m.fault = some f) : m.Stopped f := by
  have hinv : m.WellFormed ∧ ∀ f, m.fault = some f → m.Stopped f := by
    refine h.induction (P := fun m => m.WellFormed ∧ ∀ f, m.fault = some f → m.Stopped f)
      (fun seed => ⟨wellFormed_ofSeed seed, fun f hnew => by cases hnew⟩) ?_
    rintro m op ⟨hw, hm⟩
    refine ⟨wellFormed_apply hw op, fun f hf => ?_⟩
    by_cases hop : op.Continues
    · cases op with
      | load program =>
          simp only [apply, load_of_too_large m hop] at hf ⊢
          exact hm f hf
      | reset => exact hop.elim
      | step => exact stopped_step hw hm hf
      | tick => exact (hm f hf).tick
      | key k down => exact (hm f ((keyEvent_fault m k down).symm.trans hf)).keyEvent k down
      | isPressed k => exact hm f hf
      | current => exact hm f hf
      | takeFrame => exact (hm f ((takeFrame_fault m).symm.trans hf)).takeFrame
    · rw [fault_of_not_continues hop] at hf
      cases hf
  exact hinv.2 f hf

/-- **A history that continues a stopped program changes nothing of it.** -/
theorem Stopped.run (h : m.Stopped f) (hops : ∀ op ∈ ops, op.Continues) :
    (m.run ops).Stopped f ∧ m.state.SameRegisters (m.run ops).state ∧
      m.state.SameStore (m.run ops).state := by
  refine run_of_continues (P := fun m' => m'.Stopped f ∧ m.state.SameRegisters m'.state ∧
    m.state.SameStore m'.state) hops ⟨h, .rfl, .rfl⟩ ?_ ?_ ?_ ?_
  · rintro m' ⟨hstop, hr, hs⟩
    rw [step_fixed_of_fault hstop.fault_eq]
    exact ⟨hstop, hr, hs⟩
  · rintro m' ⟨hstop, hr, hs⟩
    exact ⟨hstop.tick, hr.trans (sameRegisters_tick m'), hs.trans (sameStore_tick m')⟩
  · rintro m' k down ⟨hstop, hr, hs⟩
    rw [hstop.keyEvent_state]
    exact ⟨hstop.keyEvent k down, hr, hs⟩
  · rintro m' ⟨hstop, hr, hs⟩
    exact ⟨hstop.takeFrame, hr.trans (sameRegisters_takeFrame m'),
      hs.trans (sameStore_takeFrame m')⟩

theorem raises_stackOverflow_iff (h : m.WellFormed) (a : UInt16) :
    m.Raises (.stackOverflow a) ↔ m.Active ∧ a = m.state.pc ∧
      (∃ target, m.current? = some (.call target)) ∧ m.state.sp = 16 := by
  rw [raises_iff h rfl]
  constructor
  · rintro ⟨ha, hmeets⟩
    cases hmeets with
    | overflow hins hsp => exact ⟨ha, rfl, ⟨_, hins⟩, hsp⟩
  · rintro ⟨ha, rfl, ⟨target, hins⟩, hsp⟩
    exact ⟨ha, .overflow hins hsp⟩

theorem raises_stackUnderflow_iff (h : m.WellFormed) (a : UInt16) :
    m.Raises (.stackUnderflow a) ↔ m.Active ∧ a = m.state.pc ∧
      m.current? = some .ret ∧ m.state.sp = 0 := by
  rw [raises_iff h rfl]
  constructor
  · rintro ⟨ha, hmeets⟩
    cases hmeets with
    | underflow hins hsp => exact ⟨ha, rfl, hins, hsp⟩
  · rintro ⟨ha, rfl, hins, hsp⟩
    exact ⟨ha, .underflow hins hsp⟩

/-- **Stack faults are atomic and stick.** On a reachable machine a step raises one exactly if the
machine is active and its word is a call with a full stack, or a return with an empty one; it then
changes nothing else. A recorded fault is one of the two and is still met by the word at the program
counter, no key is waited for, and whatever follows without a new start of the program, each step
repeats the fault and nothing of the program changes. A new start forgets it. -/
theorem stack_fault_sticks (h : m.Reachable) :
    (∀ a, m.Raises (.stackOverflow a) ↔ m.Active ∧ a = m.state.pc ∧
      (∃ target, m.current? = some (.call target)) ∧ m.state.sp = 16) ∧
    (∀ a, m.Raises (.stackUnderflow a) ↔ m.Active ∧ a = m.state.pc ∧
      m.current? = some .ret ∧ m.state.sp = 0) ∧
    (∀ f, f.isRecoverable = false → m.Raises f → m.step.1 = { m with fault := some f }) ∧
    (∀ f, m.fault = some f →
      f.isRecoverable = false ∧ m.state.wait = none ∧ m.state.Meets f ∧
      ∀ ops : List Operation, (∀ op ∈ ops, op.Continues) →
        (m.run ops).step.2 = .faulted f ∧ (m.run ops).state.v = m.state.v ∧
        m.state.SameStore (m.run ops).state) ∧
    ∀ op : Operation, ¬ op.Continues → (m.apply op).1.fault = none := by
  refine ⟨raises_stackOverflow_iff h.wellFormed, raises_stackUnderflow_iff h.wellFormed, ?_, ?_,
    fun op => fault_of_not_continues⟩
  · intro f hf hraises
    obtain ⟨ha, hmeets⟩ := (raises_iff h.wellFormed hf).mp hraises
    rw [step_of_meets ha hmeets]
    rfl
  · intro f hf
    have hstop := h.stopped hf
    refine ⟨hstop.meets.not_recoverable, hstop.wait_none, hstop.meets, fun ops hops => ?_⟩
    obtain ⟨hrun, hr, hs⟩ := hstop.run hops
    refine ⟨?_, hr.v_eq, hs⟩
    rw [step_of_fault hrun.fault_eq]

/-- A program that starts with a return raises its fault there. -/
theorem raises_on_first_return :
    ((ofSeed 0).run [.load [0x00, 0xEE]]).Raises (.stackUnderflow 0x200) := by
  have hsticks := stack_fault_sticks (reachable_run 0 [.load [0x00, 0xEE]])
  have hactive : ((ofSeed 0).run [.load [0x00, 0xEE]]).Active :=
    ⟨by decide +kernel, by decide +kernel, by decide +kernel⟩
  exact (hsticks.2.1 0x200).mpr
    ⟨hactive, by decide +kernel, by decide +kernel, by decide +kernel⟩

end Machine

end ChipEight
