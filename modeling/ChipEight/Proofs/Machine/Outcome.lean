import ChipEight.Proofs.Machine.Faults
import ChipEight.Proofs.Machine.Executed

/-!
# What a step comes to

A host learns of a step by its outcome only, and it can look at the instruction at the program counter
before. This file says what the one tells of the other. The checks that a step makes come in an order: a
recorded fault, a wait, the end of memory, the word, and the stack. So the outcome of a step is told by the
first of them that does not pass:

* `halted_idle_iff` — a step that halts and runs nothing;
* `faulted_invalidOpcode_iff` — a step that reports a word, against the look ahead;
* `Machine.ComesTo`, with `comesTo_of_current` — a step that finds an instruction;
* `outcome_agrees_with_current` — all outcomes on reachable machines.
-/

namespace ChipEight.Machine

variable {m : Machine} {ins : Instruction} {f : Fault}

theorem lastInstruction_lt_iff {a : UInt16} : lastInstruction < a ↔ 0xFFE < a.toNat :=
  UInt16.lt_iff_toNat_lt

/-! ### Steps that run nothing -/

/-- A step that halts and runs nothing is one past the end of memory: where an instruction could start,
something is run, or a word is reported. -/
theorem halted_idle_iff (hf : m.fault = none) (hw : m.state.wait = none) :
    (m.step.2 = .halted ∧ m.executed? = none) ↔ lastInstruction < m.state.pc := by
  constructor
  · rintro ⟨ho, hidle⟩
    generalize hs : m.step = r at ho
    obtain ⟨m', o⟩ := r
    cases stepped_of_eq hs with
    | pastEnd hf hw hp => exact hp
    | run ha hd hx =>
        rw [executed?_eq_some_iff.mpr ⟨ha, hd, hx⟩] at hidle
        cases hidle
    | stopped hf => cases ho
    | waiting hf hw => cases ho
    | skip ha hd => cases ho
    | stop ha hd hx => cases ho
  · intro hp
    refine ⟨?_, executed?_eq_none_of_idle (.inr (.inr hp))⟩
    rw [step_of_pastEnd hf hw hp]

/-- **A word is reported exactly if there is no instruction to be seen.** -/
theorem faulted_invalidOpcode_iff (ha : m.Active) {w a : UInt16} :
    m.step.2 = .faulted (.invalidOpcode w a) ↔
      m.current? = none ∧ w = m.state.memory.wordAt m.state.pc ∧ a = m.state.pc := by
  constructor
  · intro ho
    cases hd : m.current? with
    | none =>
        rw [step_skip ha hd] at ho
        cases ho
        exact ⟨rfl, rfl, rfl⟩
    | some ins =>
        cases hx : m.state.faultOf? ins with
        | none =>
            rw [step_run ha hd hx] at ho
            exact (outcomeOf_ne_faulted _ _ _ ho).elim
        | some f =>
            rw [step_stop ha hd hx] at ho
            cases ho
            rcases State.faultOf?_cases hx with ⟨_, -, -, h⟩ | ⟨-, -, h⟩ <;> cases h
  · rintro ⟨hd, rfl, rfl⟩
    rw [step_skip ha hd]

/-! ### Steps that find an instruction -/

/-- What a step comes to that finds an instruction: the fault that the instruction meets, or else what it
makes of the machine when it runs. -/
structure ComesTo (m : Machine) (ins : Instruction) : Prop where
  overflow_iff : ∀ a, m.step.2 = .faulted (.stackOverflow a) ↔
    (∃ target, ins = .call target) ∧ m.state.sp = 16 ∧ a = m.state.pc
  underflow_iff : ∀ a, m.step.2 = .faulted (.stackUnderflow a) ↔
    ins = .ret ∧ m.state.sp = 0 ∧ a = m.state.pc
  step_of_faulted : ∀ f, m.step.2 = .faulted f → m.step.1 = { m with fault := some f }
  step_of_fits : ¬ ((∃ target, ins = .call target) ∧ m.state.sp = 16) →
    ¬ (ins = .ret ∧ m.state.sp = 0) → m.step.1 = m.execute ins ∧
      m.step.2 = if 0xFFE < m.step.1.state.pc.toNat then .halted else .executed ins

/-- Where the stack has room for what an instruction does, it meets no fault. -/
theorem faultOf?_eq_none (h : m.state.WellFormed)
    (hcall : ¬ ((∃ target, ins = .call target) ∧ m.state.sp = 16))
    (hret : ¬ (ins = .ret ∧ m.state.sp = 0)) : m.state.faultOf? ins = none := by
  apply Option.eq_none_iff_forall_ne_some.mpr
  intro f hx
  rcases State.faultOf?_cases hx with ⟨target, hins, hfull, -⟩ | ⟨hins, hempty, -⟩
  · exact hcall ⟨⟨target, hins⟩, State.sp_eq_of_full h hfull⟩
  · exact hret ⟨hins, hempty⟩

/-- **A step runs the instruction that is to be seen**, if this is not a call with a full stack or a return
with an empty one. -/
theorem comesTo_of_current (h : m.WellFormed) (ha : m.Active) (hd : m.current? = some ins) :
    m.ComesTo ins where
  overflow_iff := fun a => by
    have hraises := raises_stackOverflow_iff h a
    rw [Raises, hd] at hraises
    constructor
    · intro ho
      obtain ⟨-, haddr, ⟨target, hins⟩, hsp⟩ := hraises.mp ⟨ha.fault_none, ho⟩
      exact ⟨⟨target, Option.some.inj hins⟩, hsp, haddr⟩
    · rintro ⟨⟨target, hins⟩, hsp, haddr⟩
      exact (hraises.mpr ⟨ha, haddr, ⟨target, congrArg some hins⟩, hsp⟩).2
  underflow_iff := fun a => by
    have hraises := raises_stackUnderflow_iff h a
    rw [Raises, hd] at hraises
    constructor
    · intro ho
      obtain ⟨-, haddr, hins, hsp⟩ := hraises.mp ⟨ha.fault_none, ho⟩
      exact ⟨Option.some.inj hins, hsp, haddr⟩
    · rintro ⟨hins, hsp, haddr⟩
      exact (hraises.mpr ⟨ha, haddr, congrArg some hins, hsp⟩).2
  step_of_faulted := fun f ho => by
    cases hx : m.state.faultOf? ins with
    | none =>
        rw [step_run ha hd hx] at ho
        exact (outcomeOf_ne_faulted _ _ _ ho).elim
    | some f' =>
        rw [step_stop ha hd hx] at ho ⊢
        cases ho
        rfl
  step_of_fits := fun hcall hret => by
    rw [step_run ha hd (faultOf?_eq_none h.state hcall hret)]
    simp only [outcomeOf, lastInstruction_lt_iff, and_self]

/-- **What a step comes to, and what can be seen of it before.** On a reachable machine a step repeats the
recorded fault, if there is one; else it reports the wait for a key, if there is one; and else it halts
without running anything exactly if the program counter is past the end of memory. None of these changes
the machine. In all other cases the word at the program counter is read, the byte there being the more
significant. It is reported exactly if no instruction is to be seen; and an instruction that is to be seen
is the one that the step runs, unless it meets a fault of the stack. -/
theorem outcome_agrees_with_current (h : m.Reachable) :
    (∀ f, m.fault = some f → m.step = (m, .faulted f)) ∧
    (m.fault = none → ∀ x, m.state.wait = some x → m.step = (m, .awaitingKey)) ∧
    (m.fault = none → m.state.wait = none →
      ((m.step.2 = .halted ∧ m.executed? = none) ↔ 0xFFE < m.state.pc.toNat) ∧
      (0xFFE < m.state.pc.toNat → m.step = (m, .halted)) ∧
      (m.state.pc.toNat ≤ 0xFFE →
        (∀ w a, m.step.2 = .faulted (.invalidOpcode w a) ↔ m.current? = none ∧
          w.toNat = 256 * (m.state.memory.read m.state.pc).toNat +
            (m.state.memory.read (m.state.pc + 1)).toNat ∧
          a = m.state.pc) ∧
        (m.current? = none ↔ ∃ w a, m.step.2 = .faulted (.invalidOpcode w a)) ∧
        ∀ ins, m.current? = some ins → m.ComesTo ins)) := by
  refine ⟨fun f => step_of_fault, fun hf x hw => ?wait, fun hf hw => ⟨?halted, ?idle, fun hp => ?runs⟩⟩
  case wait => exact step_of_wait hf (hw.trans_ne (Option.some_ne_none x))
  case halted => rw [halted_idle_iff hf hw, lastInstruction_lt_iff]
  case idle => exact fun hp => step_of_pastEnd hf hw (lastInstruction_lt_iff.mpr hp)
  case runs =>
    have ha : m.Active := ⟨hf, hw, UInt16.le_iff_toNat_le.mpr hp⟩
    have hreports := fun w a => faulted_invalidOpcode_iff ha (w := w) (a := a)
    refine ⟨fun w a => ?_, ?_, fun ins => comesTo_of_current h.wellFormed ha⟩
    · rw [hreports, ← Word.toNat_ofBytes, UInt16.toNat_inj]
      rfl
    · simp only [hreports]
      exact ⟨fun hd => ⟨_, _, hd, rfl, rfl⟩, fun ⟨_, _, hd, _, _⟩ => hd⟩

/-- A program that puts the word `4000` in front of the last byte of memory, at an odd address, and jumps
there, before the step that skips over the end. -/
def overshooting : Machine :=
  (ofSeed 0).run [.load [0xAF, 0xFD, 0x60, 0x40, 0x61, 0x00, 0xF1, 0x55, 0x1F, 0xFD],
    .step, .step, .step, .step, .step]

/-- A program that starts with no instruction. -/
def unreadable : Machine := (ofSeed 0).run [.load [0x01, 0x23]]

/-- The skip runs and the step halts; the step after it halts and runs nothing. In the other program the
first word is reported. -/
theorem overshooting_halts_twice :
    overshooting.current? = some (.skipIfNotEqual 0 0) ∧ overshooting.step.2 = .halted ∧
    overshooting.step.1 = overshooting.execute (.skipIfNotEqual 0 0) ∧
    overshooting.step.1.step = (overshooting.step.1, .halted) ∧
    unreadable.step.2 = .faulted (.invalidOpcode 0x0123 0x200) := by
  have hreach : overshooting.Reachable := reachable_run 0 _
  have hreach' : unreadable.Reachable := reachable_run 0 _
  obtain ⟨⟨hf, hw, hp⟩, hd⟩ : (overshooting.fault = none ∧ overshooting.state.wait = none ∧
      overshooting.state.pc.toNat ≤ 0xFFE) ∧
      overshooting.current? = some (.skipIfNotEqual 0 0) := by
    decide +kernel
  obtain ⟨hfNext, hwNext, hend⟩ : overshooting.step.1.fault = none ∧
      overshooting.step.1.state.wait = none ∧ 0xFFE < overshooting.step.1.state.pc.toNat := by
    decide +kernel
  obtain ⟨⟨hf', hw', hp'⟩, hunread⟩ : (unreadable.fault = none ∧ unreadable.state.wait = none ∧
      unreadable.state.pc.toNat ≤ 0xFFE) ∧ unreadable.current? = none ∧
      (0x0123 : UInt16).toNat = 256 * (unreadable.state.memory.read unreadable.state.pc).toNat +
        (unreadable.state.memory.read (unreadable.state.pc + 1)).toNat ∧
      0x200 = unreadable.state.pc := by
    decide +kernel
  have hcomes := (((outcome_agrees_with_current hreach).2.2 hf hw).2.2 hp).2.2 _ hd
  obtain ⟨hruns, hout⟩ := hcomes.step_of_fits (by rintro ⟨⟨_, hcall⟩, -⟩; cases hcall)
    (by rintro ⟨hret, -⟩; cases hret)
  have hstays := ((outcome_agrees_with_current hreach.step).2.2 hfNext hwNext).2.1 hend
  have hreports := (((outcome_agrees_with_current hreach').2.2 hf' hw').2.2 hp').1 0x0123 0x200
  rw [if_pos hend] at hout
  exact ⟨hd, hout, hruns, hstays, hreports.mpr hunread⟩

end ChipEight.Machine
