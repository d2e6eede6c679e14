import ChipEight.Machine

/-!
# What one step can do

A step looks at the recorded fault, the wait for a key, the program counter, the word there and the
fault that its instruction would meet, in this order. This file says once what comes of it:

* `Machine.Active` — none of the first three keeps the machine from running;
* `step_of_fault`, `step_of_wait`, `step_of_pastEnd`, `step_skip`, `step_stop`, `step_run` — the
  result of a step in each of its six cases;
* `Machine.Stepped` — the six cases as a relation, so that facts about steps are proved case by case.

It also holds the repeated step: `Machine.steps n` is the machine after `n` steps. A machine that a
step leaves as it is stays so, whence a burst, which may end early, is a repeated step too
(`burst_fst`).
-/

namespace ChipEight

/-- The word that was fetched to find out what the machine is about to do. -/
def Pending.word? : Pending → Option UInt16
  | .skip word => some word
  | .run word _ => some word
  | _ => none

namespace Machine

/-- Nothing keeps the machine from running the word at its program counter. -/
structure Active (m : Machine) : Prop where
  fault_none : m.fault = none
  wait_none : m.state.wait = none
  pc_le : m.state.pc ≤ lastInstruction

/-- The machine with the word at its program counter skipped. -/
def skipWord (m : Machine) : Machine :=
  { m with state := { m.state with pc := m.state.pc + 2 } }

/-- The machine with a fault recorded. -/
def stop (m : Machine) (f : Fault) : Machine := { m with fault := some f }

/-- What a step that ran an instruction comes to, by the machine that it left. -/
def outcomeOf (ins : Instruction) (m : Machine) : Outcome :=
  if lastInstruction < m.state.pc then .halted else .executed ins

variable {m m' : Machine} {o : Outcome} {f : Fault} {ins : Instruction}

theorem awaitingKey_eq_false_iff : m.awaitingKey = false ↔ m.state.wait = none := by
  simp [awaitingKey]

theorem not_lastInstruction_lt (h : m.Active) : ¬ lastInstruction < m.state.pc :=
  UInt16.not_lt.mpr h.pc_le

/-! ### The six cases -/

theorem step_of_fault (h : m.fault = some f) : m.step = (m, .faulted f) := by
  simp only [step, pending, h]

theorem step_of_wait (hf : m.fault = none) (hw : m.state.wait ≠ none) :
    m.step = (m, .awaitingKey) := by
  have ha : m.awaitingKey = true := Option.isSome_iff_ne_none.mpr hw
  simp only [step, pending, hf, ha, if_true]

theorem step_of_pastEnd (hf : m.fault = none) (hw : m.state.wait = none)
    (hp : lastInstruction < m.state.pc) : m.step = (m, .halted) := by
  simp only [step, pending, hf, awaitingKey_eq_false_iff.mpr hw, hp, if_true]
  rfl

/-- An active machine is about to run or to skip the word at its program counter. -/
theorem pending_of_active (h : m.Active) :
    m.pending = match m.current? with
      | none => .skip (m.state.memory.wordAt m.state.pc)
      | some ins => .run (m.state.memory.wordAt m.state.pc) ins := by
  simp only [pending, h.fault_none, awaitingKey_eq_false_iff.mpr h.wait_none,
    not_lastInstruction_lt h, if_false]
  rfl

/-- A word is fetched only by an active machine, and it is the one at the program counter. -/
theorem active_of_word {w : UInt16} (h : m.pending.word? = some w) :
    m.Active ∧ w = m.state.memory.wordAt m.state.pc := by
  unfold pending at h
  split at h
  · cases h
  · rename_i hf
    split at h
    · cases h
    · rename_i hw
      split at h
      · cases h
      · rename_i hp
        have hw' : m.state.wait = none :=
          awaitingKey_eq_false_iff.mp (Bool.eq_false_iff.mpr hw)
        refine ⟨⟨hf, hw', UInt16.not_lt.mp hp⟩, ?_⟩
        cases hd : Instruction.decode? (m.state.memory.wordAt m.state.pc) with
        | none =>
            simp only [hd, Pending.word?, Option.some.injEq] at h
            exact h.symm
        | some ins =>
            simp only [hd, Pending.word?, Option.some.injEq] at h
            exact h.symm

theorem step_skip (h : m.Active) (hd : m.current? = none) :
    m.step = (m.skipWord,
      .faulted (.invalidOpcode (m.state.memory.wordAt m.state.pc) m.state.pc)) := by
  simp only [step, pending_of_active h, hd]
  rfl

theorem step_stop (h : m.Active) (hd : m.current? = some ins)
    (hx : m.state.faultOf? ins = some f) : m.step = (m.stop f, .faulted f) := by
  simp only [step, pending_of_active h, hd, hx]
  rfl

theorem step_run (h : m.Active) (hd : m.current? = some ins)
    (hx : m.state.faultOf? ins = none) :
    m.step = (m.execute ins, outcomeOf ins (m.execute ins)) := by
  simp only [step, pending_of_active h, hd, hx]
  rfl

/-- What a step makes of a machine, and what it comes to. -/
inductive Stepped (m : Machine) : Machine → Outcome → Prop
  | stopped {f : Fault} (hf : m.fault = some f) : Stepped m m (.faulted f)
  | waiting (hf : m.fault = none) (hw : m.state.wait ≠ none) : Stepped m m .awaitingKey
  | pastEnd (hf : m.fault = none) (hw : m.state.wait = none)
      (hp : lastInstruction < m.state.pc) : Stepped m m .halted
  | skip (ha : m.Active) (hd : m.current? = none) :
      Stepped m m.skipWord
        (.faulted (.invalidOpcode (m.state.memory.wordAt m.state.pc) m.state.pc))
  | stop {ins : Instruction} {f : Fault} (ha : m.Active) (hd : m.current? = some ins)
      (hx : m.state.faultOf? ins = some f) : Stepped m (m.stop f) (.faulted f)
  | run {ins : Instruction} (ha : m.Active) (hd : m.current? = some ins)
      (hx : m.state.faultOf? ins = none) :
      Stepped m (m.execute ins) (outcomeOf ins (m.execute ins))

/-- **The six cases are all.** -/
theorem stepped (m : Machine) : m.Stepped m.step.1 m.step.2 := by
  cases hf : m.fault with
  | some f =>
      rw [step_of_fault hf]
      exact .stopped hf
  | none =>
      by_cases hw : m.state.wait = none
      · by_cases hp : lastInstruction < m.state.pc
        · rw [step_of_pastEnd hf hw hp]
          exact .pastEnd hf hw hp
        · have ha : m.Active := ⟨hf, hw, UInt16.not_lt.mp hp⟩
          cases hd : m.current? with
          | none =>
              rw [step_skip ha hd]
              exact .skip ha hd
          | some ins =>
              cases hx : m.state.faultOf? ins with
              | none =>
                  rw [step_run ha hd hx]
                  exact .run ha hd hx
              | some f =>
                  rw [step_stop ha hd hx]
                  exact .stop ha hd hx
      · rw [step_of_wait hf hw]
        exact .waiting hf hw

theorem stepped_of_eq (h : m.step = (m', o)) : m.Stepped m' o := by
  have hs := m.stepped
  rwa [h] at hs

/-! ### Repeated steps -/

/-- The machine after `n` steps, whatever each of them comes to. -/
def steps : Nat → Machine → Machine
  | 0, m => m
  | n + 1, m => steps n m.step.1

theorem steps_of_fixed (h : m.step.1 = m) : ∀ n, m.steps n = m := by
  intro n
  induction n with
  | zero => rfl
  | succ n ih => rw [steps, h, ih]

theorem step_fixed_of_fault (h : m.fault = some f) : m.step.1 = m := by
  rw [step_of_fault h]

/-- Past the end of memory a step does nothing, whether or not the program waits for a key. -/
theorem step_fixed_of_pastEnd (hf : m.fault = none) (hp : lastInstruction < m.state.pc) :
    m.step.1 = m := by
  by_cases hw : m.state.wait = none
  · rw [step_of_pastEnd hf hw hp]
  · rw [step_of_wait hf hw]

/-! ### Facts read off the cases -/

theorem execute_fault (m : Machine) (ins : Instruction) : (m.execute ins).fault = m.fault := rfl

/-- The program counter after an instruction, told without its other effects. -/
theorem execute_pc (m : Machine) (ins : Instruction) :
    (m.execute ins).state.pc = m.state.next m.keypad ins := rfl

theorem lt_of_outcomeOf (h : outcomeOf ins m = .halted) : lastInstruction < m.state.pc := by
  unfold outcomeOf at h
  split at h
  · assumption
  · cases h

theorem outcomeOf_ne_faulted (ins : Instruction) (m : Machine) (f : Fault) :
    outcomeOf ins m ≠ .faulted f := by
  unfold outcomeOf
  split <;> simp only [ne_eq, reduceCtorEq, not_false_eq_true]

theorem outcomeOf_ne_awaitingKey (ins : Instruction) (m : Machine) :
    outcomeOf ins m ≠ .awaitingKey := by
  unfold outcomeOf
  split <;> simp only [ne_eq, reduceCtorEq, not_false_eq_true]

/-- A step that comes to a halt leaves no fault and the program counter past the end. -/
theorem of_step_halted (h : m.step = (m', .halted)) :
    m'.fault = none ∧ lastInstruction < m'.state.pc := by
  generalize ho : Outcome.halted = o at h
  cases stepped_of_eq h with
  | pastEnd hf hw hp => exact ⟨hf, hp⟩
  | run ha hd hx => exact ⟨ha.fault_none, lt_of_outcomeOf ho.symm⟩
  | stopped hf => cases ho
  | waiting hf hw => cases ho
  | skip ha hd => cases ho
  | stop ha hd hx => cases ho

/-! ### Bursts -/

/-- A step that makes a burst end early leaves a machine that no step changes. -/
theorem step_fixed_of_end (h : m.step = (m', o)) (hend : o = .awaitingKey ∨ o = .halted ∨
    ∃ f, o = .faulted f ∧ f.isRecoverable = false) : m'.step.1 = m' := by
  cases stepped_of_eq h with
  | stopped hf => exact step_fixed_of_fault hf
  | waiting hf hw => rw [step_of_wait hf hw]
  | pastEnd hf hw hp => exact step_fixed_of_pastEnd hf hp
  | skip ha hd =>
      rcases hend with ho | ho | ⟨f, ho, hrec⟩
      · cases ho
      · cases ho
      · cases ho
        cases hrec
  | stop ha hd hx => exact step_fixed_of_fault rfl
  | run ha hd hx =>
      rcases hend with ho | ho | ⟨f, ho, -⟩
      · exact (outcomeOf_ne_awaitingKey _ _ ho).elim
      · exact step_fixed_of_pastEnd ha.fault_none (lt_of_outcomeOf ho)
      · exact (outcomeOf_ne_faulted _ _ _ ho).elim

/-- **That a burst ends early cannot be seen**: all of its steps leave the same machine. -/
theorem burst_fst (n : Nat) (m : Machine) : (m.burst n).1 = m.steps n := by
  induction n generalizing m with
  | zero => rfl
  | succ n ih =>
      rcases hs : m.step with ⟨m', o⟩
      have hfixed := fun hend => steps_of_fixed (step_fixed_of_end hs hend) n
      simp only [burst, steps, hs]
      cases o with
      | executed ins => exact ih m'
      | awaitingKey => exact (hfixed (.inl rfl)).symm
      | halted => exact (hfixed (.inr (.inl rfl))).symm
      | faulted f =>
          cases hrec : f.isRecoverable with
          | true =>
              simp only [hrec, if_true]
              exact ih m'
          | false =>
              simp only [hrec, Bool.false_eq_true, if_false]
              exact (hfixed (.inr (.inr ⟨f, rfl, hrec⟩))).symm

end Machine

end ChipEight
