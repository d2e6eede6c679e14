import ChipEight.Proofs.Machine.Footprint
import ChipEight.Proofs.Machine.History

/-!
# The instructions that steps run

Most steps run an instruction. The others leave the state as it is, except that they may pass over a
word that is no instruction. Facts about the state after a step, apart from the program counter, are
therefore facts about `State.perform`:

* `Machine.executed?` — the instruction that the next step runs, if it runs one;
* `step_of_executed`, `step_state_of_not_executed` — the two kinds of steps;
* `step_part` — a part of the state after a step;
* `Machine.Unseen`, with `Unseen.step` — a change of the machine that steps do not look at;
* `Machine.executedIn` — the instructions that several steps run;
* `Machine.runs?`, `Machine.ran` — the instructions of a history, with `ran_append` and `countP_ran_cons`;
* `executed?_eq_none_of_idle` — the steps that run none.
-/

namespace ChipEight.Machine

/-- The instruction that the next step runs. A word that is no instruction is not run, and neither is
an instruction that meets a fault. -/
def executed? (m : Machine) : Option Instruction :=
  match m.pending with
  | .run _ ins => if m.state.faultOf? ins = none then some ins else none
  | _ => none

/-- The instructions that the next `n` steps run, in their order. -/
def executedIn : Nat → Machine → List Instruction
  | 0, _ => []
  | n + 1, m => m.executed?.toList ++ executedIn n m.step.1

variable {m : Machine} {ins : Instruction}

theorem executed?_eq_some_iff : m.executed? = some ins ↔
    m.Active ∧ m.current? = some ins ∧ m.state.faultOf? ins = none := by
  constructor
  · intro h
    unfold executed? at h
    split at h
    · rename_i word ins' hp
      have ha := (active_of_word (m := m) (w := word) (by rw [hp, Pending.word?])).1
      have hd : m.current? = some ins' := by
        rw [pending_of_active ha] at hp
        split at hp
        · cases hp
        · rename_i hd
          cases hp
          exact hd
      split at h
      · rename_i hx
        cases h
        exact ⟨ha, hd, hx⟩
      · cases h
    · cases h
  · rintro ⟨ha, hd, hx⟩
    simp only [executed?, pending_of_active ha, hd, hx, if_true]

theorem step_of_executed (h : m.executed? = some ins) : m.step.1 = m.execute ins := by
  obtain ⟨ha, hd, hx⟩ := executed?_eq_some_iff.mp h
  rw [step_run ha hd hx]

/-- A step that runs no instruction changes nothing of the state but the program counter. -/
theorem step_state_of_not_executed (h : m.executed? = none) :
    ∃ pc, m.step.1.state = { m.state with pc := pc } := by
  generalize hs : m.step = r
  obtain ⟨m', o⟩ := r
  cases stepped_of_eq hs with
  | stopped hf => exact ⟨m.state.pc, rfl⟩
  | waiting hf hw => exact ⟨m.state.pc, rfl⟩
  | pastEnd hf hw hp => exact ⟨m.state.pc, rfl⟩
  | skip ha hd => exact ⟨m.state.pc + 2, rfl⟩
  | stop ha hd hx => exact ⟨m.state.pc, rfl⟩
  | run ha hd hx =>
      rw [executed?_eq_some_iff.mpr ⟨ha, hd, hx⟩] at h
      cases h

/-! ### Parts of the state after a step -/

/-- A part of the state that does not depend on the program counter is after a step what the
instruction makes of it, and stays if no instruction runs. -/
theorem step_part {α : Type} (part : State → α) (hpc : ∀ s pc, part { s with pc := pc } = part s)
    (m : Machine) : part m.step.1.state = match m.executed? with
      | some ins => part (m.state.perform m.generator ins)
      | none => part m.state := by
  cases h : m.executed? with
  | some ins =>
      rw [step_of_executed h]
      exact hpc _ _
  | none =>
      obtain ⟨pc, hstate⟩ := step_state_of_not_executed h
      rw [hstate]
      exact hpc _ _

/-! ### What steps do not look at -/

/-- A change of the machine that reaches nothing by which a step decides what to do and where to go on. It
may reach what an instruction works on. -/
structure Unseen (change : Machine → Machine) : Prop where
  fault_eq : ∀ m, (change m).fault = m.fault
  wait_eq : ∀ m, (change m).state.wait = m.state.wait
  pc_eq : ∀ m, (change m).state.pc = m.state.pc
  memory_eq : ∀ m, (change m).state.memory = m.state.memory
  sp_eq : ∀ m, (change m).state.sp = m.state.sp
  next_eq : ∀ m ins, (change m).state.next (change m).keypad ins = m.state.next m.keypad ins
  skipWord_eq : ∀ m, (change m).skipWord = change m.skipWord
  stop_eq : ∀ m f, (change m).stop f = change (m.stop f)

namespace Unseen

variable {change : Machine → Machine}

theorem active_iff (h : Unseen change) : (change m).Active ↔ m.Active := by
  constructor
  · intro ha
    refine ⟨(h.fault_eq m).symm.trans ha.fault_none, (h.wait_eq m).symm.trans ha.wait_none, ?_⟩
    rw [← h.pc_eq]
    exact ha.pc_le
  · intro ha
    refine ⟨(h.fault_eq m).trans ha.fault_none, (h.wait_eq m).trans ha.wait_none, ?_⟩
    rw [h.pc_eq]
    exact ha.pc_le

theorem current?_eq (h : Unseen change) (m : Machine) : (change m).current? = m.current? := by
  rw [current?, current?, State.current?, State.current?, h.memory_eq, h.pc_eq]

theorem faultOf?_eq (h : Unseen change) (m : Machine) (ins : Instruction) :
    (change m).state.faultOf? ins = m.state.faultOf? ins := by
  unfold State.faultOf?
  rw [h.sp_eq, h.pc_eq]

theorem executed?_eq (h : Unseen change) (m : Machine) : (change m).executed? = m.executed? := by
  apply Option.ext
  intro ins
  rw [executed?_eq_some_iff, executed?_eq_some_iff, h.active_iff, h.current?_eq, h.faultOf?_eq]

/-- **A step comes to the same after an unseen change**, and the change may as well be made after the step
if the instruction that runs allows it. -/
theorem step (h : Unseen change) (m : Machine) : (change m).step.2 = m.step.2 ∧
    ((∀ ins, m.executed? = some ins → (change m).execute ins = change (m.execute ins)) →
      (change m).step.1 = change m.step.1) := by
  generalize hs : m.step = r
  obtain ⟨m', o⟩ := r
  cases stepped_of_eq hs with
  | stopped hf =>
      rw [step_of_fault ((h.fault_eq m).trans hf)]
      exact ⟨rfl, fun _ => rfl⟩
  | waiting hf hw =>
      rw [step_of_wait ((h.fault_eq m).trans hf) (by rwa [h.wait_eq])]
      exact ⟨rfl, fun _ => rfl⟩
  | pastEnd hf hw hp =>
      rw [step_of_pastEnd ((h.fault_eq m).trans hf) ((h.wait_eq m).trans hw)
        ((h.pc_eq m).symm ▸ hp)]
      exact ⟨rfl, fun _ => rfl⟩
  | skip ha hd =>
      rw [step_skip (h.active_iff.mpr ha) ((h.current?_eq m).trans hd), h.memory_eq, h.pc_eq, h.skipWord_eq]
      exact ⟨rfl, fun _ => rfl⟩
  | stop ha hd hx =>
      rw [step_stop (h.active_iff.mpr ha) ((h.current?_eq m).trans hd) ((h.faultOf?_eq m _).trans hx),
        h.stop_eq]
      exact ⟨rfl, fun _ => rfl⟩
  | @run ins ha hd hx =>
      rw [step_run (h.active_iff.mpr ha) ((h.current?_eq m).trans hd) ((h.faultOf?_eq m ins).trans hx)]
      refine ⟨?_, fun hexecute => hexecute ins (executed?_eq_some_iff.mpr ⟨ha, hd, hx⟩)⟩
      -- the two machines may differ if the instruction looks at the change, but not where they go on
      have hpc : ((change m).execute ins).state.pc = (m.execute ins).state.pc := h.next_eq m ins
      simp only [outcomeOf, hpc]

end Unseen

/-! ### The instructions that a history runs

Only steps run instructions, and not all of them do. What a program has done in a history is told by the
instructions that ran in it, so that a count of them can be compared with what they leave behind.
-/

/-- The instruction that an operation runs, if it is a step and runs one. -/
def runs? (m : Machine) : Operation → Option Instruction
  | .step => m.executed?
  | _ => none

/-- The instructions that a history runs, in their order. -/
def ran : Machine → List Operation → List Instruction
  | _, [] => []
  | m, op :: ops => (m.runs? op).toList ++ ran (m.apply op).1 ops

variable {op : Operation} {ops : List Operation}

theorem ran_nil (m : Machine) : m.ran [] = [] := rfl

theorem ran_cons (m : Machine) (op : Operation) (ops : List Operation) :
    m.ran (op :: ops) = (m.runs? op).toList ++ (m.apply op).1.ran ops := rfl

theorem ran_append (m : Machine) (ops ops' : List Operation) :
    m.ran (ops ++ ops') = m.ran ops ++ (m.run ops).ran ops' := by
  induction ops generalizing m with
  | nil => rfl
  | cons op ops ih => rw [List.cons_append, ran_cons, ih, ran_cons, run_cons, List.append_assoc]

theorem ran_concat (m : Machine) (ops : List Operation) (op : Operation) :
    m.ran (ops ++ [op]) = m.ran ops ++ ((m.run ops).runs? op).toList := by
  rw [ran_append, ran_cons, ran_nil, List.append_nil]

/-- One more operation counts once if the instruction that it runs is of the kind counted. -/
theorem countP_ran_cons (p : Instruction → Bool) (m : Machine) (op : Operation)
    (ops : List Operation) :
    (m.ran (op :: ops)).countP p =
      (if (m.runs? op).any p then 1 else 0) + ((m.apply op).1.ran ops).countP p := by
  rw [ran_cons, List.countP_append]
  cases m.runs? op with
  | none => rfl
  | some ins => rw [Option.toList_some, List.countP_singleton, Option.any_some]

/-- An operation of a history that runs no instruction of a kind runs none of it either. -/
theorem forall_ran_cons {P : Instruction → Prop} :
    (∀ ins ∈ m.ran (op :: ops), P ins) ↔
      (∀ ins, m.runs? op = some ins → P ins) ∧ ∀ ins ∈ (m.apply op).1.ran ops, P ins := by
  rw [ran_cons, List.forall_mem_append]
  simp only [Option.mem_toList]

/-- A step that waits for a key, meets a fault or finds the program counter past the end of memory
runs no instruction. -/
theorem executed?_eq_none_of_idle (h : m.step.2 = .awaitingKey ∨ (∃ f, m.step.2 = .faulted f) ∨
    lastInstruction < m.state.pc) : m.executed? = none := by
  apply Option.eq_none_iff_forall_ne_some.mpr
  intro ins hrun
  obtain ⟨ha, hd, hx⟩ := executed?_eq_some_iff.mp hrun
  rw [step_run ha hd hx] at h
  rcases h with hwait | ⟨f, hfault⟩ | hpast
  · exact outcomeOf_ne_awaitingKey _ _ hwait
  · exact outcomeOf_ne_faulted _ _ _ hfault
  · exact not_lastInstruction_lt ha hpast

end ChipEight.Machine
