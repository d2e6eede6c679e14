import Mathlib.Data.List.Forall2
import ChipEight.Proofs.Journal
import ChipEight.Proofs.Machine.Faults

/-!
# The records of a history

Of all that a machine writes down, two kinds of records tell what it has fetched: an instruction with the
state that it found, and a word that is no instruction. A host sees the same steps from the outside, by what
they come to. The two views agree, record by record and step by step:

* `Machine.written`, `Machine.found` — the records of a history, and the machines that its steps find;
* `fetchesInstruction`, `reportsWord` — the two kinds of steps, by what they come to;
* `Record.Traces`, `Record.Reports` — what the records say of them;
* `Machine.Recorded`, with `recorded` — the three things that a step can write;
* `written_of_idle` — steps that write nothing;
* `Machine.Accounts`, with `accounts` — the two views agree along a history.
-/

namespace ChipEight

namespace Record

/-- The record tells the instruction at the program counter, the word and the address where it is, and the
registers, the index register and the number of return addresses as the instruction finds them. -/
def Traces (r : Record) (m : Machine) : Prop :=
  ∃ ins, Instruction.decode? (m.state.memory.wordAt m.state.pc) = some ins ∧
    r = traced m.state.pc (m.state.memory.wordAt m.state.pc) ins m.state.v m.state.i m.state.sp

/-- The record tells the word that the step reports, and where it is. -/
def Reports (r : Record) (m : Machine) : Prop :=
  m.step.2 = .faulted (.invalidOpcode (m.state.memory.wordAt m.state.pc) m.state.pc) ∧
    r = skipped (m.state.memory.wordAt m.state.pc) m.state.pc

end Record

namespace Machine

/-- What a history writes. -/
def written : Machine → List Operation → List Record
  | _, [] => []
  | m, op :: ops => m.applyRecords op ++ written (m.apply op).1 ops

/-- The machines that the steps of a history find, in their order. -/
def found : Machine → List Operation → List Machine
  | _, [] => []
  | m, op :: ops => (if op = .step then [m] else []) ++ found (m.apply op).1 ops

/-- The next step fetches an instruction, by what it comes to: the instruction runs, and may lead past the
end of memory, or raises a fault that was not recorded before. -/
def fetchesInstruction (m : Machine) : Bool :=
  match m.step.2 with
  | .executed _ => true
  | .halted => m.state.pc ≤ lastInstruction
  | .faulted f => !f.isRecoverable && m.fault.isNone
  | .awaitingKey => false

/-- The next step reports a word that is no instruction. -/
def reportsWord (m : Machine) : Bool :=
  match m.step.2 with
  | .faulted (.invalidOpcode _ _) => true
  | _ => false

/-- The address from which the next step fetches, and the word there. -/
def fetched (m : Machine) : UInt16 × UInt16 := (m.state.pc, m.state.memory.wordAt m.state.pc)

/-- Some records account for the steps of a history, which are given by the machines that they find. -/
structure Accounts (records : List Record) (steps : List Machine) : Prop where
  /-- The records of the lowest level are those of the steps that fetch an instruction. -/
  instructions : List.Forall₂ Record.Traces (records.filter fun r => r.level = .trace)
    (steps.filter fetchesInstruction)
  /-- The records of skipped words are those of the steps that report one. -/
  words : List.Forall₂ Record.Reports (records.filter Record.isSkip) (steps.filter reportsWord)
  /-- The lines show all of these records. -/
  lines : (records.map Record.line).filterMap Record.ofLine? = records.filter Record.isFetch
  /-- The lines tell where each step has fetched, and what. -/
  fetches : Record.readFetches (records.map Record.line) =
    (steps.filter fun m => m.fetchesInstruction || m.reportsWord).map fetched

variable {m : Machine} {ins : Instruction} {ops : List Operation}

/-! ### One step -/

/-- **Steps that write nothing**: those that a fault, a wait for a key or the end of memory keeps from
fetching anything. -/
theorem stepRecords_of_idle (h : ¬ m.Active) : m.stepRecords = [] := by
  have hfetch : m.pending.word? = none :=
    Option.eq_none_iff_forall_ne_some.mpr fun w hw => h (active_of_word hw).1
  unfold stepRecords
  split
  · rename_i hpending
    rw [hpending] at hfetch
    cases hfetch
  · rename_i hpending
    rw [hpending] at hfetch
    cases hfetch
  · rfl

theorem stepRecords_skip (ha : m.Active) (hd : m.current? = none) :
    m.stepRecords = [.skipped (m.state.memory.wordAt m.state.pc) m.state.pc] := by
  simp only [stepRecords, pending_of_active ha, hd]

/-- The record of an instruction that has been fetched comes first, and what follows is of other kinds. -/
theorem stepRecords_fetch (ha : m.Active) (hd : m.current? = some ins) :
    ∃ rest, m.stepRecords = .traced m.state.pc (m.state.memory.wordAt m.state.pc) ins m.state.v
      m.state.i m.state.sp :: rest ∧ ∀ r ∈ rest, r.isFetch = false := by
  simp only [stepRecords, pending_of_active ha, hd]
  refine ⟨_, rfl, ?_⟩
  rcases m.step with ⟨m', _ | _ | _ | _⟩ <;> simp [Record.isFetch, Record.isTrace, Record.isSkip]

/-- A step fetches an instruction if there is one to be seen and nothing keeps the machine from it. -/
theorem fetchesInstruction_iff :
    m.fetchesInstruction = true ↔ m.Active ∧ ∃ ins, m.current? = some ins := by
  generalize hs : m.step = r
  obtain ⟨m', o⟩ := r
  cases stepped_of_eq hs with
  | stopped hf =>
      refine iff_of_false (by simp [fetchesInstruction, hs, hf]) fun h => ?_
      cases hf.symm.trans h.1.fault_none
  | waiting hf hw =>
      exact iff_of_false (by simp [fetchesInstruction, hs]) fun h => hw h.1.wait_none
  | pastEnd hf hw hp =>
      have hafter : ¬ m.state.pc ≤ lastInstruction := UInt16.not_le.mpr hp
      exact iff_of_false (by simp [fetchesInstruction, hs, hp]) fun h => hafter h.1.pc_le
  | skip ha hd =>
      refine iff_of_false (by simp [fetchesInstruction, hs, Fault.isRecoverable]) ?_
      rintro ⟨-, ins, hins⟩
      cases hd.symm.trans hins
  | @stop ins f ha hd hx =>
      have hkind : f.isRecoverable = false := by
        rcases State.faultOf?_cases hx with ⟨_, -, -, rfl⟩ | ⟨-, -, rfl⟩ <;> rfl
      exact iff_of_true (by simp [fetchesInstruction, hs, hkind, ha.fault_none]) ⟨ha, ins, hd⟩
  | @run ins ha hd hx =>
      refine iff_of_true ?_ ⟨ha, ins, hd⟩
      by_cases hend : lastInstruction < (m.execute ins).state.pc
      · simp [fetchesInstruction, hs, outcomeOf, hend, ha.pc_le]
      · simp [fetchesInstruction, hs, outcomeOf, hend]

/-- A step of a reachable machine reports a word if there is no instruction to be seen and nothing keeps the
machine from it. A recorded fault is never such a report. -/
theorem reportsWord_iff (h : m.Reachable) :
    m.reportsWord = true ↔ m.Active ∧ m.current? = none := by
  have hword : m.reportsWord = true ↔ ∃ w a, m.step.2 = .faulted (.invalidOpcode w a) := by
    unfold reportsWord
    split
    · rename_i w a ho
      exact iff_of_true rfl ⟨w, a, ho⟩
    · rename_i hno
      exact iff_of_false Bool.false_ne_true fun ⟨w, a, ho⟩ => hno w a ho
  rw [hword]
  constructor
  · rintro ⟨w, a, ho⟩
    generalize hs : m.step = r at ho
    obtain ⟨m', o⟩ := r
    cases stepped_of_eq hs with
    | stopped hf =>
        cases ho
        cases (h.stopped hf).meets.not_recoverable
    | waiting hf hw => cases ho
    | pastEnd hf hw hp => cases ho
    | skip ha hd => exact ⟨ha, hd⟩
    | stop ha hd hx =>
        cases ho
        rcases State.faultOf?_cases hx with ⟨_, -, -, hf⟩ | ⟨-, -, hf⟩ <;> cases hf
    | run ha hd hx => exact (outcomeOf_ne_faulted _ _ _ ho).elim
  · rintro ⟨ha, hd⟩
    rw [step_skip ha hd]
    exact ⟨_, _, rfl⟩

/-- What a step writes, by what it comes to. -/
inductive Recorded (m : Machine) : Prop
  | instruction {ins : Instruction} {rest : List Record} (hd : m.current? = some ins)
      (hfetches : m.fetchesInstruction = true) (hreports : m.reportsWord = false)
      (hrecords : m.stepRecords = .traced m.state.pc (m.state.memory.wordAt m.state.pc) ins m.state.v
        m.state.i m.state.sp :: rest)
      (hrest : ∀ r ∈ rest, r.isFetch = false)
  | word (hfetches : m.fetchesInstruction = false) (hreports : m.reportsWord = true)
      (hstep : m.step.2 = .faulted (.invalidOpcode (m.state.memory.wordAt m.state.pc) m.state.pc))
      (hrecords : m.stepRecords = [.skipped (m.state.memory.wordAt m.state.pc) m.state.pc])
  | idle (hfetches : m.fetchesInstruction = false) (hreports : m.reportsWord = false)
      (hrecords : m.stepRecords = [])

/-- **The three cases are all.** -/
theorem recorded (h : m.Reachable) : m.Recorded := by
  by_cases ha : m.Active
  · cases hd : m.current? with
    | none =>
        have hfetches : ¬ m.fetchesInstruction = true := fun hf => by
          obtain ⟨-, ins, hins⟩ := fetchesInstruction_iff.mp hf
          cases hd.symm.trans hins
        exact .word (Bool.eq_false_iff.mpr hfetches) ((reportsWord_iff h).mpr ⟨ha, hd⟩)
          (by rw [step_skip ha hd]) (stepRecords_skip ha hd)
    | some ins =>
        obtain ⟨rest, hrecords, hrest⟩ := stepRecords_fetch ha hd
        have hreports : ¬ m.reportsWord = true := fun hr =>
          absurd (hd.symm.trans ((reportsWord_iff h).mp hr).2) (Option.some_ne_none ins)
        exact .instruction hd (fetchesInstruction_iff.mpr ⟨ha, ins, hd⟩) (Bool.eq_false_iff.mpr hreports)
          hrecords hrest
  · exact .idle (Bool.eq_false_iff.mpr fun hf => ha (fetchesInstruction_iff.mp hf).1)
      (Bool.eq_false_iff.mpr fun hr => ha ((reportsWord_iff h).mp hr).1) (stepRecords_of_idle ha)

/-- A kind of records that are all of fetches is kept with those. -/
theorem filter_filter_isFetch {P : Record → Bool} (hP : ∀ r, r.isFetch = false → P r = false)
    (records : List Record) : (records.filter Record.isFetch).filter P = records.filter P := by
  rw [List.filter_filter]
  refine List.filter_congr fun r _ => ?_
  cases hr : r.isFetch with
  | true => exact Bool.and_true _
  | false => rw [hP r hr, Bool.and_false]

/-- Among records of other things there is none of such a kind. -/
theorem filter_eq_nil_of_others {P : Record → Bool} (hP : ∀ r, r.isFetch = false → P r = false)
    {records : List Record} (h : ∀ r ∈ records, r.isFetch = false) : records.filter P = [] :=
  List.filter_eq_nil_iff.mpr fun r hr => Bool.eq_false_iff.mp (hP r (h r hr))

/-- **The records of instructions** in a step. -/
theorem traced_step (h : m.Reachable) : List.Forall₂ Record.Traces
    (m.stepRecords.filter Record.isTrace) ([m].filter fetchesInstruction) := by
  cases recorded h with
  | @instruction ins rest hd hfetches hreports hrecords hrest =>
      have hothers : rest.filter Record.isTrace = [] := filter_eq_nil_of_others
        (fun _ hr => (Record.isFetch_eq_false_iff.mp hr).1) hrest
      rw [hrecords, List.filter_cons_of_pos rfl, hothers, List.filter_cons_of_pos hfetches]
      exact .cons ⟨ins, hd, rfl⟩ .nil
  | word hfetches hreports hstep hrecords =>
      rw [hrecords, List.filter_cons_of_neg (Bool.eq_false_iff.mp hfetches)]
      exact .nil
  | idle hfetches hreports hrecords =>
      rw [hrecords, List.filter_cons_of_neg (Bool.eq_false_iff.mp hfetches)]
      exact .nil

/-- **The records of words** that are no instructions in a step. -/
theorem reported_step (h : m.Reachable) :
    List.Forall₂ Record.Reports (m.stepRecords.filter Record.isSkip) ([m].filter reportsWord) := by
  cases recorded h with
  | @instruction ins rest hd hfetches hreports hrecords hrest =>
      have hothers : rest.filter Record.isSkip = [] := filter_eq_nil_of_others
        (fun _ hr => (Record.isFetch_eq_false_iff.mp hr).2) hrest
      rw [hrecords, List.filter_cons_of_neg Bool.false_ne_true, hothers,
        List.filter_cons_of_neg (Bool.eq_false_iff.mp hreports)]
      exact .nil
  | word hfetches hreports hstep hrecords =>
      rw [hrecords, List.filter_cons_of_pos rfl, List.filter_cons_of_pos hreports]
      exact .cons ⟨hstep, rfl⟩ .nil
  | idle hfetches hreports hrecords =>
      rw [hrecords, List.filter_cons_of_neg (Bool.eq_false_iff.mp hreports)]
      exact .nil

/-- **The address and the word** in the records of a step. -/
theorem fetched_step (h : m.Reachable) :
    List.Forall₂ (fun r m => r.fetch? = some m.fetched) (m.stepRecords.filter Record.isFetch)
      ([m].filter fun m => m.fetchesInstruction || m.reportsWord) := by
  cases recorded h with
  | @instruction ins rest hd hfetches hreports hrecords hrest =>
      have hothers : rest.filter Record.isFetch = [] := filter_eq_nil_of_others (fun _ hr => hr) hrest
      rw [hrecords, List.filter_cons_of_pos rfl, hothers, List.filter_cons_of_pos (by simp [hfetches])]
      exact .cons rfl .nil
  | word hfetches hreports hstep hrecords =>
      rw [hrecords, List.filter_cons_of_pos rfl, List.filter_cons_of_pos (by simp [hreports])]
      exact .cons rfl .nil
  | idle hfetches hreports hrecords =>
      rw [hrecords, List.filter_cons_of_neg (by simp [hfetches, hreports])]
      exact .nil

/-! ### Histories -/

/-- What is not a step tells of nothing that was fetched. -/
theorem isFetch_of_mem_applyRecords {op : Operation} (hop : op ≠ .step) {r : Record}
    (hr : r ∈ m.applyRecords op) : r.isFetch = false := by
  cases op with
  | step => exact (hop rfl).elim
  | load program =>
      simp only [applyRecords, loadRecords] at hr
      split at hr
      · cases hr
      · rcases List.mem_append.mp hr with hr | hr <;> rw [List.mem_singleton.mp hr] <;> rfl
  | reset =>
      rw [List.mem_singleton.mp hr]
      rfl
  | key k down =>
      simp only [applyRecords, keyRecords] at hr
      split at hr
      · rw [List.mem_singleton.mp hr]
        rfl
      · split at hr
        · rw [List.mem_singleton.mp hr]
          rfl
        · cases hr
  | tick => cases hr
  | isPressed k => cases hr
  | current => cases hr
  | takeFrame => cases hr

/-- Records and steps that go together in every step, and of which other operations have none, go together
along a history. -/
theorem forall₂_written {P : Record → Bool} {Q : Machine → Bool} {R : Record → Machine → Prop}
    (hP : ∀ r, r.isFetch = false → P r = false)
    (hstep : ∀ m : Machine, m.Reachable →
      List.Forall₂ R (m.stepRecords.filter P) ([m].filter Q))
    (h : m.Reachable) (ops : List Operation) :
    List.Forall₂ R ((m.written ops).filter P) ((m.found ops).filter Q) := by
  induction ops generalizing m with
  | nil => exact .nil
  | cons op ops ih =>
      have hfirst : List.Forall₂ R ((m.applyRecords op).filter P)
          ((if op = .step then [m] else []).filter Q) := by
        by_cases hop : op = .step
        · subst hop
          exact hstep m h
        · have hnone : (m.applyRecords op).filter P = [] :=
            filter_eq_nil_of_others hP fun r hr => isFetch_of_mem_applyRecords hop hr
          rw [if_neg hop, hnone]
          exact .nil
      rw [written, found, List.filter_append, List.filter_append]
      exact List.rel_append hfirst (ih (h.run [op]))

/-- What was fetched, from records that go together with steps. -/
theorem filterMap_fetch?_of_forall₂ {records : List Record} {steps : List Machine}
    (h : List.Forall₂ (fun r m => r.fetch? = some m.fetched) records steps) :
    records.filterMap Record.fetch? = steps.map fetched := by
  induction h with
  | nil => rfl
  | cons hfetch _ ih => rw [List.filterMap_cons_some hfetch, ih, List.map_cons]

/-- **The two views agree along a history**, for any records that tell the same of what was fetched as those
that the machine writes. -/
theorem accounts (h : m.Reachable) {records : List Record}
    (hrecords : records.filter Record.isFetch = (m.written ops).filter Record.isFetch) :
    Accounts records (m.found ops) := by
  have hkinds : ∀ {P : Record → Bool}, (∀ r, r.isFetch = false → P r = false) →
      records.filter P = (m.written ops).filter P := fun hP => by
    rw [← filter_filter_isFetch hP, hrecords, filter_filter_isFetch hP]
  have hothers : ∀ r : Record, r.isFetch = false → r.isTrace = false ∧ r.isSkip = false :=
    fun _ => Record.isFetch_eq_false_iff.mp
  have hlevel : (records.filter fun r => r.level = .trace) = records.filter Record.isTrace :=
    List.filter_congr fun r _ => by rw [Bool.eq_iff_iff, decide_eq_true_iff, Record.isTrace_iff]
  refine ⟨?_, ?_, Record.filterMap_ofLine? records, ?_⟩
  · rw [hlevel, hkinds fun r hr => (hothers r hr).1]
    exact forall₂_written (fun r hr => (hothers r hr).1) (fun _ => traced_step) h ops
  · rw [hkinds fun r hr => (hothers r hr).2]
    exact forall₂_written (fun r hr => (hothers r hr).2) (fun _ => reported_step) h ops
  · rw [Record.readFetches_lines, hrecords]
    exact filterMap_fetch?_of_forall₂
      (forall₂_written (fun _ hr => hr) (fun _ => fetched_step) h ops)

theorem written_append (m : Machine) (ops ops' : List Operation) :
    m.written (ops ++ ops') = m.written ops ++ (m.run ops).written ops' := by
  induction ops generalizing m with
  | nil => rfl
  | cons op ops ih => rw [List.cons_append, written, written, ih, run_cons, List.append_assoc]

/-- **Steps that write nothing**, by what is to be seen of them: those of a machine that awaits a key, whose
program counter is past the end of memory already, or that has recorded a fault. -/
theorem written_of_idle (h : (m.run ops).step.2 = .awaitingKey ∨
    lastInstruction < (m.run ops).state.pc ∨ (m.run ops).fault ≠ none) :
    m.written (ops ++ [.step]) = m.written ops := by
  have hidle : ¬ (m.run ops).Active := by
    rcases h with ho | hp | hf
    · intro ha
      generalize hs : (m.run ops).step = r at ho
      obtain ⟨m', o⟩ := r
      cases stepped_of_eq hs with
      | stopped hf => cases ho
      | waiting hf hw => exact hw ha.wait_none
      | pastEnd hf hw hp => cases ho
      | skip ha hd => cases ho
      | stop ha hd hx => cases ho
      | run ha hd hx => exact outcomeOf_ne_awaitingKey _ _ ho
    · exact fun ha => not_lastInstruction_lt ha hp
    · exact fun ha => hf ha.fault_none
  rw [written_append, written, written, List.append_nil, applyRecords, stepRecords_of_idle hidle,
    List.append_nil]

end Machine

end ChipEight
