import ChipEight.Proofs.Machine.Executed
import ChipEight.Proofs.Session.Operations

/-!
# Steps and timer counts in another order

A host makes steps and counts the timers down, each at its own rate, and how the two fall between each
other is up to it. Three instructions can tell: the one that reads the delay timer and the two that set a
timer. All other steps do the same whether a count comes before them or after. So two histories with as many
steps and counts end the same if each step that runs one of the three has as many counts before it in the
one as in the other:

* `Instruction.usesTimers`, `Machine.SameSides` — the three instructions, and such histories;
* `step_tick`, `step_ticks` — one step, with a count before or after it, and with several;
* `first_step` — a history up to its first step;
* `run_eq_of_balance` — two histories, by induction on the first, with the counts that each is ahead;
* `ticks_pass_steps` — both together.
-/

namespace ChipEight

/-- The instruction reads or sets a timer. -/
def Instruction.usesTimers : Instruction → Bool
  | .readDelay _ | .setDelay _ | .setSound _ => true
  | _ => false

/-- The operations are steps and timer counts. -/
def OnlyStepsAndTicks (ops : List Operation) : Prop := ∀ op ∈ ops, op = .step ∨ op = .tick

instance : DecidablePred OnlyStepsAndTicks := fun ops =>
  inferInstanceAs (Decidable (∀ op ∈ ops, op = .step ∨ op = .tick))

namespace Machine

/-- A step that is made after `before` runs an instruction that uses the timers. -/
def UsesTimersAfter (m : Machine) (before : List Operation) : Prop :=
  (m.run before).executed?.any Instruction.usesTimers = true

instance (m : Machine) (before : List Operation) : Decidable (m.UsesTimersAfter before) :=
  inferInstanceAs (Decidable (_ = true))

/-- What the steps of a history come to, in their order. -/
def outcomes : Machine → List Operation → List Outcome
  | _, [] => []
  | m, op :: ops =>
    match (m.apply op).2 with
    | .stepped o => o :: outcomes (m.apply op).1 ops
    | _ => outcomes (m.apply op).1 ops

/-- Two histories of as many steps and timer counts. Wherever the first makes a step that uses the timers
and the second makes the same step, counted from the start, they have counted the timers down as often. -/
structure SameSides (m : Machine) (ops ops' : List Operation) : Prop where
  only : OnlyStepsAndTicks ops
  only' : OnlyStepsAndTicks ops'
  steps_eq : ops.count .step = ops'.count .step
  ticks_eq : ops.count .tick = ops'.count .tick
  ticks_before_eq : ∀ (i : Fin ops.length) (j : Fin ops'.length),
    ops[i] = .step → ops'[j] = .step → (ops.take i).count .step = (ops'.take j).count .step →
    m.UsesTimersAfter (ops.take i) → (ops.take i).count .tick = (ops'.take j).count .tick

variable {m : Machine} {ins : Instruction} {ops ops' : List Operation}

/-! ### One step -/

/-- An instruction that does not use the timers does the same with a count before it. -/
theorem execute_tick (m : Machine) (h : ins.usesTimers = false) :
    m.tick.execute ins = (m.execute ins).tick := by
  cases ins with
  | readDelay x => cases h
  | setDelay x => cases h
  | setSound x => cases h
  | _ => rfl

theorem unseen_tick : Unseen tick where
  fault_eq := fun _ => rfl
  wait_eq := fun _ => rfl
  pc_eq := fun _ => rfl
  memory_eq := fun _ => rfl
  sp_eq := fun _ => rfl
  next_eq := fun _ _ => rfl
  skipWord_eq := fun _ => rfl
  stop_eq := fun _ _ => rfl

/-- **What a step comes to does not depend on the timers**, and a count can pass it unless it uses them. -/
theorem step_tick (m : Machine) : m.tick.step.2 = m.step.2 ∧
    (m.executed?.any Instruction.usesTimers = false → m.tick.step.1 = m.step.1.tick) := by
  obtain ⟨hout, hleft⟩ := unseen_tick.step m
  refine ⟨hout, fun h => hleft fun ins hrun => ?_⟩
  exact execute_tick m ((Option.any_eq_false _ _).mp h ins hrun)

/-- So it is with several counts. -/
theorem step_ticks (k : Nat) (m : Machine) : (m.ticks k).step.2 = m.step.2 ∧
    (m.executed?.any Instruction.usesTimers = false →
      (m.ticks k).step.1 = m.step.1.ticks k) := by
  induction k generalizing m with
  | zero => exact ⟨rfl, fun _ => rfl⟩
  | succ k ih =>
      obtain ⟨hout, hpass⟩ := ih m.tick
      obtain ⟨hout', hpass'⟩ := step_tick m
      refine ⟨hout.trans hout', fun h => ?_⟩
      rw [ticks, ticks, hpass h, hpass' h]

theorem executed?_ticks (k : Nat) (m : Machine) : (m.ticks k).executed? = m.executed? := by
  induction k generalizing m with
  | zero => rfl
  | succ k ih => exact (ih m.tick).trans (unseen_tick.executed?_eq m)

/-! ### Histories -/

theorem ticks_ticks (m : Machine) (a b : Nat) : (m.ticks a).ticks b = m.ticks (a + b) := by
  rw [← run_replicate_tick, ← run_replicate_tick, ← run_replicate_tick, ← run_append,
    List.replicate_append_replicate]

/-- Counts come to nothing. -/
theorem outcomes_replicate_tick (k : Nat) (m : Machine) (ops : List Operation) :
    m.outcomes (List.replicate k .tick ++ ops) = (m.ticks k).outcomes ops := by
  induction k generalizing m with
  | zero => rfl
  | succ k ih => exact ih m.tick

/-- **A history up to its first step**, if it makes one, is nothing but counts. -/
theorem first_step (h : OnlyStepsAndTicks ops) :
    ops = List.replicate (ops.count .tick) .tick ∨
      ∃ k rest, ops = List.replicate k .tick ++ .step :: rest := by
  induction ops with
  | nil => exact .inl rfl
  | cons op ops ih =>
      rcases h op List.mem_cons_self with rfl | rfl
      · exact .inr ⟨0, ops, rfl⟩
      · rcases ih fun op hmem => h op (List.mem_cons_of_mem _ hmem) with hticks | ⟨k, rest, hrest⟩
        · left
          rw [List.count_cons_self, List.replicate_succ, ← hticks]
        · exact .inr ⟨k + 1, rest, congrArg (.tick :: ·) hrest⟩

/-- What the first step of a history leaves to the rest, and adds to its outcomes. -/
theorem run_first_step (k : Nat) (m : Machine) (rest : List Operation) :
    m.run (List.replicate k .tick ++ .step :: rest) = (m.ticks k).step.1.run rest ∧
      m.outcomes (List.replicate k .tick ++ .step :: rest) =
        (m.ticks k).step.2 :: (m.ticks k).step.1.outcomes rest := by
  rw [run_append, run_replicate_tick, outcomes_replicate_tick]
  exact ⟨rfl, rfl⟩

/-- Two machines that differ in counts only differ in counts only after a step. If this uses the timers,
they must not differ. -/
theorem step_ahead {a b : Nat} (h : m.executed?.any Instruction.usesTimers = true → a = b) :
    ∃ (m' : Machine) (c d : Nat), (m.ticks a).step.1 = m'.ticks c ∧ (m.ticks b).step.1 = m'.ticks d ∧
      c + b = d + a := by
  cases huses : m.executed?.any Instruction.usesTimers with
  | true =>
      obtain rfl := h huses
      exact ⟨(m.ticks a).step.1, 0, 0, rfl, rfl, rfl⟩
  | false =>
      exact ⟨m.step.1, a, b, (step_ticks a m).2 huses, (step_ticks b m).2 huses, Nat.add_comm a b⟩

/-- What is left of two histories with the same steps when they have counted the same machine down `a` and
`b` times: the counts to come make up for the difference, and have done so wherever the timers are used. -/
structure Balanced (m : Machine) (a b : Nat) (ops ops' : List Operation) : Prop where
  only : OnlyStepsAndTicks ops
  only' : OnlyStepsAndTicks ops'
  steps_eq : ops.count .step = ops'.count .step
  ticks_eq : a + ops.count .tick = b + ops'.count .tick
  ticks_before_eq : ∀ before after before' after',
    ops = before ++ .step :: after → ops' = before' ++ .step :: after' →
    before.count .step = before'.count .step → (m.ticks a).UsesTimersAfter before →
    a + before.count .tick = b + before'.count .tick

theorem count_step_replicate (k : Nat) (ops : List Operation) :
    (List.replicate k Operation.tick ++ .step :: ops).count .step = ops.count .step + 1 := by
  rw [List.count_append, List.count_replicate, List.count_cons_self]
  exact Nat.zero_add _

theorem count_tick_replicate (k : Nat) (ops : List Operation) :
    (List.replicate k Operation.tick ++ .step :: ops).count .tick = k + ops.count .tick := by
  rw [List.count_append, List.count_replicate_self, List.count_cons_of_ne (by decide)]

/-- **The first step of both histories** leaves the rest of them balanced. -/
theorem Balanced.tail {a b k k' : Nat} {rest rest' : List Operation}
    (h : m.Balanced a b (List.replicate k .tick ++ .step :: rest)
      (List.replicate k' .tick ++ .step :: rest')) :
    ∃ (m' : Machine) (c d : Nat), (m.ticks (a + k)).step.1 = m'.ticks c ∧
      (m.ticks (b + k')).step.1 = m'.ticks d ∧ m'.Balanced c d rest rest' := by
  have huses : m.executed?.any Instruction.usesTimers = true → a + k = b + k' := by
    intro huses
    have hbefore := h.ticks_before_eq (List.replicate k .tick) rest (List.replicate k' .tick) rest'
      rfl rfl (by simp only [List.count_replicate]; rfl)
    rw [List.count_replicate_self, List.count_replicate_self] at hbefore
    have hfirst : (m.ticks a).UsesTimersAfter (List.replicate k .tick) := by
      rw [UsesTimersAfter, run_replicate_tick, executed?_ticks, executed?_ticks]
      exact huses
    have heq := hbefore hfirst
    omega
  obtain ⟨m', c, d, hstep, hstep', hahead⟩ := step_ahead huses
  have hticks := h.ticks_eq
  have hsteps := h.steps_eq
  rw [count_tick_replicate, count_tick_replicate] at hticks
  rw [count_step_replicate, count_step_replicate] at hsteps
  refine ⟨m', c, d, hstep, hstep', ?_, ?_, Nat.succ.inj hsteps, by omega, ?_⟩
  · exact fun op hmem => h.only op (List.mem_append_right _ (List.mem_cons_of_mem _ hmem))
  · exact fun op hmem => h.only' op (List.mem_append_right _ (List.mem_cons_of_mem _ hmem))
  · rintro before after before' after' rfl rfl hcount huses'
    have hbefore := h.ticks_before_eq (List.replicate k .tick ++ .step :: before) after
      (List.replicate k' .tick ++ .step :: before') after'
      (by simp only [List.append_assoc, List.cons_append])
      (by simp only [List.append_assoc, List.cons_append])
      (by rw [count_step_replicate, count_step_replicate, hcount])
    rw [count_tick_replicate, count_tick_replicate, UsesTimersAfter, (run_first_step k _ _).1,
      ticks_ticks, hstep] at hbefore
    have heq := hbefore huses'
    omega

/-- A history without a step counts the timers down and does nothing else. -/
theorem run_of_no_step (h : ops = List.replicate (ops.count .tick) .tick) (m : Machine) :
    m.run ops = m.ticks (ops.count .tick) ∧ m.outcomes ops = [] := by
  have hrun := run_replicate_tick (ops.count .tick) m
  have hout := outcomes_replicate_tick (ops.count .tick) m []
  rw [List.append_nil, ← h] at hout
  rw [← h] at hrun
  exact ⟨hrun, hout⟩

theorem first_step_of_count (h : OnlyStepsAndTicks ops) {n : Nat} (hn : ops.count .step = n + 1) :
    ∃ k rest, ops = List.replicate k .tick ++ .step :: rest := by
  refine (first_step h).resolve_left fun hticks => ?_
  rw [hticks, List.count_replicate] at hn
  cases hn

theorem no_step_of_count (h : OnlyStepsAndTicks ops) (hn : ops.count .step = 0) :
    ops = List.replicate (ops.count .tick) .tick := by
  refine (first_step h).resolve_right ?_
  rintro ⟨k, rest, rfl⟩
  rw [count_step_replicate] at hn
  cases hn

/-- **Two histories of the same steps** end the same, by induction on the steps. -/
theorem Balanced.run_eq {a b : Nat} (h : m.Balanced a b ops ops') :
    (m.ticks a).run ops = (m.ticks b).run ops' ∧
      (m.ticks a).outcomes ops = (m.ticks b).outcomes ops' := by
  generalize hn : ops.count .step = n
  induction n generalizing m a b ops ops' with
  | zero =>
      obtain ⟨hrun, hout⟩ := run_of_no_step (no_step_of_count h.only hn) (m.ticks a)
      obtain ⟨hrun', hout'⟩ :=
        run_of_no_step (no_step_of_count h.only' (h.steps_eq.symm.trans hn)) (m.ticks b)
      rw [hrun, hout, hrun', hout', ticks_ticks, ticks_ticks, h.ticks_eq]
      exact ⟨rfl, rfl⟩
  | succ n ih =>
      obtain ⟨k, rest, rfl⟩ := first_step_of_count h.only hn
      obtain ⟨k', rest', rfl⟩ := first_step_of_count h.only' (h.steps_eq.symm.trans hn)
      obtain ⟨m', c, d, hstep, hstep', hrest⟩ := h.tail
      obtain ⟨hrun, hout⟩ := ih hrest (Nat.succ.inj ((count_step_replicate k rest).symm.trans hn))
      obtain ⟨hfirst, hfirst'⟩ := run_first_step k (m.ticks a) rest
      obtain ⟨hsecond, hsecond'⟩ := run_first_step k' (m.ticks b) rest'
      rw [hfirst, hfirst', hsecond, hsecond', ticks_ticks, ticks_ticks, hstep, hstep', hrun,
        hout, (step_ticks _ m).1, (step_ticks _ m).1]
      exact ⟨rfl, rfl⟩

theorem SameSides.balanced (h : m.SameSides ops ops') : m.Balanced 0 0 ops ops' where
  only := h.only
  only' := h.only'
  steps_eq := h.steps_eq
  ticks_eq := congrArg (0 + ·) h.ticks_eq
  ticks_before_eq := by
    rintro before after before' after' rfl rfl hcount huses
    have hbefore := h.ticks_before_eq ⟨before.length, by simp⟩ ⟨before'.length, by simp⟩
    simp only [Fin.getElem_fin, List.getElem_append_right, Nat.le_refl, Nat.sub_self,
      List.getElem_cons_zero, List.take_left', forall_const] at hbefore
    rw [hbefore hcount huses]

/-- **Timer counts pass steps.** A count before a step that runs none of the three instructions for the
timers, and a count after it, leave the same machine, and the step comes to the same. So two histories of
the same steps and counts, in which every step that does run one of the three has as many counts before it
in the one as in the other, end in the same machine, and their steps come to the same. -/
theorem ticks_pass_steps (m : Machine) :
    ((∀ ins, m.executed? = some ins → ins.usesTimers = false) →
      m.tick.step = (m.step.1.tick, m.step.2)) ∧
    ∀ ops ops' : List Operation, m.SameSides ops ops' →
      m.run ops = m.run ops' ∧ m.outcomes ops = m.outcomes ops' := by
  refine ⟨fun h => ?_, fun ops ops' h => h.balanced.run_eq⟩
  have hnone := (Option.any_eq_false _ _).mpr h
  exact Prod.ext ((step_tick m).2 hnone) (step_tick m).1

/-- A program that sets the delay timer to three, adds to a register twice and reads the timer, before its
first step. -/
def delayed : Machine :=
  (ofSeed 0).run [.load [0x60, 0x03, 0xF0, 0x15, 0x71, 0x01, 0x71, 0x01, 0xF2, 0x07]]

/-- The timer is set after one count and read after three. -/
def countedEarly : List Operation :=
  [.tick, .step, .step, .tick, .tick, .step, .step, .step, .tick]

/-- The same steps and counts: those that count are later, as far as the timer is not looked at. -/
def countedLate : List Operation :=
  [.step, .tick, .step, .step, .tick, .step, .tick, .step, .tick]

/-- The program reads one in both. -/
theorem delayed_reads_one :
    delayed.run countedEarly = delayed.run countedLate ∧
    (delayed.run countedLate).state.reg 2 = 1 ∧
    delayed.tick.step = (delayed.step.1.tick, delayed.step.2) := by
  have hsides : delayed.SameSides countedEarly countedLate :=
    ⟨by decide, by decide, by decide, by decide, by decide +kernel⟩
  have hload : delayed.executed? = some (.load 0 3) := by decide +kernel
  have hreads : (delayed.run countedLate).state.reg 2 = 1 := by decide +kernel
  obtain ⟨hpass, hsame⟩ := ticks_pass_steps delayed
  refine ⟨(hsame _ _ hsides).1, hreads, hpass fun ins hrun => ?_⟩
  rw [hload] at hrun
  cases hrun
  rfl

end Machine

end ChipEight
