import ChipEight.Proofs.Machine.History
import ChipEight.Proofs.Session.Course
import ChipEight.Proofs.Session.Schedule

/-!
# What a run asks of its machine

A run is a host of its machine: all it does to it is to press keys, make steps, count the timers down
and take frames. Told as a history, this says how often each of them was done:

* `Machine.burstLength` — the number of steps that a burst makes before it ends;
* `Session.frameOperations`, `Session.operations` — what a frame and a run ask of the machine;
* `machine_frame`, `machine_frames` — the machine after a run is the one after this history;
* `count_tick_operations` — a simulated run counts the timers down once in each whole frame.
-/

namespace ChipEight

/-- What an event asks of a machine. -/
def Event.operation? : Event → Option Operation
  | .quit => none
  | .key k down => some (.key k down)

/-- What some events ask of a machine, up to the wish to stop. -/
def Event.operations (events : List Event) : List Operation :=
  (events.takeWhile fun e => e ≠ .quit).filterMap Event.operation?

/-- Events ask for nothing but to press and to release keys. -/
theorem Event.exists_of_mem_operations {events : List Event} {op : Operation}
    (h : op ∈ Event.operations events) : ∃ k down, op = .key k down := by
  obtain ⟨e, -, he⟩ := List.mem_filterMap.mp h
  cases e with
  | quit => cases he
  | key k down =>
      cases he
      exact ⟨k, down, rfl⟩

theorem Event.continues_operations (events : List Event) :
    ∀ op ∈ Event.operations events, op.Continues := by
  intro op hop
  obtain ⟨k, down, rfl⟩ := Event.exists_of_mem_operations hop
  trivial

/-- No event counts the timers down. -/
theorem Event.count_tick_operations (events : List Event) :
    (Event.operations events).count .tick = 0 := by
  refine List.count_eq_zero.mpr fun h => ?_
  obtain ⟨k, down, hop⟩ := Event.exists_of_mem_operations h
  cases hop

/-- No event makes a step. -/
theorem Event.count_step_operations (events : List Event) :
    (Event.operations events).count .step = 0 := by
  refine List.count_eq_zero.mpr fun h => ?_
  obtain ⟨k, down, hop⟩ := Event.exists_of_mem_operations h
  cases hop

namespace Machine

/-- The number of steps that a burst of up to `n` steps makes. -/
def burstLength : Nat → Machine → Nat
  | 0, _ => 0
  | n + 1, m =>
    match m.step with
    | (m, .executed _) => burstLength n m + 1
    | (m, .faulted fault) => if fault.isRecoverable then burstLength n m + 1 else 1
    | _ => 1

theorem burstLength_le (n : Nat) (m : Machine) : m.burstLength n ≤ n := by
  induction n generalizing m with
  | zero => exact Nat.le_refl 0
  | succ n ih =>
      have hone : 1 ≤ n + 1 := Nat.le_add_left 1 n
      rw [burstLength]
      split
      · exact Nat.succ_le_succ (ih _)
      · split
        · exact Nat.succ_le_succ (ih _)
        · exact hone
      · exact hone

/-! ### Events, steps and counts as histories -/

theorem run_events (events : List Event) (m : Machine) :
    m.run (Event.operations events) = (m.feed events).1 := by
  induction events generalizing m with
  | nil => rfl
  | cons e events ih =>
      cases e with
      | quit => rfl
      | key k down => exact ih (m.keyEvent k down)

theorem run_replicate_step (n : Nat) (m : Machine) :
    m.run (List.replicate n .step) = m.steps n := by
  induction n generalizing m with
  | zero => rfl
  | succ n ih => exact ih m.step.1

theorem run_replicate_tick (n : Nat) (m : Machine) :
    m.run (List.replicate n .tick) = m.ticks n := by
  induction n generalizing m with
  | zero => rfl
  | succ n ih => exact ih m.tick

/-- The steps that a burst makes lead to its machine. -/
theorem steps_burstLength (n : Nat) (m : Machine) : m.steps (m.burstLength n) = (m.burst n).1 := by
  induction n generalizing m with
  | zero => rfl
  | succ n ih =>
      rcases hs : m.step with ⟨m', o⟩
      have hfirst : m.step.1 = m' := by rw [hs]
      simp only [burst, burstLength, hs]
      cases o with
      | executed ins => rw [steps, hfirst, ih]
      | awaitingKey => rw [steps, hfirst, steps]
      | halted => rw [steps, hfirst, steps]
      | faulted f =>
          cases hrec : f.isRecoverable with
          | true => simp only [hrec, if_true, steps, hfirst, ih]
          | false => simp only [hrec, Bool.false_eq_true, if_false, steps, hfirst]

end Machine

namespace Session

variable {ι δ : Type}

/-- What a frame asks of the machine after its events. -/
def workOperations (s : Session ι δ) (elapsed : Nat) : List Operation :=
  List.replicate (s.machine.burstLength (s.clock.advance elapsed).2.steps) .step ++
    match (s.burst elapsed).2 with
    | .stopped _ => []
    | _ => List.replicate (s.clock.advance elapsed).2.timerTicks .tick ++ [.takeFrame]

/-! ### One frame -/

section

variable {s : Session ι δ} {elapsed : Nat}

/-- What a frame asks of the machine if a fault stops the program. -/
theorem workOperations_of_stopped {f : Fault} (h : (s.burst elapsed).2 = .stopped f) :
    s.workOperations elapsed =
      List.replicate (s.machine.burstLength (s.clock.advance elapsed).2.steps) .step := by
  simp only [workOperations, h, List.append_nil]

theorem run_workOperations_of_stopped {f : Fault} (h : (s.burst elapsed).2 = .stopped f) :
    s.machine.run (s.workOperations elapsed) = (s.makeSteps elapsed).machine := by
  rw [workOperations_of_stopped h, Machine.run_replicate_step, Machine.steps_burstLength,
    makeSteps_machine, burst]

/-- What a frame asks of the machine if no fault stops the program. -/
theorem workOperations_of_not_stopped (h : ∀ f, (s.burst elapsed).2 ≠ .stopped f) :
    s.workOperations elapsed =
      List.replicate (s.machine.burstLength (s.clock.advance elapsed).2.steps) .step ++
        (List.replicate (s.clock.advance elapsed).2.timerTicks .tick ++ [.takeFrame]) := by
  unfold workOperations
  split
  · rename_i f hf
    exact (h f hf).elim
  · rfl

theorem count_tick_replicate_step (n : Nat) :
    (List.replicate n Operation.step).count .tick = 0 :=
  List.count_eq_zero.mpr fun h => Operation.noConfusion (List.eq_of_mem_replicate h)

theorem count_tick_workOperations (h : ∀ f, (s.burst elapsed).2 ≠ .stopped f) :
    (s.workOperations elapsed).count .tick = (s.clock.advance elapsed).2.timerTicks := by
  rw [workOperations_of_not_stopped h, List.count_append, count_tick_replicate_step,
    List.count_append, List.count_replicate_self, Nat.zero_add]
  rfl

theorem count_tick_workOperations_of_stopped {f : Fault}
    (h : (s.burst elapsed).2 = .stopped f) : (s.workOperations elapsed).count .tick = 0 := by
  rw [workOperations_of_stopped h, count_tick_replicate_step]

theorem continues_workOperations (s : Session ι δ) (elapsed : Nat) :
    ∀ op ∈ s.workOperations elapsed, op.Continues := by
  intro op hop
  rcases List.mem_append.mp hop with hstep | hrest
  · rw [List.eq_of_mem_replicate hstep]
    trivial
  · split at hrest
    · cases hrest
    · rcases List.mem_append.mp hrest with htick | hframe
      · rw [List.eq_of_mem_replicate htick]
        trivial
      · rw [List.mem_singleton.mp hframe]
        trivial

theorem run_workOperations [Display δ] (h : ∀ f, (s.burst elapsed).2 ≠ .stopped f) :
    s.machine.run (s.workOperations elapsed) = (s.workDone elapsed).refresh.1.machine := by
  rw [workOperations_of_not_stopped h, Machine.run_append, Machine.run_replicate_step,
    Machine.steps_burstLength, Machine.run_append, Machine.run_replicate_tick,
    (refresh_workDone s elapsed).1]
  rfl

end

variable [Input ι]

/-- What a frame asks of the machine. -/
def frameOperations (s : Session ι δ) (elapsed : Nat) : List Operation :=
  match Input.poll s.input with
  | (.error _, _) => []
  | (.ok events, input) =>
    Event.operations events ++
      if .quit ∈ events then [] else (s.hear events input).workOperations elapsed

section

variable {s : Session ι δ} {elapsed : Nat} {events : List Event} {input : ι}

theorem frameOperations_of_error {reason : String}
    (hpoll : Input.poll s.input = (.error reason, input)) : s.frameOperations elapsed = [] := by
  simp only [frameOperations, hpoll]

theorem frameOperations_of_quit (hpoll : Input.poll s.input = (.ok events, input))
    (hquit : Event.quit ∈ events) : s.frameOperations elapsed = Event.operations events := by
  simp only [frameOperations, hpoll, if_pos hquit, List.append_nil]

theorem frameOperations_of_no_quit (hpoll : Input.poll s.input = (.ok events, input))
    (hquit : Event.quit ∉ events) : s.frameOperations elapsed =
      Event.operations events ++ (s.hear events input).workOperations elapsed := by
  simp only [frameOperations, hpoll, if_neg hquit]

theorem continues_frameOperations (s : Session ι δ) (elapsed : Nat) :
    ∀ op ∈ s.frameOperations elapsed, op.Continues := by
  intro op hop
  unfold frameOperations at hop
  split at hop
  · cases hop
  · rcases List.mem_append.mp hop with hevent | hwork
    · exact Event.continues_operations _ op hevent
    · split at hwork
      · cases hwork
      · exact continues_workOperations _ elapsed op hwork

end

variable [Display δ]

/-- What a run of up to `n` frames asks of the machine. -/
def operations (pacing : Pacing) : Nat → Session ι δ → List Operation
  | 0, _ => []
  | n + 1, s =>
    s.frameOperations (pacing s.count) ++
      match s.frame (pacing s.count) with
      | (_, some _) => []
      | (s, none) => operations pacing n s

/-- **The machine after a frame** is the one after what the frame asks of it. -/
theorem machine_frame (s : Session ι δ) (elapsed : Nat) :
    (s.frame elapsed).1.machine = s.machine.run (s.frameOperations elapsed) := by
  have hheard : ∀ events (input : ι),
      s.machine.run (Event.operations events) = (s.hear events input).machine :=
    fun events input => Machine.run_events events s.machine
  have hframed := s.framed elapsed
  generalize (s.frame elapsed).1 = t at hframed ⊢
  generalize (s.frame elapsed).2 = e at hframed
  cases hframed with
  | inputFailed hpoll =>
      rw [frameOperations_of_error hpoll]
      rfl
  | @quit events input hpoll hquit =>
      rw [frameOperations_of_quit hpoll hquit]
      exact (hheard events input).symm
  | @faulted events input f hpoll hquit hburst =>
      rw [frameOperations_of_no_quit hpoll hquit, Machine.run_append, hheard events input]
      exact (run_workOperations_of_stopped hburst).symm
  | @displayFailed events input error hpoll hquit hburst hshow =>
      rw [frameOperations_of_no_quit hpoll hquit, Machine.run_append, hheard events input]
      exact (run_workOperations hburst).symm
  | @halted events input hpoll hquit hburst hshow =>
      rw [frameOperations_of_no_quit hpoll hquit, Machine.run_append, hheard events input,
        finishFrame_machine, run_workOperations (Burst.not_stopped_of_halted hburst)]
  | @done events input hpoll hquit hburst hshow =>
      rw [frameOperations_of_no_quit hpoll hquit, Machine.run_append, hheard events input,
        finishFrame_machine, run_workOperations (Burst.not_stopped_of_spent hburst)]

/-- **A frame counts the timers down** as often as the clock says, unless the run ends before. -/
theorem count_tick_frameOperations (s : Session ι δ) (elapsed : Nat) :
    (s.frameOperations elapsed).count .tick = match (s.frame elapsed).2 with
      | some (.inputFailed _) => 0
      | some .quit => 0
      | some (.faulted _ _) => 0
      | _ => (s.clock.advance elapsed).2.timerTicks := by
  have hwork : ∀ {events : List Event} {input : ι}, Input.poll s.input = (.ok events, input) →
      Event.quit ∉ events → (∀ f, ((s.hear events input).burst elapsed).2 ≠ .stopped f) →
      (s.frameOperations elapsed).count .tick = (s.clock.advance elapsed).2.timerTicks := by
    intro events input hpoll hquit hburst
    rw [frameOperations_of_no_quit hpoll hquit, List.count_append, Event.count_tick_operations,
      Nat.zero_add]
    exact count_tick_workOperations hburst
  have hframed := s.framed elapsed
  generalize (s.frame elapsed).1 = t at hframed
  generalize (s.frame elapsed).2 = e at hframed ⊢
  cases hframed with
  | inputFailed hpoll =>
      rw [frameOperations_of_error hpoll]
      rfl
  | quit hpoll hquit =>
      rw [frameOperations_of_quit hpoll hquit]
      exact Event.count_tick_operations _
  | @faulted events input f hpoll hquit hburst =>
      rw [frameOperations_of_no_quit hpoll hquit, List.count_append, Event.count_tick_operations,
        count_tick_workOperations_of_stopped hburst]
  | displayFailed hpoll hquit hburst hshow => exact hwork hpoll hquit hburst
  | halted hpoll hquit hburst hshow =>
      exact hwork hpoll hquit (Burst.not_stopped_of_halted hburst)
  | done hpoll hquit hburst hshow =>
      exact hwork hpoll hquit (Burst.not_stopped_of_spent hburst)

/-! ### Whole runs -/

variable {pacing : Pacing} {k n : Nat} {s t u : Session ι δ} {e : Exit}

/-- **The machine after a run** is the one after what the run asks of it. -/
theorem machine_frames (pacing : Pacing) (n : Nat) (s : Session ι δ) :
    (s.frames pacing n).1.machine = s.machine.run (s.operations pacing n) := by
  induction n generalizing s with
  | zero => rfl
  | succ n ih =>
      have hfirst := machine_frame s (pacing s.count)
      rw [frames_succ, operations, Machine.run_append, ← hfirst]
      rcases s.frame (pacing s.count) with ⟨u, _ | e⟩
      · exact ih u
      · rfl

/-- A run never starts a program. -/
theorem continues_operations (pacing : Pacing) (n : Nat) (s : Session ι δ) :
    ∀ op ∈ s.operations pacing n, op.Continues := by
  induction n generalizing s with
  | zero =>
      intro op hop
      cases hop
  | succ n ih =>
      intro op hop
      rcases List.mem_append.mp hop with hfirst | hrest
      · exact continues_frameOperations s _ op hfirst
      · split at hrest
        · cases hrest
        · exact ih _ op hrest

/-- After some whole frames a run asks for what is left. -/
theorem operations_of_passes (h : s.Passes pacing k u) (n : Nat) :
    s.operations pacing (k + n) = s.operations pacing k ++ u.operations pacing n := by
  induction k generalizing s with
  | zero =>
      cases h
      rw [Nat.zero_add, operations, List.nil_append]
  | succ k ih =>
      obtain ⟨v, hframe, hrest⟩ := passes_succ_iff.mp h
      rw [Nat.add_right_comm, operations, operations, hframe, List.append_assoc]
      exact congrArg _ (ih hrest)

theorem operations_one (pacing : Pacing) (s : Session ι δ) :
    s.operations pacing 1 = s.frameOperations (pacing s.count) := by
  rw [operations]
  rcases s.frame (pacing s.count) with ⟨u, _ | e⟩
  · exact List.append_nil _
  · exact List.append_nil _

/-- What a run asks for that ends in the frame after some others. -/
theorem operations_of_last (h : s.Passes pacing k u)
    (hlast : u.frame (pacing u.count) = (t, some e)) (hk : k < n) :
    s.operations pacing n = s.operations pacing k ++ u.frameOperations (pacing u.count) := by
  obtain ⟨m, rfl⟩ := Nat.exists_eq_add_of_lt hk
  rw [Nat.add_assoc, operations_of_passes h, operations, hlast, List.append_nil]

/-- A run that has ended asks for nothing more, whatever its limit. -/
theorem operations_of_le {n' : Nat} (h : s.frames pacing n = (t, e)) (he : e ≠ .frameLimit)
    (hle : n ≤ n') : s.operations pacing n' = s.operations pacing n := by
  obtain ⟨k, hk, u, hpasses, hlast⟩ := exists_last_frame h he
  rw [operations_of_last hpasses hlast hk,
    operations_of_last hpasses hlast (Nat.lt_of_lt_of_le hk hle)]

/-! ### Simulated runs -/

variable {speed : Nat}

/-- The clock of a simulated run is told by the number of frames that are done. -/
def OnTime (speed : Nat) (s : Session ι δ) : Prop :=
  s.clock = Clock.after speed (s.count * timerPeriod)

omit [Input ι] [Display δ] in
theorem onTime_start (speed : Nat) (m : Machine) (input : ι) (display : δ) (journal : Journal) :
    (start speed m input display journal).OnTime speed := by
  rw [OnTime, start, Nat.zero_mul, Clock.after_zero]

omit [Input ι] [Display δ] in
theorem OnTime.advance (h : s.OnTime speed) : s.clock.advance timerPeriod =
    (Clock.after speed ((s.count + 1) * timerPeriod),
      { steps := stepsDue speed s.count, timerTicks := 1 }) := by
  rw [h, advance_frame]

theorem OnTime.frame (h : s.OnTime speed) (hframe : s.frame timerPeriod = (u, none)) :
    u.OnTime speed := by
  rw [OnTime, frame_count hframe, frame_clock hframe, h.advance]

theorem OnTime.passes (h : s.OnTime speed) (hpasses : s.Passes .simulated k u) :
    u.OnTime speed :=
  hpasses.induction (P := fun _ u => u.OnTime speed) h fun _ _ _ _ hu hframe => hu.frame hframe

/-- **A simulated run counts the timers down once in each whole frame.** -/
theorem OnTime.count_tick (h : s.OnTime speed) (hpasses : s.Passes .simulated k u) :
    (s.operations .simulated k).count .tick = k :=
  hpasses.induction (P := fun j _ => (s.operations .simulated j).count .tick = j) rfl
    fun j v w hv hcount hframe => by
      have htick := count_tick_frameOperations v timerPeriod
      have hlast : v.frame timerPeriod = (w, none) := hframe
      rw [hlast, (h.passes hv).advance] at htick
      rw [operations_of_passes hv, operations_one, List.count_append, hcount]
      exact congrArg _ htick

end Session

end ChipEight
