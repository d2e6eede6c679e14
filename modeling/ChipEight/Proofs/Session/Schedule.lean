import ChipEight.Clock
import ChipEight.Proofs.Input.Script
import ChipEight.Proofs.Session.Frame

/-!
# Simulated runs follow a schedule

In a simulated run each frame takes one period of the timers, so that the number of its steps is a
matter of arithmetic. A run of a script is then a fold over its frames, each of which presses the
keys planned for it, makes its steps, counts the timers down once and takes the frame. That a burst
may end early makes no difference to the machine.

* `stepsDue`, `scheduledFrame`, `scheduled` — the schedule;
* `OnSchedule`, with `OnSchedule.frame` — what one frame keeps, and what it leaves if the run ends;
* `OnSchedule.frames`, `run_follows_schedule` — whole runs.
-/

namespace ChipEight

/-- The steps of frame `k` at a speed: the periods of the processor that end in this frame. -/
def stepsDue (speed k : Nat) : Nat :=
  (k + 1) * 16666666 / (1000000000 / max 1 (min speed 1000000)) -
    k * 16666666 / (1000000000 / max 1 (min speed 1000000))

/-- The machine after the keys and the steps of frame `k`. -/
def scheduledSteps (speed : Nat) (events : List (Nat × Event)) (m : Machine) (k : Nat) : Machine :=
  (m.press (Script.onPoll events k)).steps (stepsDue speed k)

/-- The machine after frame `k`. -/
def scheduledFrame (speed : Nat) (events : List (Nat × Event)) (m : Machine) (k : Nat) : Machine :=
  (scheduledSteps speed events m k).tick.frameTaken

/-- The machine after the first `n` frames. -/
def scheduled (speed : Nat) (events : List (Nat × Event)) (m : Machine) : Nat → Machine
  | 0 => m
  | n + 1 => scheduledFrame speed events (scheduled speed events m n) n

/-! ### The clock of a simulated run -/

theorem timerPeriod_eq : timerPeriod = 16666666 := rfl

theorem periodsWithin_frame (speed k : Nat) :
    Clock.periodsWithin (Clock.periodOf speed) (k * timerPeriod) timerPeriod = stepsDue speed k := by
  simp only [Clock.periodsWithin, timerPeriod_eq, stepsDue, Clock.periodOf, maxSpeed, Nat.succ_mul]

/-- The timers are due once in every frame, whatever the speed. -/
theorem periodsWithin_timer (k : Nat) :
    Clock.periodsWithin timerPeriod (k * timerPeriod) timerPeriod = 1 := by
  have hpos : 0 < timerPeriod := by decide
  rw [Clock.periodsWithin, ← Nat.succ_mul, Nat.mul_div_cancel _ hpos, Nat.mul_div_cancel _ hpos]
  omega

theorem advance_frame (speed k : Nat) :
    (Clock.after speed (k * timerPeriod)).advance timerPeriod =
      (Clock.after speed ((k + 1) * timerPeriod),
        { steps := stepsDue speed k, timerTicks := 1 }) := by
  rw [Clock.advance_after speed _ _ (by decide), periodsWithin_frame, periodsWithin_timer,
    Nat.succ_mul]

/-! ### Frames on schedule -/

variable {δ : Type} {speed k : Nat} {events : List (Nat × Event)} {m : Machine}
  {s : Session Script δ}

/-- The session has gone through `k` frames of the schedule. -/
structure OnSchedule (speed : Nat) (events : List (Nat × Event)) (m : Machine) (k : Nat)
    (s : Session Script δ) : Prop where
  count_eq : s.count = k
  input_eq : s.input = Script.after events k
  clock_eq : s.clock = Clock.after speed (k * timerPeriod)
  machine_eq : s.machine = scheduled speed events m k

theorem onSchedule_start (speed : Nat) (m : Machine) (events : List (Nat × Event)) (display : δ)
    (journal : Journal) :
    OnSchedule speed events m 0
      (Session.start speed m (Script.ofList events) display journal) where
  count_eq := rfl
  input_eq := (Script.after_zero events).symm
  clock_eq := by
    rw [Nat.zero_mul, Clock.after_zero]
    rfl
  machine_eq := rfl

/-- What a frame on schedule hears. -/
theorem OnSchedule.poll (h : OnSchedule speed events m k s) {heard : List Event} {input : Script}
    (hpoll : Input.poll s.input = (.ok heard, input)) :
    heard = Script.onPoll events k ∧ input = Script.after events (k + 1) := by
  have hscript : Input.poll s.input =
      (.ok (Script.onPoll events k), Script.after events (k + 1)) := by
    rw [h.input_eq, Script.input_poll_after]
  rw [hscript] at hpoll
  cases hpoll
  exact ⟨rfl, rfl⟩

/-- Where the steps of a frame on schedule lead. -/
theorem OnSchedule.burst (h : OnSchedule speed events m k s)
    (hquit : Event.quit ∉ Script.onPoll events k) (input : Script) :
    ((s.hear (Script.onPoll events k) input).burst timerPeriod).1 =
      scheduledSteps speed events (scheduled speed events m k) k := by
  have hsteps : (s.clock.advance timerPeriod).2.steps = stepsDue speed k := by
    rw [h.clock_eq, advance_frame]
  have hkeys : (s.hear (Script.onPoll events k) input).machine =
      (scheduled speed events m k).press (Script.onPoll events k) := by
    rw [Session.hear, Machine.feed_of_no_quit hquit, h.machine_eq]
  rw [Session.burst, Machine.burst_fst, hkeys]
  show ((scheduled speed events m k).press _).steps (s.clock.advance timerPeriod).2.steps = _
  rw [hsteps]
  rfl

theorem ticks_one (m : Machine) : m.ticks 1 = m.tick := rfl

/-- The session once the work of a frame on schedule is done. -/
theorem OnSchedule.workDone [Display δ] (h : OnSchedule speed events m k s)
    (hquit : Event.quit ∉ Script.onPoll events k) {input : Script} {t : Session Script δ}
    (ht : ((s.hear (Script.onPoll events k) input).workDone timerPeriod).refresh.1 = t) :
    t.machine = scheduled speed events m (k + 1) ∧
      t.clock = Clock.after speed ((k + 1) * timerPeriod) ∧ t.input = input ∧ t.count = k := by
  have hclock : (s.hear (Script.onPoll events k) input).clock =
      Clock.after speed (k * timerPeriod) := h.clock_eq
  have hcount : (s.hear (Script.onPoll events k) input).count = k := h.count_eq
  have hdone := Session.refresh_workDone (s.hear (Script.onPoll events k) input) timerPeriod
  rw [ht, hclock, advance_frame, h.burst hquit, ticks_one, hcount, Session.hear_input] at hdone
  rw [scheduled, scheduledFrame]
  exact hdone

/-- **One frame on schedule.** -/
theorem OnSchedule.frame [Display δ] (h : OnSchedule speed events m k s) :
    match (s.frame timerPeriod).2 with
    | none => OnSchedule speed events m (k + 1) (s.frame timerPeriod).1
    | some .halted => (s.frame timerPeriod).1.input = Script.after events (k + 1) ∧
        (s.frame timerPeriod).1.machine = scheduled speed events m (k + 1)
    | some (.faulted j _) => j = k ∧
        (s.frame timerPeriod).1.input = Script.after events (k + 1) ∧
        (s.frame timerPeriod).1.machine =
          scheduledSteps speed events (scheduled speed events m k) k
    | some .frameLimit => False
    | some (.inputFailed _) => False
    | some _ => True := by
  have hframed := s.framed timerPeriod
  generalize (s.frame timerPeriod).1 = t at hframed ⊢
  generalize (s.frame timerPeriod).2 = e at hframed ⊢
  cases hframed with
  | inputFailed hpoll =>
      rw [h.input_eq] at hpoll
      cases hpoll
  | quit hpoll hquit => trivial
  | displayFailed hpoll hquit hburst hshow => trivial
  | faulted hpoll hquit hburst =>
      obtain ⟨rfl, rfl⟩ := h.poll hpoll
      refine ⟨h.count_eq, ?_, ?_⟩
      · rw [Session.makeSteps_input, Session.hear_input]
      · rw [Session.makeSteps_machine, h.burst hquit]
  | halted hpoll hquit hburst hshow =>
      obtain ⟨rfl, rfl⟩ := h.poll hpoll
      obtain ⟨hmachine, -, hinput, -⟩ := h.workDone hquit rfl
      rw [Session.finishFrame_input, Session.finishFrame_machine]
      exact ⟨hinput, hmachine⟩
  | done hpoll hquit hburst hshow =>
      obtain ⟨rfl, rfl⟩ := h.poll hpoll
      obtain ⟨hmachine, hclock, hinput, hcount⟩ := h.workDone hquit rfl
      refine ⟨?_, ?_, ?_, ?_⟩
      · rw [Session.finishFrame_count, hcount]
      · rw [Session.finishFrame_input, hinput]
      · rw [Session.finishFrame_clock, hclock]
      · rw [Session.finishFrame_machine, hmachine]

/-! ### Runs on schedule -/

/-- What the schedule says of a run that has gone through `first` frames and may go through `limit`
of them, by the way in which it ended. -/
def EndsOnSchedule (speed : Nat) (events : List (Nat × Event)) (m : Machine) (first limit : Nat)
    (t : Session Script δ) : Exit → Prop
  | .frameLimit => OnSchedule speed events m limit t
  | .halted => ∃ k, first ≤ k ∧ k < limit ∧ t.input = Script.after events (k + 1) ∧
      t.machine = scheduled speed events m (k + 1)
  | .faulted k _ => first ≤ k ∧ k < limit ∧ t.input = Script.after events (k + 1) ∧
      t.machine = scheduledSteps speed events (scheduled speed events m k) k
  | .inputFailed _ => False
  | _ => True

/-- What is said of the rest of a run is said of the run. -/
theorem EndsOnSchedule.of_succ {first limit : Nat} {t : Session Script δ} {e : Exit}
    (h : EndsOnSchedule speed events m (first + 1) limit t e) :
    EndsOnSchedule speed events m first limit t e := by
  cases e with
  | halted =>
      obtain ⟨k, hfirst, hrest⟩ := h
      exact ⟨k, Nat.le_of_succ_le hfirst, hrest⟩
  | faulted k f => exact ⟨Nat.le_of_succ_le h.1, h.2⟩
  | frameLimit => exact h
  | inputFailed reason => exact h
  | quit => trivial
  | displayFailed e => trivial

/-- **A run on schedule**, by induction on the frames that it may still go through. -/
theorem OnSchedule.frames [Display δ] (n : Nat) (h : OnSchedule speed events m k s) :
    EndsOnSchedule speed events m k (k + n) (s.frames .simulated n).1
      (s.frames .simulated n).2 := by
  induction n generalizing k s with
  | zero => exact h
  | succ n ih =>
      have hframe := h.frame
      have hpace : Pacing.simulated s.count = timerPeriod := rfl
      rw [Session.frames_succ, hpace]
      generalize (s.frame timerPeriod).1 = t at hframe ⊢
      generalize (s.frame timerPeriod).2 = e at hframe ⊢
      cases e with
      | none =>
          have hrest := ih hframe
          rw [Nat.add_right_comm] at hrest
          exact hrest.of_succ
      | some e =>
          cases e with
          | halted => exact ⟨k, Nat.le_refl k, by omega, hframe⟩
          | faulted j f =>
              obtain ⟨rfl, hleft⟩ := hframe
              exact ⟨Nat.le_refl j, by omega, hleft⟩
          | frameLimit => exact hframe.elim
          | inputFailed reason => exact hframe.elim
          | quit => trivial
          | displayFailed error => trivial

/-- **A simulated run follows the schedule.** A run of a script that reaches its limit of `n` frames
leaves the machine that the schedule leads to in `n` frames. One that halts does so in a frame `k`
before that, which is done on schedule too. One that a fault stops in frame `k` leaves the machine
after the keys and the steps of that frame. The number of polls tells in which frame a run has
ended; a script never fails. -/
theorem run_follows_schedule [Display δ] (m : Machine) (speed : Nat) (events : List (Nat × Event))
    (display : δ) (journal : Journal) (n : Nat) :
    match (Session.start speed m (Script.ofList events) display journal).frames .simulated n with
    | (s, .frameLimit) => s.input.polls = n ∧ s.machine = scheduled speed events m n
    | (s, .halted) => ∃ k < n, s.input.polls = k + 1 ∧
        s.machine = scheduled speed events m (k + 1)
    | (s, .faulted k _) => k < n ∧ s.input.polls = k + 1 ∧
        s.machine = (((scheduled speed events m k).press (Script.onPoll events k)).steps
          (stepsDue speed k))
    | (_, .inputFailed _) => False
    | _ => True := by
  have hends := (onSchedule_start speed m events display journal).frames n
  rw [Nat.zero_add] at hends
  generalize (Session.start speed m (Script.ofList events) display journal).frames .simulated n =
    r at hends ⊢
  obtain ⟨s, e⟩ := r
  cases e with
  | frameLimit =>
      have hpolls := congrArg Script.polls hends.input_eq
      exact ⟨hpolls, hends.machine_eq⟩
  | halted =>
      obtain ⟨k, -, hk, hinput, hmachine⟩ := hends
      have hpolls := congrArg Script.polls hinput
      exact ⟨k, hk, hpolls, hmachine⟩
  | faulted k f =>
      obtain ⟨-, hk, hinput, hmachine⟩ := hends
      have hpolls := congrArg Script.polls hinput
      exact ⟨hk, hpolls, hmachine⟩
  | inputFailed reason => exact hends
  | quit => trivial
  | displayFailed error => trivial

end ChipEight
