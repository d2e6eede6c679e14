import Mathlib.Order.Bounds.Basic
import ChipEight.Proofs.Machine.Faults
import ChipEight.Proofs.Session.InStep
import ChipEight.Proofs.Session.Operations

/-!
# Runs that a fault ends

A fault stops a program in the middle of a frame. The run ends there: the timers are not counted down
any more and what was drawn in the frame is not shown. The machine keeps the fault, so that another
run with it ends in the same way in the first frame in which the clock owes a step; until then only
its timers move.

* `Machine.burst_of_fault`, `fault_of_burst` — a fault before and after a burst;
* `Session.frame_of_idle`, `Session.frame_of_due` — a frame of a stopped machine without a step and
  with one;
* `isLeast_firstDue` — the first frame with a step;
* `Session.run_again` — another run with a stopped machine;
* `fault_ends_runs` — both runs together.
-/

namespace ChipEight

namespace Machine

variable {m m' : Machine} {f : Fault} {n : Nat}

/-! ### Faults and bursts -/

/-- A fault that a step comes to and that does not let the program go on is recorded. -/
theorem fault_of_step (h : m.step = (m', .faulted f)) (hf : f.isRecoverable = false) :
    m'.fault = some f := by
  generalize ho : Outcome.faulted f = o at h
  cases stepped_of_eq h with
  | stopped hsome =>
      cases ho
      exact hsome
  | waiting hnone hw => cases ho
  | pastEnd hnone hw hp => cases ho
  | skip ha hd =>
      cases ho
      cases hf
  | stop ha hd hx =>
      cases ho
      rfl
  | run ha hd hx => exact (outcomeOf_ne_faulted _ _ _ ho.symm).elim

/-- A fault that ends a burst is recorded. -/
theorem fault_of_burst (h : (m.burst n).2 = .stopped f) :
    (m.burst n).1.fault = some f ∧ f.isRecoverable = false := by
  induction n generalizing m with
  | zero => cases h
  | succ n ih =>
      rcases hs : m.step with ⟨m', o⟩
      simp only [burst, hs] at h ⊢
      cases o with
      | executed ins => exact ih h
      | awaitingKey => cases h
      | halted => cases h
      | faulted f' =>
          cases hrec : f'.isRecoverable with
          | true =>
              simp only [hrec, if_true] at h ⊢
              exact ih h
          | false =>
              simp only [hrec, Bool.false_eq_true, if_false] at h ⊢
              cases h
              exact ⟨fault_of_step hs hrec, hrec⟩

/-- A stopped machine ends every burst in which it is asked for a step. -/
theorem burst_of_fault (hm : m.fault = some f) (hf : f.isRecoverable = false) (hn : 0 < n) :
    (m.burst n).2 = .stopped f := by
  obtain ⟨n, rfl⟩ := Nat.exists_eq_succ_of_ne_zero (Nat.ne_of_gt hn)
  simp only [burst, step_of_fault hm, hf, Bool.false_eq_true, if_false]

/-- What continues a program does not lose its fault. -/
theorem fault_run_of_continues {ops : List Operation} (hm : m.fault = some f)
    (hops : ∀ op ∈ ops, op.Continues) : (m.run ops).fault = some f := by
  refine run_of_continues (P := fun m' => m'.fault = some f) hops hm ?_ (fun _ h => h) ?_ ?_
  · intro m' h
    rw [step_fixed_of_fault h]
    exact h
  · exact fun m' k down h => (keyEvent_fault m' k down).trans h
  · exact fun m' h => (takeFrame_fault m').trans h

theorem fault_press (events : List Event) (m : Machine) : (m.press events).fault = m.fault := by
  induction events generalizing m with
  | nil => rfl
  | cons e events ih =>
      cases e with
      | quit => exact ih m
      | key k down => exact (ih _).trans (keyEvent_fault m k down)

theorem sameStore_press (events : List Event) (m : Machine) :
    m.state.SameStore (m.press events).state := by
  induction events generalizing m with
  | nil => exact .rfl
  | cons e events ih =>
      cases e with
      | quit => exact ih m
      | key k down =>
          have hkey := m.state.sameStore_receive (Operation.key k down).press?
          rw [← keyEvent_state] at hkey
          exact hkey.trans (ih _)

theorem sameStore_ticks (n : Nat) (m : Machine) : m.state.SameStore (m.ticks n).state := by
  induction n generalizing m with
  | zero => exact .rfl
  | succ n ih => exact (sameStore_tick m).trans (ih m.tick)

end Machine

namespace Session

variable {ι δ : Type} [Input ι] [Display δ] {s t u : Session ι δ} {elapsed n : Nat}
  {events : List Event} {input : ι} {f : Fault}

/-! ### Frames of a stopped machine -/

omit [Input ι] in
/-- Showing a frame goes well if there is none to show, or if the display can show it. -/
theorem refresh_of_shows
    (h : s.machine.state.redraw = true → (Display.render s.display s.machine.state.frame).2 = none) :
    s.refresh.2 = none := by
  rw [refresh, Machine.takeFrame_eq]
  cases hmark : s.machine.state.redraw with
  | false => rfl
  | true =>
      simp only [if_true, h hmark, Option.map_none]

/-- A frame in which no step is due goes on to the next one, and leaves nothing to be shown. -/
theorem frame_of_idle (hpoll : Input.poll s.input = (.ok events, input))
    (hquit : Event.quit ∉ events) (hsteps : (s.clock.advance elapsed).2.steps = 0)
    (hshow : s.machine.state.redraw = true →
      (Display.render s.display s.machine.state.frame).2 = none) :
    ∃ u, s.frame elapsed = (u, none) ∧ u.machine.state.redraw = false := by
  have hclock : ((s.hear events input).clock.advance elapsed).2.steps = 0 := hsteps
  have hspent : ((s.hear events input).burst elapsed).2 = .spent := by
    rw [burst, hclock, Machine.burst]
  obtain ⟨hmachine, hdisplay⟩ := workDone_machine (s.hear events input) elapsed
  rw [burst_of_no_quit s hquit, hsteps, Machine.steps] at hmachine
  have hstore := (Machine.sameStore_press events s.machine).trans
    (Machine.sameStore_ticks ((s.hear events input).clock.advance elapsed).2.timerTicks _)
  have hshown : ((s.hear events input).workDone elapsed).refresh.2 = none := by
    apply refresh_of_shows
    rw [hdisplay, hmachine, Machine.redraw_ticks, Machine.redraw_press, hstore.frame_eq]
    exact hshow
  refine ⟨(((s.hear events input).workDone elapsed).refresh.1.finishFrame false).1, ?_, ?_⟩
  · rw [frame_of_no_quit hpoll hquit, work_eq, hspent]
    exact close_of_none hshown false
  · show (((s.hear events input).workDone elapsed).refresh.1).machine.state.redraw = false
    rw [(refresh_workDone _ elapsed).1, Machine.frameTaken, Machine.takeFrame_eq]

/-- A frame in which a step is due ends with the fault that has stopped the machine. -/
theorem frame_of_due (hpoll : Input.poll s.input = (.ok events, input))
    (hquit : Event.quit ∉ events) (hsteps : 0 < (s.clock.advance elapsed).2.steps)
    (hfault : s.machine.fault = some f) (hf : f.isRecoverable = false) :
    ∃ u, s.frame elapsed = (u, some (.faulted s.count f)) := by
  have hheard : (s.hear events input).machine.fault = some f := by
    rw [hear, Machine.feed_of_no_quit hquit]
    exact (Machine.fault_press events s.machine).trans hfault
  have hstopped : ((s.hear events input).burst elapsed).2 = .stopped f :=
    Machine.burst_of_fault hheard hf hsteps
  refine ⟨(s.hear events input).makeSteps elapsed, ?_⟩
  rw [frame_of_no_quit hpoll hquit, work_eq, hstopped]
  rfl

/-! ### The first step -/

/-- The number of the first frame of a simulated run in which a step is due. -/
def firstDue (speed : Nat) : Nat := (Clock.periodOf speed - 1) / timerPeriod

theorem firstDue_le_iff (speed j : Nat) : firstDue speed ≤ j ↔
    1 ≤ (j + 1) * 16666666 / (1000000000 / max 1 (min speed 1000000)) := by
  have hpos := Clock.periodOf_pos speed
  have hperiod : 1000000000 / max 1 (min speed 1000000) = Clock.periodOf speed := rfl
  rw [hperiod, Nat.le_div_iff_mul_le hpos, firstDue, timerPeriod_eq, ← Nat.lt_succ_iff,
    Nat.div_lt_iff_lt_mul (by decide)]
  omega

/-- **The first frame with a step** is the first by whose end the period of a step has passed. -/
theorem isLeast_firstDue (speed : Nat) :
    IsLeast {j | 1 ≤ (j + 1) * 16666666 / (1000000000 / max 1 (min speed 1000000))}
      (firstDue speed) :=
  ⟨(firstDue_le_iff speed _).mp (Nat.le_refl _), fun j hj => (firstDue_le_iff speed j).mpr hj⟩

theorem stepsDue_of_lt {speed j : Nat} (h : j < firstDue speed) : stepsDue speed j = 0 := by
  have hnone := mt (firstDue_le_iff speed j).mpr (Nat.not_le.mpr h)
  rw [stepsDue, Nat.lt_one_iff.mp (Nat.not_le.mp hnone), Nat.zero_sub]

theorem stepsDue_firstDue (speed : Nat) : 0 < stepsDue speed (firstDue speed) := by
  have hone := (firstDue_le_iff speed _).mp (Nat.le_refl (firstDue speed))
  have hnone : firstDue speed * 16666666 / (1000000000 / max 1 (min speed 1000000)) = 0 := by
    cases hfirst : firstDue speed with
    | zero => rw [Nat.zero_mul, Nat.zero_div]
    | succ j =>
        have hlt : j < firstDue speed := Nat.lt_of_succ_le (Nat.le_of_eq hfirst.symm)
        have hnone := mt (firstDue_le_iff speed j).mpr (Nat.not_le.mpr hlt)
        exact Nat.lt_one_iff.mp (Nat.not_le.mp hnone)
  rw [stepsDue, hnone]
  exact hone

/-! ### The run that the fault ends -/

/-- A simulated run of up to `n` frames ends at `t` with a fault in frame `k`. It has polled in this
frame too, but has counted the timers down in the frames before only, and the display is the one that
these have left. -/
structure FaultedIn (s : Session ι δ) (n k : Nat) (f : Fault) (t : Session ι δ) : Prop where
  run_eq : s.frames .simulated n = (t, .faulted k f)
  lt_limit : k < n
  input_eq : t.input = Input.polled (k + 1) s.input
  display_eq : t.display = (s.frames .simulated k).1.display
  machine_eq : t.machine = s.machine.run (s.operations .simulated n)
  count_tick : (s.operations .simulated n).count .tick = k
  fault_eq : t.machine.fault = some f
  not_recoverable : f.isRecoverable = false

/-- What a frame leaves that a fault ends. -/
theorem frame_of_faulted {k : Nat} (h : s.frame elapsed = (t, some (.faulted k f))) :
    k = s.count ∧ t.display = s.display ∧ t.machine.fault = some f ∧
      f.isRecoverable = false := by
  have hframed := s.framed elapsed
  rw [h] at hframed
  cases hframed with
  | faulted hpoll hquit hburst =>
      obtain ⟨hfault, hf⟩ := Machine.fault_of_burst hburst
      exact ⟨rfl, rfl, hfault, hf⟩

variable {m : Machine} {display : δ} {speed j k : Nat}

/-- **A run that a fault ends**, told from its last frame. -/
theorem faultedIn_start {journal : Journal}
    (h : (start speed m input display journal).frames .simulated n = (t, .faulted k f)) :
    (start speed m input display journal).FaultedIn n k f t := by
  obtain ⟨j, hj, u, hpasses, hlast⟩ := exists_last_frame h Exit.noConfusion
  obtain ⟨hk, hdisplay, hfault, hf⟩ := frame_of_faulted hlast
  have hcount : u.count = j := hpasses.count_eq.trans (Nat.zero_add j)
  have hkj : k = j := hk.trans hcount
  subst hkj
  have htick := count_tick_frameOperations u timerPeriod
  have hinput := frame_input u (Pacing.simulated u.count)
  have hmachine := machine_frames .simulated n (start speed m input display journal)
  rw [show u.frame timerPeriod = _ from hlast] at htick
  rw [hlast, hpasses.input_eq] at hinput
  rw [h] at hmachine
  refine ⟨h, hj, hinput, ?_, hmachine, ?_, hfault, hf⟩
  · rw [hdisplay, show (start speed m input display journal).frames .simulated k =
      (u, .frameLimit) from hpasses]
  · rw [operations_of_last hpasses hlast hj, List.count_append,
      (onTime_start speed m input display journal).count_tick hpasses]
    exact congrArg _ htick

/-! ### Another run -/

/-- Until a step is due, a run goes on whatever keys are pressed. -/
theorem passes_idle (journal : Journal) (hcalm : Input.Calm input (firstDue speed))
    (hshow : 0 < firstDue speed → m.state.redraw = true →
      (Display.render display m.state.frame).2 = none) (hj : j ≤ firstDue speed) :
    ∃ u, (start speed m input display journal).Passes .simulated j u ∧
      (0 < j → u.machine.state.redraw = false) := by
  induction j with
  | zero => exact ⟨_, rfl, fun h => (Nat.lt_irrefl 0 h).elim⟩
  | succ j ih =>
      obtain ⟨u, hpasses, hclear⟩ := ih (Nat.le_of_succ_le hj)
      obtain ⟨events, hpoll, hquit⟩ := hcalm j (Nat.le_of_succ_le hj)
      have hinput : u.input = Input.polled j input := hpasses.input_eq
      rw [← hinput] at hpoll
      have hcount : u.count = j := hpasses.count_eq.trans (Nat.zero_add j)
      have htime := (onTime_start speed m input display journal).passes hpasses
      have hsteps : (u.clock.advance timerPeriod).2.steps = 0 := by
        rw [htime.advance, hcount]
        exact stepsDue_of_lt hj
      -- only the first frame can have something to show
      have hshows : u.machine.state.redraw = true →
          (Display.render u.display u.machine.state.frame).2 = none := by
        intro hmark
        cases j with
        | zero =>
            cases hpasses
            exact hshow (Nat.lt_of_succ_le hj) hmark
        | succ j =>
            rw [hclear (Nat.succ_pos j)] at hmark
            cases hmark
      obtain ⟨v, hframe, hleft⟩ := frame_of_idle (Prod.ext hpoll rfl) hquit hsteps hshows
      exact ⟨v, hpasses.succ hframe, fun _ => hleft⟩

/-- **Another run with a stopped machine** ends with the same fault in the first frame with a step. -/
theorem run_again (journal : Journal) (hfault : m.fault = some f) (hf : f.isRecoverable = false)
    (hcalm : Input.Calm input (firstDue speed))
    (hshow : 0 < firstDue speed → m.state.redraw = true →
      (Display.render display m.state.frame).2 = none) (hn : firstDue speed < n) :
    ∃ t, (start speed m input display journal).frames .simulated n =
        (t, .faulted (firstDue speed) f) := by
  obtain ⟨u, hpasses, -⟩ := passes_idle journal hcalm hshow (Nat.le_refl _)
  obtain ⟨events, hpoll, hquit⟩ := hcalm (firstDue speed) (Nat.le_refl _)
  have hinput : u.input = Input.polled (firstDue speed) input := hpasses.input_eq
  rw [← hinput] at hpoll
  have hcount : u.count = firstDue speed := hpasses.count_eq.trans (Nat.zero_add _)
  have htime := onTime_start speed m input display journal
  have hsteps : 0 < (u.clock.advance timerPeriod).2.steps := by
    rw [(htime.passes hpasses).advance, hcount]
    exact stepsDue_firstDue speed
  have hkept : u.machine.fault = some f := by
    have hmachine := machine_frames .simulated (firstDue speed)
      (start speed m input display journal)
    rw [show (start speed m input display journal).frames .simulated (firstDue speed) =
      (u, .frameLimit) from hpasses] at hmachine
    rw [hmachine]
    exact Machine.fault_run_of_continues hfault (continues_operations _ _ _)
  obtain ⟨t, hlast⟩ := frame_of_due (Prod.ext hpoll rfl) hquit hsteps hkept hf
  rw [hcount] at hlast
  exact ⟨t, frames_of_last hpasses hlast hn⟩

end Session

/-! ### The two runs -/

open Session

variable {δ : Type} [Display δ] {m : Machine} {f : Fault}

/-- **A fault ends runs.** A simulated run of a script on a reachable machine that a fault stops in
frame `k` ends with this fault and the number of its frame, as `FaultedIn` tells, and has polled
`k + 1` times. Let `j` be the first frame by whose end the period of a step has passed at another
speed. Then a run with the stopped machine at that speed ends with the same fault in frame `j`, if its
limit is beyond `j`, its input is calm up to then and the display can show what was left to be shown.
Whatever keys are pressed, nothing of the program has changed then but the timers. -/
theorem fault_ends_runs (hm : m.Reachable) (speed : Nat) (events : List (Nat × Event)) (display : δ)
    (journal : Journal) {n k : Nat} {t : Session Script δ}
    (hrun : (start speed m (Script.ofList events) display journal).frames .simulated n =
      (t, .faulted k f)) :
    (Exit.faulted k f).chain = [s!"program stopped on frame {k}", f.message] ∧
    (start speed m (Script.ofList events) display journal).FaultedIn n k f t ∧
    t.input.polls = k + 1 ∧
    ∀ speed' j : Nat,
      IsLeast {j | 1 ≤ (j + 1) * 16666666 / (1000000000 / max 1 (min speed' 1000000))} j →
      ∀ {ι δ' : Type} [Input ι] [Display δ'] (input : ι) (display' : δ') (journal' : Journal)
        (n' : Nat), j < n' → Input.Calm input j →
        (0 < j → t.machine.state.redraw = true →
          (Display.render display' t.machine.state.frame).2 = none) →
        ∃ t', (start speed' t.machine input display' journal').FaultedIn n' j f t' ∧
          t'.machine.state.v = t.machine.state.v ∧
          t.machine.state.SameStore t'.machine.state := by
  have hfaulted := faultedIn_start hrun
  refine ⟨rfl, hfaulted, ?_, ?_⟩
  · rw [hfaulted.input_eq, start, Script.polled_ofList]
    rfl
  · intro speed' j hleast ι δ' _ _ input display' journal' n' hn hcalm hshow
    have hj := hleast.unique (isLeast_firstDue speed')
    subst hj
    have hreachable : t.machine.Reachable := by
      rw [hfaulted.machine_eq]
      exact hm.run _
    have hstopped := hreachable.stopped hfaulted.fault_eq
    obtain ⟨t', hagain⟩ := run_again journal' hfaulted.fault_eq hfaulted.not_recoverable hcalm
      hshow hn
    have hfaulted' := faultedIn_start hagain
    obtain ⟨-, hregisters, hstore⟩ := hstopped.run
      (continues_operations .simulated n' (start speed' t.machine input display' journal'))
    refine ⟨t', hfaulted', ?_, ?_⟩
    · rw [hfaulted'.machine_eq]
      exact hregisters.v_eq
    · rw [hfaulted'.machine_eq]
      exact hstore

/-- A program that draws a digit, draws it once more, which blanks it, and returns with an empty
stack. -/
def blankedThenReturned : Machine :=
  (Machine.ofSeed 0).run [.load [0xF0, 0x29, 0xD0, 0x15, 0xD0, 0x15, 0x00, 0xEE]]

/-- A run of it with two steps a frame, in which a key is pressed. -/
def returnedInSecond : Session Script (Recorder Discard) × Exit :=
  (start 120 blankedThenReturned (Script.ofList [(1, .key 5 true)]) { display := {} } {}).frames
    .simulated 10

theorem returnedInSecond_exit : returnedInSecond.2 = .faulted 1 (.stackUnderflow 0x206) ∧
    returnedInSecond.1.display.frames.size = 1 ∧
    returnedInSecond.1.machine.state.redraw = true := by
  decide +kernel

/-- It ends in its second frame with the blank frame not shown. At twenty steps a second another run
shows this and ends in its fourth frame, though keys are pressed on the way. -/
theorem returnedInSecond_returns_again : returnedInSecond.1.input.polls = 2 ∧
    ∃ t, (start 20 returnedInSecond.1.machine (Script.ofList [(2, .key 7 true), (0, .key 5 false)])
        returnedInSecond.1.display {}).FaultedIn 10 3 (.stackUnderflow 0x206) t ∧
      t.machine.state.v = returnedInSecond.1.machine.state.v := by
  have hrun : (start 120 blankedThenReturned (Script.ofList [(1, .key 5 true)])
      { display := Discard.mk } {}).frames .simulated 10 =
        (returnedInSecond.1, .faulted 1 (.stackUnderflow 0x206)) :=
    Prod.ext rfl returnedInSecond_exit.1
  have hreachable : blankedThenReturned.Reachable := Machine.reachable_run 0 _
  have hends := fault_ends_runs hreachable 120 [(1, .key 5 true)] _ {} hrun
  have hfourth : IsLeast {j | 1 ≤ (j + 1) * 16666666 / (1000000000 / max 1 (min 20 1000000))} 3 :=
    isLeast_firstDue 20
  have hcalm : Input.Calm (Script.ofList [(2, .key 7 true), (0, .key 5 false)]) 3 :=
    Script.calm_ofList (by decide)
  obtain ⟨-, -, hpolls, hagain⟩ := hends
  obtain ⟨t, hfaulted, hkept, -⟩ := hagain 20 3 hfourth _ returnedInSecond.1.display {} 10
    (by decide) hcalm fun _ _ => rfl
  exact ⟨hpolls, t, hfaulted, hkept⟩

end ChipEight
