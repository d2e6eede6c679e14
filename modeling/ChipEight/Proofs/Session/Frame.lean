import ChipEight.Session
import ChipEight.Proofs.Machine.Step

/-!
# What one frame can do

A frame hears events, makes steps, counts the timers down and shows what was drawn, and a run can
end in the middle of each of these. This file says once what a frame leaves in every case:

* `hear`, `makeSteps`, `countDown` — the session after the parts of a frame;
* `Session.Framed`, with `framed` — the six ways in which a frame comes to its end;
* `refresh_workDone` — a whole frame as far as the machine and the clock are concerned;
* `Session.mapEnds`, with `workDone_mapEnds` — what takes no notice of the input and the display.
-/

namespace ChipEight

namespace Machine

variable {events : List Event}

/-- What an event other than the wish to stop does to a machine. -/
def react (m : Machine) : Event → Machine
  | .quit => m
  | .key k down => m.keyEvent k down

/-- Presses and releases keys one after the other. -/
def press (m : Machine) (events : List Event) : Machine := events.foldl react m

theorem press_append (m : Machine) (first later : List Event) :
    m.press (first ++ later) = (m.press first).press later :=
  List.foldl_append

/-- The machine once its frame was taken. -/
def frameTaken (m : Machine) : Machine := m.takeFrame.1

theorem feed_of_no_quit (h : Event.quit ∉ events) (m : Machine) :
    feed events m = (m.press events, false) := by
  induction events generalizing m with
  | nil => rfl
  | cons e events ih =>
      rw [List.mem_cons, not_or] at h
      cases e with
      | quit => exact (h.1 rfl).elim
      | key k down => exact ih h.2 (m.keyEvent k down)

theorem feed_of_quit (h : Event.quit ∈ events) (m : Machine) : (feed events m).2 = true := by
  induction events generalizing m with
  | nil => cases h
  | cons e events ih =>
      cases e with
      | quit => rfl
      | key k down =>
          have htail : Event.quit ∈ events := by
            rcases List.mem_cons.mp h with hhead | htail
            · cases hhead
            · exact htail
          exact ih htail (m.keyEvent k down)

end Machine

/-- A burst in which the program halts is not one that a fault stops. -/
theorem Burst.not_stopped_of_halted {b : Burst} (h : b = .halted) (f : Fault) : b ≠ .stopped f :=
  fun hf => Burst.noConfusion (h.symm.trans hf)

theorem Burst.not_stopped_of_spent {b : Burst} (h : b = .spent) (f : Fault) : b ≠ .stopped f :=
  fun hf => Burst.noConfusion (h.symm.trans hf)

namespace Session

variable {ι δ : Type}

/-! ### The parts of a frame -/

/-- The session once it has heard the events of a frame. -/
def hear (s : Session ι δ) (events : List Event) (input : ι) : Session ι δ :=
  { s with
    machine := (s.machine.feed events).1
    input := input
    journal := s.journal.note fun _ => s.machine.feedRecords events }

/-- How the steps of a frame end. -/
def burst (s : Session ι δ) (elapsed : Nat) : Machine × Burst :=
  s.machine.burst (s.clock.advance elapsed).2.steps

/-- The session once it has made the steps of a frame. -/
def makeSteps (s : Session ι δ) (elapsed : Nat) : Session ι δ :=
  { s with
    machine := (s.burst elapsed).1
    clock := (s.clock.advance elapsed).1
    journal := s.journal.note fun _ => s.machine.burstRecords (s.clock.advance elapsed).2.steps }

/-- The session once it has counted the timers down and listened to the tone. -/
def countDown (s : Session ι δ) (n : Nat) : Session ι δ :=
  { s with machine := s.machine.ticks n }.listen

/-- The session when it is about to show the frame. -/
def workDone (s : Session ι δ) (elapsed : Nat) : Session ι δ :=
  (s.makeSteps elapsed).countDown (s.clock.advance elapsed).2.timerTicks

/-- What a frame makes of a session, and how a run ends in it. -/
inductive Framed [Input ι] [Display δ] (s : Session ι δ) (elapsed : Nat) :
    Session ι δ → Option Exit → Prop
  | inputFailed {reason : String} {input : ι}
      (hpoll : Input.poll s.input = (.error reason, input)) :
      Framed s elapsed { s with input := input } (some (.inputFailed reason))
  | quit {events : List Event} {input : ι} (hpoll : Input.poll s.input = (.ok events, input))
      (hquit : Event.quit ∈ events) : Framed s elapsed (s.hear events input) (some .quit)
  | faulted {events : List Event} {input : ι} {f : Fault}
      (hpoll : Input.poll s.input = (.ok events, input)) (hquit : Event.quit ∉ events)
      (hburst : ((s.hear events input).burst elapsed).2 = .stopped f) :
      Framed s elapsed ((s.hear events input).makeSteps elapsed) (some (.faulted s.count f))
  | displayFailed {events : List Event} {input : ι} {e : DisplayError}
      (hpoll : Input.poll s.input = (.ok events, input)) (hquit : Event.quit ∉ events)
      (hburst : ∀ f, ((s.hear events input).burst elapsed).2 ≠ .stopped f)
      (hshow : ((s.hear events input).workDone elapsed).refresh.2 = some (.displayFailed e)) :
      Framed s elapsed ((s.hear events input).workDone elapsed).refresh.1
        (some (.displayFailed e))
  | halted {events : List Event} {input : ι}
      (hpoll : Input.poll s.input = (.ok events, input)) (hquit : Event.quit ∉ events)
      (hburst : ((s.hear events input).burst elapsed).2 = .halted)
      (hshow : ((s.hear events input).workDone elapsed).refresh.2 = none) :
      Framed s elapsed (((s.hear events input).workDone elapsed).refresh.1.finishFrame true).1
        (some .halted)
  | done {events : List Event} {input : ι}
      (hpoll : Input.poll s.input = (.ok events, input)) (hquit : Event.quit ∉ events)
      (hburst : ((s.hear events input).burst elapsed).2 = .spent)
      (hshow : ((s.hear events input).workDone elapsed).refresh.2 = none) :
      Framed s elapsed (((s.hear events input).workDone elapsed).refresh.1.finishFrame false).1
        none

/-! ### What showing and listening leave alone -/

theorem listen_eq (s : Session ι δ) : ∃ sounding journal,
    s.listen = { s with sounding := sounding, journal := journal } := by
  unfold listen
  split
  · exact ⟨s.sounding, s.journal, rfl⟩
  · exact ⟨_, _, rfl⟩

theorem refresh_eq [Display δ] (s : Session ι δ) : ∃ display,
    s.refresh.1 = { s with machine := s.machine.frameTaken, display := display } := by
  unfold refresh Machine.frameTaken
  rcases s.machine.takeFrame with ⟨m, _ | f⟩
  · exact ⟨s.display, rfl⟩
  · exact ⟨_, rfl⟩

/-- The session after a whole frame, up to what it shows and writes. -/
theorem refresh_workDone [Display δ] (s : Session ι δ) (elapsed : Nat) :
    (s.workDone elapsed).refresh.1.machine =
      ((s.burst elapsed).1.ticks (s.clock.advance elapsed).2.timerTicks).frameTaken ∧
    (s.workDone elapsed).refresh.1.clock = (s.clock.advance elapsed).1 ∧
    (s.workDone elapsed).refresh.1.input = s.input ∧
    (s.workDone elapsed).refresh.1.count = s.count := by
  obtain ⟨sounding, journal, hlisten⟩ := listen_eq { s.makeSteps elapsed with
    machine := (s.makeSteps elapsed).machine.ticks (s.clock.advance elapsed).2.timerTicks }
  obtain ⟨display, hrefresh⟩ := refresh_eq (s.workDone elapsed)
  rw [hrefresh, workDone, countDown, hlisten]
  exact ⟨rfl, rfl, rfl, rfl⟩

/-- The work of a frame, as far as the machine and the display are concerned. -/
theorem workDone_machine (s : Session ι δ) (elapsed : Nat) :
    (s.workDone elapsed).machine =
        (s.burst elapsed).1.ticks (s.clock.advance elapsed).2.timerTicks ∧
      (s.workDone elapsed).display = s.display := by
  obtain ⟨sounding, journal, hlisten⟩ := listen_eq { s.makeSteps elapsed with
    machine := (s.makeSteps elapsed).machine.ticks (s.clock.advance elapsed).2.timerTicks }
  rw [workDone, countDown, hlisten]
  exact ⟨rfl, rfl⟩

theorem makeSteps_machine (s : Session ι δ) (elapsed : Nat) :
    (s.makeSteps elapsed).machine = (s.burst elapsed).1 := rfl

theorem makeSteps_input (s : Session ι δ) (elapsed : Nat) :
    (s.makeSteps elapsed).input = s.input := rfl

theorem hear_input (s : Session ι δ) (events : List Event) (input : ι) :
    (s.hear events input).input = input := rfl

theorem finishFrame_machine (s : Session ι δ) (halted : Bool) :
    (s.finishFrame halted).1.machine = s.machine := by
  cases halted <;> rfl

theorem finishFrame_clock (s : Session ι δ) (halted : Bool) :
    (s.finishFrame halted).1.clock = s.clock := by
  cases halted <;> rfl

theorem finishFrame_input (s : Session ι δ) (halted : Bool) :
    (s.finishFrame halted).1.input = s.input := by
  cases halted <;> rfl

theorem finishFrame_display (s : Session ι δ) (halted : Bool) :
    (s.finishFrame halted).1.display = s.display := by
  cases halted <;> rfl

/-- A frame counts if the program has not halted in it. -/
theorem finishFrame_count (s : Session ι δ) : (s.finishFrame false).1.count = s.count + 1 := rfl

/-- Showing a frame ends a run only if the display fails. -/
theorem refresh_exit [Display δ] {s : Session ι δ} {e : Exit} (h : s.refresh.2 = some e) :
    ∃ error, e = .displayFailed error := by
  unfold refresh at h
  split at h
  · cases h
  · obtain ⟨error, -, herror⟩ := Option.map_eq_some_iff.mp h
    exact ⟨error, herror.symm⟩

/-! ### How a frame ends -/

/-- The end of a frame that was shown: the failure of the display, or what `finishFrame` says. -/
def close (r : Session ι δ × Option Exit) (halted : Bool) : Session ι δ × Option Exit :=
  match r.2 with
  | some e => (r.1, some e)
  | none => r.1.finishFrame halted

theorem close_eq (r : Session ι δ × Option Exit) (halted : Bool) :
    (match r with
      | (s, some e) => (s, some e)
      | (s, none) => s.finishFrame halted) = close r halted := by
  rcases r with ⟨s, _ | e⟩ <;> rfl

theorem close_of_none {r : Session ι δ × Option Exit} (h : r.2 = none) (halted : Bool) :
    close r halted = r.1.finishFrame halted := by
  rw [close, h]

theorem close_of_some {r : Session ι δ × Option Exit} {e : Exit} (h : r.2 = some e)
    (halted : Bool) : close r halted = (r.1, some e) := by
  rw [close, h]

/-! ### The ends of a session -/

section

variable {ι' δ' : Type}

/-- The session between another input and another display. -/
def mapEnds (f : ι → ι') (g : δ → δ') (s : Session ι δ) : Session ι' δ' :=
  { s with input := f s.input, display := g s.display }

theorem listen_mapEnds (f : ι → ι') (g : δ → δ') (s : Session ι δ) :
    (s.mapEnds f g).listen = s.listen.mapEnds f g := by
  have hmachine : (s.mapEnds f g).machine = s.machine := rfl
  have hsound : (s.mapEnds f g).sounding = s.sounding := rfl
  rw [listen, listen, hmachine, hsound]
  split <;> rfl

/-- **The work of a frame** takes no notice of the ends of the session. -/
theorem workDone_mapEnds (f : ι → ι') (g : δ → δ') (s : Session ι δ) (elapsed : Nat) :
    (s.mapEnds f g).workDone elapsed = (s.workDone elapsed).mapEnds f g := by
  rw [workDone, workDone, countDown, countDown]
  exact listen_mapEnds f g { s.makeSteps elapsed with
    machine := (s.makeSteps elapsed).machine.ticks (s.clock.advance elapsed).2.timerTicks }

theorem close_mapEnds (f : ι → ι') (g : δ → δ') (r : Session ι δ × Option Exit) (halted : Bool) :
    close (r.1.mapEnds f g, r.2) halted =
      ((close r halted).1.mapEnds f g, (close r halted).2) := by
  rcases r with ⟨s, _ | e⟩
  · cases halted <;> rfl
  · rfl

end

/-! ### A frame, case by case -/

variable [Display δ]

/-- The part of a frame after its events, by the way in which its steps end. -/
theorem work_eq (s : Session ι δ) (elapsed : Nat) : s.work elapsed =
    match (s.burst elapsed).2 with
    | .stopped f => (s.makeSteps elapsed, some (.faulted s.count f))
    | .halted => close (s.workDone elapsed).refresh true
    | .spent => close (s.workDone elapsed).refresh false := by
  rcases hadvance : s.clock.advance elapsed with ⟨clock, ticks⟩
  rcases hburst : s.machine.burst ticks.steps with ⟨m, b⟩
  simp only [work, workDone, countDown, makeSteps, burst, hadvance, hburst]
  cases b with
  | stopped f => rfl
  | spent => exact close_eq _ false
  | halted => exact close_eq _ true

variable [Input ι]

section

variable {s : Session ι δ} {events : List Event} {input : ι}

theorem frame_of_error {reason : String} (hpoll : Input.poll s.input = (.error reason, input))
    (elapsed : Nat) : s.frame elapsed = ({ s with input := input }, some (.inputFailed reason)) := by
  simp only [frame, hpoll]

/-- A frame ends with the wish to stop. -/
theorem frame_of_quit (hpoll : Input.poll s.input = (.ok events, input))
    (hquit : Event.quit ∈ events) (elapsed : Nat) :
    s.frame elapsed = (s.hear events input, some .quit) := by
  have hstop := Machine.feed_of_quit hquit s.machine
  rcases hfeed : s.machine.feed events with ⟨m, b⟩
  rw [hfeed] at hstop
  cases hstop
  simp only [frame, hpoll, hear, hfeed]

/-- A frame in which nobody wishes to stop goes on to its work. -/
theorem frame_of_no_quit (hpoll : Input.poll s.input = (.ok events, input))
    (hquit : Event.quit ∉ events) (elapsed : Nat) :
    s.frame elapsed = (s.hear events input).work elapsed := by
  simp only [frame, hpoll, hear, Machine.feed_of_no_quit hquit]

end

/-- **The six cases are all.** -/
theorem framed (s : Session ι δ) (elapsed : Nat) :
    s.Framed elapsed (s.frame elapsed).1 (s.frame elapsed).2 := by
  rcases hpoll : Input.poll s.input with ⟨reason | events, input⟩
  · rw [frame_of_error hpoll]
    exact .inputFailed hpoll
  · by_cases hquit : Event.quit ∈ events
    · rw [frame_of_quit hpoll hquit]
      exact .quit hpoll hquit
    · rw [frame_of_no_quit hpoll hquit, work_eq]
      have hfailed : ∀ {e : Exit}, (∀ f, ((s.hear events input).burst elapsed).2 ≠ .stopped f) →
          ((s.hear events input).workDone elapsed).refresh.2 = some e →
          s.Framed elapsed ((s.hear events input).workDone elapsed).refresh.1 (some e) := by
        intro e hrun hshow
        obtain ⟨error, rfl⟩ := refresh_exit hshow
        exact .displayFailed hpoll hquit hrun hshow
      cases hburst : ((s.hear events input).burst elapsed).2 with
      | stopped f => exact .faulted hpoll hquit hburst
      | spent =>
          cases hshow : ((s.hear events input).workDone elapsed).refresh.2 with
          | some e =>
              simp only [close_of_some hshow]
              exact hfailed (Burst.not_stopped_of_spent hburst) hshow
          | none =>
              simp only [close_of_none hshow]
              exact .done hpoll hquit hburst hshow
      | halted =>
          cases hshow : ((s.hear events input).workDone elapsed).refresh.2 with
          | some e =>
              simp only [close_of_some hshow]
              exact hfailed (Burst.not_stopped_of_halted hburst) hshow
          | none =>
              simp only [close_of_none hshow]
              exact .halted hpoll hquit hburst hshow

/-- One frame of a run, and the rest of the run if it goes on. -/
theorem frames_succ (pacing : Pacing) (n : Nat) (s : Session ι δ) :
    s.frames pacing (n + 1) = match (s.frame (pacing s.count)).2 with
      | some e => ((s.frame (pacing s.count)).1, e)
      | none => (s.frame (pacing s.count)).1.frames pacing n := by
  rw [frames]
  rcases s.frame (pacing s.count) with ⟨t, _ | e⟩ <;> rfl

end Session

end ChipEight
