import ChipEight.Proofs.Machine.RandomStream
import ChipEight.Proofs.Session.Operations

/-!
# Runs and the stream of random bytes

A run whose program takes no random byte is the same on any stream. What counts is what the program
runs and not what it could run:

* `step_withStream`, `burst_withStream` — steps that take no byte;
* `Session.withStream` — a session on another stream, with one lemma for each part of a frame;
* `frames_withStream` — a whole run, by the instructions that run in it.
-/

namespace ChipEight

namespace Machine

variable {m : Machine} {g : Generator}

theorem feed_withGenerator (events : List Event) (m : Machine) (g : Generator) :
    (m.withGenerator g).feed events = ((m.feed events).1.withGenerator g, (m.feed events).2) ∧
      (m.withGenerator g).feedRecords events = m.feedRecords events := by
  induction events generalizing m with
  | nil => exact ⟨rfl, rfl⟩
  | cons e events ih =>
      cases e with
      | quit => exact ⟨rfl, rfl⟩
      | key k down =>
          have hkey : (m.withGenerator g).keyEvent k down = (m.keyEvent k down).withGenerator g :=
            (apply_withGenerator m g (.key k down)).2 rfl
          simp only [feed, feedRecords, hkey, (ih _).1, (ih _).2, true_and]
          rfl

theorem ticks_withGenerator (n : Nat) (m : Machine) (g : Generator) :
    (m.withGenerator g).ticks n = (m.ticks n).withGenerator g := by
  induction n generalizing m with
  | zero => rfl
  | succ n ih => exact ih m.tick

/-- A step that takes no random byte. -/
theorem step_withStream (h : ∀ ins, m.runs? .step = some ins → ins.isRandom = false) :
    (m.withGenerator g).step = (m.step.1.withGenerator g, m.step.2) ∧
      (m.withGenerator g).stepRecords = m.stepRecords := by
  have hnone : m.executed?.any Instruction.isRandom = false := (Option.any_eq_false _ _).mpr h
  obtain ⟨houtcome, hleft⟩ := step_withGenerator m g
  have hstep : (m.withGenerator g).step = (m.step.1.withGenerator g, m.step.2) :=
    Prod.ext (hleft hnone) houtcome
  have hpending : (m.withGenerator g).pending = m.pending := rfl
  refine ⟨hstep, ?_⟩
  rw [stepRecords, stepRecords, hpending, hstep]
  rcases m.step with ⟨m', o⟩
  cases o <;> rfl

/-- **A burst whose steps take no random byte** is the same on any stream. -/
theorem burst_withStream {n : Nat}
    (h : ∀ ins ∈ m.ran (List.replicate (m.burstLength n) .step), ins.isRandom = false) :
    (m.withGenerator g).burst n = ((m.burst n).1.withGenerator g, (m.burst n).2) ∧
      (m.withGenerator g).burstRecords n = m.burstRecords n := by
  induction n generalizing m with
  | zero => exact ⟨rfl, rfl⟩
  | succ n ih =>
      rcases hs : m.step with ⟨m', o⟩
      -- however the first step ends, it is one of the steps that `h` is about
      have hsplit : ∀ k, (∀ ins ∈ m.ran (List.replicate (k + 1) .step), ins.isRandom = false) →
          (m.withGenerator g).step = (m'.withGenerator g, o) ∧
            (m.withGenerator g).stepRecords = m.stepRecords ∧
            ∀ ins ∈ m'.ran (List.replicate k .step), ins.isRandom = false := by
        intro k hk
        rw [List.replicate_succ] at hk
        obtain ⟨hfirst, hrest⟩ := forall_ran_cons.mp hk
        have hleft : (m.apply .step).1 = m' := congrArg Prod.fst hs
        obtain ⟨hstep, hrecords⟩ := step_withStream (g := g) hfirst
        rw [hs] at hstep
        rw [hleft] at hrest
        exact ⟨hstep, hrecords, hrest⟩
      simp only [burstLength, hs] at h
      cases o with
      | executed ins =>
          obtain ⟨hstep, hrecords, hrest⟩ := hsplit _ h
          obtain ⟨hburst, hlater⟩ := ih hrest
          simp only [burst, burstRecords, hs, hstep, hrecords, hburst, hlater, true_and]
      | awaitingKey =>
          obtain ⟨hstep, hrecords, -⟩ := hsplit 0 h
          simp only [burst, burstRecords, hs, hstep, hrecords, true_and]
      | halted =>
          obtain ⟨hstep, hrecords, -⟩ := hsplit 0 h
          simp only [burst, burstRecords, hs, hstep, hrecords, true_and]
      | faulted f =>
          cases hrec : f.isRecoverable with
          | true =>
              simp only [hrec, if_true] at h
              obtain ⟨hstep, hrecords, hrest⟩ := hsplit _ h
              obtain ⟨hburst, hlater⟩ := ih hrest
              simp only [burst, burstRecords, hs, hstep, hrecords, hrec, if_true, hburst, hlater,
                true_and]
          | false =>
              simp only [hrec, Bool.false_eq_true, if_false] at h
              obtain ⟨hstep, hrecords, -⟩ := hsplit 0 h
              simp only [burst, burstRecords, hs, hstep, hrecords, hrec, Bool.false_eq_true,
                if_false, true_and]

end Machine

namespace Session

variable {ι δ : Type}

/-- The session with its machine on another stream. -/
def withStream (s : Session ι δ) (g : Generator) : Session ι δ :=
  { s with machine := s.machine.withGenerator g }

variable {s : Session ι δ} {g : Generator} {elapsed : Nat}

theorem hear_withStream (s : Session ι δ) (g : Generator) (events : List Event) (input : ι) :
    (s.withStream g).hear events input = (s.hear events input).withStream g := by
  obtain ⟨hfeed, hrecords⟩ := Machine.feed_withGenerator events s.machine g
  have hmachine : (s.withStream g).machine = s.machine.withGenerator g := rfl
  rw [hear, hear, hmachine, hfeed, hrecords]
  rfl

theorem listen_withStream (s : Session ι δ) (g : Generator) :
    (s.withStream g).listen = s.listen.withStream g := by
  have hactive : (s.withStream g).machine.soundActive = s.machine.soundActive := rfl
  have hsound : (s.withStream g).sounding = s.sounding := rfl
  rw [listen, listen, hactive, hsound]
  split <;> rfl

/-- The steps of a frame that take no random byte. -/
theorem makeSteps_withStream
    (h : ∀ ins ∈ s.machine.ran (List.replicate
      (s.machine.burstLength (s.clock.advance elapsed).2.steps) .step), ins.isRandom = false) :
    (s.withStream g).burst elapsed = ((s.burst elapsed).1.withGenerator g, (s.burst elapsed).2) ∧
      (s.withStream g).makeSteps elapsed = (s.makeSteps elapsed).withStream g := by
  obtain ⟨hburst, hrecords⟩ := Machine.burst_withStream (g := g) h
  refine ⟨hburst, ?_⟩
  have hsteps : (s.withStream g).burst elapsed =
      ((s.burst elapsed).1.withGenerator g, (s.burst elapsed).2) := hburst
  have hclock : (s.withStream g).clock = s.clock := rfl
  have hmachine : (s.withStream g).machine = s.machine.withGenerator g := rfl
  rw [makeSteps, makeSteps, hsteps, hclock, hmachine, hrecords]
  rfl

theorem workDone_withStream
    (h : (s.withStream g).makeSteps elapsed = (s.makeSteps elapsed).withStream g) :
    (s.withStream g).workDone elapsed = (s.workDone elapsed).withStream g := by
  have hticks := Machine.ticks_withGenerator (s.clock.advance elapsed).2.timerTicks
    (s.makeSteps elapsed).machine g
  have hclock : (s.withStream g).clock = s.clock := rfl
  rw [workDone, workDone, h, hclock, countDown, countDown]
  have hmachine : ((s.makeSteps elapsed).withStream g).machine =
    (s.makeSteps elapsed).machine.withGenerator g := rfl
  rw [hmachine, hticks]
  exact listen_withStream { s.makeSteps elapsed with
    machine := (s.makeSteps elapsed).machine.ticks (s.clock.advance elapsed).2.timerTicks } g

theorem close_withStream (r : Session ι δ × Option Exit) (g : Generator) (halted : Bool) :
    close (r.1.withStream g, r.2) halted =
      ((close r halted).1.withStream g, (close r halted).2) := by
  rcases r with ⟨s, _ | e⟩
  · cases halted <;> rfl
  · rfl

variable [Display δ]

theorem refresh_withStream (s : Session ι δ) (g : Generator) :
    (s.withStream g).refresh = (s.refresh.1.withStream g, s.refresh.2) := by
  have hmachine : (s.withStream g).machine = s.machine.withGenerator g := rfl
  rw [refresh, refresh, hmachine, Machine.takeFrame_eq, Machine.takeFrame_eq]
  have hredraw : (s.machine.withGenerator g).state = s.machine.state := rfl
  rw [hredraw]
  cases s.machine.state.redraw with
  | false => rfl
  | true => rfl

theorem work_withStream
    (h : ∀ ins ∈ s.machine.ran (s.workOperations elapsed), ins.isRandom = false) :
    (s.withStream g).work elapsed =
      ((s.work elapsed).1.withStream g, (s.work elapsed).2) := by
  rw [workOperations, Machine.ran_append, List.forall_mem_append] at h
  obtain ⟨hburst, hsteps⟩ := makeSteps_withStream (g := g) h.1
  rw [work_eq, work_eq, hburst, workDone_withStream hsteps, refresh_withStream, hsteps]
  cases (s.burst elapsed).2 with
  | stopped f => rfl
  | halted => exact close_withStream _ g true
  | spent => exact close_withStream _ g false

variable [Input ι]

/-- **A frame whose steps take no random byte** is the same on any stream. -/
theorem frame_withStream
    (h : ∀ ins ∈ s.machine.ran (s.frameOperations elapsed), ins.isRandom = false) :
    (s.withStream g).frame elapsed =
      ((s.frame elapsed).1.withStream g, (s.frame elapsed).2) := by
  rcases hpoll : Input.poll s.input with ⟨reason | events, input⟩
  · rw [frame_of_error (s := s.withStream g) hpoll, frame_of_error hpoll]
    rfl
  · by_cases hquit : Event.quit ∈ events
    · rw [frame_of_quit (s := s.withStream g) hpoll hquit, frame_of_quit hpoll hquit,
        hear_withStream]
    · rw [frameOperations_of_no_quit hpoll hquit, Machine.ran_append, List.forall_mem_append,
        Machine.run_events] at h
      rw [frame_of_no_quit (s := s.withStream g) hpoll hquit, frame_of_no_quit hpoll hquit,
        hear_withStream]
      exact work_withStream h.2

/-- **A run whose program takes no random byte** is the same on any stream. -/
theorem frames_withStream {pacing : Pacing} {n : Nat}
    (h : ∀ ins ∈ s.machine.ran (s.operations pacing n), ins.isRandom = false) :
    (s.withStream g).frames pacing n =
      ((s.frames pacing n).1.withStream g, (s.frames pacing n).2) := by
  induction n generalizing s with
  | zero => rfl
  | succ n ih =>
      rw [operations, Machine.ran_append, List.forall_mem_append, ← machine_frame] at h
      have hcount : (s.withStream g).count = s.count := rfl
      rw [frames_succ, frames_succ, hcount, frame_withStream h.1]
      rcases hframe : s.frame (pacing s.count) with ⟨u, _ | e⟩
      · rw [hframe] at h
        exact ih h.2
      · rfl

end Session

end ChipEight
