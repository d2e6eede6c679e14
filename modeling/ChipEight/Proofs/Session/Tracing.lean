import ChipEight.Proofs.Machine.Records
import ChipEight.Proofs.Session.Operations

/-!
# The journal of a run

A run keeps what its machine writes, in the order of what it asks of the machine, and adds some records of
its own, none of which tells of anything that was fetched. So the journal of a run accounts for its steps as
the records of the machine do:

* `Journal.kept` — what a journal tells of fetches;
* `Session.Tells`, with `tells_frame`, `tells_frames` — what it tells more after a part of a run is what the
  machine has written in it;
* `execution_trace_is_faithful` — the records of a history, the journal of a run, and what can be read from
  their lines.
-/

namespace ChipEight

namespace Journal

/-- The records of a journal that tell of something that was fetched, in the order in which they were
written. -/
def kept (j : Journal) : List Record := j.records.reverse.filter Record.isFetch

variable {j : Journal}

theorem kept_note (h : j.enabled = true) (records : Unit → List Record) :
    (j.note records).kept = j.kept ++ (records ()).filter Record.isFetch := by
  rw [note, if_pos h, kept, List.reverse_append, List.reverse_reverse, List.filter_append]
  rfl

theorem enabled_note (h : j.enabled = true) (records : Unit → List Record) :
    (j.note records).enabled = true := by
  rw [note, if_pos h]
  exact h

end Journal

namespace Machine

/-! ### What the parts of a frame write -/

theorem written_events (events : List Event) (m : Machine) :
    m.written (Event.operations events) = m.feedRecords events := by
  induction events generalizing m with
  | nil => rfl
  | cons e events ih =>
      cases e with
      | quit => rfl
      | key k down => exact congrArg (m.keyRecords k down ++ ·) (ih (m.keyEvent k down))

/-- Operations that write nothing. -/
theorem written_replicate_tick (n : Nat) (m : Machine) :
    m.written (List.replicate n .tick) = [] := by
  induction n generalizing m with
  | zero => rfl
  | succ n ih => exact ih m.tick

/-- The steps of a burst. The fault that ends it is told once more, which is no record of a fetch. -/
theorem written_burstLength (n : Nat) (m : Machine) :
    (m.burstRecords n).filter Record.isFetch =
      (m.written (List.replicate (m.burstLength n) .step)).filter Record.isFetch := by
  induction n generalizing m with
  | zero => rfl
  | succ n ih =>
      rcases hs : m.step with ⟨m', o⟩
      have hsucc : ∀ k, m.written (List.replicate (k + 1) .step) =
          m.stepRecords ++ m'.written (List.replicate k .step) := by
        intro k
        have happly : (m.apply .step).1 = m' := by rw [apply, hs]
        rw [List.replicate_succ, written, happly]
        rfl
      simp only [burstRecords, burstLength, hs]
      cases o with
      | executed ins => rw [hsucc, List.filter_append, List.filter_append, ih]
      | awaitingKey => rw [hsucc 0]; rfl
      | halted => rw [hsucc 0]; rfl
      | faulted f =>
          cases hrec : f.isRecoverable with
          | true => simp only [hrec, if_true, hsucc, List.filter_append, ih]
          | false =>
              simp only [hrec, Bool.false_eq_true, if_false, hsucc 0, List.filter_append]
              rfl

end Machine

namespace Session

variable {ι δ : Type}

/-- From a session to a later one the machine has gone through some operations, and the journal tells more
of just what the machine has written then. -/
structure Tells (s t : Session ι δ) (ops : List Operation) : Prop where
  machine : t.machine = s.machine.run ops
  enabled : t.journal.enabled = true
  kept : t.journal.kept = s.journal.kept ++ (s.machine.written ops).filter Record.isFetch

namespace Tells

variable {s t u : Session ι δ} {ops ops' : List Operation}

theorem refl (h : s.journal.enabled = true) : s.Tells s [] where
  machine := rfl
  enabled := h
  kept := (List.append_nil _).symm

theorem trans (h : s.Tells t ops) (h' : t.Tells u ops') : s.Tells u (ops ++ ops') where
  machine := by rw [h'.machine, h.machine, Machine.run_append]
  enabled := h'.enabled
  kept := by
    rw [h'.kept, h.kept, h.machine, Machine.written_append, List.filter_append, List.append_assoc]

/-- Records of other kinds make no difference. -/
theorem note (h : s.Tells t ops) (hmachine : u.machine = t.machine) (records : Unit → List Record)
    (hjournal : u.journal = t.journal.note records)
    (hothers : (records ()).filter Record.isFetch = []) : s.Tells u ops where
  machine := hmachine.trans h.machine
  enabled := by
    rw [hjournal]
    exact Journal.enabled_note h.enabled records
  kept := by rw [hjournal, Journal.kept_note h.enabled, hothers, List.append_nil, h.kept]

end Tells

variable {s : Session ι δ} {elapsed : Nat} {events : List Event} {input : ι}

/-! ### The parts of a frame -/

theorem tells_hear (h : s.journal.enabled = true) (events : List Event) (input : ι) :
    s.Tells (s.hear events input) (Event.operations events) where
  machine := (Machine.run_events events s.machine).symm
  enabled := Journal.enabled_note h _
  kept := by
    rw [Machine.written_events]
    exact Journal.kept_note h _

theorem tells_makeSteps (h : s.journal.enabled = true) (elapsed : Nat) :
    s.Tells (s.makeSteps elapsed)
      (List.replicate (s.machine.burstLength (s.clock.advance elapsed).2.steps) .step) where
  machine := by
    rw [Machine.run_replicate_step, Machine.steps_burstLength]
    rfl
  enabled := Journal.enabled_note h _
  kept := by
    rw [← Machine.written_burstLength]
    exact Journal.kept_note h _

theorem tells_countDown (h : s.journal.enabled = true) (n : Nat) :
    s.Tells (s.countDown n) (List.replicate n .tick) := by
  have hticked : s.Tells { s with machine := s.machine.ticks n } (List.replicate n .tick) := by
    refine ⟨(Machine.run_replicate_tick n s.machine).symm, h, ?_⟩
    rw [Machine.written_replicate_tick]
    exact (List.append_nil _).symm
  rw [countDown, listen]
  split
  · exact hticked
  · exact hticked.note rfl (fun _ => [.sound !s.sounding]) rfl rfl

theorem tells_refresh [Display δ] (h : s.journal.enabled = true) :
    s.Tells s.refresh.1 [.takeFrame] := by
  obtain ⟨display, hrefresh⟩ := refresh_eq s
  rw [hrefresh]
  exact ⟨rfl, h, (List.append_nil _).symm⟩

theorem tells_finishFrame (h : s.journal.enabled = true) (halted : Bool) :
    s.Tells (s.finishFrame halted).1 [] := by
  cases halted with
  | true => exact (Tells.refl h).note rfl (fun _ => [.halted (s.count + 1)]) rfl rfl
  | false => exact ⟨rfl, h, (List.append_nil _).symm⟩

/-- The work of a frame in which no fault stops the program. -/
theorem tells_workDone [Display δ] (h : s.journal.enabled = true)
    (hburst : ∀ f, (s.burst elapsed).2 ≠ .stopped f) :
    s.Tells (s.workDone elapsed).refresh.1 (s.workOperations elapsed) := by
  have hsteps := tells_makeSteps h elapsed
  have hticks := tells_countDown hsteps.enabled (s.clock.advance elapsed).2.timerTicks
  rw [workOperations_of_not_stopped hburst]
  exact hsteps.trans (hticks.trans (tells_refresh hticks.enabled))

/-! ### Whole frames and runs -/

variable [Input ι] [Display δ]

/-- **What a frame adds to the journal**, however it ends. -/
theorem tells_frame (h : s.journal.enabled = true) (elapsed : Nat) :
    s.Tells (s.frame elapsed).1 (s.frameOperations elapsed) := by
  have hheard : ∀ events (input : ι), s.Tells (s.hear events input) (Event.operations events) :=
    fun events input => tells_hear h events input
  have hframed := s.framed elapsed
  generalize (s.frame elapsed).1 = t at hframed ⊢
  generalize (s.frame elapsed).2 = e at hframed
  cases hframed with
  | inputFailed hpoll =>
      rw [frameOperations_of_error hpoll]
      exact ⟨rfl, h, (List.append_nil _).symm⟩
  | @quit events input hpoll hquit =>
      rw [frameOperations_of_quit hpoll hquit]
      exact hheard events input
  | @faulted events input f hpoll hquit hburst =>
      rw [frameOperations_of_no_quit hpoll hquit, workOperations_of_stopped hburst]
      exact (hheard events input).trans (tells_makeSteps (hheard events input).enabled elapsed)
  | @displayFailed events input error hpoll hquit hburst hshow =>
      rw [frameOperations_of_no_quit hpoll hquit]
      exact (hheard events input).trans (tells_workDone (hheard events input).enabled hburst)
  | @halted events input hpoll hquit hburst hshow =>
      have hdone := tells_workDone (hheard events input).enabled (Burst.not_stopped_of_halted hburst)
      rw [frameOperations_of_no_quit hpoll hquit, ← List.append_nil (workOperations _ _)]
      exact (hheard events input).trans (hdone.trans (tells_finishFrame hdone.enabled true))
  | @done events input hpoll hquit hburst hshow =>
      have hdone := tells_workDone (hheard events input).enabled (Burst.not_stopped_of_spent hburst)
      rw [frameOperations_of_no_quit hpoll hquit, ← List.append_nil (workOperations _ _)]
      exact (hheard events input).trans (hdone.trans (tells_finishFrame hdone.enabled false))

/-- **What a run adds to the journal.** -/
theorem tells_frames (h : s.journal.enabled = true) (pacing : Pacing) (n : Nat) :
    s.Tells (s.frames pacing n).1 (s.operations pacing n) := by
  induction n generalizing s with
  | zero => exact .refl h
  | succ n ih =>
      have hfirst := tells_frame h (pacing s.count)
      rw [frames_succ, operations]
      rcases hframe : s.frame (pacing s.count) with ⟨u, _ | e⟩
      · rw [hframe] at hfirst
        exact hfirst.trans (ih hfirst.enabled)
      · rw [hframe] at hfirst
        simpa using hfirst

end Session

/-- **The trace of an execution is complete and faithful.** The records that a machine writes in a history
account for its steps, one for one and in their order: those of the lowest level for the steps that fetched
an instruction, each with all that it found, and those of skipped words for the steps that reported one. A
step writes nothing if the machine awaits a key, is past the end of memory or has recorded a fault. The same
holds of the journal of a run and of the steps that the run makes, whatever its speed, input, display, pacing
and limit. In both the lines alone tell what was fetched and where. -/
theorem execution_trace_is_faithful {m : Machine} (h : m.Reachable) :
    (∀ ops, Machine.Accounts (m.written ops) (m.found ops)) ∧
    (∀ ops, (m.run ops).step.2 = .awaitingKey ∨ lastInstruction < (m.run ops).state.pc ∨
        (m.run ops).fault ≠ none → m.written (ops ++ [.step]) = m.written ops) ∧
    ∀ {ι δ : Type} [Input ι] [Display δ] (speed : Nat) (input : ι) (display : δ) (pacing : Pacing)
        (n : Nat),
      let s := Session.start speed m input display { enabled := true }
      Machine.Accounts (s.frames pacing n).1.journal.records.reverse
          (m.found (s.operations pacing n)) ∧
        (s.frames pacing n).1.machine = m.run (s.operations pacing n) := by
  refine ⟨fun ops => Machine.accounts h rfl, fun ops hidle => Machine.written_of_idle hidle, ?_⟩
  intro ι δ hinput hdisplay speed input display pacing n s
  have htells : s.Tells (s.frames pacing n).1 (s.operations pacing n) :=
    Session.tells_frames rfl pacing n
  exact ⟨Machine.accounts h htells.kept, htells.machine⟩

/-- A machine with a program that loads a register, goes over a word that is no instruction and returns from
no subroutine. -/
def Machine.straying : Machine :=
  (Machine.ofSeed 0).run [.load [0x60, 0x05, 0x50, 0x01, 0x00, 0xEE]]

/-- The lines of its records show the instruction that the fault stops, and nothing of the steps after it,
whether a host makes the steps one by one or a run makes those of a frame. -/
theorem straying_trace :
    Machine.straying.Reachable ∧
    Record.readFetches ((Machine.straying.written (List.replicate 3 .step)).map Record.line) =
      [(0x200, 0x6005), (0x202, 0x5001), (0x204, 0x00EE)] ∧
    Machine.straying.written (List.replicate 3 .step ++ [.step]) =
      Machine.straying.written (List.replicate 3 .step) ∧
    Record.readFetches (((Session.start 700 Machine.straying ({} : Script) ({} : Discard)
        { enabled := true }).frames .simulated 2).1.journal.records.reverse.map Record.line) =
      [(0x200, 0x6005), (0x202, 0x5001), (0x204, 0x00EE)] := by
  have hreach : Machine.straying.Reachable := Machine.reachable_run 0 _
  obtain ⟨hhistory, hidle, hrun⟩ := execution_trace_is_faithful hreach
  have hfault : (Machine.straying.run (List.replicate 3 .step)).fault ≠ none := by decide +kernel
  have hjournal := (hrun 700 ({} : Script) ({} : Discard) .simulated 2).1.fetches
  refine ⟨hreach, ?_, hidle _ (.inr (.inr hfault)), hjournal.trans ?_⟩
  · rw [(hhistory _).fetches]
    decide +kernel
  · decide +kernel

end ChipEight
