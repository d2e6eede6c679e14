import ChipEight.Proofs.Machine.Standstill
import ChipEight.Proofs.Session.Frame

/-!
# A recorder only listens

A recorder hands every frame on to the display behind it. So a run with a recorder is the run with
that display, and what the recorder kept is what the display was given.

* `Session.unrecorded` — a session without its recorder;
* `refresh_recorder` — what is kept when a frame is shown;
* `frames_unrecorded` — a whole run, from its parts in the order of `Session.frame`.
-/

namespace ChipEight.Session

variable {ι δ : Type}

/-- The session with the display behind the recorder. -/
def unrecorded (s : Session ι (Recorder δ)) : Session ι δ :=
  { s with display := s.display.display }

theorem close_unrecorded (r : Session ι (Recorder δ) × Option Exit) (halted : Bool) :
    close (r.1.unrecorded, r.2) halted = ((close r halted).1.unrecorded, (close r halted).2) :=
  close_mapEnds id Recorder.display r halted

variable [Display δ]

/-- Showing a frame, as far as the machine and the display are concerned. -/
theorem refresh_recorder (s : Session ι (Recorder δ)) :
    s.refresh.1.machine = s.machine.takeFrame.1 ∧
      s.refresh.1.display.frames =
        if s.machine.state.redraw then s.display.frames.push s.machine.state.frame
        else s.display.frames := by
  rw [refresh, Machine.takeFrame_eq]
  cases s.machine.state.redraw with
  | false => exact ⟨rfl, rfl⟩
  | true => exact ⟨rfl, rfl⟩

theorem refresh_unrecorded (s : Session ι (Recorder δ)) :
    s.unrecorded.refresh = (s.refresh.1.unrecorded, s.refresh.2) := by
  have hmachine : s.unrecorded.machine = s.machine := rfl
  rw [refresh, refresh, hmachine, Machine.takeFrame_eq]
  cases s.machine.state.redraw with
  | false => rfl
  | true => rfl

theorem work_unrecorded (s : Session ι (Recorder δ)) (elapsed : Nat) :
    s.unrecorded.work elapsed = ((s.work elapsed).1.unrecorded, (s.work elapsed).2) := by
  have hdone : s.unrecorded.workDone elapsed = (s.workDone elapsed).unrecorded :=
    workDone_mapEnds id Recorder.display s elapsed
  have hshow := refresh_unrecorded (s.workDone elapsed)
  have hburst : s.unrecorded.burst elapsed = s.burst elapsed := rfl
  rw [work_eq, work_eq, hburst, hdone, hshow]
  cases (s.burst elapsed).2 with
  | stopped f => rfl
  | halted => exact close_unrecorded _ true
  | spent => exact close_unrecorded _ false

variable [Input ι]

theorem frame_unrecorded (s : Session ι (Recorder δ)) (elapsed : Nat) :
    s.unrecorded.frame elapsed = ((s.frame elapsed).1.unrecorded, (s.frame elapsed).2) := by
  have hinput : s.unrecorded.input = s.input := rfl
  have hmachine : s.unrecorded.machine = s.machine := rfl
  rcases hpoll : Input.poll s.input with ⟨reason | events, input⟩
  · simp only [frame, hinput, hpoll]
    rfl
  · rcases hfeed : s.machine.feed events with ⟨m, _ | _⟩
    · simp only [frame, hinput, hmachine, hpoll, hfeed]
      exact work_unrecorded { s with
        machine := m, input := input
        journal := s.journal.note fun _ => s.machine.feedRecords events } elapsed
    · simp only [frame, hinput, hmachine, hpoll, hfeed]
      rfl

/-- **A run with a recorder** is the run with the display behind it. -/
theorem frames_unrecorded (pacing : Pacing) (n : Nat) (s : Session ι (Recorder δ)) :
    s.unrecorded.frames pacing n = ((s.frames pacing n).1.unrecorded, (s.frames pacing n).2) := by
  induction n generalizing s with
  | zero => rfl
  | succ n ih =>
      have hcount : s.unrecorded.count = s.count := rfl
      rw [frames_succ, frames_succ, hcount, frame_unrecorded]
      cases (s.frame (pacing s.count)).2 with
      | some e => rfl
      | none => exact ih _

end ChipEight.Session
