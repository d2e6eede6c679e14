import ChipEight.Input
import ChipEight.Proofs.Machine.Executed
import ChipEight.Proofs.Session.Rendering

/-!
# Runs with a part that fails

An input or a display that fails ends the run at once. What the run has done by then is what it does
when nothing fails, up to the frame in which the failure came: an input fails before anything is done
in its frame, and a display after everything is.

* `Session.withInput`, `frame_withInput` — a frame looks at its input through one poll;
* `Session.frames_failing` — a run whose input fails;
* `Session.shows_of_between` — the frame in which a picture is shown;
* `failures_stop_cleanly` — both failures, and displays that do not fail.
-/

namespace ChipEight

variable {ι ι' δ : Type}

namespace Session

/-! ### A frame and its input -/

/-- The session with another input. -/
def withInput (s : Session ι δ) (input : ι') : Session ι' δ := { s with input := input }

theorem workDone_withInput (s : Session ι δ) (input : ι') (elapsed : Nat) :
    (s.withInput input).workDone elapsed = (s.workDone elapsed).withInput input :=
  workDone_mapEnds (fun _ => input) id s elapsed

theorem close_withInput (r : Session ι δ × Option Exit) (input : ι') (halted : Bool) :
    close (r.1.withInput input, r.2) halted =
      ((close r halted).1.withInput input, (close r halted).2) :=
  close_mapEnds (fun _ => input) id r halted

variable [Display δ]

theorem refresh_withInput (s : Session ι δ) (input : ι') :
    (s.withInput input).refresh = (s.refresh.1.withInput input, s.refresh.2) := by
  have hmachine : (s.withInput input).machine = s.machine := rfl
  rw [refresh, refresh, hmachine]
  rcases s.machine.takeFrame with ⟨m, _ | f⟩
  · rfl
  · rfl

theorem work_withInput (s : Session ι δ) (input : ι') (elapsed : Nat) :
    (s.withInput input).work elapsed =
      ((s.work elapsed).1.withInput input, (s.work elapsed).2) := by
  have hburst : (s.withInput input).burst elapsed = s.burst elapsed := rfl
  rw [work_eq, work_eq, hburst, workDone_withInput, refresh_withInput]
  cases (s.burst elapsed).2 with
  | stopped f => rfl
  | halted => exact close_withInput _ input true
  | spent => exact close_withInput _ input false

variable [Input ι] [Input ι']

/-- **A frame looks at its input through one poll.** -/
theorem frame_withInput {s : Session ι δ} {input : ι'}
    (h : (Input.poll input).1 = (Input.poll s.input).1) (elapsed : Nat) :
    (s.withInput input).frame elapsed =
      ((s.frame elapsed).1.withInput (Input.poll input).2, (s.frame elapsed).2) := by
  rcases hpoll : Input.poll s.input with ⟨reason | events, next⟩
  · have hpoll' : Input.poll input = (.error reason, (Input.poll input).2) :=
      Prod.ext (h.trans (congrArg Prod.fst hpoll)) rfl
    rw [frame_of_error (s := s.withInput input) hpoll', frame_of_error hpoll]
    rfl
  · have hpoll' : Input.poll input = (.ok events, (Input.poll input).2) :=
      Prod.ext (h.trans (congrArg Prod.fst hpoll)) rfl
    by_cases hquit : Event.quit ∈ events
    · rw [frame_of_quit (s := s.withInput input) hpoll' hquit, frame_of_quit hpoll hquit]
      rfl
    · rw [frame_of_no_quit (s := s.withInput input) hpoll' hquit, frame_of_no_quit hpoll hquit]
      exact work_withInput (s.hear events next) (Input.poll input).2 elapsed

/-! ### A run whose input fails -/

variable {pacing : Pacing} {s u : Session ι δ} {j k n : Nat} {reason : String}

/-- A source that fails on a poll, after some others. -/
def failing (j : Nat) (reason : String) (source : ι) (polls : Nat) : Faulty ι where
  source := source
  failsAt := some j
  reason := reason
  polls := polls

omit [Display δ] [Input ι'] in
theorem poll_failing (hk : k ≠ j) (source : ι) :
    Input.poll (failing j reason source k) =
      ((Input.poll source).1, failing j reason (Input.poll source).2 (k + 1)) := by
  have hnot : ¬ (failing j reason source k).failsAt = some (failing j reason source k).polls :=
    fun h => hk (Option.some.inj h).symm
  show Faulty.poll _ = _
  rw [Faulty.poll, if_neg hnot]
  rfl

/-- Before the failure a run goes through the same frames. -/
theorem passes_failing (h : s.Passes pacing k u) (hk : k ≤ j) :
    (s.withInput (failing j reason s.input 0)).Passes pacing k
      (u.withInput (failing j reason u.input k)) := by
  refine h.induction (P := fun k u => k ≤ j →
    (s.withInput (failing j reason s.input 0)).Passes pacing k
      (u.withInput (failing j reason u.input k))) (fun _ => rfl) ?_ hk
  intro k u v _ hu hframe hk
  have hpoll : Input.poll (failing j reason u.input k) = _ :=
    poll_failing (Nat.ne_of_lt hk) u.input
  have hinput := frame_input u (pacing u.count)
  have hheard : (Input.poll (failing j reason u.input k)).1 = (Input.poll u.input).1 := by
    rw [hpoll]
  have hnext := frame_withInput hheard (pacing u.count)
  rw [hframe] at hinput hnext
  rw [hpoll, ← hinput] at hnext
  exact (hu (Nat.le_of_succ_le hk)).succ hnext

/-- **A run whose input fails** ends there, with what the frames before have left. -/
theorem frames_failing (h : s.Passes pacing j u) (hj : j < n) :
    ∃ t, (s.withInput (failing j reason s.input 0)).frames pacing n = (t, .inputFailed reason) ∧
      t.machine = u.machine ∧ t.display = u.display ∧ t.input.polls = j + 1 := by
  have hpoll : Input.poll (failing j reason u.input j) =
      (.error reason, failing j reason u.input (j + 1)) := if_pos rfl
  have hlast := frame_of_error (s := u.withInput (failing j reason u.input j)) hpoll
    (pacing u.count)
  exact ⟨_, frames_of_last (passes_failing h (Nat.le_refl j)) hlast hj, rfl, rfl, rfl⟩

omit [Input ι'] [Display δ] in
/-- **The frame of a picture.** When the pictures of `k` frames are no more than those before this one
and those of the next frame are more, the run goes through `k` frames and shows this picture in the
next one. -/
theorem shows_of_between {s : Session ι Discard} {earlier later : List Frame} {picture : Frame}
    (hall : s.shows pacing n = earlier ++ picture :: later)
    (hbefore : (s.shows pacing k).length ≤ earlier.length)
    (hafter : earlier.length < (s.shows pacing (k + 1)).length) :
    k < n ∧ (∃ u, s.Passes pacing k u) ∧ s.shows pacing k = earlier ∧
      s.shows pacing (k + 1) = earlier ++ [picture] := by
  have hk : k < n := by
    refine Nat.lt_of_not_le fun hle => ?_
    have hfirst : s.shows pacing n <+: s.shows pacing k := shows_of_le hle
    have hlength := hfirst.length_le
    rw [hall, List.length_append, List.length_cons] at hlength
    omega
  have hmore : s.shows pacing k ≠ s.shows pacing (k + 1) := by
    intro heq
    rw [← heq] at hafter
    exact Nat.lt_irrefl _ (Nat.lt_of_lt_of_le hafter hbefore)
  obtain ⟨u, hpasses⟩ := exists_passes_of_shows hmore
  have hnext : s.shows pacing (k + 1) = s.shows pacing k ++ u.pictures (pacing u.count) := by
    rw [shows_of_passes hpasses, shows_one]
  have hone := length_pictures_le u (pacing u.count)
  have hlength : (s.shows pacing (k + 1)).length = (earlier ++ [picture]).length ∧
      (s.shows pacing k).length = earlier.length := by
    rw [hnext, List.length_append] at hafter ⊢
    rw [List.length_append, List.length_singleton]
    omega
  have hearlier : earlier <+: s.shows pacing n := ⟨picture :: later, hall.symm⟩
  have hshown : earlier ++ [picture] <+: s.shows pacing n :=
    ⟨later, by rw [hall, List.append_assoc, List.singleton_append]⟩
  exact ⟨hk, ⟨u, hpasses⟩,
    (List.prefix_of_prefix_length_le (shows_of_le (Nat.le_of_lt hk)) hearlier
      (Nat.le_of_eq hlength.2)).eq_of_length hlength.2,
    (List.prefix_of_prefix_length_le (shows_of_le hk) hshown
      (Nat.le_of_eq hlength.1)).eq_of_length hlength.1⟩

end Session

/-! ### Both failures -/

variable {δ' : Type} [Display δ] {speed n : Nat} {m : Machine} {events : List (Nat × Event)}
  {journal : Journal} {pacing : Pacing}

/-- A run that polls a script once more has gone through all frames before that poll. -/
theorem passes_of_lt_polls {display : δ} {j : Nat}
    (h : j < (recordedRun pacing speed m (Script.ofList events) journal display n).1.input.polls) :
    j < n ∧ ∃ u, (Session.start speed m (Script.ofList events)
      ({ display := display } : Recorder δ) journal).Passes pacing j u := by
  rcases hrun : recordedRun pacing speed m (Script.ofList events) journal display n with ⟨t, e⟩
  obtain ⟨k, hk, hinput, hpasses⟩ := Session.exists_polled hrun
  have hpolls : t.input = Input.polled k (Script.ofList events) := hinput
  rw [hrun, hpolls, Script.polled_ofList] at h
  exact ⟨Nat.lt_of_lt_of_le h hk, hpasses j h⟩

/-- **Failures stop a run cleanly.** Take a run of a script on a display that shows everything. If the
input fails on a poll that this run makes, the run ends there and has done what the first `j` frames
do. If a display fails on a picture that this run shows in frame `k`, the run with that display ends
after `k + 1` polls with the machine that the first `k + 1` frames leave, and was given the same
pictures up to this one. Another display that shows everything makes no difference at all. -/
theorem failures_stop_cleanly (pacing : Pacing) (speed : Nat) (m : Machine)
    (events : List (Nat × Event)) (journal : Journal) (n : Nat) (good : δ)
    (hgood : Display.Reliable good) :
    (∀ (j : Nat) (reason : String),
      j < (recordedRun pacing speed m (Script.ofList events) journal good n).1.input.polls →
      ∃ t, recordedRun pacing speed m (Session.failing j reason (Script.ofList events) 0) journal
            good n = (t, .inputFailed reason) ∧
        (Exit.inputFailed reason).chain = ["reading input", reason] ∧
        t.machine =
          (recordedRun pacing speed m (Script.ofList events) journal good j).1.machine ∧
        t.display.frames =
          (recordedRun pacing speed m (Script.ofList events) journal good j).1.display.frames) ∧
    (∀ {δ' : Type} [Display δ'] (bad : δ') (earlier later : List Frame) (picture : Frame)
      (error : DisplayError) (k : Nat),
      (recordedRun pacing speed m (Script.ofList events) journal good n).1.display.frames.toList =
        earlier ++ picture :: later →
      (recordedRun pacing speed m (Script.ofList events) journal good k).1.display.frames.size ≤
        earlier.length →
      earlier.length <
        (recordedRun pacing speed m (Script.ofList events) journal good (k + 1)).1.display.frames.size →
      (Display.renderAll bad earlier).2 = none →
      (Display.render (Display.renderAll bad earlier).1 picture).2 = some error →
      ∃ t, recordedRun pacing speed m (Script.ofList events) journal bad n =
          (t, .displayFailed error) ∧
        (Exit.displayFailed error).chain = "rendering frame" :: error.chain ∧
        t.input.polls = k + 1 ∧
        t.machine =
          (recordedRun pacing speed m (Script.ofList events) journal good (k + 1)).1.machine ∧
        t.display.frames.toList = earlier ++ [picture]) ∧
    ∀ {δ' : Type} [Display δ'] (other : δ'), Display.Reliable other →
      (recordedRun pacing speed m (Script.ofList events) journal other n).2 =
        (recordedRun pacing speed m (Script.ofList events) journal good n).2 ∧
      (recordedRun pacing speed m (Script.ofList events) journal other n).1.machine =
        (recordedRun pacing speed m (Script.ofList events) journal good n).1.machine ∧
      (recordedRun pacing speed m (Script.ofList events) journal other n).1.input =
        (recordedRun pacing speed m (Script.ofList events) journal good n).1.input ∧
      (recordedRun pacing speed m (Script.ofList events) journal other n).1.display.frames =
        (recordedRun pacing speed m (Script.ofList events) journal good n).1.display.frames := by
  refine ⟨?_, ?_, ?_⟩
  · intro j reason hj
    obtain ⟨hlt, u, hpasses⟩ := passes_of_lt_polls hj
    obtain ⟨t, hrun, hmachine, hdisplay, -⟩ := Session.frames_failing hpasses hlt
    have hwhole : recordedRun pacing speed m (Script.ofList events) journal good j =
        (u, .frameLimit) := hpasses
    rw [hwhole, ← hdisplay]
    exact ⟨t, hrun, rfl, hmachine, rfl⟩
  · intro δ' _ bad earlier later picture error k hall hbefore hafter hearlier hpicture
    simp only [recordedRun_eq pacing speed m _ journal (hgood _)] at hall hbefore hafter ⊢
    obtain ⟨hk, ⟨u, hpasses⟩, hfirst, hnext⟩ := Session.shows_of_between hall hbefore hafter
    have hkept := Recorder.renderAll_eq (r := { display := bad }) hearlier
    have hshown : (Display.renderAll ({ display := bad } : Recorder δ') earlier).2 = none := by
      rw [hkept]
    have hlast : Display.renderAll ({ display := bad } : Recorder δ') (earlier ++ [picture]) =
        ({ display := (Display.render (Display.renderAll bad earlier).1 picture).1
           frames := earlier.toArray.push picture }, some error) := by
      rw [Display.renderAll_append hshown, Display.renderAll_singleton, hkept, Recorder.render_eq,
        hpicture, Array.empty_append]
    obtain ⟨t, hrun, hinput, hmachine, hdisplay⟩ := Session.frames_withDisplay_of_fails hpasses
      (d := ({ display := bad } : Recorder δ')) (by rw [hfirst]; exact hshown)
      (by rw [hnext, hlast]) hk
    refine ⟨t, hrun, rfl, ?_, hmachine, ?_⟩
    · rw [hinput]
      exact congrArg Script.polls (Script.polled_ofList events (k + 1))
    · rw [hdisplay, hnext, hlast, Array.toList_push]
  · intro δ' _ other hother
    rw [recordedRun_eq pacing speed m _ journal (hgood _),
      recordedRun_eq pacing speed m _ journal (hother _)]
    exact ⟨rfl, rfl, rfl, rfl⟩

/-- A program that draws a digit in its second step and then goes on drawing it. -/
def flickering : Machine :=
  (Machine.ofSeed 0).run [.load [0xF0, 0x29, 0xD0, 0x15, 0xD0, 0x15, 0x12, 0x04]]

/-- A run of it with one step a frame, in which a key is pressed. -/
def flickered (frames : Nat) : Session Script (Recorder Discard) × Exit :=
  recordedRun .simulated 60 flickering (Script.ofList [(1, .key 5 true)]) {} Discard.mk frames

/-- It shows nothing in its first frame. -/
theorem flickered_shows : (flickered 1).1.display.frames.size = 0 ∧
    (flickered 2).1.display.frames.size = 1 ∧ (flickered 3).1.display.frames.size = 2 ∧
    (flickered 3).1.input.polls = 3 := by
  decide +kernel

/-- A sink without room. -/
def fullSink : TextSink := { writer := { limit := some 0 } }

/-- It refuses every picture. -/
theorem fullSink_render (f : Frame) : (Display.render fullSink f).2 = some (.write noRoom) := by
  have hfits : ∀ c : Char, fullSink.writer.fits c = false := fun c =>
    decide_eq_false (Nat.not_le_of_gt (Nat.add_pos_right _ c.utf8Size_pos))
  obtain ⟨c, cs, hchars⟩ := List.exists_cons_of_ne_nil
    (List.append_ne_nil_of_right_ne_nil f.characters (List.cons_ne_nil '\n' []))
  show (TextSink.render fullSink f).2 = _
  rw [TextSink.render, hchars, Writer.write, hfits]
  rfl

/-- Without its keyboard the run ends in its third frame, and with a display that cannot write in its
second one. -/
theorem flickering_stops_cleanly :
    (∃ t, recordedRun .simulated 60 flickering
        (Session.failing 2 "unplugged" (Script.ofList [(1, .key 5 true)]) 0) {} Discard.mk 3 =
          (t, .inputFailed "unplugged") ∧
      t.machine = (flickered 2).1.machine ∧
      t.display.frames = (flickered 2).1.display.frames) ∧
    ∃ t, recordedRun .simulated 60 flickering (Script.ofList [(1, .key 5 true)]) {} fullSink 3 =
        (t, .displayFailed (.write noRoom)) ∧
      t.input.polls = 2 ∧ t.machine = (flickered 2).1.machine := by
  obtain ⟨hinput, hdisplay, -⟩ := failures_stop_cleanly .simulated 60 flickering
    [(1, .key 5 true)] {} 3 Discard.mk (Discard.reliable _)
  obtain ⟨hnone, hone, htwo, hpolls⟩ := flickered_shows
  constructor
  · have hreached : 2 < (flickered 3).1.input.polls := by
      rw [hpolls]
      decide
    obtain ⟨t, hrun, -, hmachine, hframes⟩ := hinput 2 "unplugged" hreached
    exact ⟨t, hrun, hmachine, hframes⟩
  · obtain ⟨first, later, hshown⟩ := List.exists_cons_of_length_eq_add_one htwo
    obtain ⟨t, hrun, -, hpolls, hmachine, -⟩ := hdisplay fullSink [] later first (.write noRoom) 1
      hshown (Nat.le_of_eq hnone) (Nat.lt_of_lt_of_eq Nat.one_pos hone.symm) rfl (fullSink_render first)
    exact ⟨t, hrun, hpolls, hmachine⟩

end ChipEight
