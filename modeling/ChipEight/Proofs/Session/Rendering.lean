import ChipEight.Display
import ChipEight.Proofs.Session.Course

/-!
# A run and its display

A run hands pictures to its display and takes back one thing only, that a picture could not be shown.
So it can be done without a display first and be shown afterwards: what a blind run would show is a
list of pictures, and with a display that can show them all the run is the same.

* `Display.renderAll`, `Display.Reliable` — pictures one after the other, and a display that never
  fails;
* `Session.pictures`, `Session.shows` — what a frame and a run of a blind session would show;
* `frame_withDisplay`, `frame_withDisplay_of_fails` — a frame with a display;
* `frames_withDisplay`, `frames_withDisplay_of_fails` — a run with a display, up to the first picture
  that cannot be shown;
* `recordedRun`, with `recordedRun_eq` — a run on a display whose pictures are kept.
-/

namespace ChipEight

variable {ι δ δ' : Type}

/-! ### Displays and lists of pictures -/

namespace Display

variable [Display δ] {d : δ}

/-- Shows pictures one after the other, up to the first that cannot be shown. -/
def renderAll : δ → List Frame → δ × Option DisplayError
  | d, [] => (d, none)
  | d, f :: fs =>
    match Display.render d f with
    | (d, none) => renderAll d fs
    | (d, some e) => (d, some e)

/-- Whatever pictures the display is given one after the other, it shows them. -/
def Reliable (d : δ) : Prop := ∀ fs : List Frame, (renderAll d fs).2 = none

theorem renderAll_cons_of_shows {f : Frame} (h : (Display.render d f).2 = none) (fs : List Frame) :
    renderAll d (f :: fs) = renderAll (Display.render d f).1 fs := by
  rcases hshow : Display.render d f with ⟨d', _ | e⟩
  · rw [renderAll, hshow]
  · rw [hshow] at h
    cases h

theorem renderAll_cons_of_fails {f : Frame} {e : DisplayError}
    (h : (Display.render d f).2 = some e) (fs : List Frame) :
    renderAll d (f :: fs) = ((Display.render d f).1, some e) := by
  rcases hshow : Display.render d f with ⟨d', _ | e'⟩
  · rw [hshow] at h
    cases h
  · rw [hshow] at h
    cases h
    rw [renderAll, hshow]

theorem renderAll_singleton (d : δ) (f : Frame) : renderAll d [f] = Display.render d f := by
  rw [renderAll]
  rcases Display.render d f with ⟨d', _ | e⟩ <;> rfl

/-- Two lists of pictures, if the first can be shown. -/
theorem renderAll_append {fs : List Frame} (h : (renderAll d fs).2 = none) (gs : List Frame) :
    renderAll d (fs ++ gs) = renderAll (renderAll d fs).1 gs := by
  induction fs generalizing d with
  | nil => rfl
  | cons f fs ih =>
      cases hshow : (Display.render d f).2 with
      | none =>
          rw [renderAll_cons_of_shows hshow] at h ⊢
          rw [List.cons_append, renderAll_cons_of_shows hshow, ih h]
      | some e =>
          rw [renderAll_cons_of_fails hshow] at h
          cases h

/-- The front of what can be shown can be shown. -/
theorem renderAll_of_append {fs gs : List Frame} (h : (renderAll d (fs ++ gs)).2 = none) :
    (renderAll d fs).2 = none := by
  induction fs generalizing d with
  | nil => rfl
  | cons f fs ih =>
      rw [List.cons_append] at h
      cases hshow : (Display.render d f).2 with
      | none =>
          rw [renderAll_cons_of_shows hshow] at h ⊢
          exact ih h
      | some e =>
          rw [renderAll_cons_of_fails hshow] at h
          cases h

end Display

namespace Recorder

variable [Display δ]

theorem render_eq (r : Recorder δ) (f : Frame) : Display.render r f =
    ({ display := (Display.render r.display f).1, frames := r.frames.push f },
      (Display.render r.display f).2) := rfl

/-- A recorder keeps the pictures that the display behind it shows. -/
theorem renderAll_eq {r : Recorder δ} {fs : List Frame}
    (h : (Display.renderAll r.display fs).2 = none) :
    Display.renderAll r fs =
      ({ display := (Display.renderAll r.display fs).1, frames := r.frames ++ fs.toArray },
        none) := by
  induction fs generalizing r with
  | nil =>
      rw [Array.append_empty]
      rfl
  | cons f fs ih =>
      cases hshow : (Display.render r.display f).2 with
      | none =>
          rw [Display.renderAll_cons_of_shows hshow] at h ⊢
          have hkeep : (Display.render r f).2 = none := hshow
          rw [Display.renderAll_cons_of_shows hkeep, render_eq, ih h]
          simp only [List.push_append_toArray]
      | some e =>
          rw [Display.renderAll_cons_of_fails hshow] at h
          cases h

end Recorder

/-- What is thrown away is never refused. -/
theorem Discard.renderAll_eq (d : Discard) (fs : List Frame) :
    Display.renderAll d fs = (d, none) := by
  induction fs with
  | nil => rfl
  | cons f fs ih => exact ih

theorem Discard.reliable (d : Discard) : Display.Reliable d := fun fs =>
  congrArg Prod.snd (Discard.renderAll_eq d fs)

/-- A character behind a text, and more behind it. -/
theorem Writer.push_append (text : String) (c : Char) (cs : List Char) :
    text.push c ++ String.ofList cs = text ++ String.ofList (c :: cs) := by
  rw [← String.toList_inj]
  simp only [String.toList_append, String.toList_push, String.toList_ofList, List.append_assoc,
    List.singleton_append]

/-- A writer without a limit has room for everything. -/
theorem Writer.write_of_unlimited {w : Writer} (h : w.limit = none) (cs : List Char) :
    w.write cs = ({ w with text := w.text ++ String.ofList cs }, true) := by
  induction cs generalizing w with
  | nil =>
      rw [String.ofList_nil, String.append_empty]
      rfl
  | cons c cs ih =>
      have hfits : w.fits c = true := by rw [fits, h]
      have hlimit : ({ w with text := w.text.push c } : Writer).limit = none := h
      rw [write, if_pos hfits, ih hlimit]
      exact congrArg (fun text => (({ w with text := text } : Writer), true)) (push_append _ c cs)

namespace TextSink

/-- The characters that are written for a frame. -/
def sheet (f : Frame) : List Char := f.characters ++ ['\n']

/-- A sink without a limit writes every frame as a whole. -/
theorem render_of_unlimited {s : TextSink} (h : s.writer.limit = none) (f : Frame) :
    Display.render s f =
      ({ writer := { s.writer with text := s.writer.text ++ String.ofList (sheet f) },
         frames := s.frames + 1 }, none) := by
  show TextSink.render s f = _
  rw [TextSink.render, Writer.write_of_unlimited h]
  rfl

theorem renderAll_of_unlimited {s : TextSink} (h : s.writer.limit = none) (fs : List Frame) :
    Display.renderAll s fs =
      ({ writer := { s.writer with text := s.writer.text ++ String.ofList (fs.flatMap sheet) },
         frames := s.frames + fs.length }, none) := by
  induction fs generalizing s with
  | nil =>
      rw [List.flatMap_nil, String.ofList_nil, String.append_empty]
      rfl
  | cons f fs ih =>
      have hrender := render_of_unlimited h f
      have hlimit : ({ writer := { s.writer with text := s.writer.text ++ String.ofList (sheet f) },
                       frames := s.frames + 1 } : TextSink).writer.limit = none := h
      rw [Display.renderAll_cons_of_shows (congrArg Prod.snd hrender), hrender, ih hlimit,
        List.flatMap_cons, String.ofList_append, String.append_assoc, List.length_cons,
        Nat.add_assoc, Nat.add_comm 1]

/-- A sink without a limit is never short of room. -/
theorem reliable {s : TextSink} (h : s.writer.limit = none) : Display.Reliable s := fun fs =>
  congrArg Prod.snd (renderAll_of_unlimited h fs)

end TextSink

namespace Session

/-- The session with another display. -/
def withDisplay (s : Session ι δ) (d : δ') : Session ι δ' := { s with display := d }

/-- The session with the frame of its machine taken. -/
def taken (s : Session ι δ) : Session ι δ := { s with machine := s.machine.frameTaken }

theorem workDone_withDisplay (s : Session ι δ) (d : δ') (elapsed : Nat) :
    (s.withDisplay d).workDone elapsed = (s.workDone elapsed).withDisplay d :=
  workDone_mapEnds id (fun _ => d) s elapsed

theorem finishFrame_withDisplay (s : Session ι δ) (d : δ') (halted : Bool) :
    (s.withDisplay d).finishFrame halted =
      ((s.finishFrame halted).1.withDisplay d, (s.finishFrame halted).2) := by
  cases halted <;> rfl

/-- **Showing a frame** is to take it from the machine and to hand it to the display. -/
theorem refresh_withDisplay [Display δ'] (s : Session ι δ) (d : δ') :
    (s.withDisplay d).refresh =
      (s.taken.withDisplay (Display.renderAll d s.machine.takeFrame.2.toList).1,
        (Display.renderAll d s.machine.takeFrame.2.toList).2.map .displayFailed) := by
  have hmachine : (s.withDisplay d).machine = s.machine := rfl
  rw [refresh, hmachine, taken, Machine.frameTaken]
  rcases s.machine.takeFrame with ⟨m, _ | f⟩
  · rfl
  · rw [Option.toList_some, Display.renderAll_singleton]
    rcases hshow : Display.render d f with ⟨d', _ | e⟩
    · simp only [withDisplay, hshow]
    · simp only [withDisplay, hshow]

/-! ### One frame -/

/-- What the work of a frame would show. A fault that stops the program comes before that. -/
def workPictures (s : Session ι δ) (elapsed : Nat) : List Frame :=
  match (s.burst elapsed).2 with
  | .stopped _ => []
  | _ => (s.workDone elapsed).machine.takeFrame.2.toList

section

variable [Display δ] {s : Session ι Discard} {d : δ} {elapsed : Nat} {f : Fault} {e : DisplayError}

theorem workPictures_of_stopped (h : (s.burst elapsed).2 = .stopped f) :
    s.workPictures elapsed = [] := by
  rw [workPictures, h]

theorem workPictures_of_not_stopped (h : ∀ f, (s.burst elapsed).2 ≠ .stopped f) :
    s.workPictures elapsed = (s.workDone elapsed).machine.takeFrame.2.toList := by
  unfold workPictures
  split
  · rename_i f hf
    exact (h f hf).elim
  · rfl

/-- Without a display a picture is taken and nothing else. -/
theorem refresh_blind (s : Session ι Discard) : s.refresh = (s.taken, none) := by
  have hsame : s.withDisplay s.display = s := rfl
  have htaken : s.taken.withDisplay s.display = s.taken := rfl
  have hrefresh := refresh_withDisplay s s.display
  rw [hsame, Discard.renderAll_eq, htaken] at hrefresh
  exact hrefresh

/-- The work of a frame with a display that shows its picture. -/
theorem work_withDisplay (h : (Display.renderAll d (s.workPictures elapsed)).2 = none) :
    (s.withDisplay d).work elapsed =
      ((s.work elapsed).1.withDisplay (Display.renderAll d (s.workPictures elapsed)).1,
        (s.work elapsed).2) := by
  have hburst : (s.withDisplay d).burst elapsed = s.burst elapsed := rfl
  have hshown : (∀ f, (s.burst elapsed).2 ≠ .stopped f) → ∀ halted,
      close ((s.workDone elapsed).withDisplay d).refresh halted =
        ((close (s.workDone elapsed).refresh halted).1.withDisplay
          (Display.renderAll d (s.workPictures elapsed)).1,
          (close (s.workDone elapsed).refresh halted).2) := by
    intro hrun halted
    rw [workPictures_of_not_stopped hrun] at h ⊢
    rw [refresh_withDisplay, refresh_blind, h, close_of_none rfl, close_of_none rfl]
    exact finishFrame_withDisplay _ _ halted
  rw [work_eq, work_eq, hburst, workDone_withDisplay]
  cases hend : (s.burst elapsed).2 with
  | stopped f =>
      rw [workPictures_of_stopped hend]
      rfl
  | halted => exact hshown (Burst.not_stopped_of_halted hend) true
  | spent => exact hshown (Burst.not_stopped_of_spent hend) false

/-- The work of a frame with a display that cannot show its picture. -/
theorem work_withDisplay_of_fails
    (h : (Display.renderAll d (s.workPictures elapsed)).2 = some e) :
    ∃ t, (s.withDisplay d).work elapsed = (t, some (.displayFailed e)) ∧
      t.machine = (s.work elapsed).1.machine ∧
      t.display = (Display.renderAll d (s.workPictures elapsed)).1 := by
  have hburst : (s.withDisplay d).burst elapsed = s.burst elapsed := rfl
  have hfailed : (∀ f, (s.burst elapsed).2 ≠ .stopped f) → ∀ halted,
      ∃ t, close ((s.workDone elapsed).withDisplay d).refresh halted =
          (t, some (.displayFailed e)) ∧
        t.machine = (close (s.workDone elapsed).refresh halted).1.machine ∧
        t.display = (Display.renderAll d (s.workPictures elapsed)).1 := by
    intro hrun halted
    rw [workPictures_of_not_stopped hrun] at h ⊢
    rw [refresh_withDisplay, refresh_blind, h,
      close_of_none (r := ((s.workDone elapsed).taken, none)) rfl, finishFrame_machine]
    exact ⟨_, close_of_some rfl halted, rfl, rfl⟩
  rw [work_eq, work_eq, hburst, workDone_withDisplay]
  cases hend : (s.burst elapsed).2 with
  | stopped f =>
      rw [workPictures_of_stopped hend] at h
      cases h
  | halted => exact hfailed (Burst.not_stopped_of_halted hend) true
  | spent => exact hfailed (Burst.not_stopped_of_spent hend) false

end

variable [Input ι]

/-- What a frame would show: one picture at most. -/
def pictures (s : Session ι δ) (elapsed : Nat) : List Frame :=
  match Input.poll s.input with
  | (.error _, _) => []
  | (.ok events, input) =>
    if .quit ∈ events then [] else (s.hear events input).workPictures elapsed

variable [Display δ] {s u : Session ι Discard} {d : δ} {elapsed : Nat} {e : DisplayError}

/-- **A frame with a display** that shows its picture. -/
theorem frame_withDisplay (h : (Display.renderAll d (s.pictures elapsed)).2 = none) :
    (s.withDisplay d).frame elapsed =
      ((s.frame elapsed).1.withDisplay (Display.renderAll d (s.pictures elapsed)).1,
        (s.frame elapsed).2) := by
  rcases hpoll : Input.poll s.input with ⟨reason | events, input⟩
  · rw [frame_of_error (s := s.withDisplay d) hpoll, frame_of_error hpoll, pictures, hpoll]
    rfl
  · by_cases hquit : Event.quit ∈ events
    · rw [frame_of_quit (s := s.withDisplay d) hpoll hquit, frame_of_quit hpoll hquit]
      simp only [pictures, hpoll, if_pos hquit]
      rfl
    · simp only [pictures, hpoll, if_neg hquit] at h ⊢
      rw [frame_of_no_quit (s := s.withDisplay d) hpoll hquit, frame_of_no_quit hpoll hquit]
      exact work_withDisplay h

/-- **A frame with a display** that cannot show its picture. -/
theorem frame_withDisplay_of_fails
    (h : (Display.renderAll d (s.pictures elapsed)).2 = some e) :
    ∃ t, (s.withDisplay d).frame elapsed = (t, some (.displayFailed e)) ∧
      t.machine = (s.frame elapsed).1.machine ∧
      t.display = (Display.renderAll d (s.pictures elapsed)).1 := by
  rcases hpoll : Input.poll s.input with ⟨reason | events, input⟩
  · simp only [pictures, hpoll] at h
    cases h
  · by_cases hquit : Event.quit ∈ events
    · simp only [pictures, hpoll, if_pos hquit] at h
      cases h
    · simp only [pictures, hpoll, if_neg hquit] at h ⊢
      rw [frame_of_no_quit (s := s.withDisplay d) hpoll hquit, frame_of_no_quit hpoll hquit]
      exact work_withDisplay_of_fails h

/-- A frame shows one picture at most. -/
theorem length_pictures_le (s : Session ι Discard) (elapsed : Nat) :
    (s.pictures elapsed).length ≤ 1 := by
  have htaken : ∀ o : Option Frame, o.toList.length ≤ 1 := by
    intro o
    cases o <;> simp only [Option.toList_none, Option.toList_some, List.length_nil,
      List.length_singleton, Nat.zero_le, Nat.le_refl]
  unfold pictures workPictures
  split
  · exact Nat.zero_le 1
  · split
    · exact Nat.zero_le 1
    · split
      · exact Nat.zero_le 1
      · exact htaken _

/-! ### Whole runs -/

/-- What a run of up to `n` frames would show. -/
def shows (pacing : Pacing) : Nat → Session ι Discard → List Frame
  | 0, _ => []
  | n + 1, s =>
    s.pictures (pacing s.count) ++
      match s.frame (pacing s.count) with
      | (_, some _) => []
      | (s, none) => shows pacing n s

variable {pacing : Pacing} {k n : Nat}

theorem shows_of_passes (h : s.Passes pacing k u) (n : Nat) :
    s.shows pacing (k + n) = s.shows pacing k ++ u.shows pacing n := by
  induction k generalizing s with
  | zero =>
      cases h
      rw [Nat.zero_add, shows, List.nil_append]
  | succ k ih =>
      obtain ⟨v, hframe, hrest⟩ := passes_succ_iff.mp h
      rw [Nat.add_right_comm, shows, shows, hframe, List.append_assoc]
      exact congrArg _ (ih hrest)

theorem shows_one (pacing : Pacing) (s : Session ι Discard) :
    s.shows pacing 1 = s.pictures (pacing s.count) := by
  rw [shows]
  rcases s.frame (pacing s.count) with ⟨u, _ | e⟩
  · exact List.append_nil _
  · exact List.append_nil _

/-- A run with a higher limit shows the same pictures first. -/
theorem shows_of_le {k n : Nat} (h : k ≤ n) : s.shows pacing k <+: s.shows pacing n := by
  induction k generalizing s n with
  | zero => exact List.nil_prefix
  | succ k ih =>
      obtain ⟨n, rfl⟩ := Nat.exists_eq_succ_of_ne_zero (Nat.ne_of_gt (Nat.lt_of_lt_of_le k.succ_pos h))
      rw [shows, shows, List.prefix_append_right_inj]
      rcases s.frame (pacing s.count) with ⟨u, _ | e⟩
      · exact ih (Nat.le_of_succ_le_succ h)
      · exact List.prefix_refl []

/-- A run shows more only if it goes on. -/
theorem exists_passes_of_shows (h : s.shows pacing k ≠ s.shows pacing (k + 1)) :
    ∃ u, s.Passes pacing k u := by
  induction k generalizing s with
  | zero => exact ⟨s, rfl⟩
  | succ k ih =>
      rcases hframe : s.frame (pacing s.count) with ⟨v, _ | e⟩
      · rw [shows, shows, hframe] at h
        obtain ⟨u, hpasses⟩ := ih fun heq => h (congrArg _ heq)
        exact ⟨u, passes_succ_iff.mpr ⟨v, hframe, hpasses⟩⟩
      · rw [shows, shows, hframe] at h
        exact (h rfl).elim

/-- **A run with a display** that shows all its pictures. -/
theorem frames_withDisplay (h : (Display.renderAll d (s.shows pacing n)).2 = none) :
    (s.withDisplay d).frames pacing n =
      ((s.frames pacing n).1.withDisplay (Display.renderAll d (s.shows pacing n)).1,
        (s.frames pacing n).2) := by
  induction n generalizing s d with
  | zero => rfl
  | succ n ih =>
      rw [shows] at h ⊢
      have hfirst := Display.renderAll_of_append h
      have hframe := frame_withDisplay hfirst
      have hcount : (s.withDisplay d).count = s.count := rfl
      rw [Display.renderAll_append hfirst] at h ⊢
      rw [frames_succ, frames_succ, hcount, hframe]
      rcases hnext : s.frame (pacing s.count) with ⟨u, _ | e⟩
      · rw [hnext] at h
        exact ih h
      · rfl

/-- **A run with a display** that shows the pictures of `k` frames, but not that of the next one. -/
theorem frames_withDisplay_of_fails (hpasses : s.Passes pacing k u)
    (hshown : (Display.renderAll d (s.shows pacing k)).2 = none)
    (hfails : (Display.renderAll d (s.shows pacing (k + 1))).2 = some e) (hk : k < n) :
    ∃ t, (s.withDisplay d).frames pacing n = (t, .displayFailed e) ∧
      t.input = Input.polled (k + 1) s.input ∧
      t.machine = (s.frames pacing (k + 1)).1.machine ∧
      t.display = (Display.renderAll d (s.shows pacing (k + 1))).1 := by
  have hwhole := frames_withDisplay hshown
  rw [show s.frames pacing k = (u, .frameLimit) from hpasses] at hwhole
  rw [shows_of_passes hpasses, shows_one, Display.renderAll_append hshown] at hfails ⊢
  obtain ⟨t, hlast, hmachine, hdisplay⟩ := frame_withDisplay_of_fails hfails
  have hinput := frame_input (u.withDisplay (Display.renderAll d (s.shows pacing k)).1)
    (pacing u.count)
  rw [hlast] at hinput
  refine ⟨t, frames_of_last hwhole hlast hk, ?_, ?_, hdisplay⟩
  · rw [Input.polled, ← hpasses.input_eq]
    exact hinput
  · rw [frames_of_passes hpasses, frames_succ, hmachine]
    rcases u.frame (pacing u.count) with ⟨v, _ | e⟩ <;> rfl

/-- A blind run in which nobody wishes to stop ends with its program or at its limit. -/
theorem exit_of_calm (hcalm : Input.Calm s.input n) :
    (s.frames pacing n).2 = .halted ∨ (s.frames pacing n).2 = .frameLimit ∨
      ∃ k f, (s.frames pacing n).2 = .faulted k f := by
  rcases hrun : s.frames pacing n with ⟨t, e⟩
  by_cases he : e = .frameLimit
  · exact .inr (.inl he)
  · obtain ⟨k, hk, u, hpasses, hlast⟩ := exists_last_frame hrun he
    obtain ⟨events, hpoll, hquit⟩ := hcalm k (Nat.le_of_lt hk)
    rw [← hpasses.input_eq] at hpoll
    have hframed := u.framed (pacing u.count)
    rw [hlast] at hframed
    cases hframed with
    | inputFailed hpoll' =>
        rw [hpoll'] at hpoll
        cases hpoll
    | quit hpoll' hquit' =>
        rw [hpoll'] at hpoll
        cases hpoll
        exact (hquit hquit').elim
    | faulted hpoll' hquit' hburst => exact .inr (.inr ⟨_, _, rfl⟩)
    | displayFailed hpoll' hquit' hburst hshow =>
        rw [refresh_blind] at hshow
        cases hshow
    | halted hpoll' hquit' hburst hshow => exact .inl rfl

end Session

/-! ### Recorded runs -/

variable [Input ι] [Display δ] {good : δ} {n : Nat}

/-- A run of up to `n` frames on a display whose pictures are kept. -/
def recordedRun (pacing : Pacing) (speed : Nat) (m : Machine) (input : ι) (journal : Journal)
    (display : δ) (n : Nat) : Session ι (Recorder δ) × Exit :=
  (Session.start speed m input ({ display := display } : Recorder δ) journal).frames pacing n

/-- A recorded run whose pictures can be shown is the blind run with these pictures. -/
theorem recordedRun_eq (pacing : Pacing) (speed : Nat) (m : Machine) (input : ι)
    (journal : Journal) (h : (Display.renderAll good
      ((Session.start speed m input Discard.mk journal).shows pacing n)).2 = none) :
    recordedRun pacing speed m input journal good n =
      (((Session.start speed m input Discard.mk journal).frames pacing n).1.withDisplay
        { display := (Display.renderAll good
            ((Session.start speed m input Discard.mk journal).shows pacing n)).1
          frames := ((Session.start speed m input Discard.mk journal).shows pacing n).toArray },
        ((Session.start speed m input Discard.mk journal).frames pacing n).2) := by
  have hshown := Recorder.renderAll_eq (r := { display := good }) h
  have hrun := Session.frames_withDisplay (s := Session.start speed m input Discard.mk journal)
    (d := ({ display := good } : Recorder δ)) (congrArg Prod.snd hshown)
  rw [hshown] at hrun
  simp only [Array.empty_append] at hrun
  exact hrun

end ChipEight
