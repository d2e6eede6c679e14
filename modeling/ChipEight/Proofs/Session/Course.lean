import ChipEight.Proofs.Input.Script
import ChipEight.Proofs.Session.Frame

/-!
# The course of a run

A run goes through whole frames until it reaches its limit or a frame ends it. So a run that ends is
told by the frames before and by the one frame in which it ends:

* `Session.Passes` — the run goes through some frames, with `Passes.induction`;
* `frames_of_passes`, `exists_last_frame`, `frames_of_last` — a run and its last frame;
* `frames_of_le` — a run that has ended takes no notice of its limit;
* `exists_polled` — the polls of a run and the frames that it has gone through;
* `frame_input`, `Passes.input_eq` — each frame polls once;
* `finish?_of_limit`, `finish?_of_ended` — a run without a limit.
-/

namespace ChipEight

namespace Session

variable {ι δ : Type} [Input ι] [Display δ]

/-- The run goes through `k` frames, none of which ends it, and is then at `u`. -/
def Passes (pacing : Pacing) (k : Nat) (s u : Session ι δ) : Prop :=
  s.frames pacing k = (u, .frameLimit)

variable {pacing : Pacing} {k n : Nat} {s t u v : Session ι δ} {e : Exit}

/-! ### One frame -/

/-- A frame does not end a run for its limit. -/
theorem frame_ne_frameLimit (s : Session ι δ) (elapsed : Nat) :
    (s.frame elapsed).2 ≠ some .frameLimit := by
  have hframed := s.framed elapsed
  generalize (s.frame elapsed).1 = t at hframed
  generalize (s.frame elapsed).2 = e at hframed ⊢
  cases hframed <;> simp only [ne_eq, reduceCtorEq, not_false_eq_true, Option.some.injEq]

/-- A frame that does not end the run is counted. -/
theorem frame_count {elapsed : Nat} (h : s.frame elapsed = (u, none)) : u.count = s.count + 1 := by
  have hframed := s.framed elapsed
  rw [h] at hframed
  cases hframed with
  | done hpoll hquit hburst hshow =>
      exact congrArg Nat.succ (refresh_workDone _ elapsed).2.2.2

/-- A frame that does not end the run has used its time. -/
theorem frame_clock {elapsed : Nat} (h : s.frame elapsed = (u, none)) :
    u.clock = (s.clock.advance elapsed).1 := by
  have hframed := s.framed elapsed
  rw [h] at hframed
  cases hframed with
  | done hpoll hquit hburst hshow => exact (refresh_workDone _ elapsed).2.1

/-- However a frame ends, it has polled once. -/
theorem frame_input (s : Session ι δ) (elapsed : Nat) :
    (s.frame elapsed).1.input = (Input.poll s.input).2 := by
  have hframed := s.framed elapsed
  generalize (s.frame elapsed).1 = t at hframed ⊢
  generalize (s.frame elapsed).2 = e at hframed
  cases hframed with
  | inputFailed hpoll => rw [hpoll]
  | quit hpoll hquit => rw [hpoll, hear_input]
  | faulted hpoll hquit hburst => rw [hpoll, makeSteps_input, hear_input]
  | displayFailed hpoll hquit hburst hshow =>
      rw [hpoll, (refresh_workDone _ elapsed).2.2.1, hear_input]
  | halted hpoll hquit hburst hshow =>
      rw [hpoll, finishFrame_input, (refresh_workDone _ elapsed).2.2.1, hear_input]
  | done hpoll hquit hburst hshow =>
      rw [hpoll, finishFrame_input, (refresh_workDone _ elapsed).2.2.1, hear_input]

/-! ### Whole frames -/

theorem frames_succ_of_none (h : s.frame (pacing s.count) = (u, none)) (n : Nat) :
    s.frames pacing (n + 1) = u.frames pacing n := by
  rw [frames_succ, h]

theorem frames_succ_of_some (h : s.frame (pacing s.count) = (t, some e)) (n : Nat) :
    s.frames pacing (n + 1) = (t, e) := by
  rw [frames_succ, h]

/-- Some frames are the first of them and the rest. -/
theorem passes_succ_iff :
    s.Passes pacing (k + 1) u ↔ ∃ v, s.frame (pacing s.count) = (v, none) ∧ v.Passes pacing k u := by
  constructor
  · intro h
    rcases hframe : s.frame (pacing s.count) with ⟨v, _ | e⟩
    · rw [Passes, frames_succ_of_none hframe] at h
      exact ⟨v, rfl, h⟩
    · rw [Passes, frames_succ_of_some hframe] at h
      cases h
      have hlimit := frame_ne_frameLimit s (pacing s.count)
      rw [hframe] at hlimit
      exact (hlimit rfl).elim
  · rintro ⟨v, hframe, h⟩
    rw [Passes, frames_succ_of_none hframe]
    exact h

/-- **A run that goes through some frames** is then the run that begins after them. -/
theorem frames_of_passes (h : s.Passes pacing k u) (n : Nat) :
    s.frames pacing (k + n) = u.frames pacing n := by
  induction k generalizing s with
  | zero =>
      cases h
      rw [Nat.zero_add]
  | succ k ih =>
      obtain ⟨v, hframe, hrest⟩ := passes_succ_iff.mp h
      rw [Nat.add_right_comm, frames_succ_of_none hframe]
      exact ih hrest

/-- One more frame. -/
theorem Passes.succ (h : s.Passes pacing k u) (hframe : u.frame (pacing u.count) = (v, none)) :
    s.Passes pacing (k + 1) v := by
  rw [Passes, frames_of_passes h, frames_succ_of_none hframe]
  rfl

/-- What holds at the start of a run and is kept by every frame that does not end it holds after any
number of whole frames. -/
theorem Passes.induction {P : Nat → Session ι δ → Prop} (h : s.Passes pacing k u) (hstart : P 0 s)
    (hkeep : ∀ j u v, s.Passes pacing j u → P j u → u.frame (pacing u.count) = (v, none) →
      P (j + 1) v) : P k u := by
  induction k generalizing P s with
  | zero =>
      cases h
      exact hstart
  | succ k ih =>
      obtain ⟨v, hframe, hrest⟩ := passes_succ_iff.mp h
      have hfirst : s.Passes pacing 1 v := passes_succ_iff.mpr ⟨v, hframe, rfl⟩
      refine ih (P := fun j => P (j + 1)) hrest ?_ ?_
      · exact hkeep 0 s v rfl hstart hframe
      · intro j u' v' hpasses hP hnext
        refine hkeep (j + 1) u' v' ?_ hP hnext
        rw [Passes, Nat.add_comm, frames_of_passes hfirst]
        exact hpasses

theorem Passes.count_eq (h : s.Passes pacing k u) : u.count = s.count + k :=
  h.induction (P := fun j u => u.count = s.count + j) rfl fun j u v _ hcount hframe => by
    rw [frame_count hframe, hcount, Nat.add_assoc]

/-- **Each frame polls once.** -/
theorem Passes.input_eq (h : s.Passes pacing k u) : u.input = Input.polled k s.input :=
  h.induction (P := fun j u => u.input = Input.polled j s.input) rfl
    fun j u v _ hinput hframe => by
      have hpoll := frame_input u (pacing u.count)
      rw [hframe, hinput] at hpoll
      exact hpoll

/-! ### The last frame -/

/-- **A run that ends** goes through some frames and ends in the next one. -/
theorem exists_last_frame (h : s.frames pacing n = (t, e)) (he : e ≠ .frameLimit) :
    ∃ k < n, ∃ u, s.Passes pacing k u ∧ u.frame (pacing u.count) = (t, some e) := by
  induction n generalizing s with
  | zero =>
      cases h
      exact (he rfl).elim
  | succ n ih =>
      rcases hframe : s.frame (pacing s.count) with ⟨v, _ | e'⟩
      · rw [frames_succ_of_none hframe] at h
        obtain ⟨k, hk, u, hpasses, hlast⟩ := ih h
        exact ⟨k + 1, Nat.succ_lt_succ hk, u, passes_succ_iff.mpr ⟨v, hframe, hpasses⟩, hlast⟩
      · rw [frames_succ_of_some hframe] at h
        cases h
        exact ⟨0, Nat.succ_pos n, s, rfl, hframe⟩

/-- A frame that ends the run ends it whatever the limit. -/
theorem frames_of_last (h : s.Passes pacing k u) (hlast : u.frame (pacing u.count) = (t, some e))
    (hk : k < n) : s.frames pacing n = (t, e) := by
  obtain ⟨m, rfl⟩ := Nat.exists_eq_add_of_lt hk
  rw [Nat.add_assoc, frames_of_passes h, frames_succ_of_some hlast]

/-- **A run that has ended** takes no notice of its limit. -/
theorem frames_of_le {n' : Nat} (h : s.frames pacing n = (t, e)) (he : e ≠ .frameLimit)
    (hle : n ≤ n') : s.frames pacing n' = (t, e) := by
  obtain ⟨k, hk, u, hpasses, hlast⟩ := exists_last_frame h he
  exact frames_of_last hpasses hlast (Nat.lt_of_lt_of_le hk hle)

/-- A run that goes through some frames goes through fewer. -/
theorem exists_passes_of_le (h : s.Passes pacing n t) (hk : k ≤ n) :
    ∃ u, s.Passes pacing k u := by
  rcases hrun : s.frames pacing k with ⟨u, e⟩
  by_cases he : e = .frameLimit
  · subst he
    exact ⟨u, hrun⟩
  · have hended := (frames_of_le hrun he hk).symm.trans h
    cases hended
    exact (he rfl).elim

/-- **A run polls in each frame that it begins**, and has gone through all frames before. -/
theorem exists_polled (h : s.frames pacing n = (t, e)) :
    ∃ k ≤ n, t.input = Input.polled k s.input ∧ ∀ j < k, ∃ u, s.Passes pacing j u := by
  by_cases he : e = .frameLimit
  · subst he
    exact ⟨n, Nat.le_refl n, Passes.input_eq h, fun j hj =>
      exists_passes_of_le h (Nat.le_of_lt hj)⟩
  · obtain ⟨k, hk, u, hpasses, hlast⟩ := exists_last_frame h he
    have hinput := frame_input u (pacing u.count)
    rw [hlast, hpasses.input_eq] at hinput
    exact ⟨k + 1, hk, hinput, fun j hj => exists_passes_of_le hpasses (Nat.le_of_lt_succ hj)⟩

/-! ### Runs without a limit -/

/-- A run without a limit goes on where a limit would end it. -/
theorem finish?_of_limit (h : (s.frames pacing n).2 = .frameLimit) : s.finish? pacing n = none := by
  rw [finish?]
  rcases hrun : s.frames pacing n with ⟨u, e⟩
  rw [hrun] at h
  cases h
  rfl

/-- A run without a limit ends as a run does that ends before its limit. -/
theorem finish?_of_ended (h : (s.frames pacing n).2 ≠ .frameLimit) :
    s.finish? pacing n = some (s.frames pacing n) := by
  rw [finish?]
  rcases hrun : s.frames pacing n with ⟨u, e⟩
  rw [hrun] at h
  cases e with
  | frameLimit => exact (h rfl).elim
  | quit => rfl
  | halted => rfl
  | inputFailed reason => rfl
  | faulted frame fault => rfl
  | displayFailed error => rfl

end Session

end ChipEight
