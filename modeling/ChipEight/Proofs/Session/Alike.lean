import ChipEight.Proofs.Session.Course

/-!
# Runs that hear the same

What a run does depends on its machine, its clock and its display, and on what it hears. It takes no
notice of the number of its frame, which it only tells, nor of the tone and the journal. So two
sessions that are alike in the former and hear the same do the same, even if one of them has gone
through more frames:

* `Exit.later` — how a run ends whose frames have higher numbers;
* `Session.Alike`, with `Alike.frame` — sessions that are alike, and one frame of them;
* `Alike.frames` — runs with a limit;
* `Alike.finish?` — runs without one.
-/

namespace ChipEight

namespace Exit

variable {k : Nat} {e : Exit}

/-- How a run ended, when the numbers of its frames are higher by `k`. -/
def later (k : Nat) : Exit → Exit
  | .faulted frame fault => .faulted (frame + k) fault
  | e => e

theorem later_zero (e : Exit) : e.later 0 = e := by
  cases e <;> rfl

/-- The numbers of the frames tell nothing about the limit. -/
theorem later_eq_frameLimit_iff : e.later k = .frameLimit ↔ e = .frameLimit := by
  cases e <;> simp only [later, reduceCtorEq]

end Exit

namespace Session

variable {ι ι' δ : Type} {k n : Nat} {s : Session ι δ} {t : Session ι' δ}

/-- The sessions are alike, but the second has gone through `k` frames more. -/
structure Alike (k : Nat) (s : Session ι δ) (t : Session ι' δ) : Prop where
  machine_eq : t.machine = s.machine
  display_eq : t.display = s.display
  clock_eq : t.clock = s.clock
  count_eq : t.count = s.count + k

/-- Two frames, or parts of them, end in the same way and leave sessions that are alike. -/
structure AlikeEnds (k : Nat) (r : Session ι δ × Option Exit) (r' : Session ι' δ × Option Exit) :
    Prop where
  alike : Alike k r.1 r'.1
  exit_eq : r'.2 = r.2.map (Exit.later k)

/-! ### The parts of a frame -/

theorem Alike.hear (h : Alike k s t) (events : List Event) (input : ι) (input' : ι') :
    Alike k (s.hear events input) (t.hear events input') :=
  ⟨congrArg (fun m => (Machine.feed events m).1) h.machine_eq, h.display_eq, h.clock_eq, h.count_eq⟩

theorem Alike.burst_eq (h : Alike k s t) (elapsed : Nat) : t.burst elapsed = s.burst elapsed := by
  rw [burst, burst, h.machine_eq, h.clock_eq]

theorem Alike.makeSteps (h : Alike k s t) (elapsed : Nat) :
    Alike k (s.makeSteps elapsed) (t.makeSteps elapsed) :=
  ⟨congrArg Prod.fst (h.burst_eq elapsed), h.display_eq,
    congrArg (fun c => (c.advance elapsed).1) h.clock_eq, h.count_eq⟩

theorem Alike.listen (h : Alike k s t) : Alike k s.listen t.listen := by
  obtain ⟨sounding, journal, hs⟩ := listen_eq s
  obtain ⟨sounding', journal', ht⟩ := listen_eq t
  rw [hs, ht]
  exact ⟨h.machine_eq, h.display_eq, h.clock_eq, h.count_eq⟩

theorem Alike.workDone (h : Alike k s t) (elapsed : Nat) :
    Alike k (s.workDone elapsed) (t.workDone elapsed) := by
  have hsteps := h.makeSteps elapsed
  rw [Session.workDone, Session.workDone, countDown, countDown, h.clock_eq]
  exact Alike.listen ⟨congrArg (Machine.ticks _) hsteps.machine_eq, hsteps.display_eq,
    hsteps.clock_eq, hsteps.count_eq⟩

theorem Alike.finishFrame (h : Alike k s t) (halted : Bool) :
    AlikeEnds k (s.finishFrame halted) (t.finishFrame halted) := by
  cases halted with
  | true => exact ⟨⟨h.machine_eq, h.display_eq, h.clock_eq, h.count_eq⟩, rfl⟩
  | false =>
      refine ⟨⟨h.machine_eq, h.display_eq, h.clock_eq, ?_⟩, rfl⟩
      rw [finishFrame_count, finishFrame_count, h.count_eq, Nat.add_right_comm]

theorem AlikeEnds.close {r : Session ι δ × Option Exit} {r' : Session ι' δ × Option Exit}
    (h : AlikeEnds k r r') (halted : Bool) :
    AlikeEnds k (Session.close r halted) (Session.close r' halted) := by
  cases hend : r.2 with
  | none =>
      have hend' : r'.2 = none := by rw [h.exit_eq, hend, Option.map_none]
      rw [close_of_none hend, close_of_none hend']
      exact h.alike.finishFrame halted
  | some e =>
      have hend' : r'.2 = some (e.later k) := by rw [h.exit_eq, hend, Option.map_some]
      rw [close_of_some hend, close_of_some hend']
      exact ⟨h.alike, rfl⟩

variable [Display δ]

theorem Alike.refresh (h : Alike k s t) : AlikeEnds k s.refresh t.refresh := by
  rcases htake : s.machine.takeFrame with ⟨m, _ | f⟩
  · simp only [Session.refresh, h.machine_eq, htake]
    exact ⟨⟨rfl, h.display_eq, h.clock_eq, h.count_eq⟩, rfl⟩
  · simp only [Session.refresh, h.machine_eq, htake, h.display_eq]
    rcases Display.render s.display f with ⟨display, _ | error⟩
    · exact ⟨⟨rfl, rfl, h.clock_eq, h.count_eq⟩, rfl⟩
    · exact ⟨⟨rfl, rfl, h.clock_eq, h.count_eq⟩, rfl⟩

/-- The part of a frame after its events. -/
theorem Alike.work (h : Alike k s t) (elapsed : Nat) :
    AlikeEnds k (s.work elapsed) (t.work elapsed) := by
  rw [work_eq, work_eq, h.burst_eq]
  cases (s.burst elapsed).2 with
  | stopped f =>
      refine ⟨h.makeSteps elapsed, ?_⟩
      rw [h.count_eq]
      rfl
  | halted => exact (h.workDone elapsed).refresh.close true
  | spent => exact (h.workDone elapsed).refresh.close false

variable [Input ι] [Input ι']

/-- **One frame** of sessions that are alike and hear the same. -/
theorem Alike.frame (h : Alike k s t)
    (hheard : (Input.poll t.input).1 = (Input.poll s.input).1) (elapsed : Nat) :
    AlikeEnds k (s.frame elapsed) (t.frame elapsed) := by
  rcases hs : Input.poll s.input with ⟨heard, input⟩
  rcases ht : Input.poll t.input with ⟨heard', input'⟩
  rw [hs, ht] at hheard
  cases hheard
  cases heard with
  | error reason =>
      rw [frame_of_error hs, frame_of_error ht]
      exact ⟨⟨h.machine_eq, h.display_eq, h.clock_eq, h.count_eq⟩, rfl⟩
  | ok events =>
      by_cases hquit : Event.quit ∈ events
      · rw [frame_of_quit hs hquit, frame_of_quit ht hquit]
        exact ⟨h.hear events input input', rfl⟩
      · rw [frame_of_no_quit hs hquit, frame_of_no_quit ht hquit]
        exact (h.hear events input input').work elapsed

/-! ### Whole runs -/

/-- **Runs that hear the same**, by induction on the frames that they may still go through: if the
sessions are alike, their frames take the same time and their inputs give the same on the polls that
these frames can make, the runs end in the same way after as many polls. -/
theorem Alike.frames (h : Alike k s t) (n : Nat) (pacing pacing' : Pacing)
    (hpace : ∀ count, s.count ≤ count → pacing' (count + k) = pacing count)
    (hheard : ∀ j < n, (Input.poll (Input.polled j t.input)).1 =
      (Input.poll (Input.polled j s.input)).1) :
    Alike k (s.frames pacing n).1 (t.frames pacing' n).1 ∧
      (t.frames pacing' n).2 = (s.frames pacing n).2.later k ∧
      ∃ j, (s.frames pacing n).1.input = Input.polled j s.input ∧
        (t.frames pacing' n).1.input = Input.polled j t.input := by
  induction n generalizing s t with
  | zero => exact ⟨h, rfl, 0, rfl, rfl⟩
  | succ n ih =>
      have hends := h.frame (hheard 0 n.succ_pos) (pacing s.count)
      have hs := frame_input s (pacing s.count)
      have ht := frame_input t (pacing s.count)
      rw [frames_succ, frames_succ, h.count_eq, hpace s.count (Nat.le_refl _), hends.exit_eq]
      rcases hframe : s.frame (pacing s.count) with ⟨u, _ | e⟩
      · rw [hframe] at hends hs
        have hlater : s.count ≤ u.count := by
          rw [frame_count hframe]
          exact Nat.le_succ _
        obtain ⟨halike, hexit, j, hj, hj'⟩ := ih hends.alike
          (fun count hle => hpace count (Nat.le_trans hlater hle)) fun j hj => by
            rw [hs, ht, ← Input.polled_succ, ← Input.polled_succ]
            exact hheard (j + 1) (Nat.succ_lt_succ hj)
        rw [hs, ← Input.polled_succ] at hj
        rw [ht, ← Input.polled_succ] at hj'
        exact ⟨halike, hexit, j + 1, hj, hj'⟩
      · rw [hframe] at hends hs
        exact ⟨hends.alike, rfl, 1, hs, ht⟩

/-- **Runs without a limit** that hear the same: if one of them ends, the other does, and in the same
way. -/
theorem Alike.finish? (h : Alike k s t) (n : Nat) (pacing pacing' : Pacing)
    (hpace : ∀ count, s.count ≤ count → pacing' (count + k) = pacing count)
    (hheard : ∀ j < n, (Input.poll (Input.polled j t.input)).1 =
      (Input.poll (Input.polled j s.input)).1) :
    match s.finish? pacing n with
    | none => t.finish? pacing' n = none
    | some (u, e) => ∃ v, t.finish? pacing' n = some (v, e.later k) ∧ Alike k u v := by
  obtain ⟨halike, hexit, -⟩ := h.frames n pacing pacing' hpace hheard
  by_cases hend : (s.frames pacing n).2 = .frameLimit
  · have hend' : (t.frames pacing' n).2 = .frameLimit := by rw [hexit, hend]; rfl
    rw [finish?_of_limit hend]
    exact finish?_of_limit hend'
  · have hend' : (t.frames pacing' n).2 ≠ .frameLimit := by
      rw [hexit, ne_eq, Exit.later_eq_frameLimit_iff]
      exact hend
    rw [finish?_of_ended hend]
    refine ⟨(t.frames pacing' n).1, ?_, halike⟩
    rw [finish?_of_ended hend', ← hexit]

end Session

end ChipEight
