import ChipEight.Proofs.Session.Failing
import ChipEight.Proofs.Session.InStep
import ChipEight.Proofs.Session.Operations

/-!
# Runs with a limit

A run is a loop that looks at its limit, goes through a frame and begins again. Nothing but the limit
is sure to end it: the program may wait for a key for ever or go around in a circle, and the user may
never wish to stop. With a limit it ends, and what it has asked of its input, its display and its machine
by then is bounded by the number of frames:

* `Session.turn`, `Session.loop?` — one round of the loop, and the loop as far as a number of rounds;
* `loop?_eq_frames` — with a limit the loop ends, and it is `Session.frames`;
* `counting`, with `frames_counting` — an input whose polls are counted, each frame making one at most;
* `size_frames_le` — a frame gives one picture to the display at most;
* `OnTime.count_step_le` — the steps of a simulated run fit into the time of its frames.
-/

namespace ChipEight

variable {ι δ : Type}

namespace Session

/-! ### The loop -/

section

variable [Input ι] [Display δ] {pacing : Pacing} {s : Session ι δ} {n k : Nat}

/-- One round of the loop: the run ends if its limit is reached, and goes through a frame if not. -/
def turn (pacing : Pacing) (limit : Option Nat) (s : Session ι δ) : Session ι δ × Option Exit :=
  if limit.any (· ≤ s.count) then (s, some .frameLimit) else s.frame (pacing s.count)

/-- The loop, if it ends within so many rounds. -/
def loop? (pacing : Pacing) (limit : Option Nat) : Nat → Session ι δ → Option (Session ι δ × Exit)
  | 0, _ => none
  | k + 1, s =>
    match s.turn pacing limit with
    | (s, some exit) => some (s, exit)
    | (s, none) => loop? pacing limit k s

theorem turn_of_le (h : n ≤ s.count) : s.turn pacing (some n) = (s, some .frameLimit) :=
  if_pos (decide_eq_true h)

theorem turn_of_lt (h : s.count < n) : s.turn pacing (some n) = s.frame (pacing s.count) :=
  if_neg fun hle => Nat.not_le_of_lt h (of_decide_eq_true hle)

/-- **A loop with a limit ends** when it has gone through the frames that are left, or before. -/
theorem loop?_eq_frames (pacing : Pacing) (s : Session ι δ) (h : n < k) :
    s.loop? pacing (some (s.count + n)) k = some (s.frames pacing n) := by
  obtain ⟨k, rfl⟩ := Nat.exists_eq_succ_of_ne_zero (Nat.ne_zero_of_lt h)
  induction n generalizing s k with
  | zero =>
      rw [loop?, Nat.add_zero, turn_of_le (Nat.le_refl _)]
      rfl
  | succ n ih =>
      rw [loop?, turn_of_lt (by omega), frames_succ]
      rcases hframe : s.frame (pacing s.count) with ⟨u, _ | e⟩
      · obtain ⟨k, rfl⟩ := Nat.exists_eq_succ_of_ne_zero (show k ≠ 0 by omega)
        have hrest := ih u k (by omega)
        rw [frame_count hframe, Nat.add_right_comm] at hrest
        exact hrest
      · rfl

/-- The loop from its beginning. -/
theorem loop?_of_count_eq_zero (pacing : Pacing) (hcount : s.count = 0) (h : n < k) :
    s.loop? pacing (some n) k = some (s.frames pacing n) := by
  have hloop := loop?_eq_frames pacing s h
  rwa [hcount, Nat.zero_add] at hloop

end

/-! ### Polls and pictures -/

section

variable [Input ι] [Display δ]

/-- A source whose polls are counted. -/
def counting (source : ι) (polls : Nat) : Faulty ι where
  source := source
  polls := polls

omit [Display δ] in
theorem poll_counting (source : ι) (k : Nat) : Input.poll (counting source k) =
    ((Input.poll source).1, counting (Input.poll source).2 (k + 1)) := rfl

/-- **Counting the polls** changes nothing, and there are no more than frames. -/
theorem frames_counting (pacing : Pacing) (n : Nat) (s : Session ι δ) (k : Nat) :
    ∃ j ≤ n, (s.withInput (counting s.input k)).frames pacing n =
      ((s.frames pacing n).1.withInput (counting (s.frames pacing n).1.input (k + j)),
        (s.frames pacing n).2) := by
  induction n generalizing s k with
  | zero => exact ⟨0, Nat.le_refl 0, rfl⟩
  | succ n ih =>
      have hinput := frame_input s (pacing s.count)
      have hsame : (Input.poll (counting s.input k)).1 = (Input.poll s.input).1 := rfl
      have hframe := frame_withInput hsame (pacing s.count)
      have hcount : (s.withInput (counting s.input k)).count = s.count := rfl
      rw [poll_counting, ← hinput] at hframe
      rw [frames_succ, frames_succ, hcount, hframe]
      cases (s.frame (pacing s.count)).2 with
      | some e => exact ⟨1, Nat.le_add_left 1 n, rfl⟩
      | none =>
          obtain ⟨j, hj, hrest⟩ := ih (s.frame (pacing s.count)).1 (k + 1)
          refine ⟨j + 1, Nat.succ_le_succ hj, ?_⟩
          rw [Nat.add_right_comm] at hrest
          exact hrest

/-- A frame gives one picture to the display at most. -/
theorem size_frame_le (s : Session ι (Recorder δ)) (elapsed : Nat) :
    (s.frame elapsed).1.display.frames.size ≤ s.display.frames.size + 1 := by
  have hended := s.ended elapsed
  generalize (s.frame elapsed).1 = t at hended ⊢
  generalize (s.frame elapsed).2 = e at hended
  cases hended with
  | silent hs he hquit =>
      rw [hs.frames_eq]
      exact Nat.le_succ _
  | shown hs =>
      rw [hs.frames_eq]
      split
      · exact Nat.le_of_eq (Array.size_push _)
      · exact Nat.le_succ _

/-- **A run gives no more pictures** to the display than it has frames. -/
theorem size_frames_le (pacing : Pacing) (n : Nat) (s : Session ι (Recorder δ)) :
    (s.frames pacing n).1.display.frames.size ≤ s.display.frames.size + n := by
  induction n generalizing s with
  | zero => exact Nat.le_refl _
  | succ n ih =>
      have hfirst := size_frame_le s (pacing s.count)
      have hrest := ih (s.frame (pacing s.count)).1
      rw [frames_succ]
      cases (s.frame (pacing s.count)).2 with
      | some e =>
          show (s.frame (pacing s.count)).1.display.frames.size ≤ _
          omega
      | none =>
          show ((s.frame (pacing s.count)).1.frames pacing n).1.display.frames.size ≤ _
          omega

end

/-! ### Steps -/

/-- A frame makes no more steps than the clock says. -/
theorem count_step_workOperations_le (s : Session ι δ) (elapsed : Nat) :
    (s.workOperations elapsed).count .step ≤ (s.clock.advance elapsed).2.steps := by
  have hrest : ∀ n, (List.replicate n Operation.tick ++ [Operation.takeFrame]).count .step = 0 := by
    intro n
    rw [List.count_append, List.count_replicate]
    rfl
  have hle := Machine.burstLength_le (s.clock.advance elapsed).2.steps s.machine
  rw [workOperations, List.count_append, List.count_replicate_self]
  split
  · exact hle
  · rw [hrest]
    exact hle

variable [Input ι]

theorem count_step_frameOperations_le (s : Session ι δ) (elapsed : Nat) :
    (s.frameOperations elapsed).count .step ≤ (s.clock.advance elapsed).2.steps := by
  unfold frameOperations
  split
  · exact Nat.zero_le _
  · rename_i events input hpoll
    rw [List.count_append, Event.count_step_operations, Nat.zero_add]
    split
    · exact Nat.zero_le _
    · exact count_step_workOperations_le (s.hear events input) elapsed

variable [Display δ] {speed : Nat} {s : Session ι δ}

/-- The steps due in a frame are those due up to its end without those due before. -/
theorem stepsDue_add (speed k : Nat) :
    stepsDue speed k + k * 16666666 / (1000000000 / max 1 (min speed 1000000)) =
      (k + 1) * 16666666 / (1000000000 / max 1 (min speed 1000000)) :=
  Nat.sub_add_cancel (Nat.div_le_div_right (Nat.mul_le_mul_right _ (Nat.le_succ k)))

/-- **The steps of a simulated run** fit into the time of its frames, by induction on the frames that it
may still go through. -/
theorem OnTime.count_step_le (h : s.OnTime speed) (n : Nat) :
    (s.operations .simulated n).count .step +
        s.count * 16666666 / (1000000000 / max 1 (min speed 1000000)) ≤
      (s.count + n) * 16666666 / (1000000000 / max 1 (min speed 1000000)) := by
  induction n generalizing s with
  | zero =>
      rw [operations, List.count_nil, Nat.zero_add]
      exact Nat.le_refl _
  | succ n ih =>
      have hfirst : (s.frameOperations timerPeriod).count .step ≤ stepsDue speed s.count := by
        have hle := count_step_frameOperations_le s timerPeriod
        rwa [h.advance] at hle
      have hdue := stepsDue_add speed s.count
      have hwhole : (s.count + 1) * 16666666 / (1000000000 / max 1 (min speed 1000000)) ≤
          (s.count + (n + 1)) * 16666666 / (1000000000 / max 1 (min speed 1000000)) :=
        Nat.div_le_div_right (Nat.mul_le_mul_right _ (by omega))
      have hpacing : Pacing.simulated s.count = timerPeriod := rfl
      rw [operations, List.count_append, hpacing]
      rcases hframe : s.frame timerPeriod with ⟨u, _ | e⟩
      · have hrest := ih (h.frame hframe)
        rw [frame_count hframe, Nat.add_assoc, Nat.add_comm 1 n] at hrest
        dsimp only
        omega
      · dsimp only
        rw [List.count_nil]
        omega

end Session

end ChipEight
