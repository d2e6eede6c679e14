import Mathlib.Algebra.Order.Group.Nat
import ChipEight.Proofs.Session.Alike
import ChipEight.Proofs.Session.Limit

/-!
# Runs in two parts

A run may be stopped by its limit and another be begun with what it has left. The second run has a
clock of its own, so that what the first still owed to the processor is lost. If it owed nothing, the
two are the run that goes through the frames of both; else they may make one step less:

* `Session.granted`, with `OnTime.granted_eq` — the steps that the clock grants to a run;
* `Session.alike_of_passes` — a part that leaves nothing owed to the processor;
* `split_run` — the two parts and the whole.
-/

namespace ChipEight

variable {ι δ : Type}

namespace Session

variable [Input ι]

/-- The steps that the clock grants to a frame; none are, if the run ends before its steps. -/
def frameGranted (s : Session ι δ) (elapsed : Nat) : Nat :=
  match Input.poll s.input with
  | (.error _, _) => 0
  | (.ok events, _) => if .quit ∈ events then 0 else (s.clock.advance elapsed).2.steps

variable [Display δ]

/-- The steps that the clock grants to a run of up to `n` frames, whether the program makes them or
waits for a key. -/
def granted (pacing : Pacing) : Nat → Session ι δ → Nat
  | 0, _ => 0
  | n + 1, s =>
    s.frameGranted (pacing s.count) +
      match s.frame (pacing s.count) with
      | (_, some _) => 0
      | (s, none) => granted pacing n s

variable {s u : Session ι δ} {elapsed speed n : Nat}

/-- A frame that does not end the run is granted the steps that the clock owes. -/
theorem frameGranted_of_none (h : s.frame elapsed = (u, none)) :
    s.frameGranted elapsed = (s.clock.advance elapsed).2.steps := by
  have hframed := s.framed elapsed
  rw [h] at hframed
  cases hframed with
  | done hpoll hquit hburst hshow => simp only [frameGranted, hpoll, if_neg hquit]

/-- **What is granted to a simulated run** are the periods that end within its frames, by induction on
the frames. -/
theorem OnTime.granted_eq (h : s.OnTime speed) (hpasses : s.Passes .simulated n u) :
    s.granted .simulated n + s.count * 16666666 / (1000000000 / max 1 (min speed 1000000)) =
      (s.count + n) * 16666666 / (1000000000 / max 1 (min speed 1000000)) := by
  induction n generalizing s with
  | zero => rw [granted, Nat.zero_add, Nat.add_zero]
  | succ n ih =>
      obtain ⟨v, hframe, hrest⟩ := passes_succ_iff.mp hpasses
      have hframe' : s.frame timerPeriod = (v, none) := hframe
      have hfirst : s.frameGranted (Pacing.simulated s.count) = stepsDue speed s.count := by
        rw [frameGranted_of_none hframe]
        exact congrArg (fun r => r.2.steps) h.advance
      have hlater := ih (h.frame hframe') hrest
      have hdue := stepsDue_add speed s.count
      rw [frame_count hframe, Nat.add_right_comm, Nat.add_assoc] at hlater
      rw [granted, hframe, hfirst]
      dsimp only
      omega

/-- What a simulated run is granted that begins with a new clock. -/
theorem granted_start {m : Machine} {input : ι} {display : δ} {journal : Journal}
    (h : (start speed m input display journal).Passes .simulated n u) :
    (start speed m input display journal).granted .simulated n =
      n * 16666666 / (1000000000 / max 1 (min speed 1000000)) := by
  have hgranted := (onTime_start speed m input display journal).granted_eq h
  have hcount : (start speed m input display journal).count = 0 := rfl
  rw [hcount, Nat.zero_mul, Nat.zero_div, Nat.zero_add] at hgranted
  exact hgranted

/-- Where the clock owes nothing, the rest of a run is alike to a run of its own. -/
theorem alike_of_passes {m : Machine} {input : ι} {display : δ} {journal : Journal}
    (journal' : Journal) (h : (start speed m input display journal).Passes .simulated n u)
    (hdvd : Clock.periodOf speed ∣ n * timerPeriod) :
    Alike n (start speed u.machine u.input u.display journal') u := by
  have hcount : u.count = 0 + n := h.count_eq
  have hclock : u.clock = Clock.after speed (u.count * timerPeriod) :=
    (onTime_start speed m input display journal).passes h
  refine ⟨rfl, rfl, ?_, hcount⟩
  rw [hclock, hcount, Nat.zero_add]
  exact Clock.after_eq_ofSpeed hdvd (Nat.dvd_mul_left timerPeriod n)

end Session

variable [Input ι] [Display δ]

/-- **A run in two parts.** Let a simulated run go through `a` frames, and let another with up to `b`
frames begin with what it has left. If the period of a step divides the time of the `a` frames, the
two end as one run with up to `a + b` frames does, which numbers the frames of the second part from
`a` on: with the same machine, input and display, so that they have made the same polls and shown the
same frames. Whatever `a` is, if the parts go through their frames, they are granted the steps of `a`
frames and of `b` frames, and the timers are counted down `a + b` times; a whole run that goes through
its frames counts them down as often, and is granted as many steps or one more. -/
theorem split_run (speed : Nat) (m : Machine) (input : ι) (display : δ) (journal journal' : Journal)
    (a b : Nat) {u : Session ι δ}
    (hfirst : (Session.start speed m input display journal).frames .simulated a =
      (u, .frameLimit)) :
    let whole := Session.start speed m input display journal
    let second := Session.start speed u.machine u.input u.display journal'
    let p := 1000000000 / max 1 (min speed 1000000)
    (p ∣ a * 16666666 →
      (whole.frames .simulated (a + b)).2 = (second.frames .simulated b).2.later a ∧
      (whole.frames .simulated (a + b)).1.machine = (second.frames .simulated b).1.machine ∧
      (whole.frames .simulated (a + b)).1.input = (second.frames .simulated b).1.input ∧
      (whole.frames .simulated (a + b)).1.display = (second.frames .simulated b).1.display) ∧
    ((second.frames .simulated b).2 = .frameLimit →
      whole.granted .simulated a + second.granted .simulated b =
        a * 16666666 / p + b * 16666666 / p ∧
      (whole.operations .simulated a).count .tick +
        (second.operations .simulated b).count .tick = a + b) ∧
    ((whole.frames .simulated (a + b)).2 = .frameLimit →
      whole.granted .simulated (a + b) = (a + b) * 16666666 / p ∧
      (whole.operations .simulated (a + b)).count .tick = a + b) ∧
    ((a + b) * 16666666 / p = a * 16666666 / p + b * 16666666 / p ∨
      (a + b) * 16666666 / p = a * 16666666 / p + b * 16666666 / p + 1) := by
  intro whole second p
  have hstart : whole.OnTime speed := Session.onTime_start speed m input display journal
  have hagain : second.OnTime speed := Session.onTime_start speed _ _ _ journal'
  refine ⟨?same, ?parts, ?whole, ?steps⟩
  case same =>
    intro hdvd
    have halike : Session.Alike a second u := Session.alike_of_passes journal' hfirst hdvd
    obtain ⟨hleft, hexit, j, hj, hj'⟩ :=
      halike.frames b .simulated .simulated (fun _ _ => rfl) fun _ _ => rfl
    rw [Session.frames_of_passes hfirst]
    exact ⟨hexit, hleft.machine_eq, hj'.trans hj.symm, hleft.display_eq⟩
  case parts =>
    intro hsecond
    have hpasses : second.Passes .simulated b (second.frames .simulated b).1 :=
      Prod.ext rfl hsecond
    rw [hstart.count_tick hfirst, hagain.count_tick hpasses]
    refine ⟨?_, rfl⟩
    show (Session.start speed m input display journal).granted .simulated a +
      (Session.start speed u.machine u.input u.display journal').granted .simulated b = _
    rw [Session.granted_start hfirst, Session.granted_start hpasses]
  case whole =>
    intro hwhole
    have hpasses : whole.Passes .simulated (a + b) (whole.frames .simulated (a + b)).1 :=
      Prod.ext rfl hwhole
    exact ⟨Session.granted_start hpasses, hstart.count_tick hpasses⟩
  case steps =>
    have hpos : 0 < p := Clock.periodOf_pos speed
    rw [Nat.add_mul, Nat.add_div hpos]
    split
    · exact .inr rfl
    · exact .inl (Nat.add_zero _)

/-- A run at so many steps a second, in which a key is pressed in the second frame. -/
def flickeredAt (speed frames : Nat) : Session Script (Recorder Discard) × Exit :=
  recordedRun .simulated speed flickering (Script.ofList [(1, .key 5 true)]) {} Discard.mk frames

/-- Another run with what it has left after its first frame. -/
def flickeredAgain (speed frames : Nat) : Session Script (Recorder Discard) × Exit :=
  (Session.start speed (flickeredAt speed 1).1.machine (flickeredAt speed 1).1.input
    (flickeredAt speed 1).1.display {}).frames .simulated frames

theorem flickeredAt_limits : (flickeredAt 60 1).2 = .frameLimit ∧ (flickeredAt 100 1).2 = .frameLimit ∧
    (flickeredAt 100 2).2 = .frameLimit ∧ (flickeredAgain 100 1).2 = .frameLimit := by
  decide +kernel

/-- With one step a frame the parts are the whole. With a hundred steps a second the clock owes a
part of a step when the first frame has passed, and two runs of a frame are granted one step less than
one run of two frames. -/
theorem flickering_in_parts :
    ((flickeredAt 60 3).1.machine = (flickeredAgain 60 2).1.machine ∧
      (flickeredAt 60 3).1.input.polls = (flickeredAgain 60 2).1.input.polls ∧
      (flickeredAt 60 3).1.display.frames = (flickeredAgain 60 2).1.display.frames) ∧
    (Session.start 100 flickering (Script.ofList [(1, .key 5 true)])
        ({ display := Discard.mk } : Recorder Discard) {}).granted .simulated 1 +
      (Session.start 100 (flickeredAt 100 1).1.machine (flickeredAt 100 1).1.input
        (flickeredAt 100 1).1.display {}).granted .simulated 1 = 2 ∧
    (Session.start 100 flickering (Script.ofList [(1, .key 5 true)])
        ({ display := Discard.mk } : Recorder Discard) {}).granted .simulated 2 = 3 := by
  obtain ⟨hslow, hfirst, hwhole, hsecond⟩ := flickeredAt_limits
  obtain ⟨hsame, -⟩ := split_run 60 flickering (Script.ofList [(1, .key 5 true)])
    ({ display := Discard.mk } : Recorder Discard) {} {} 1 2 (Prod.ext rfl hslow)
  obtain ⟨-, hparts, hall, -⟩ := split_run 100 flickering (Script.ofList [(1, .key 5 true)])
    ({ display := Discard.mk } : Recorder Discard) {} {} 1 1 (Prod.ext rfl hfirst)
  obtain ⟨-, hmachine, hinput, hdisplay⟩ := hsame (by decide)
  exact ⟨⟨hmachine, congrArg Script.polls hinput, congrArg Recorder.frames hdisplay⟩,
    (hparts hsecond).1, (hall hwhole).1⟩

end ChipEight
