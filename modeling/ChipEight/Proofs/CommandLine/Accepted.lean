import ChipEight.CommandLine
import ChipEight.Proofs.Session.Limit

/-!
# Accepted settings

A command line that is accepted asks for a speed that the clock can keep as it is, and if it asks for a
run without a display it gives that run a limit. So such a run ends, and at the speed that was asked for.

* `Reading.SpeedInRange` — the speed read so far can be asked for, with `SpeedInRange.take`: whatever
  argument comes next, it stays so;
* `ofArguments_inRange` — accepted settings;
* `accepted_runs_end` — accepted settings, and runs with a limit.
-/

namespace ChipEight

theorem exists_of_bind_eq_ok {ε α β : Type} {x : Except ε α} {f : α → Except ε β} {b : β}
    (h : x.bind f = .ok b) : ∃ a, x = .ok a ∧ f a = .ok b := by
  cases x with
  | error e => cases h
  | ok a => exact ⟨a, rfl, h⟩

theorem exists_of_map_eq_ok {ε α β : Type} {x : Except ε α} {f : α → β} {b : β}
    (h : x.map f = .ok b) : ∃ a, x = .ok a ∧ f a = b := by
  cases x with
  | error e => cases h
  | ok a => exact ⟨a, rfl, Except.ok.inj h⟩

namespace Reading

variable {r r' : Reading}

/-! ### One argument -/

/-- The speed that was read, if there is one, can be asked for. -/
def SpeedInRange (r : Reading) : Prop := ∀ n, r.speed = some n → 1 ≤ n ∧ n ≤ maxSpeed

theorem bounds_of_number {low high n : Nat} {value : String} (h : number low high value = .ok n) :
    low ≤ n ∧ n ≤ high := by
  unfold number at h
  split at h
  · split at h
    · rename_i hbounds
      cases h
      exact hbounds
    · cases h
  · cases h

theorem exists_of_once {α : Type} {before after : Option α} {value : Except Refusal α}
    (h : once before value = .ok after) : ∃ a, value = .ok a ∧ after = some a := by
  cases before with
  | some a => cases h
  | none =>
      obtain ⟨a, hvalue, hafter⟩ := exists_of_map_eq_ok h
      exact ⟨a, hvalue, hafter.symm⟩

/-- A parameter is set only to a value that it can have. -/
theorem SpeedInRange.set (h : r.SpeedInRange) {p : Parameter} {value : String}
    (hset : r.set p value = .ok r') : r'.SpeedInRange := by
  cases p with
  | speed =>
      obtain ⟨speed, honce, hr⟩ := exists_of_bind_eq_ok
        (x := once r.speed (number 1 maxSpeed value)) hset
      obtain ⟨n, hnumber, rfl⟩ := exists_of_once honce
      cases hr
      intro k hk
      cases hk
      exact bounds_of_number hnumber
  | rom =>
      obtain ⟨_, -, hr⟩ := exists_of_bind_eq_ok
        (x := once r.rom (if value.isEmpty then .error .invalidValue else .ok value)) hset
      cases hr
      exact h
  | frontend =>
      obtain ⟨_, -, hr⟩ := exists_of_bind_eq_ok (x := once r.frontend _) hset
      cases hr
      exact h
  | frames =>
      obtain ⟨_, -, hr⟩ := exists_of_bind_eq_ok (x := once r.frames _) hset
      cases hr
      exact h
  | seed =>
      obtain ⟨_, -, hr⟩ := exists_of_bind_eq_ok (x := once r.seed _) hset
      cases hr
      exact h

theorem SpeedInRange.settle (h : r.SpeedInRange) (hsettle : r.settle = .ok r') :
    r'.SpeedInRange := by
  unfold Reading.settle at hsettle
  split at hsettle
  · cases hsettle
    exact h
  · cases hsettle
  · rename_i p value hpending
    have hwaiting : ({ r with pending := none } : Reading).SpeedInRange := h
    exact hwaiting.set hsettle

theorem SpeedInRange.takePath (h : r.SpeedInRange) {path : String}
    (htake : r.takePath path = .ok r') : r'.SpeedInRange := by
  unfold Reading.takePath at htake
  split at htake
  · cases htake
  · obtain ⟨u, hsettle, rfl⟩ := exists_of_map_eq_ok htake
    have hu := h.settle hsettle
    exact hu

/-- A request ends the reading, be it understood or not. -/
theorem takeRequest_ne_ok (r : Reading) (request : Option Refusal) :
    r.takeRequest request ≠ .ok r' := by
  intro htake
  cases request with
  | none => cases htake
  | some request =>
      obtain ⟨_, -, hend⟩ := exists_of_bind_eq_ok htake
      cases hend

theorem SpeedInRange.takeLong (h : r.SpeedInRange) {name : String} {value : Option String}
    (htake : r.takeLong name value = .ok r') : r'.SpeedInRange := by
  unfold Reading.takeLong at htake
  split at htake
  · obtain ⟨u, hsettle, hset⟩ := exists_of_bind_eq_ok htake
    exact (h.settle hsettle).set hset
  · obtain ⟨u, hsettle, rfl⟩ := exists_of_map_eq_ok htake
    have hu := h.settle hsettle
    exact hu
  · exact (takeRequest_ne_ok r _ htake).elim
  · cases htake

/-- **Whatever argument comes next**, the speed stays in range. -/
theorem SpeedInRange.take (h : r.SpeedInRange) {argument : String}
    (htake : r.take argument = .ok r') : r'.SpeedInRange := by
  unfold Reading.take at htake
  split at htake
  · exact h.takePath htake
  · split at htake
    · cases htake
      exact h
    · exact h.takeLong htake
    · exact (takeRequest_ne_ok r _ htake).elim
    · split at htake
      · cases htake
        exact h
      · exact h.takePath htake

/-! ### A command line -/

theorem SpeedInRange.takeAll {arguments : List String} (h : r.SpeedInRange)
    (htake : arguments.foldlM Reading.take r = .ok r') : r'.SpeedInRange := by
  induction arguments generalizing r with
  | nil =>
      cases htake
      exact h
  | cons argument arguments ih =>
      rw [List.foldlM_cons] at htake
      obtain ⟨u, hfirst, hrest⟩ := exists_of_bind_eq_ok htake
      exact ih (h.take hfirst) hrest

/-- Settings have a speed in range, and a limit if there is no display. -/
theorem SpeedInRange.settings (h : r.SpeedInRange) {settings : Settings}
    (hsettings : r.settings = .ok settings) : (1 ≤ settings.speed ∧ settings.speed ≤ maxSpeed) ∧
      (settings.frontend = .headless → ∃ n, settings.frames = some n) := by
  obtain ⟨u, hsettle, hrest⟩ := exists_of_bind_eq_ok hsettings
  have hspeed : 1 ≤ u.speed.getD defaultSpeed ∧ u.speed.getD defaultSpeed ≤ maxSpeed := by
    cases hu : u.speed with
    | none => decide
    | some n => exact h.settle hsettle n hu
  dsimp only at hrest
  split at hrest
  · cases hrest
  · split at hrest
    · cases hrest
    · rename_i hlimit
      cases hrest
      refine ⟨hspeed, fun hheadless => Option.ne_none_iff_exists'.mp fun hnone => ?_⟩
      refine hlimit ⟨?_, hnone⟩
      cases hu : u.frontend with
      | none =>
          simp only [hu, Option.getD_none] at hheadless
          cases hheadless
      | some frontend =>
          simp only [hu, Option.getD_some] at hheadless
          rw [hheadless]

end Reading

/-- **Accepted settings** have a speed in range, and a limit if there is no display. -/
theorem ofArguments_inRange {arguments : List String} {settings : Settings}
    (haccepted : Settings.ofArguments arguments = .ok settings) :
    (1 ≤ settings.speed ∧ settings.speed ≤ maxSpeed) ∧
      (settings.frontend = .headless → ∃ n, settings.frames = some n) := by
  obtain ⟨r, htake, hsettings⟩ := exists_of_bind_eq_ok haccepted
  have hstart : ({} : Reading).SpeedInRange := fun n hn => by cases hn
  exact (hstart.takeAll htake).settings hsettings

/-- A speed in range is kept as it is. -/
theorem Clock.periodOf_of_inRange {speed : Nat} (h : 1 ≤ speed ∧ speed ≤ maxSpeed) :
    Clock.periodOf speed = 1000000000 / speed := by
  rw [Clock.periodOf, Nat.min_eq_left h.2, Nat.max_eq_right h.1]

/-! ### Runs -/

section

variable {ι δ : Type} [Input ι] [Display δ]

/-- **Accepted settings let runs end at the speed that was asked for.** Whatever arguments are accepted,
the speed is at least one and at most a million, the clock takes it as it is, and without a display there
is a limit. Whatever the machine, the input, the display and the pacing are, the loop of a run with a
limit ends after so many rounds and one. By then it has polled its input and given pictures to its
display no more often than the limit says, and in a simulated run it has made no more steps than fit into
the time of that many frames. The polls and the pictures are counted by an input and a display that stand
in front of the others and change nothing. -/
theorem accepted_runs_end :
    (∀ (arguments : List String) (settings : Settings),
      Settings.ofArguments arguments = .ok settings →
      1 ≤ settings.speed ∧ settings.speed ≤ 1000000 ∧
      Clock.ofSpeed settings.speed = { stepPeriod := 1000000000 / settings.speed } ∧
      (settings.frontend = .headless → ∃ n, settings.frames = some n)) ∧
    ∀ (pacing : Pacing) (speed n : Nat) (m : Machine) (input : ι) (display : δ) (journal : Journal),
      ∃ (t : Session (Faulty ι) (Recorder δ)) (e : Exit),
        (∀ k, n < k →
          (Session.start speed m ({ source := input } : Faulty ι)
            ({ display := display } : Recorder δ) journal).loop? pacing (some n) k = some (t, e) ∧
          (Session.start speed m input display journal).loop? pacing (some n) k =
            some (t.mapEnds Faulty.source Recorder.display, e)) ∧
        t.input.polls ≤ n ∧ t.display.frames.size ≤ n ∧
        t.machine = m.run ((Session.start speed m input display journal).operations pacing n) ∧
        ((Session.start speed m input display journal).operations .simulated n).count .step ≤
          n * 16666666 / (1000000000 / max 1 (min speed 1000000)) := by
  refine ⟨?_, ?_⟩
  · intro arguments settings haccepted
    obtain ⟨hspeed, hlimit⟩ := ofArguments_inRange haccepted
    refine ⟨hspeed.1, hspeed.2, ?_, hlimit⟩
    rw [Clock.ofSpeed, Clock.periodOf_of_inRange hspeed]
  · intro pacing speed n m input display journal
    -- both loops are read off the run with the recorder: one with its polls counted, one without it
    let s := Session.start speed m input display journal
    let recorded := Session.start speed m input ({ display := display } : Recorder δ) journal
    obtain ⟨j, hj, hcounted⟩ := Session.frames_counting pacing n recorded 0
    have hplain := Session.frames_unrecorded pacing n recorded
    have hmachine := Session.machine_frames pacing n s
    have hsteps := (Session.onTime_start speed m input display journal).count_step_le n
    have hsize := Session.size_frames_le pacing n recorded
    refine ⟨(recorded.frames pacing n).1.withInput
      (Session.counting (recorded.frames pacing n).1.input (0 + j)), (recorded.frames pacing n).2,
      fun k hk => ⟨?_, ?_⟩, ?_, ?_, ?_, ?_⟩
    · have hloop := Session.loop?_of_count_eq_zero
        (s := recorded.withInput (Session.counting recorded.input 0)) pacing rfl hk
      rwa [hcounted] at hloop
    · have hloop := Session.loop?_of_count_eq_zero (s := recorded.unrecorded) pacing rfl hk
      rwa [hplain] at hloop
    · show 0 + j ≤ n
      omega
    · show (recorded.frames pacing n).1.display.frames.size ≤ n
      have hnone : recorded.display.frames.size = 0 := rfl
      omega
    · have hends : s.frames pacing n = _ := hplain
      rw [hends] at hmachine
      exact hmachine
    · have hcount : (Session.start speed m input display journal).count = 0 := rfl
      rw [hcount, Nat.zero_mul, Nat.zero_div, Nat.add_zero, Nat.zero_add] at hsteps
      exact hsteps

end

/-- A machine with a program that goes around in a circle and never draws. -/
def circling : Machine := (Machine.ofSeed 0).run [.load [0x12, 0x00]]

/-- Asked for three frames at a thousand steps a second, it makes no more than forty-nine steps. -/
theorem circling_ends :
    Clock.ofSpeed 1000 = { stepPeriod := 1000000 } ∧
    ∃ (t : Session (Faulty Script) (Recorder Discard)) (e : Exit),
      (Session.start 1000 circling ({ source := {} } : Faulty Script)
        ({ display := {} } : Recorder Discard) {}).loop? .simulated (some 3) 4 = some (t, e) ∧
      t.input.polls ≤ 3 ∧ t.display.frames.size ≤ 3 ∧
      ((Session.start 1000 circling ({} : Script) ({} : Discard) {}).operations
        .simulated 3).count .step ≤ 49 := by
  have haccepted : Settings.ofArguments
      ["--frames", "3", "game", "--frontend=headless", "--ips", "1000"] =
      .ok { rom := "game", speed := 1000, frontend := .headless, frames := some 3 } := by
    decide +kernel
  obtain ⟨hsettings, hruns⟩ := accepted_runs_end (ι := Script) (δ := Discard)
  obtain ⟨-, -, hclock, hlimit⟩ := hsettings _ _ haccepted
  obtain ⟨n, hn⟩ := hlimit rfl
  cases hn
  obtain ⟨t, e, hends, hpolls, hpictures, -, hsteps⟩ :=
    hruns .simulated 1000 3 circling {} {} {}
  exact ⟨hclock, t, e, (hends 4 (by decide)).1, hpolls, hpictures, hsteps⟩

end ChipEight
