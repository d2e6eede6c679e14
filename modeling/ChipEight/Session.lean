import ChipEight.Input
import ChipEight.Display
import ChipEight.Clock
import ChipEight.Journal

/-!
# Runs

A run drives a machine frame by frame. In each frame it collects the events, makes the steps that
the clock owes, counts the timers down as often as the clock owes that, and shows the frame if it was
drawn on.

* `Exit` — how a run ends.
* `Session.frame` — one frame.
* `Session.frames` — up to so many frames.
* `Session.start` — the session at the start of a run.
* `Session.finish?` — a run without a limit, if it ends within so many frames.
-/

namespace ChipEight

/-! ### How a run ends -/

/-- How a run ended. -/
inductive Exit where
  | quit
  | halted
  | frameLimit
  | inputFailed (reason : String)
  /-- A fault stopped the program in the frame of that number. -/
  | faulted (frame : Nat) (fault : Fault)
  | displayFailed (error : DisplayError)
deriving DecidableEq, Repr

namespace Exit

/-- What went wrong, and after it what lies behind that; nothing if all is well. -/
def chain : Exit → List String
  | inputFailed reason => ["reading input", reason]
  | faulted frame fault => [s!"program stopped on frame {frame}", fault.message]
  | displayFailed error => "rendering frame" :: error.chain
  | _ => []

/-- What went wrong on one line. -/
def message (e : Exit) : String := ": ".intercalate e.chain

end Exit

/-! ### Frame by frame -/

/-- The nanoseconds that count as elapsed at the start of each frame of a run. -/
abbrev Pacing := Nat → Nat

/-- Every frame takes the period of the timers, however long it really takes. -/
def Pacing.simulated : Pacing := fun _ => timerPeriod

/-- A wall clock that is read for the first time in the first frame, under a host that starts its
frames a period of the timers apart. -/
def Pacing.steady : Pacing := fun frame => if frame = 0 then 0 else timerPeriod

/-- The records of a run, if they are kept. -/
structure Journal where
  enabled : Bool := false
  /-- The records kept so far, the last one first. -/
  records : List Record := []
deriving DecidableEq

/-- Keeps some more records. -/
def Journal.note (j : Journal) (records : Unit → List Record) : Journal :=
  if j.enabled then { j with records := (records ()).reverse ++ j.records } else j

/-- What a run carries from frame to frame. -/
structure Session (ι δ : Type) where
  machine : Machine
  input : ι
  display : δ
  clock : Clock
  /-- The number of frames that are done. -/
  count : Nat := 0
  /-- Whether the tone sounds, as far as the host has heard. -/
  sounding : Bool := false
  journal : Journal := {}

namespace Machine

/-- Presses and releases keys, and says whether the user wants to stop. What comes after that is not
looked at. -/
def feed : List Event → Machine → Machine × Bool
  | [], m => (m, false)
  | .quit :: _, m => (m, true)
  | .key k down :: es, m => feed es (m.keyEvent k down)

/-- What `Machine.feed` writes. -/
def feedRecords : List Event → Machine → List Record
  | [], _ => []
  | .quit :: _, _ => []
  | .key k down :: es, m => m.keyRecords k down ++ feedRecords es (m.keyEvent k down)

/-- Counts down the timers several times. -/
def ticks : Nat → Machine → Machine
  | 0, m => m
  | n + 1, m => ticks n m.tick

end Machine

namespace Session

variable {ι δ : Type}

/-- The session at the start of a run at a speed. -/
def start (speed : Nat) (machine : Machine) (input : ι) (display : δ) (journal : Journal) :
    Session ι δ :=
  { machine, input, display, clock := Clock.ofSpeed speed, journal }

/-- Listens whether the tone has begun or ended. -/
def listen (s : Session ι δ) : Session ι δ :=
  if s.machine.soundActive = s.sounding then s
  else
    { s with
      sounding := !s.sounding
      journal := s.journal.note fun _ => [.sound !s.sounding] }

/-- Shows the frame if it was drawn on, and says if that failed. -/
def refresh [Display δ] (s : Session ι δ) : Session ι δ × Option Exit :=
  match s.machine.takeFrame with
  | (machine, none) => ({ s with machine }, none)
  | (machine, some f) =>
    match Display.render s.display f with
    | (display, failure) => ({ s with machine, display }, failure.map .displayFailed)

/-- Ends a frame in which the program halted, or goes on to the next one. -/
def finishFrame (s : Session ι δ) (halted : Bool) : Session ι δ × Option Exit :=
  if halted then
    ({ s with journal := s.journal.note fun _ => [.halted (s.count + 1)] }, some .halted)
  else
    ({ s with count := s.count + 1 }, none)

/-- The part of a frame after its events: `elapsed` nanoseconds of work. A program that a fault stops
leaves the rest of the frame undone. -/
def work [Display δ] (s : Session ι δ) (elapsed : Nat) : Session ι δ × Option Exit :=
  match s.clock.advance elapsed with
  | (clock, ticks) =>
    let journal := s.journal.note fun _ => s.machine.burstRecords ticks.steps
    match s.machine.burst ticks.steps with
    | (machine, .stopped fault) =>
      ({ s with machine, clock, journal }, some (.faulted s.count fault))
    | (machine, burst) =>
      let machine := machine.ticks ticks.timerTicks
      match { s with machine, clock, journal }.listen.refresh with
      | (s, some exit) => (s, some exit)
      | (s, none) => s.finishFrame (burst = .halted)

/-- One frame, and how the run ended if it ended in it. -/
def frame [Input ι] [Display δ] (s : Session ι δ) (elapsed : Nat) : Session ι δ × Option Exit :=
  match Input.poll s.input with
  | (.error reason, input) => ({ s with input }, some (.inputFailed reason))
  | (.ok events, input) =>
    let journal := s.journal.note fun _ => s.machine.feedRecords events
    match s.machine.feed events with
    | (machine, true) => ({ s with machine, input, journal }, some .quit)
    | (machine, false) => { s with machine, input, journal }.work elapsed

/-- Up to `n` frames, and how the run ended. -/
def frames [Input ι] [Display δ] (pacing : Pacing) : Nat → Session ι δ → Session ι δ × Exit
  | 0, s => (s, .frameLimit)
  | n + 1, s =>
    match s.frame (pacing s.count) with
    | (s, some exit) => (s, exit)
    | (s, none) => frames pacing n s

/-- A run without a limit, if it ends within `n` frames. -/
def finish? [Input ι] [Display δ] (pacing : Pacing) (n : Nat) (s : Session ι δ) :
    Option (Session ι δ × Exit) :=
  match s.frames pacing n with
  | (_, .frameLimit) => none
  | ended => some ended

end Session

end ChipEight
