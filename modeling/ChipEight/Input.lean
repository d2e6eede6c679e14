/-!
# Inputs

What the user does reaches a run as events, which the run collects once a frame from an input.

* `Script` — an input that replays events that were planned before.
* `Faulty` — an input with a fault in its line.
-/

namespace ChipEight

/-! ### Events -/

/-- Something that the user did. -/
inductive Event where
  | quit
  | key (key : UInt8) (down : Bool)
deriving DecidableEq, Repr

/-- A source of events. -/
class Input (ι : Type) where
  /-- The events since the last time it was asked, or why there are none, and the source after
  that. -/
  poll : ι → Except String (List Event) × ι

/-! ### Scripts

Each event of a script is planned for a poll, counted from zero; the events of one poll come in the order in
which they were given.
-/

/-- Planned events, and the number of polls that were made. -/
structure Script where
  /-- The events that have not come yet, earlier polls first. -/
  pending : List (Nat × Event) := []
  /-- The number of polls that were made. -/
  polls : Nat := 0
deriving DecidableEq, Repr

namespace Script

/-- A script of events, each with the number of its poll, in any order. -/
def ofList (events : List (Nat × Event)) : Script where
  pending := events.mergeSort fun a b => a.1 ≤ b.1

/-- The events of the next poll. -/
def poll (s : Script) : List Event × Script :=
  ((s.pending.takeWhile fun e => e.1 ≤ s.polls).map Prod.snd,
    { pending := s.pending.dropWhile fun e => e.1 ≤ s.polls, polls := s.polls + 1 })

/-- Whether every event has come. -/
def isFinished (s : Script) : Bool := s.pending.isEmpty

instance : Input Script where
  poll s := (.ok s.poll.1, s.poll.2)

end Script

/-! ### Inputs that fail

The poll of a given number fails and does not reach the source behind the line.
-/

/-- A source of events behind a line that fails once. -/
structure Faulty (ι : Type) where
  source : ι
  /-- The number of the poll that fails, counted from zero. -/
  failsAt : Option Nat := none
  reason : String := ""
  polls : Nat := 0

namespace Faulty

variable {ι : Type} [Input ι]

/-- The next poll. -/
def poll (f : Faulty ι) : Except String (List Event) × Faulty ι :=
  if f.failsAt = some f.polls then
    (.error f.reason, { f with polls := f.polls + 1 })
  else
    match Input.poll f.source with
    | (events, source) => (events, { f with source := source, polls := f.polls + 1 })

instance : Input (Faulty ι) where
  poll := poll

end Faulty

end ChipEight
