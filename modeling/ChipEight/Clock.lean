import ChipEight.Layout

/-!
# The clock

Time comes in uneven pieces and leaves in whole periods. The clock owes time to two takers, the
processor, whose period depends on the speed asked for, and the timers, whose period is fixed. Time
is counted in whole nanoseconds, and what is left of a period stays owed.

* `Clock.ofSpeed`, `Clock.advance` — a new clock and one more piece of time.
* `Clock.after` — the clock of a speed when some time has passed, in whatever pieces.
* `Clock.advance_after` — one more piece of time in closed form.
-/

namespace ChipEight

/-- The most time that one piece counts for; a host that was stopped for longer does not catch up. -/
def maxElapsed : Nat := 250000000

/-- What is due after a piece of time. -/
structure Ticks where
  /-- The number of instructions to run. -/
  steps : Nat
  /-- The number of times to count the timers down. -/
  timerTicks : Nat
deriving DecidableEq, Repr

/-- The time owed to the processor and to the timers. -/
structure Clock where
  /-- The nanoseconds that one instruction takes. -/
  stepPeriod : Nat
  /-- The nanoseconds owed to the processor. -/
  stepDebt : Nat := 0
  /-- The nanoseconds owed to the timers. -/
  timerDebt : Nat := 0
deriving DecidableEq, Repr

namespace Clock

/-- The nanoseconds that one instruction takes at a speed, which counts as at least one and at most
`maxSpeed` instructions a second. -/
def periodOf (speed : Nat) : Nat := 1000000000 / max 1 (min speed maxSpeed)

/-- A clock that owes nothing. -/
def ofSpeed (speed : Nat) : Clock where
  stepPeriod := periodOf speed

/-- Adds a piece of time and pays out the whole periods. -/
def advance (c : Clock) (elapsed : Nat) : Clock × Ticks :=
  let piece := min elapsed maxElapsed
  let step := c.stepDebt + piece
  let timer := c.timerDebt + piece
  ({ c with stepDebt := step % c.stepPeriod, timerDebt := timer % timerPeriod },
    { steps := step / c.stepPeriod, timerTicks := timer / timerPeriod })

/-! ### The closed form

What a clock owes depends on the time alone that has passed, not on the pieces in which it came, and what it
pays out is how often a period ends in between.
-/

/-- The clock of a speed when `time` nanoseconds have passed. -/
def after (speed time : Nat) : Clock where
  stepPeriod := periodOf speed
  stepDebt := time % periodOf speed
  timerDebt := time % timerPeriod

/-- The periods that end within `elapsed` nanoseconds when `time` nanoseconds have passed. -/
def periodsWithin (period time elapsed : Nat) : Nat := (time + elapsed) / period - time / period

theorem periodOf_pos (speed : Nat) : 0 < periodOf speed := by
  have hspeed : max 1 (min speed maxSpeed) ≤ 1000000000 := by
    simp only [maxSpeed]
    omega
  exact Nat.div_pos hspeed (by omega)

theorem after_zero (speed : Nat) : after speed 0 = ofSpeed speed := by
  simp only [after, ofSpeed, Nat.zero_mod]

/-- A clock that owes nothing is as good as new. -/
theorem after_eq_ofSpeed {speed time : Nat} (hstep : periodOf speed ∣ time)
    (htimer : timerPeriod ∣ time) : after speed time = ofSpeed speed := by
  rw [after, ofSpeed, Nat.mod_eq_zero_of_dvd hstep, Nat.mod_eq_zero_of_dvd htimer]

/-- What is left of a period and a piece of time together are paid out in whole periods. -/
theorem mod_add_div (period time elapsed : Nat) (h : 0 < period) :
    (time % period + elapsed) / period = periodsWithin period time elapsed := by
  have hsplit : time + elapsed = time % period + elapsed + time / period * period := by
    have hdiv := Nat.mod_add_div' time period
    omega
  rw [periodsWithin, hsplit, Nat.add_mul_div_right _ _ h, Nat.add_sub_cancel]

/-- **One more piece of time.** -/
theorem advance_after (speed time elapsed : Nat) (h : elapsed ≤ maxElapsed) :
    (after speed time).advance elapsed = (after speed (time + elapsed),
      { steps := periodsWithin (periodOf speed) time elapsed
        timerTicks := periodsWithin timerPeriod time elapsed }) := by
  simp only [advance, after, Nat.min_eq_left h, Nat.mod_add_mod,
    mod_add_div _ _ _ (periodOf_pos speed), mod_add_div timerPeriod _ _ (by decide)]

/-- A new clock that is given no time pays out nothing. -/
theorem advance_zero (speed : Nat) :
    (ofSpeed speed).advance 0 = (ofSpeed speed, { steps := 0, timerTicks := 0 }) := by
  have hnone : ∀ period, periodsWithin period 0 0 = 0 := fun period => Nat.sub_self _
  rw [← after_zero, advance_after speed 0 0 (Nat.zero_le _), hnone, hnone]

end Clock

end ChipEight
