import Mathlib.Algebra.GroupWithZero.Nat
import ChipEight.Clock

/-!
# The clock loses no time

Time comes to a clock in pieces, each of which counts for `maxElapsed` at most. However it is cut,
all of it is either paid out in whole periods or still owed. The amounts that occur on the way are
small enough for words of fixed width, so that a clock that counts in such words does the same.

* `Guarded.advance` — the clock once more, with lengths of time and counts of fixed width;
* `Clock.paid` — what one taker is paid for each piece, with `sum_paid` and `le_of_mem_paid`;
* `Clock.advanceAll_after`, `Clock.advanceAll_ofSpeed` — many pieces;
* `Guarded.advanceAll_eq` — no width is exceeded;
* `time_conserved` — all of it for a clock that starts at zero.
-/

namespace ChipEight

/-! ### Counting in words -/

namespace Guarded

/-- The nanoseconds that a length of time stays below: its seconds are a word of sixty-four bits. -/
def timeLimit : Nat := UInt64.size * 1000000000

def addTime (a b : Nat) : Option Nat := if a + b < timeLimit then some (a + b) else none

def subTime (a b : Nat) : Option Nat := if b ≤ a then some (a - b) else none

def mulTime (a k : Nat) : Option Nat := if a * k < timeLimit then some (a * k) else none

/-- How many times a period goes into a length of time. The count is a word of thirty-two bits. -/
def periodsIn (time period : Nat) : Option Nat :=
  if period ≠ 0 ∧ time / period < UInt32.size then some (time / period) else none

/-- Takes as many whole periods off a debt as it holds; what is left, and how many they were. -/
def drain (debt period : Nat) : Option (Nat × Nat) := do
  let whole ← periodsIn debt period
  let left ← subTime debt (← mulTime period whole)
  return (left, whole)

/-- Adds a piece of time to both debts and drains them. -/
def advance (c : Clock) (elapsed : Nat) : Option (Clock × Ticks) := do
  let piece := min elapsed maxElapsed
  let step ← addTime c.stepDebt piece
  let timer ← addTime c.timerDebt piece
  let (step, steps) ← drain step c.stepPeriod
  let (timer, timerTicks) ← drain timer timerPeriod
  return ({ c with stepDebt := step, timerDebt := timer },
    { steps := steps, timerTicks := timerTicks })

/-- The clock after some pieces of time, and what it paid out for each. -/
def advanceAll : Clock → List Nat → Option (Clock × List Ticks)
  | c, [] => some (c, [])
  | c, e :: es => do
    let (c, ticks) ← advance c e
    let (c, rest) ← advanceAll c es
    return (c, ticks :: rest)

end Guarded

namespace Clock

/-- The clock after some pieces of time, and what it paid out for each. -/
def advanceAll : Clock → List Nat → Clock × List Ticks
  | c, [] => (c, [])
  | c, e :: es =>
    let (c, ticks) := c.advance e
    let (c, rest) := c.advanceAll es
    (c, ticks :: rest)

/-- The time that some pieces count for. -/
def credit (pieces : List Nat) : Nat := (pieces.map fun e => min e maxElapsed).sum

/-- The periods that end within each of some pieces, when `time` nanoseconds have passed. -/
def paid (period : Nat) : Nat → List Nat → List Nat
  | _, [] => []
  | time, e :: es =>
    periodsWithin period time (min e maxElapsed) :: paid period (time + min e maxElapsed) es

variable {period : Nat}

theorem credit_cons (e : Nat) (es : List Nat) :
    credit (e :: es) = min e maxElapsed + credit es := by
  rw [credit, List.map_cons, List.sum_cons]
  rfl

/-! ### What a taker is paid -/

/-- What is paid for two pieces is paid for both together. -/
theorem periodsWithin_add (period time a b : Nat) :
    periodsWithin period time a + periodsWithin period (time + a) b =
      periodsWithin period time (a + b) := by
  have hfirst : time / period ≤ (time + a) / period := Nat.div_le_div_right (Nat.le_add_right _ _)
  have hsecond : (time + a) / period ≤ (time + a + b) / period :=
    Nat.div_le_div_right (Nat.le_add_right _ _)
  rw [periodsWithin, periodsWithin, periodsWithin, ← Nat.add_assoc]
  omega

/-- **All that is paid** depends on the time alone. -/
theorem sum_paid (period time : Nat) (pieces : List Nat) :
    (paid period time pieces).sum = periodsWithin period time (credit pieces) := by
  induction pieces generalizing time with
  | nil => exact (Nat.sub_self _).symm
  | cons e es ih => rw [paid, List.sum_cons, ih, periodsWithin_add, credit_cons]

theorem sum_paid_zero (period : Nat) (pieces : List Nat) :
    (paid period 0 pieces).sum = credit pieces / period := by
  rw [sum_paid, periodsWithin, Nat.zero_add, Nat.zero_div, Nat.sub_zero]

/-- Before a piece less than a period is owed. -/
theorem periodsWithin_le (hp : 0 < period) (time elapsed : Nat) :
    periodsWithin period time elapsed ≤ elapsed / period + 1 := by
  rw [← mod_add_div period time elapsed hp, ← Nat.add_div_right elapsed hp]
  apply Nat.div_le_div_right
  have howed := Nat.mod_lt time hp
  omega

theorem le_of_mem_paid (hp : 0 < period) {time n : Nat} {pieces : List Nat}
    (h : n ∈ paid period time pieces) : n ≤ maxElapsed / period + 1 := by
  induction pieces generalizing time with
  | nil => cases h
  | cons e es ih =>
      rcases List.mem_cons.mp h with rfl | hrest
      · have hpiece : min e maxElapsed / period ≤ maxElapsed / period :=
          Nat.div_le_div_right (Nat.min_le_right e maxElapsed)
        exact Nat.le_trans (periodsWithin_le hp _ _) (Nat.succ_le_succ hpiece)
      · exact ih hrest

/-! ### Many pieces -/

theorem advance_piece (speed time elapsed : Nat) :
    (after speed time).advance elapsed = (after speed (time + min elapsed maxElapsed),
      { steps := periodsWithin (periodOf speed) time (min elapsed maxElapsed)
        timerTicks := periodsWithin timerPeriod time (min elapsed maxElapsed) }) := by
  have hcut : (after speed time).advance elapsed =
      (after speed time).advance (min elapsed maxElapsed) := by
    simp only [advance, Nat.min_assoc, Nat.min_self]
  rw [hcut, advance_after _ _ _ (Nat.min_le_right elapsed maxElapsed)]

/-- **Many pieces of time**: the clock is where the time leads, and each taker is paid apart. -/
theorem advanceAll_after (speed time : Nat) (pieces : List Nat) :
    ((after speed time).advanceAll pieces).1 = after speed (time + credit pieces) ∧
    ((after speed time).advanceAll pieces).2.map Ticks.steps = paid (periodOf speed) time pieces ∧
    ((after speed time).advanceAll pieces).2.map Ticks.timerTicks =
      paid timerPeriod time pieces := by
  induction pieces generalizing time with
  | nil => exact ⟨rfl, rfl, rfl⟩
  | cons e es ih =>
      obtain ⟨hclock, hsteps, htimer⟩ := ih (time + min e maxElapsed)
      rw [credit_cons, ← Nat.add_assoc]
      simp only [advanceAll, advance_piece, paid, List.map_cons, hsteps, htimer]
      exact ⟨hclock, trivial, trivial⟩

/-- The same for a clock that owes nothing yet. -/
theorem advanceAll_ofSpeed (speed : Nat) (pieces : List Nat) :
    ((ofSpeed speed).advanceAll pieces).1 = after speed (credit pieces) ∧
    ((ofSpeed speed).advanceAll pieces).2.map Ticks.steps = paid (periodOf speed) 0 pieces ∧
    ((ofSpeed speed).advanceAll pieces).2.map Ticks.timerTicks = paid timerPeriod 0 pieces := by
  have hmany := advanceAll_after speed 0 pieces
  rwa [after_zero, Nat.zero_add] at hmany

end Clock

/-! ### No width is exceeded -/

namespace Guarded

/-- A debt is drained to its remainder if the count of its periods is a word. -/
theorem drain_eq {debt period : Nat} (hp : 0 < period) (hdebt : debt < timeLimit)
    (hcount : debt / period < UInt32.size) :
    drain debt period = some (debt % period, debt / period) := by
  have hwhole : periodsIn debt period = some (debt / period) :=
    if_pos ⟨Nat.ne_of_gt hp, hcount⟩
  have hle : period * (debt / period) ≤ debt := Nat.mul_div_le debt period
  have hpaid : mulTime period (debt / period) = some (period * (debt / period)) :=
    if_pos (Nat.lt_of_le_of_lt hle hdebt)
  have hleft : subTime debt (period * (debt / period)) = some (debt % period) := by
    rw [subTime, if_pos hle, Nat.mod_def]
  simp only [drain, hwhole, hpaid, hleft, Option.bind_eq_bind, Option.bind_some]
  rfl

/-- What is owed for less than a period and a piece of time is drained. -/
theorem drain_owed {period owed : Nat} (hp : 0 < period) (hsecond : period ≤ 1000000000)
    (howed : owed < period) (elapsed : Nat) :
    addTime owed (min elapsed maxElapsed) = some (owed + min elapsed maxElapsed) ∧
      drain (owed + min elapsed maxElapsed) period =
        some ((owed + min elapsed maxElapsed) % period,
          (owed + min elapsed maxElapsed) / period) := by
  have hpiece : min elapsed maxElapsed ≤ 250000000 := Nat.min_le_right elapsed maxElapsed
  have hlimit : owed + min elapsed maxElapsed < timeLimit :=
    show _ < 18446744073709551616 * 1000000000 by omega
  refine ⟨if_pos hlimit, drain_eq hp hlimit ?_⟩
  -- the fastest processor has a period of a microsecond, but a nanosecond would do
  exact Nat.lt_of_le_of_lt (Nat.div_le_self _ _) (show _ < 4294967296 by omega)

theorem advance_eq (speed time elapsed : Nat) :
    advance (Clock.after speed time) elapsed = some ((Clock.after speed time).advance elapsed) := by
  have hsecond : Clock.periodOf speed ≤ 1000000000 := Nat.div_le_self _ _
  obtain ⟨haddStep, hdrainStep⟩ := drain_owed (Clock.periodOf_pos speed) hsecond
    (Nat.mod_lt time (Clock.periodOf_pos speed)) elapsed
  have htimer : 0 < timerPeriod ∧ timerPeriod ≤ 1000000000 := by decide
  obtain ⟨haddTimer, hdrainTimer⟩ := drain_owed htimer.1 htimer.2 (Nat.mod_lt time htimer.1) elapsed
  simp only [advance, Clock.after, haddStep, hdrainStep, haddTimer, hdrainTimer,
    Option.bind_eq_bind, Option.bind_some]
  rfl

/-- **No width is exceeded**, whatever the speed and the pieces. -/
theorem advanceAll_eq (speed time : Nat) (pieces : List Nat) :
    advanceAll (Clock.after speed time) pieces =
      some ((Clock.after speed time).advanceAll pieces) := by
  induction pieces generalizing time with
  | nil => rfl
  | cons e es ih =>
      rw [advanceAll, advance_eq, Clock.advanceAll, Clock.advance_piece]
      simp only [Option.bind_eq_bind, Option.bind_some, ih]
      rfl

end Guarded

namespace Clock

/-- **The clock conserves time.** A clock that starts at zero and is given some pieces of time never
needs more than its words of fixed width. It pays out, to the processor and to the timers, the whole
periods of what the pieces count for, and owes the rest. So neither depends on how the time is cut,
and what the timers are paid for each piece does not depend on the speed. No piece is paid with more
than one period beyond its own. -/
theorem time_conserved (speed : Nat) (pieces : List Nat) :
    Guarded.advanceAll (ofSpeed speed) pieces = some ((ofSpeed speed).advanceAll pieces) ∧
    let period := 1000000000 / max 1 (min speed 1000000)
    let time := (pieces.map fun e => min e 250000000).sum
    let clock := ((ofSpeed speed).advanceAll pieces).1
    let ticks := ((ofSpeed speed).advanceAll pieces).2
    (ticks.map Ticks.steps).sum = time / period ∧
    (ticks.map Ticks.timerTicks).sum = time / 16666666 ∧
    clock.stepDebt = time % period ∧ clock.timerDebt = time % 16666666 ∧
    (∀ pieces' : List Nat, (pieces'.map fun e => min e 250000000).sum = time →
      ((ofSpeed speed).advanceAll pieces').1 = clock ∧
      (((ofSpeed speed).advanceAll pieces').2.map Ticks.steps).sum = (ticks.map Ticks.steps).sum ∧
      (((ofSpeed speed).advanceAll pieces').2.map Ticks.timerTicks).sum =
        (ticks.map Ticks.timerTicks).sum) ∧
    (∀ speed' : Nat, ((ofSpeed speed').advanceAll pieces).2.map Ticks.timerTicks =
      ticks.map Ticks.timerTicks) ∧
    (∀ t ∈ ticks, t.steps ≤ 250000000 / period + 1 ∧ t.timerTicks ≤ 16) := by
  have hwords : Guarded.advanceAll (ofSpeed speed) pieces =
      some ((ofSpeed speed).advanceAll pieces) := by
    rw [← after_zero]
    exact Guarded.advanceAll_eq speed 0 pieces
  refine ⟨hwords, ?_⟩
  intro period time clock ticks
  obtain ⟨hclock, hsteps, htimer⟩ := advanceAll_ofSpeed speed pieces
  have hsum : (ticks.map Ticks.steps).sum = time / period := hsteps ▸ sum_paid_zero _ pieces
  have htimerSum : (ticks.map Ticks.timerTicks).sum = time / 16666666 :=
    htimer ▸ sum_paid_zero timerPeriod pieces
  refine ⟨hsum, htimerSum, congrArg stepDebt hclock, congrArg timerDebt hclock, ?cut, ?speed,
    ?piece⟩
  case cut =>
    intro pieces' hcredit
    change credit pieces' = credit pieces at hcredit
    obtain ⟨hclock', hsteps', htimer'⟩ := advanceAll_ofSpeed speed pieces'
    rw [hclock', hsteps', htimer', sum_paid_zero, sum_paid_zero, hcredit]
    exact ⟨hclock.symm, hsum.symm, htimerSum.symm⟩
  case speed => exact fun speed' => (advanceAll_ofSpeed speed' pieces).2.2.trans htimer.symm
  case piece =>
    intro t ht
    have hmemSteps : t.steps ∈ paid (periodOf speed) 0 pieces := hsteps ▸ List.mem_map_of_mem ht
    have hmemTimer : t.timerTicks ∈ paid timerPeriod 0 pieces := htimer ▸ List.mem_map_of_mem ht
    exact ⟨le_of_mem_paid (periodOf_pos speed) hmemSteps, le_of_mem_paid (by decide) hmemTimer⟩

/-- A processor of a thousand instructions a second and 320 milliseconds cut in two ways, in one of
which a whole second counts for 250 of them. -/
theorem two_cuts_pay_the_same : credit [70000000, 1000000000] = 320000000 ∧
    credit [16666666, 53333334, 250000000] = 320000000 ∧
    ((ofSpeed 1000).advanceAll [70000000, 1000000000]).1 =
      ((ofSpeed 1000).advanceAll [16666666, 53333334, 250000000]).1 ∧
    (((ofSpeed 1000).advanceAll [70000000, 1000000000]).2.map Ticks.steps).sum = 320 := by
  obtain ⟨-, hsum, -, -, -, hcut, -⟩ := time_conserved 1000 [16666666, 53333334, 250000000]
  obtain ⟨hclock, hsame, -⟩ := hcut [70000000, 1000000000] (by decide)
  exact ⟨by decide, by decide, hclock, hsame.trans (hsum.trans (by decide))⟩

end Clock

end ChipEight
