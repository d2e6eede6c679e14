import ChipEight.Proofs.Clock.Conservation

/-!
# The clock keeps its rate

The period of a clock is a second divided by the speed, in whole nanoseconds. What the division loses
makes every period a little short, and the loss adds up with each step. So the processor is never slower
than asked for, and how much faster it is depends on how far a period and its speed are from a second:

* `Clock.granted` — the steps that a clock pays out in all, with `granted_ofSpeed` in closed form;
* `periodOf_mul_le`, `le_periodOf_mul` — a period times its speed, from above and from below;
* `due_le_granted`, `granted_mul_le` — what is paid out against what is due, at both ends;
* `granted_mono` — a faster clock is never behind;
* `rate_kept` — all of it, with the speeds that are out of range.
-/

namespace ChipEight.Clock

/-- The steps that a clock pays out for some pieces of time. -/
def granted (c : Clock) (pieces : List Nat) : Nat := ((c.advanceAll pieces).2.map Ticks.steps).sum

variable {speed slow fast : Nat}

theorem granted_ofSpeed (speed : Nat) (pieces : List Nat) :
    granted (ofSpeed speed) pieces = credit pieces / periodOf speed := by
  rw [granted, (advanceAll_ofSpeed speed pieces).2.1, sum_paid_zero]

/-! ### A period and its speed -/

theorem periodOf_of_mem (hpos : 1 ≤ speed) (hmax : speed ≤ 1000000) :
    periodOf speed = 1000000000 / speed := by
  have hclamp : max 1 (min speed maxSpeed) = speed := by
    simp only [maxSpeed]
    omega
  rw [periodOf, hclamp]

/-- The periods of a second fit into it. -/
theorem periodOf_mul_le (hpos : 1 ≤ speed) (hmax : speed ≤ 1000000) :
    periodOf speed * speed ≤ 1000000000 := by
  rw [periodOf_of_mem hpos hmax]
  exact Nat.div_mul_le_self _ _

/-- They miss less than a nanosecond each. -/
theorem le_periodOf_mul (hpos : 1 ≤ speed) (hmax : speed ≤ 1000000) :
    1000000000 - speed + 1 ≤ periodOf speed * speed := by
  have hmissed : 1000000000 < 1000000000 / speed * speed + speed := Nat.lt_div_mul_add hpos
  rw [periodOf_of_mem hpos hmax]
  omega

theorem periodOf_anti (h : slow ≤ fast) : periodOf fast ≤ periodOf slow := by
  have hclamp : max 1 (min slow maxSpeed) ≤ max 1 (min fast maxSpeed) := by omega
  exact Nat.div_le_div_left hclamp (by omega)

/-! ### What is due and what is paid out -/

/-- **The clock is never slow.** -/
theorem due_le_granted (hpos : 1 ≤ speed) (hmax : speed ≤ 1000000) (pieces : List Nat) :
    credit pieces * speed / 1000000000 ≤ granted (ofSpeed speed) pieces := by
  rw [granted_ofSpeed, Nat.le_div_iff_mul_le (periodOf_pos speed)]
  -- times the speed, so that the period comes next to it
  apply Nat.le_of_mul_le_mul_right _ hpos
  calc credit pieces * speed / 1000000000 * periodOf speed * speed
      = credit pieces * speed / 1000000000 * (periodOf speed * speed) := Nat.mul_assoc _ _ _
    _ ≤ credit pieces * speed / 1000000000 * 1000000000 :=
        Nat.mul_le_mul_left _ (periodOf_mul_le hpos hmax)
    _ ≤ credit pieces * speed := Nat.div_mul_le_self _ _

/-- **The clock is hardly fast**: a step is paid for with a period, and that is not much less than its
share of a second. -/
theorem granted_mul_le (hpos : 1 ≤ speed) (hmax : speed ≤ 1000000) (pieces : List Nat) :
    granted (ofSpeed speed) pieces * (1000000000 - speed + 1) ≤ credit pieces * speed := by
  rw [granted_ofSpeed]
  calc credit pieces / periodOf speed * (1000000000 - speed + 1)
      ≤ credit pieces / periodOf speed * (periodOf speed * speed) :=
        Nat.mul_le_mul_left _ (le_periodOf_mul hpos hmax)
    _ = credit pieces / periodOf speed * periodOf speed * speed := (Nat.mul_assoc _ _ _).symm
    _ ≤ credit pieces * speed := Nat.mul_le_mul_right _ (Nat.div_mul_le_self _ _)

theorem granted_mono (h : slow ≤ fast) (pieces : List Nat) :
    granted (ofSpeed slow) pieces ≤ granted (ofSpeed fast) pieces := by
  rw [granted_ofSpeed, granted_ofSpeed]
  exact Nat.div_le_div_left (periodOf_anti h) (periodOf_pos fast)

/-! ### Speeds out of range -/

/-- A clock knows its speed by the nearest one in range. -/
theorem ofSpeed_clamp (speed : Nat) : ofSpeed (max 1 (min speed maxSpeed)) = ofSpeed speed := by
  have hagain : max 1 (min (max 1 (min speed maxSpeed)) maxSpeed) = max 1 (min speed maxSpeed) := by
    simp only [maxSpeed]
    omega
  rw [ofSpeed, ofSpeed, periodOf, periodOf, hagain]

/-- **The clock keeps the rate that was asked for.** Over any pieces of time, a clock whose speed is in
range pays out the steps that are due, rounded down, or more, and there is a bound on those that are more:
about one in a thousand at the most. Of two clocks that are given the same pieces, the faster is never
behind. A speed out of range is the same as the nearest one in it. -/
theorem rate_kept :
    (∀ speed : Nat, 1 ≤ speed → speed ≤ 1000000 → ∀ pieces : List Nat,
      let time := (pieces.map fun e => min e 250000000).sum
      let steps := granted (ofSpeed speed) pieces
      time * speed / 1000000000 ≤ steps ∧
      steps * (1000000000 - speed + 1) ≤ time * speed ∧
      steps * 999000000 ≤ time * speed) ∧
    (∀ slow fast : Nat, slow ≤ fast → ∀ pieces : List Nat,
      granted (ofSpeed slow) pieces ≤ granted (ofSpeed fast) pieces) ∧
    ofSpeed 0 = ofSpeed 1 ∧
    (∀ speed : Nat, 1000000 < speed → ofSpeed speed = ofSpeed 1000000) := by
  refine ⟨?rate, fun slow fast => granted_mono, (ofSpeed_clamp 0).symm, ?above⟩
  case rate =>
    intro speed hpos hmax pieces time steps
    have hfast : steps * (1000000000 - speed + 1) ≤ time * speed := granted_mul_le hpos hmax pieces
    refine ⟨due_le_granted hpos hmax pieces, hfast, Nat.le_trans ?_ hfast⟩
    exact Nat.mul_le_mul_left steps (by omega)
  case above =>
    intro speed habove
    have hnearest : max 1 (min speed maxSpeed) = 1000000 := by
      simp only [maxSpeed]
      omega
    rw [← ofSpeed_clamp speed, hnearest]

/-- At this speed the bound is reached: four quarters of a second pay for a million steps, and 999001 are
due. A slower clock pays out no more. -/
theorem million_of_999001 :
    granted (ofSpeed 999001) [250000000, 250000000, 700000000, 250000000] = 1000000 ∧
    1000000 * (1000000000 - 999001 + 1) = 1000000000 * 999001 ∧
    granted (ofSpeed 999000) [250000000, 250000000, 700000000, 250000000] ≤ 1000000 ∧
    ofSpeed 4000000000 = ofSpeed 1000000 := by
  have hmillion : granted (ofSpeed 999001) [250000000, 250000000, 700000000, 250000000] = 1000000 := by
    decide
  obtain ⟨hrate, hmono, -, habove⟩ := rate_kept
  obtain ⟨-, hfast, -⟩ :=
    hrate 999001 (by decide) (by decide) [250000000, 250000000, 700000000, 250000000]
  have hslower := hmono 999000 999001 (by decide) [250000000, 250000000, 700000000, 250000000]
  rw [hmillion] at hfast hslower
  exact ⟨hmillion, Nat.le_antisymm hfast (by decide), hslower, habove 4000000000 (by decide)⟩

end ChipEight.Clock
