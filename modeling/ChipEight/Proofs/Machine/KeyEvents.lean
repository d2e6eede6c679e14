import ChipEight.Proofs.Machine.Bounds
import ChipEight.Proofs.Machine.Executed
import ChipEight.Proofs.Machine.Storage
import ChipEight.Proofs.Machine.Standstill

/-!
# The keypad and the events of its keys

The keypad shows for each key what its last event said. It does not matter how often a key is pressed, who
has looked at it, or whether a wait has taken the press; only a start of the program lets all keys go. So
what the two instructions do that look at a key can be told from the history alone:

* `Operation.keyState?`, `lastEvent?` — the last event of a key in a history since the program was started;
* `keypad_step`, `isPressed_keyEvent`, `isPressed_apply`, `isPressed_of_start` — what one operation does to
  the keypad;
* `isPressed_run` — a key after a history, by induction from its end;
* `pc_step_of_skipIf` — an instruction that skips or not;
* `keys_are_level_triggered` — all of it.
-/

namespace ChipEight

/-- The operation is an event of key `k`, and it says whether the key is down. -/
def Operation.keyState? (k : UInt8) : Operation → Option Bool
  | .key k' down => if k' = k then some down else none
  | _ => none

/-- What the last event of key `k` said since the program was started, if there was one. -/
def lastEvent? (k : UInt8) (ops : List Operation) : Option Bool :=
  (ops.reverse.takeWhile fun op => decide op.Continues).findSome? (Operation.keyState? k)

variable {op : Operation} {ops : List Operation} {k x : UInt8}

theorem lastEvent?_concat (hop : op.Continues) :
    lastEvent? k (ops ++ [op]) = (op.keyState? k).or (lastEvent? k ops) := by
  rw [lastEvent?, List.reverse_concat, List.takeWhile_cons, if_pos (decide_eq_true hop),
    List.findSome?_cons]
  cases op.keyState? k <;> rfl

/-- A start of the program forgets the events. -/
theorem lastEvent?_concat_of_start (hop : ¬ op.Continues) : lastEvent? k (ops ++ [op]) = none := by
  have hstart : ¬ decide op.Continues = true := fun h => hop (of_decide_eq_true h)
  rw [lastEvent?, List.reverse_concat, List.takeWhile_cons, if_neg hstart, List.findSome?_nil]

/-- Key numbers are taken modulo sixteen. -/
theorem place_mod (k : UInt8) : place (k % 16) = place k := by
  apply Fin.ext
  show (k % 16).toNat % registerCount = k.toNat % registerCount
  rw [UInt8.toNat_mod]
  exact Nat.mod_mod _ _

theorem toNat_mod_lt (k : UInt8) : (k % 16).toNat < 16 := by
  rw [UInt8.toNat_mod]
  exact Nat.mod_lt _ (by decide)

namespace Machine

variable {m : Machine} {ins : Instruction}

/-! ### One operation -/

theorem keypad_step (m : Machine) : m.step.1.keypad = m.keypad := by
  generalize hs : m.step = r
  obtain ⟨m', o⟩ := r
  cases stepped_of_eq hs <;> rfl

theorem isPressed_of_lt (hk : k.toNat < 16) : m.isPressed k = m.keypad[k.toNat] := by
  show m.keypad[(place k).val] = _
  simp only [place_val_of_lt hk]

theorem isPressed_mod (m : Machine) (k : UInt8) : m.isPressed (k % 16) = m.isPressed k := by
  rw [isPressed, isPressed, place_mod]

/-- The event of a key changes this key alone. -/
theorem isPressed_keyEvent (hk : k.toNat < 16) (k' : UInt8) (down : Bool) :
    (m.keyEvent k' down).isPressed k = if k' = k then down else m.isPressed k := by
  rw [isPressed_of_lt hk, isPressed_of_lt hk]
  simp only [keyEvent_eq, Vector.getElem_setIfInBounds, UInt8.toNat_inj]

/-- **A key after one operation** is as the operation says, if it is an event of the key. -/
theorem isPressed_apply (hop : op.Continues) (hk : k.toNat < 16) :
    (m.apply op).1.isPressed k = (op.keyState? k).getD (m.isPressed k) := by
  cases op with
  | load program =>
      simp only [apply, load_of_too_large m hop]
      rfl
  | reset => exact hop.elim
  | step =>
      show m.step.1.keypad.get (place k) = m.keypad.get (place k)
      rw [keypad_step]
  | key k' down =>
      show (m.keyEvent k' down).isPressed k = _
      rw [isPressed_keyEvent hk, Operation.keyState?]
      split <;> rfl
  | takeFrame =>
      show m.takeFrame.1.keypad.get (place k) = m.keypad.get (place k)
      rw [takeFrame_eq]
  | _ => rfl

/-- A start of the program lets all keys go. -/
theorem isPressed_of_start (hop : ¬ op.Continues) : (m.apply op).1.isPressed k = false := by
  obtain ⟨program, hstart⟩ := apply_of_not_continues m hop
  rw [hstart]
  exact Vector.getElem_replicate _

/-- An operation that is no event of a key of the keypad leaves all keys alone, if it does not start the
program. -/
theorem isPressed_apply_of_no_event (hop : op.Continues)
    (hno : ∀ k' down, op = .key k' down → 0xF < k'.toNat) :
    (m.apply op).1.isPressed k = m.isPressed k := by
  have hnone : op.keyState? (k % 16) = none := by
    cases op with
    | key k' down =>
        refine if_neg ?_
        rintro rfl
        exact Nat.not_lt.mpr (hno _ _ rfl) (toNat_mod_lt k)
    | _ => rfl
  rw [← isPressed_mod, isPressed_apply hop (toNat_mod_lt k), hnone, Option.getD_none, isPressed_mod]

/-! ### Histories -/

/-- **A key after a history** is as its last event said, and not down if there was none. -/
theorem isPressed_run (hm : m.isPressed k = false) (hk : k.toNat < 16) (ops : List Operation) :
    (m.run ops).isPressed k = (lastEvent? k ops).getD false := by
  induction ops using List.reverseRecOn with
  | nil => exact hm
  | append_singleton ops op ih =>
      rw [run_concat]
      by_cases hop : op.Continues
      · rw [isPressed_apply hop hk, ih, lastEvent?_concat hop, Option.getD_or]
      · rw [isPressed_of_start hop, lastEvent?_concat_of_start hop, Option.getD_none]

/-! ### The two instructions -/

/-- An instruction that skips or not moves the program counter by two words or by one. -/
theorem pc_step_of_skipIf (skip : Bool) (h : m.executed? = some ins)
    (hnext : m.state.next m.keypad ins = m.state.skipIf skip) :
    m.step.1.state.pc.toNat = m.state.pc.toNat + if skip then 4 else 2 := by
  have hp := (executed?_eq_some_iff.mp h).1.pc_le
  rw [step_of_executed h, execute_pc, hnext]
  cases skip with
  | true => exact State.pc_add_toNat hp (by decide)
  | false => exact State.pc_add_toNat hp (by decide)

/-- **Keys are level-triggered.** In every history of a new machine, whatever its source of random bytes, a
key is down if its last event since the program was started was a press, and not down if this was a
release or there was none. Nothing but such an event and a start of the program reaches the keypad. So the
instruction that skips if a key is down does so exactly if the last event of the key whose number is in its
register, modulo sixteen, was a press, and the one that skips if the key is up does so in all other
cases. -/
theorem keys_are_level_triggered (g : Generator) (ops : List Operation) :
    let m := ({ generator := g } : Machine).run ops
    (∀ k : UInt8, k.toNat < 16 → m.isPressed k = (lastEvent? k ops).getD false) ∧
    (∀ op : Operation, op.Continues → (∀ k down, op = .key k down → 0xF < k.toNat) →
      ∀ k, (m.apply op).1.isPressed k = m.isPressed k) ∧
    (∀ x, m.executed? = some (.skipIfPressed x) → m.step.1.state.pc.toNat =
      m.state.pc.toNat + if lastEvent? (m.state.reg x % 16) ops = some true then 4 else 2) ∧
    (∀ x, m.executed? = some (.skipIfNotPressed x) → m.step.1.state.pc.toNat =
      m.state.pc.toNat + if lastEvent? (m.state.reg x % 16) ops = some true then 2 else 4) := by
  intro m
  have hkeys : ∀ k : UInt8, k.toNat < 16 → m.isPressed k = (lastEvent? k ops).getD false :=
    fun k hk => isPressed_run (Vector.getElem_replicate _) hk ops
  have hdown : ∀ b : UInt8, m.isPressed b = decide (lastEvent? (b % 16) ops = some true) := by
    intro b
    rw [← isPressed_mod, hkeys _ (toNat_mod_lt b)]
    cases lastEvent? (b % 16) ops with
    | none => rfl
    | some down => cases down <;> rfl
  refine ⟨hkeys, fun op hop hno k => isPressed_apply_of_no_event hop hno, fun x hrun => ?_,
    fun x hrun => ?_⟩
  · rw [pc_step_of_skipIf (m.isPressed (m.state.reg x)) hrun rfl, hdown]
    simp only [decide_eq_true_eq]
  · rw [pc_step_of_skipIf (!m.isPressed (m.state.reg x)) hrun rfl, hdown]
    by_cases hlast : lastEvent? (m.state.reg x % 16) ops = some true <;> simp [hlast]

/-- A program that looks at the key in a register, which it sets to `15` in hexadecimal. -/
def looking : List Operation :=
  [.load [0x60, 0x15, 0xE0, 0x9E], .key 5 false, .key 5 true, .key 0x25 false, .step,
    .load (List.replicate 3584 0), .tick, .takeFrame, .key 4 false]

/-- Its key is down, and it skips a word. -/
theorem looking_skips : ((ofSeed 0).run looking).isPressed 5 = true ∧
    ((ofSeed 0).run looking).step.1.state.pc.toNat = 0x206 ∧
    (((ofSeed 0).run looking).apply (.key 0x15 false)).1.isPressed 5 = true := by
  obtain ⟨hrun, hpc, hlast⟩ : ((ofSeed 0).run looking).executed? = some (.skipIfPressed 0) ∧
      ((ofSeed 0).run looking).state.pc.toNat = 0x202 ∧
      lastEvent? (((ofSeed 0).run looking).state.reg 0 % 16) looking = some true := by
    decide +kernel
  have hfive : lastEvent? 5 looking = some true := by decide +kernel
  have hlaw := keys_are_level_triggered (Generator.ofSeed 0) looking
  rw [show ({ generator := Generator.ofSeed 0 } : Machine) = ofSeed 0 from rfl] at hlaw
  obtain ⟨hkeys, hno, hskips, -⟩ := hlaw
  have hdown := hkeys 5 (by decide)
  rw [hfive, Option.getD_some] at hdown
  refine ⟨hdown, ?_, ?_⟩
  · rw [hskips 0 hrun, if_pos hlast, hpc]
  · rw [hno (.key 0x15 false) trivial (by rintro k down ⟨⟩; decide), hdown]

end Machine

end ChipEight
