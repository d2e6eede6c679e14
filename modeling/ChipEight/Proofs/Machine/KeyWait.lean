import Mathlib.Data.FinEnum
import ChipEight.Proofs.Machine.Faults
import ChipEight.Proofs.Machine.Storage
import ChipEight.Proofs.Machine.Executed

/-!
# Waiting for a key

A program that waits for a key and the host that presses keys follow a small protocol. The program
begins a wait by running one instruction, and then nothing runs. The host may do anything meanwhile;
its next press ends the wait, goes to the one register, and is the only one that does. The file
proves this for single waits, and for whole histories as a balance of three counts:

* `Machine.Writes`, with `registersWritten` — the registers that key events write, told by what
  becomes of their values;
* `waitsEnded` — the operations that find a wait and leave none;
* `HeldUp.run`, `received_keyEvent` — a wait while no key is pressed, and the press that ends it;
* `waitsEnded_add_pending`, `registersWritten_eq` — the balance, by induction on the history from
  `wait_apply`, which says what one operation makes of a wait;
* `wait_takes_one_press` — all of it.
-/

namespace ChipEight

/-- The instruction waits for a key. -/
def Instruction.awaitsKey : Instruction → Bool
  | .awaitKey _ => true
  | _ => false

namespace State

variable {s : State} {x : UInt8}

/-- The register that waits takes the key. -/
theorem get_receive (hw : s.wait = some x) (k : UInt8) (r : Fin registerCount) :
    (s.receive (some k)).v.get r = if r = place x then k else s.v.get r := by
  rw [receive_of_wait hw]
  exact s.get_setReg x k r

end State

namespace Machine

/-- The machine with another value in register `r`. -/
def withRegister (m : Machine) (r : Fin registerCount) (b : UInt8) : Machine :=
  { m with state := { m.state with v := m.state.v.set r b r.isLt } }

/-- The operation writes register `r`: there is a value that the register does not keep. -/
def Writes (m : Machine) (op : Operation) (r : Fin registerCount) : Prop :=
  ∃ b, ((m.withRegister r b).apply op).1.state.v.get r ≠ b

instance (m : Machine) (op : Operation) : DecidablePred (m.Writes op) := fun r =>
  inferInstanceAs (Decidable (∃ b, ((m.withRegister r b).apply op).1.state.v.get r ≠ b))

/-- The number of registers that an operation writes as a key event. -/
def keyWrites (m : Machine) : Operation → Nat
  | .key k down => (Finset.univ.filter (m.Writes (.key k down))).card
  | _ => 0

/-- The number of registers that the key events of a history write. -/
def registersWritten : Machine → List Operation → Nat
  | _, [] => 0
  | m, op :: ops => m.keyWrites op + registersWritten (m.apply op).1 ops

/-- Whether an operation finds a wait and leaves none. -/
def endsWait (m : Machine) (op : Operation) : Bool :=
  m.awaitingKey && !(m.apply op).1.awaitingKey

/-- The number of waits that end in a history. -/
def waitsEnded : Machine → List Operation → Nat
  | _, [] => 0
  | m, op :: ops => (m.endsWait op).toNat + waitsEnded (m.apply op).1 ops

/-- The two machines agree in all that a program that waits could have changed. -/
structure HeldUp (m m' : Machine) : Prop where
  registers : m.state.SameRegisters m'.state
  store : m.state.SameStore m'.state
  fault_eq : m'.fault = m.fault
  generator_eq : m'.generator = m.generator

/-- The second machine is the first after key `k` has gone to register `x` and ended the wait. -/
structure Received (x k : UInt8) (m m' : Machine) : Prop where
  v_eq : ∀ r (hr : r < 16), m'.state.v[r] = if r = x.toNat then k else m.state.v[r]
  store : m.state.SameStore m'.state
  wait_none : m'.state.wait = none

variable {m m' : Machine} {x k : UInt8} {op : Operation} {ops : List Operation}

/-! ### While no key is pressed -/

theorem HeldUp.rfl : m.HeldUp m := ⟨.rfl, .rfl, Eq.refl _, Eq.refl _⟩

/-- Without a press nothing happens to a program that waits. -/
theorem HeldUp.apply (h : m.HeldUp m') (hf : m.fault = none) (hw : m.state.wait ≠ none)
    (hop : op.Continues) (hpress : op.press? = none) : m.HeldUp (m'.apply op).1 := by
  cases op with
  | load program =>
      simp only [Machine.apply, load_of_too_large m' hop]
      exact h
  | reset => exact hop.elim
  | step =>
      have hwait : m'.state.wait ≠ none := by
        rw [h.registers.wait_eq]
        exact hw
      have hstep : m'.step = (m', .awaitingKey) := step_of_wait (h.fault_eq.trans hf) hwait
      simp only [Machine.apply, hstep]
      exact h
  | tick =>
      exact ⟨h.registers.trans (sameRegisters_tick m'), h.store.trans (sameStore_tick m'),
        h.fault_eq, h.generator_eq⟩
  | key k down =>
      have hkey : (m'.apply (.key k down)).1 =
          { m' with keypad := m'.keypad.setIfInBounds k.toNat down } := by
        show m'.keyEvent k down = _
        rw [keyEvent_eq, hpress, State.receive_none]
      rw [hkey]
      exact ⟨h.registers, h.store, h.fault_eq, h.generator_eq⟩
  | isPressed k => exact h
  | current => exact h
  | takeFrame =>
      refine ⟨h.registers.trans (sameRegisters_takeFrame m'),
        h.store.trans (sameStore_takeFrame m'), (takeFrame_fault m').trans h.fault_eq, ?_⟩
      show m'.takeFrame.1.generator = m.generator
      rw [takeFrame_eq]
      exact h.generator_eq

/-- **While no key is pressed**, a program that waits is held up. -/
theorem HeldUp.run (h : m.HeldUp m') (hf : m.fault = none) (hw : m.state.wait ≠ none)
    (hops : ∀ op ∈ ops, op.Continues ∧ op.press? = none) : m.HeldUp (m'.run ops) := by
  induction ops generalizing m' with
  | nil => exact h
  | cons op ops ih =>
      obtain ⟨hop, hpress⟩ := hops op List.mem_cons_self
      exact ih (h.apply hf hw hop hpress) fun op' hmem => hops op' (List.mem_cons_of_mem op hmem)

/-! ### The press -/

/-- **The press that ends a wait.** -/
theorem received_keyEvent (hw : m.state.wait = some x) (hx : x.toNat < 16) (hk : k.toNat ≤ 0xF) :
    m.Received x k (m.keyEvent k true) := by
  have hpress : (Operation.key k true).press? = some k := if_pos (Nat.lt_succ_of_le hk)
  have hplace : (place x).val = x.toNat := Nat.mod_eq_of_lt hx
  refine ⟨?_, ?_, ?_⟩
  · intro r hr
    rw [keyEvent_state, hpress]
    have hget := State.get_receive hw k ⟨r, hr⟩
    simp only [Fin.ext_iff, hplace] at hget
    exact hget
  · rw [keyEvent_state]
    exact State.sameStore_receive m.state _
  · rw [keyEvent_state, hpress]
    exact State.receive_some_wait m.state k

/-- What is said of the press is said of a program that was held up until then. -/
theorem HeldUp.received (h : m.HeldUp m') {m'' : Machine} (hr : m'.Received x k m'') :
    m.Received x k m'' where
  v_eq := fun r hlt => by
    rw [hr.v_eq r hlt]
    simp only [h.registers.v_eq]
  store := h.store.trans hr.store
  wait_none := hr.wait_none

/-! ### What an operation makes of a wait -/

/-- **A wait after one operation.** It is begun by the instruction for it and ended by a press. -/
theorem wait_apply (m : Machine) (hop : op.Continues) :
    (m.apply op).1.state.wait = match m.runs? op with
      | some (.awaitKey x) => some (x &&& 0xF)
      | _ => if op.press?.isSome then none else m.state.wait := by
  cases op with
  | load program =>
      simp only [Machine.apply, load_of_too_large m hop]
      rfl
  | reset => exact hop.elim
  | step =>
      show m.step.1.state.wait = _
      rw [step_part State.wait (fun s pc => rfl) m, runs?]
      cases m.executed? with
      | none => rfl
      | some ins =>
          show (m.state.perform m.generator ins).wait = _
          rw [State.perform_wait]
          cases ins <;> rfl
  | key k down =>
      show (m.keyEvent k down).state.wait = _
      rw [keyEvent_state]
      cases (Operation.key k down).press? with
      | none =>
          rw [State.receive_none]
          rfl
      | some k' =>
          rw [State.receive_some_wait]
          rfl
  | takeFrame => exact (sameRegisters_takeFrame m).wait_eq
  | _ => rfl

/-- An instruction that waits for a key runs only while nothing is waited for. -/
theorem wait_none_of_runs {ins : Instruction} (h : m.runs? op = some ins) :
    m.state.wait = none := by
  cases op with
  | step => exact (executed?_eq_some_iff.mp h).1.wait_none
  | _ => cases h

/-- A start of the program waits for no key. -/
theorem wait_none_of_start (hop : ¬ op.Continues) : (m.apply op).1.state.wait = none := by
  obtain ⟨program, hstart⟩ := apply_of_not_continues m hop
  rw [hstart]
  rfl

/-- A wait begins only while there is none. -/
theorem begins_wait (m : Machine) (hop : op.Continues)
    (h : (m.runs? op).any Instruction.awaitsKey = true) :
    m.awaitingKey = false ∧ (m.apply op).1.awaitingKey = true := by
  have hwait := wait_apply m hop
  cases hrun : m.runs? op with
  | none =>
      rw [hrun] at h
      cases h
  | some ins =>
      refine ⟨awaitingKey_eq_false_iff.mpr (wait_none_of_runs hrun), ?_⟩
      rw [hrun] at h hwait
      cases ins with
      | awaitKey y => rw [awaitingKey, hwait, Option.isSome_some]
      | _ => cases h

/-- Unless a wait begins, an operation leaves the wait or ends it. -/
theorem awaitingKey_apply (m : Machine) (hop : op.Continues)
    (h : (m.runs? op).any Instruction.awaitsKey = false) :
    (m.apply op).1.awaitingKey = (m.awaitingKey && op.press?.isNone) := by
  have hwait := wait_apply m hop
  rw [awaitingKey, awaitingKey, hwait]
  cases hrun : m.runs? op with
  | none => cases hpress : op.press? <;> simp
  | some ins =>
      rw [hrun] at h
      cases ins with
      | awaitKey y => cases h
      | _ => cases hpress : op.press? <;> simp

/-- Without the instruction for it no wait begins, not even by a new start of the program. -/
theorem wait_none_run (hw : m.state.wait = none)
    (hran : ∀ ins ∈ m.ran ops, ins.awaitsKey = false) : (m.run ops).state.wait = none := by
  -- the history may start the program again, and a start waits for no key
  induction ops generalizing m with
  | nil => exact hw
  | cons op ops ih =>
      obtain ⟨hfirst, hrest⟩ := forall_ran_cons.mp hran
      refine ih ?_ hrest
      by_cases hop : op.Continues
      · have hnot : (m.runs? op).any Instruction.awaitsKey = false := by
          cases hrun : m.runs? op with
          | none => rfl
          | some ins => exact hfirst ins hrun
        apply awaitingKey_eq_false_iff.mp
        rw [awaitingKey_apply m hop hnot, awaitingKey_eq_false_iff.mpr hw, Bool.false_and]
      · exact wait_none_of_start hop

/-- A wait ends by a press. -/
theorem endsWait_eq (m : Machine) (hop : op.Continues) :
    m.endsWait op = (m.awaitingKey && op.press?.isSome) := by
  cases hbegin : (m.runs? op).any Instruction.awaitsKey with
  | false =>
      rw [endsWait, awaitingKey_apply m hop hbegin]
      cases m.awaitingKey <;> cases op.press? <;> rfl
  | true => rw [endsWait, (begins_wait m hop hbegin).1, Bool.false_and, Bool.false_and]

/-! ### The balance -/

/-- One operation begins a wait, ends one, or does neither. -/
theorem endsWait_add_pending (m : Machine) (hop : op.Continues) :
    (m.endsWait op).toNat + (m.apply op).1.awaitingKey.toNat =
      (if (m.runs? op).any Instruction.awaitsKey then 1 else 0) + m.awaitingKey.toNat := by
  cases hbegin : (m.runs? op).any Instruction.awaitsKey with
  | false =>
      rw [endsWait, awaitingKey_apply m hop hbegin]
      cases m.awaitingKey <;> cases op.press? <;> rfl
  | true =>
      obtain ⟨hnone, hbegun⟩ := begins_wait m hop hbegin
      rw [endsWait, hnone, hbegun]
      rfl

/-- **The balance of waits**: those that end and the one that is left are those that began. -/
theorem waitsEnded_add_pending (hops : ∀ op ∈ ops, op.Continues) (m : Machine) :
    m.waitsEnded ops + (m.run ops).awaitingKey.toNat =
      (m.ran ops).countP Instruction.awaitsKey + m.awaitingKey.toNat := by
  induction ops generalizing m with
  | nil => rw [waitsEnded, run_nil, ran_nil, List.countP_nil]
  | cons op ops ih =>
      have hfirst := endsWait_add_pending m (hops op List.mem_cons_self)
      have hrest := ih (fun op' hmem => hops op' (List.mem_cons_of_mem op hmem)) (m.apply op).1
      rw [waitsEnded, run_cons, countP_ran_cons]
      omega

/-! ### The registers that key events write -/

theorem exists_ne_byte (k : UInt8) : ∃ b, k ≠ b := by
  by_cases hzero : k = 0
  · exact ⟨1, by rw [hzero]; decide⟩
  · exact ⟨0, hzero⟩

/-- **What a key event writes**: the register that waits, if there is one and the key is pressed. -/
theorem writes_key_iff {down : Bool} {r : Fin registerCount} :
    m.Writes (.key k down) r ↔ (Operation.key k down).press?.isSome ∧
      ∃ x, m.state.wait = some x ∧ r = place x := by
  have hafter : ∀ b, ((m.withRegister r b).apply (.key k down)).1.state =
      (m.withRegister r b).state.receive (Operation.key k down).press? :=
    fun b => keyEvent_state _ k down
  have hheld : ∀ b, (m.withRegister r b).state.v.get r = b :=
    fun b => Vector.getElem_set_self r.isLt
  have hwait : ∀ b, (m.withRegister r b).state.wait = m.state.wait := fun b => rfl
  simp only [Writes, hafter]
  cases (Operation.key k down).press? with
  | none => simp [State.receive_none, hheld]
  | some k' =>
      cases hw : m.state.wait with
      | none => simp [State.receive_of_wait_none, hwait, hw, hheld]
      | some x =>
          have hreceive : ∀ b, ((m.withRegister r b).state.receive (some k')).v.get r =
              if r = place x then k' else b := by
            intro b
            rw [State.get_receive ((hwait b).trans hw), hheld]
          simp only [hreceive]
          by_cases heq : r = place x
          · simp only [if_pos heq]
            exact iff_of_true (exists_ne_byte k') ⟨rfl, x, rfl, heq⟩
          · simp [heq]

/-- A key event writes a register exactly if it ends a wait, and then it writes one. -/
theorem keyWrites_eq (m : Machine) (hop : op.Continues) :
    m.keyWrites op = (m.endsWait op).toNat := by
  rw [endsWait_eq m hop]
  cases op with
  | key k down =>
      simp only [keyWrites, writes_key_iff, awaitingKey]
      cases (Operation.key k down).press? with
      | none => simp
      | some k' =>
          cases m.state.wait with
          | none => simp
          | some x => simp [Finset.filter_eq']
  | _ => rw [show Operation.press? _ = none from rfl, Option.isSome_none, Bool.and_false]; rfl

theorem registersWritten_eq (hops : ∀ op ∈ ops, op.Continues) (m : Machine) :
    m.registersWritten ops = m.waitsEnded ops := by
  induction ops generalizing m with
  | nil => rfl
  | cons op ops ih =>
      rw [registersWritten, waitsEnded, keyWrites_eq m (hops op List.mem_cons_self),
        ih fun op' hmem => hops op' (List.mem_cons_of_mem op hmem)]

/-- **A wait takes one press.** Let a reachable machine wait for a key. While no key of the keypad is
pressed, everything of the program stays and each step reports the wait. The first press goes to
the register that waits, changes no other and ends the wait; until another wait begins, key events
change nothing of the program. So in a history that starts without a wait and does not start the
program again, key events write as many registers as waits end, and these, with the one that may be
left, are as many as the instructions that wait. -/
theorem wait_takes_one_press (h : m.Reachable) :
    (∀ x, m.state.wait = some x →
      ∀ ops : List Operation, (∀ op ∈ ops, op.Continues ∧ op.press? = none) →
        m.HeldUp (m.run ops) ∧ (m.run ops).step.2 = .awaitingKey ∧
        ∀ k : UInt8, k.toNat ≤ 0xF →
          m.Received x k ((m.run ops).keyEvent k true) ∧
          ∀ more : List Operation,
            (∀ ins ∈ ((m.run ops).keyEvent k true).ran more, ins.awaitsKey = false) →
            ∀ k' down, ((((m.run ops).keyEvent k true).run more).keyEvent k' down).state =
              (((m.run ops).keyEvent k true).run more).state) ∧
    (m.state.wait = none →
      ∀ ops : List Operation, (∀ op ∈ ops, op.Continues) →
        m.registersWritten ops = m.waitsEnded ops ∧
        m.waitsEnded ops + (m.run ops).awaitingKey.toNat =
          (m.ran ops).countP Instruction.awaitsKey ∧
        m.waitsEnded ops ≤ (m.ran ops).countP Instruction.awaitsKey) := by
  constructor
  · intro x hw ops hops
    have hfault : m.fault = none := by
      -- a recorded fault leaves no wait
      apply Option.eq_none_iff_forall_ne_some.mpr
      intro f hf
      rw [(h.stopped hf).wait_none] at hw
      cases hw
    have hsome : m.state.wait ≠ none := hw.trans_ne (Option.some_ne_none x)
    have hheld := HeldUp.rfl.run hfault hsome hops
    have hwait := hheld.registers.wait_eq.trans hw
    refine ⟨hheld, ?_, fun k hk => ?_⟩
    · rw [step_of_wait (hheld.fault_eq.trans hfault) (hheld.registers.wait_eq.trans_ne hsome)]
    · have hreceived := received_keyEvent hwait (h.wellFormed.state.wait_lt x hw) hk
      refine ⟨hheld.received hreceived, fun more hmore k' down => ?_⟩
      rw [keyEvent_state, State.receive_of_wait_none (wait_none_run hreceived.wait_none hmore)]
  · intro hw ops hops
    have hbalance := waitsEnded_add_pending hops m
    rw [awaitingKey_eq_false_iff.mpr hw, Bool.toNat_false, Nat.add_zero] at hbalance
    exact ⟨registersWritten_eq hops m, hbalance, Nat.le.intro hbalance⟩

/-- A program that asks for two keys, before its first step. -/
def asker : Machine := (ofSeed 0).run [.load [0xF3, 0x0A, 0xF4, 0x0A]]

/-- What does not answer it: steps, a release, a key that the keypad lacks and a timer count. -/
def unanswered : List Operation := [.step, .key 7 false, .key 0x20 true, .tick, .step]

/-- Three presses in a row, and the next step. -/
def presses : List Operation := [.key 7 true, .key 8 true, .key 7 true, .step]

/-- The first wait is answered by one of three presses, and the second one is left. -/
theorem asker_takes_first_press :
    (asker.step.1.run unanswered).step.2 = .awaitingKey ∧
    asker.step.1.Received 3 7 ((asker.step.1.run unanswered).keyEvent 7 true) ∧
    asker.registersWritten (.step :: unanswered ++ presses) = 1 ∧
    (asker.run (.step :: unanswered ++ presses)).state.wait = some 4 := by
  have hreach : asker.Reachable := reachable_run 0 _
  have hwait : asker.step.1.state.wait = some 3 := by decide +kernel
  have hnone : asker.state.wait = none := by decide +kernel
  have hfirst := (wait_takes_one_press hreach.step).1 3 hwait unanswered (by decide)
  have hcounts := (wait_takes_one_press hreach).2 hnone (.step :: unanswered ++ presses) (by decide)
  refine ⟨hfirst.2.1, (hfirst.2.2 7 (by decide)).1, ?_, by decide +kernel⟩
  rw [hcounts.1]
  decide +kernel

end Machine

end ChipEight
