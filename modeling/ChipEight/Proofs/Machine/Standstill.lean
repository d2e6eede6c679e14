import ChipEight.Proofs.Machine.History

/-!
# What the host leaves alone

Between steps a host counts down the timers, presses and releases keys and takes frames. None of
this reaches the parts of the state that `State.SameStore` compares, and a key reaches the registers
only through a wait:

* `State.receive` — a key as the state sees it;
* `keyEvent_eq`, `takeFrame_eq` — all that a key event and the taking of a frame do;
* `sameStore_tick`, `sameStore_receive`, `sameStore_takeFrame` — what the three operations leave
  alone;
* `sameStore_apply` — what every operation besides a step leaves alone.
-/

namespace ChipEight

/-- The two states agree in the index register, the program counter, the stack, the memory and the
frame. -/
structure State.SameStore (s s' : State) : Prop where
  i_eq : s'.i = s.i
  pc_eq : s'.pc = s.pc
  sp_eq : s'.sp = s.sp
  stack_eq : s'.stack = s.stack
  memory_eq : s'.memory = s.memory
  frame_eq : s'.frame = s.frame

/-- The two states agree in the registers and in the register that waits for a key. -/
structure State.SameRegisters (s s' : State) : Prop where
  v_eq : s'.v = s.v
  wait_eq : s'.wait = s.wait

/-- The key that an operation presses. -/
def Operation.press? : Operation → Option UInt8
  | .key k true => if k.toNat < registerCount then some k else none
  | _ => none

/-- The state after a key, if there is one and it is waited for. -/
def State.receive (s : State) (key : Option UInt8) : State :=
  match s.wait, key with
  | some x, some k => { s.setReg x k with wait := none }
  | _, _ => s

namespace State

variable {s s' s'' : State} {x : UInt8}

theorem SameStore.rfl : s.SameStore s := by
  constructor <;> rfl

theorem SameStore.trans (h : s.SameStore s') (h' : s'.SameStore s'') : s.SameStore s'' where
  i_eq := h'.i_eq.trans h.i_eq
  pc_eq := h'.pc_eq.trans h.pc_eq
  sp_eq := h'.sp_eq.trans h.sp_eq
  stack_eq := h'.stack_eq.trans h.stack_eq
  memory_eq := h'.memory_eq.trans h.memory_eq
  frame_eq := h'.frame_eq.trans h.frame_eq

/-- The same word is at the same program counter. -/
theorem SameStore.current?_eq (h : s.SameStore s') : s'.current? = s.current? := by
  rw [current?, current?, h.memory_eq, h.pc_eq]

theorem SameRegisters.rfl : s.SameRegisters s := by
  constructor <;> rfl

theorem SameRegisters.trans (h : s.SameRegisters s') (h' : s'.SameRegisters s'') :
    s.SameRegisters s'' where
  v_eq := h'.v_eq.trans h.v_eq
  wait_eq := h'.wait_eq.trans h.wait_eq

/-! ### Receiving a key -/

theorem receive_of_wait_none (h : s.wait = none) (key : Option UInt8) : s.receive key = s := by
  simp only [receive, h]

theorem receive_of_wait (h : s.wait = some x) (k : UInt8) :
    s.receive (some k) = { s.setReg x k with wait := none } := by
  simp only [receive, h]

theorem receive_none (s : State) : s.receive none = s := by
  cases hw : s.wait <;> simp only [receive, hw]

/-- After a key nothing is waited for. -/
theorem receive_some_wait (s : State) (k : UInt8) : (s.receive (some k)).wait = none := by
  cases hw : s.wait with
  | none => rw [receive_of_wait_none hw, hw]
  | some x => rw [receive_of_wait hw]

theorem sameStore_receive (s : State) (key : Option UInt8) : s.SameStore (s.receive key) := by
  unfold receive
  split
  · constructor <;> rfl
  · exact .rfl

/-- What a key does to the registers depends on these and on the wait alone. -/
theorem SameRegisters.receive (h : s.SameRegisters s') (key : Option UInt8) :
    (s.receive key).SameRegisters (s'.receive key) := by
  cases hw : s.wait with
  | none =>
      rw [receive_of_wait_none hw, receive_of_wait_none (h.wait_eq.trans hw)]
      exact h
  | some x =>
      cases key with
      | none =>
          rw [receive_none, receive_none]
          exact h
      | some k =>
          rw [receive_of_wait hw, receive_of_wait (h.wait_eq.trans hw)]
          exact ⟨congrArg (fun v => v.set (place x) k) h.v_eq, Eq.refl none⟩

end State

namespace Machine

variable {m : Machine}

/-! ### The three operations -/

theorem sameStore_tick (m : Machine) : m.state.SameStore m.tick.state := by
  constructor <;> rfl

theorem sameRegisters_tick (m : Machine) : m.state.SameRegisters m.tick.state := by
  constructor <;> rfl

/-- **A key event** reaches the keypad and, through a wait, the registers. -/
theorem keyEvent_eq (m : Machine) (k : UInt8) (down : Bool) :
    m.keyEvent k down = { m with
      state := m.state.receive (Operation.key k down).press?
      keypad := m.keypad.setIfInBounds k.toNat down } := by
  by_cases hk : k.toNat < registerCount
  · have hset : m.keypad.setIfInBounds k.toNat down = m.keypad.set k.toNat down hk := by
      simp [Vector.setIfInBounds, Vector.set, Array.setIfInBounds, hk]
    rw [keyEvent, dif_pos hk, hset]
    cases down with
    | false =>
        have hnone : (Operation.key k false).press? = none := rfl
        rw [hnone, State.receive_none]
        rfl
    | true =>
        have hpress : (Operation.key k true).press? = some k := if_pos hk
        rw [hpress]
        cases hw : m.state.wait with
        | none => simp only [if_true, completeWait, hw, State.receive]
        | some x => simp only [if_true, completeWait, hw, State.receive]
  · have hpress : (Operation.key k down).press? = none := by
      cases down with
      | false => rfl
      | true => exact if_neg hk
    have hset : m.keypad.setIfInBounds k.toNat down = m.keypad :=
      Vector.setIfInBounds_eq_of_size_le (Nat.not_lt.mp hk)
    rw [keyEvent, dif_neg hk, hpress, State.receive_none, hset]

theorem keyEvent_state (m : Machine) (k : UInt8) (down : Bool) :
    (m.keyEvent k down).state = m.state.receive (Operation.key k down).press? := by
  rw [keyEvent_eq]

theorem keyEvent_fault (m : Machine) (k : UInt8) (down : Bool) :
    (m.keyEvent k down).fault = m.fault := by
  rw [keyEvent_eq]

/-- **Taking a frame**: it is handed over if the mark is set, and the mark is clear then. -/
theorem takeFrame_eq (m : Machine) :
    m.takeFrame = ({ m with state := { m.state with redraw := false } },
      if m.state.redraw then some m.state.frame else none) := by
  unfold takeFrame
  cases hmark : m.state.redraw with
  | true => rfl
  | false =>
      have hsame : m = { m with state := { m.state with redraw := false } } := by
        rw [← hmark]
      exact congrArg (fun m' => (m', none)) hsame

theorem takeFrame_fault (m : Machine) : m.takeFrame.1.fault = m.fault := by
  rw [takeFrame_eq]

theorem sameStore_takeFrame (m : Machine) : m.state.SameStore m.takeFrame.1.state := by
  rw [takeFrame_eq]
  constructor <;> rfl

theorem sameRegisters_takeFrame (m : Machine) : m.state.SameRegisters m.takeFrame.1.state := by
  rw [takeFrame_eq]
  constructor <;> rfl

/-- Of all operations that continue a program only steps reach these parts. -/
theorem sameStore_apply (m : Machine) {op : Operation} (hop : op.Continues) (hstep : op ≠ .step) :
    m.state.SameStore (m.apply op).1.state := by
  cases op with
  | load program =>
      simp only [apply, load_of_too_large m hop]
      exact .rfl
  | reset => exact hop.elim
  | step => exact (hstep rfl).elim
  | tick => exact sameStore_tick m
  | key k down =>
      show m.state.SameStore (m.keyEvent k down).state
      rw [keyEvent_state]
      exact State.sameStore_receive m.state _
  | isPressed k => exact .rfl
  | current => exact .rfl
  | takeFrame => exact sameStore_takeFrame m

end Machine

end ChipEight
