import ChipEight.Proofs.Machine.Executed
import ChipEight.Proofs.Machine.History
import ChipEight.Proofs.Machine.Standstill

/-!
# Calls and returns nest

A call writes its return address into the first free place of the stack. As long as the stack pointer
stays behind that place, nothing writes there or before it: a call writes at the stack pointer, a
return only moves it down, and the host reaches neither. So the return that brings the stack pointer
back finds the address, whatever was run in between.

* `step_stack_below` — a step leaves the places before the stack pointer alone;
* `Machine.Inside`, with `Inside.apply` and `Inside.run` — what holds while a call has not come back;
* `executed?_of_back` — only a return brings the stack pointer back;
* `call_return_nest` — the whole way from a call to its return.
-/

namespace ChipEight

namespace Machine

/-- A call that was made in the state `s` has not come back. The return address is in its place, and
the addresses before it are those of `s`. -/
structure Inside (s : State) (m : Machine) : Prop where
  sp_lt : s.sp < m.state.sp
  place_eq : m.state.stack[s.sp.toNat]? = some ((s.pc + 2) &&& addressMask)
  below_eq : ∀ k < s.sp.toNat, m.state.stack[k]? = s.stack[k]?

variable {m : Machine} {s : State} {op : Operation} {ops : List Operation}

/-! ### The stack in one step -/

/-- The stack pointer after a step. -/
theorem step_sp (m : Machine) : m.step.1.state.sp = match m.executed? with
    | some (.call _) => m.state.sp + 1
    | some .ret => m.state.sp - 1
    | _ => m.state.sp := by
  rw [step_part State.sp (fun s pc => rfl) m]
  cases m.executed? with
  | none => rfl
  | some ins =>
      show (m.state.perform m.generator ins).sp = _
      rw [State.perform_sp]
      cases ins <;> rfl

/-- A step leaves the return addresses alone that are on the stack before it. -/
theorem step_stack_below (m : Machine) {k : Nat} (hk : k < m.state.sp.toNat) :
    m.step.1.state.stack[k]? = m.state.stack[k]? := by
  rw [step_part State.stack (fun s pc => rfl) m]
  cases m.executed? with
  | none => rfl
  | some ins =>
      show (m.state.perform m.generator ins).stack[k]? = _
      rw [State.perform_stack]
      cases ins with
      | call a => exact Vector.getElem?_setIfInBounds_ne (Nat.ne_of_gt hk)
      | _ => rfl

/-! ### Inside a call -/

/-- A call with room on the stack goes inside. -/
theorem inside_call {target : UInt16} (ha : m.Active) (hins : m.current? = some (.call target))
    (hroom : m.state.sp.toNat < 16) : Inside m.state m.step.1 := by
  have hfault : m.state.faultOf? (.call target) = none := if_neg (Nat.not_le.mpr hroom)
  rw [step_of_executed (executed?_eq_some_iff.mpr ⟨ha, hins, hfault⟩)]
  have hsp : (m.state.sp + 1).toNat = m.state.sp.toNat + 1 := by
    rw [UInt8.toNat_add, UInt8.toNat_one]
    omega
  refine ⟨?_, ?_, ?_⟩
  · show m.state.sp < m.state.sp + 1
    rw [UInt8.lt_iff_toNat_lt, hsp]
    omega
  · exact Vector.getElem?_setIfInBounds_self_of_lt hroom
  · intro k hk
    exact Vector.getElem?_setIfInBounds_ne (Nat.ne_of_gt hk)

/-- Nothing that continues the program changes what holds inside, unless it brings the stack pointer
back. -/
theorem Inside.apply (h : Inside s m) (hop : op.Continues)
    (habove : s.sp < (m.apply op).1.state.sp) : Inside s (m.apply op).1 := by
  by_cases hstep : op = .step
  · subst hstep
    have hdepth := UInt8.lt_iff_toNat_lt.mp h.sp_lt
    refine ⟨habove, ?_, ?_⟩
    · exact (step_stack_below m hdepth).trans h.place_eq
    · intro k hk
      exact (step_stack_below m (Nat.lt_trans hk hdepth)).trans (h.below_eq k hk)
  · have hsame := sameStore_apply m hop hstep
    refine ⟨habove, ?_, ?_⟩
    · rw [hsame.stack_eq]
      exact h.place_eq
    · intro k hk
      rw [hsame.stack_eq]
      exact h.below_eq k hk

/-- **Inside a call**, by induction on what is done there. -/
theorem Inside.run (h : Inside s m) (hops : ∀ op ∈ ops, op.Continues)
    (habove : ∀ n ≤ ops.length, s.sp < (m.run (ops.take n)).state.sp) :
    Inside s (m.run ops) := by
  induction ops generalizing m with
  | nil => exact h
  | cons op ops ih =>
      rw [run_cons]
      apply ih
      · apply h.apply (hops op List.mem_cons_self)
        exact habove 1 (by simp only [List.length_cons]; omega)
      · intro op' hmem
        exact hops op' (List.mem_cons_of_mem op hmem)
      · intro n hn
        exact habove (n + 1) (by simp only [List.length_cons]; omega)

/-! ### Coming back -/

/-- Only a return brings the stack pointer back. -/
theorem executed?_of_back (h : s.sp < m.state.sp) (hback : m.step.1.state.sp = s.sp) :
    m.executed? = some .ret := by
  have hlt := UInt8.lt_iff_toNat_lt.mp h
  have hsp := step_sp m
  rw [hback] at hsp
  cases hrun : m.executed? with
  | none =>
      rw [hrun] at hsp
      rw [show s.sp = m.state.sp from hsp] at hlt
      omega
  | some ins =>
      rw [hrun] at hsp
      cases ins with
      | ret => rfl
      | call a =>
          -- a call that runs finds room, so that the stack pointer does not wrap around
          have hroom := State.sp_lt_of_call (executed?_eq_some_iff.mp hrun).2.2
          rw [hsp, UInt8.toNat_add, UInt8.toNat_one] at hlt
          omega
      | _ =>
          rw [show s.sp = m.state.sp from hsp] at hlt
          omega

/-- A return that brings the stack pointer back goes on behind the call. -/
theorem pc_of_back (h : Inside s m) (hback : m.step.1.state.sp = s.sp) :
    m.step.1.state.pc.toNat = (s.pc.toNat + 2) % memorySize := by
  have hret := executed?_of_back h.sp_lt hback
  have hsp : m.state.sp - 1 = s.sp := by
    have hstep := step_sp m
    rw [hret, hback] at hstep
    exact hstep.symm
  have htop : m.state.top = (s.pc + 2) &&& addressMask := by
    show m.state.stack.toArray.getD (m.state.sp - 1).toNat 0 = _
    rw [Array.getD_eq_getD_getElem?, hsp, Vector.getElem?_toArray, h.place_eq]
    rfl
  rw [step_of_executed hret]
  show (m.state.top &&& addressMask).toNat = _
  rw [htop, toNat_and_addressMask, toNat_and_addressMask, UInt16.toNat_add]
  show (s.pc.toNat + 2) % 65536 % 4096 % 4096 = (s.pc.toNat + 2) % 4096
  omega

/-- **Calls and returns nest.** Let a machine be about to run a call with room on the stack. Whatever
continues the program after the call, the first step that brings the stack pointer back to where it
was runs a return, the program goes on behind the call, and the return addresses that were on the
stack before the call have been there all the time. -/
theorem call_return_nest {target : UInt16} (ha : m.Active)
    (hins : m.current? = some (.call target)) (hroom : m.state.sp.toNat < 16)
    (hops : ∀ op ∈ ops, op.Continues)
    (habove : ∀ n ≤ ops.length, m.state.sp < (m.step.1.run (ops.take n)).state.sp)
    (hback : (m.step.1.run ops).step.1.state.sp = m.state.sp) :
    (m.step.1.run ops).executed? = some .ret ∧
    (m.step.1.run ops).step.1.state.pc.toNat = (m.state.pc.toNat + 2) % 4096 ∧
    ∀ k < m.state.sp.toNat,
      (∀ n ≤ ops.length, (m.step.1.run (ops.take n)).state.stack[k]? = m.state.stack[k]?) ∧
      (m.step.1.run ops).step.1.state.stack[k]? = m.state.stack[k]? := by
  have hin := inside_call ha hins hroom
  have hall : ∀ n ≤ ops.length, Inside m.state (m.step.1.run (ops.take n)) := by
    intro n hn
    apply hin.run
    · intro op hmem
      exact hops op (List.mem_of_mem_take hmem)
    · intro j hj
      rw [List.take_take]
      exact habove _ (by omega)
  have hend := hall ops.length (Nat.le_refl _)
  rw [List.take_length] at hend
  refine ⟨executed?_of_back hend.sp_lt hback, pc_of_back hend hback, ?_⟩
  intro k hk
  refine ⟨fun n hn => (hall n hn).below_eq k hk, ?_⟩
  have hlive := Nat.lt_trans hk (UInt8.lt_iff_toNat_lt.mp hend.sp_lt)
  exact (step_stack_below _ hlive).trans (hend.below_eq k hk)

/-- A program that calls a routine, which calls another one, before its first step. -/
def caller : Machine :=
  (ofSeed 0).run [.load [0x22, 0x04, 0x12, 0x02, 0x22, 0x08, 0x00, 0xEE, 0x00, 0xEE]]

/-- What is done inside the outer call: the inner call and its return, with a key and a timer count
between them. -/
def insideCaller : List Operation := [.step, .key 3 true, .tick, .step]

/-- The outer call comes back. -/
theorem caller_nests : (caller.step.1.run insideCaller).executed? = some .ret ∧
    (caller.step.1.run insideCaller).step.1.state.pc.toNat = 0x202 := by
  have hactive : caller.Active := ⟨by decide +kernel, by decide +kernel, by decide +kernel⟩
  have hcall : caller.current? = some (.call 0x204) := by decide +kernel
  have hops : ∀ op ∈ insideCaller, op.Continues := by decide
  have hpc : caller.state.pc.toNat = 0x200 := by decide +kernel
  have hnest := call_return_nest hactive hcall (by decide +kernel) hops (by decide +kernel)
    (by decide +kernel)
  rw [hpc] at hnest
  exact ⟨hnest.1, hnest.2.1⟩

end Machine

end ChipEight
