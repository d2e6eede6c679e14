import ChipEight.Proofs.Machine.Footprint
import ChipEight.Proofs.Machine.Standstill

/-!
# What remains of a program that has halted

A program halts when its program counter has left the memory. From then on nothing runs, with one
reservation: the last instruction may have been the one that waits for a key. A wait comes before
the end of memory, so that the first key pressed still goes to its register, and steps come to a
halt again only after that.

* `PastEnd.run` — a history that continues a halted program, with or without a wait;
* `wait_of_step_halted` — when a wait is left;
* `halt_final_up_to_wait` — the two together;
* `not_halt_final` — the reservation is needed.
-/

namespace ChipEight

/-- The first key that a history presses. -/
def firstPress? (ops : List Operation) : Option UInt8 := ops.findSome? Operation.press?

namespace Machine

variable {m : Machine} {x : UInt8} {op : Operation} {ops : List Operation}

/-! ### Past the end of memory -/

/-- The program counter has left the memory. -/
structure PastEnd (m : Machine) : Prop where
  fault_none : m.fault = none
  lt_pc : lastInstruction < m.state.pc

/-- What one operation does to a program past the end: it receives the key that is pressed. -/
theorem PastEnd.apply (h : m.PastEnd) (hop : op.Continues) :
    (m.apply op).1.PastEnd ∧ m.state.SameStore (m.apply op).1.state ∧
      (m.state.receive op.press?).SameRegisters (m.apply op).1.state := by
  have hsame : (m.state.receive none).SameRegisters m.state := by
    rw [State.receive_none]
    exact .rfl
  cases op with
  | load program =>
      simp only [Machine.apply, load_of_too_large m hop]
      exact ⟨h, .rfl, hsame⟩
  | reset => exact hop.elim
  | step =>
      have hfix : (m.apply .step).1 = m := step_fixed_of_pastEnd h.fault_none h.lt_pc
      rw [hfix]
      exact ⟨h, .rfl, hsame⟩
  | tick => exact ⟨⟨h.fault_none, h.lt_pc⟩, sameStore_tick m, hsame.trans (sameRegisters_tick m)⟩
  | key k down =>
      have hstore := m.state.sameStore_receive (Operation.key k down).press?
      have hstate : (m.apply (.key k down)).1.state = _ := keyEvent_state m k down
      rw [hstate]
      refine ⟨⟨(keyEvent_fault m k down).trans h.fault_none, ?_⟩, hstore, .rfl⟩
      rw [hstate, hstore.pc_eq]
      exact h.lt_pc
  | isPressed k => exact ⟨h, .rfl, hsame⟩
  | current => exact ⟨h, .rfl, hsame⟩
  | takeFrame =>
      have hstore := sameStore_takeFrame m
      refine ⟨⟨(takeFrame_fault m).trans h.fault_none, ?_⟩, hstore,
        hsame.trans (sameRegisters_takeFrame m)⟩
      show lastInstruction < m.takeFrame.1.state.pc
      rw [hstore.pc_eq]
      exact h.lt_pc

/-- **A history that continues a program past the end.** Of all that happens the program receives
the first key. -/
theorem PastEnd.run (h : m.PastEnd) (hops : ∀ op ∈ ops, op.Continues) :
    (m.run ops).PastEnd ∧ m.state.SameStore (m.run ops).state ∧
      (m.state.receive (firstPress? ops)).SameRegisters (m.run ops).state := by
  induction ops generalizing m with
  | nil =>
      refine ⟨h, .rfl, ?_⟩
      rw [show firstPress? [] = none from rfl, State.receive_none]
      exact .rfl
  | cons op ops ih =>
      obtain ⟨hend, hstore, hregs⟩ := h.apply (hops op List.mem_cons_self)
      obtain ⟨hend', hstore', hregs'⟩ := ih hend fun op' hmem =>
        hops op' (List.mem_cons_of_mem op hmem)
      refine ⟨hend', hstore.trans hstore', ?_⟩
      rw [run_cons, firstPress?, List.findSome?_cons]
      cases hp : op.press? with
      | none =>
          rw [hp, State.receive_none] at hregs
          exact (hregs.receive _).trans hregs'
      | some k =>
          -- the wait is over, so that later keys are not received
          rw [hp] at hregs
          have hwait := hregs.wait_eq.trans (State.receive_some_wait _ k)
          rw [State.receive_of_wait_none hwait] at hregs'
          exact hregs.trans hregs'

/-! ### After a halt -/

theorem pastEnd_of_step_halted (h : m.step.2 = .halted) : m.step.1.PastEnd := by
  have hstep : m.step = (m.step.1, .halted) := Prod.ext rfl h
  obtain ⟨hfault, hpc⟩ := of_step_halted hstep
  exact ⟨hfault, hpc⟩

/-- A step that comes to a halt leaves a wait exactly if it ran the instruction that waits for a
key. -/
theorem wait_of_step_halted (h : m.step.2 = .halted) :
    m.step.1.state.wait = some x ↔
      m.Active ∧ ∃ y, m.current? = some (.awaitKey y) ∧ x = y &&& 0xF := by
  generalize hs : m.step = r at h ⊢
  obtain ⟨m', o⟩ := r
  cases stepped_of_eq hs with
  | stopped hf => cases h
  | waiting hf hw => cases h
  | skip ha hd => cases h
  | stop ha hd hx => cases h
  | pastEnd hf hw hp =>
      rw [hw]
      constructor
      · intro hx
        cases hx
      · rintro ⟨ha, -⟩
        exact (not_lastInstruction_lt ha hp).elim
  | @run ins ha hd hx =>
      have hwait := m.state.perform_wait m.generator ins
      rw [show (m.execute ins).state.wait = _ from hwait, hd, ha.wait_none]
      constructor
      · intro hx
        cases ins with
        | awaitKey y =>
            cases hx
            exact ⟨ha, y, rfl, rfl⟩
        | _ => cases hx
      · rintro ⟨-, y, hins, rfl⟩
        cases hins
        rfl

/-- **A halt is final up to a wait for a key.** After a step that came to a halt, nothing that
continues the program changes its index register, program counter, stack, memory or frame. If the
step left no wait, all later steps come to a halt and the registers stay. If it left one, which is
so if it ran the instruction that waits, steps report the wait until the first press, which sets
the one register, and come to a halt from then on. -/
theorem halt_final_up_to_wait (h : m.step.2 = .halted) (hops : ∀ op ∈ ops, op.Continues) :
    m.step.1.state.SameStore (m.step.1.run ops).state ∧
    (m.step.1.state.wait = none → (m.step.1.run ops).step.2 = .halted ∧
      (m.step.1.run ops).state.v = m.step.1.state.v) ∧
    (∀ x, m.step.1.state.wait = some x ↔
      m.Active ∧ ∃ y, m.current? = some (.awaitKey y) ∧ x = y &&& 0xF) ∧
    (∀ x, m.step.1.state.wait = some x →
      match firstPress? ops with
      | none => (m.step.1.run ops).step.2 = .awaitingKey ∧
          (m.step.1.run ops).state.v = m.step.1.state.v
      | some k => (m.step.1.run ops).step.2 = .halted ∧
          (m.step.1.run ops).state.v = (m.step.1.state.setReg x k).v) := by
  obtain ⟨hend, hstore, hregs⟩ := (pastEnd_of_step_halted h).run hops
  refine ⟨hstore, ?_, fun x => wait_of_step_halted h, ?_⟩
  · intro hw
    rw [State.receive_of_wait_none hw] at hregs
    refine ⟨?_, hregs.v_eq⟩
    rw [step_of_pastEnd hend.fault_none (hregs.wait_eq.trans hw) hend.lt_pc]
  · intro x hw
    cases hkey : firstPress? ops with
    | none =>
        rw [hkey, State.receive_none] at hregs
        refine ⟨?_, hregs.v_eq⟩
        rw [step_of_wait hend.fault_none]
        rw [hregs.wait_eq, hw]
        exact Option.some_ne_none x
    | some k =>
        rw [hkey, State.receive_of_wait hw] at hregs
        refine ⟨?_, hregs.v_eq⟩
        rw [step_of_pastEnd hend.fault_none hregs.wait_eq hend.lt_pc]

/-- A program that stores the word `F30A` in front of the last byte of memory and jumps there, before
the step that runs this word and comes to a halt. -/
def waitAtEnd : Machine :=
  (ofSeed 0).run [.load [0xAF, 0xFD, 0x60, 0xF3, 0x61, 0x0A, 0xF1, 0x55, 0x1F, 0xFD],
    .step, .step, .step, .step, .step]

theorem waitAtEnd_step : waitAtEnd.step.2 = .halted ∧ waitAtEnd.step.1.state.wait = some 3 := by
  decide +kernel

/-- The key that is pressed after two more steps goes to its register, and the program rests. -/
theorem waitAtEnd_receives :
    (waitAtEnd.step.1.run [.step, .step, .key 5 true]).step.2 = .halted ∧
      (waitAtEnd.step.1.run [.step, .step, .key 5 true]).state.v =
        (waitAtEnd.step.1.state.setReg 3 5).v := by
  have hops : ∀ op ∈ [Operation.step, .step, .key 5 true], op.Continues := by decide
  exact (halt_final_up_to_wait waitAtEnd_step.1 hops).2.2.2 3 waitAtEnd_step.2

/-- **A halt need not be final.** -/
theorem not_halt_final :
    ¬ ∀ m : Machine, m.Reachable → m.step.2 = .halted →
      ∀ ops : List Operation, (∀ op ∈ ops, op.Continues) →
        (m.step.1.run ops).step.2 = .halted ∧ (m.step.1.run ops).state.v = m.step.1.state.v ∧
        m.step.1.state.SameStore (m.step.1.run ops).state := by
  intro hfinal
  obtain ⟨hhalted, hwait⟩ := waitAtEnd_step
  have hnext := (hfinal waitAtEnd (reachable_run 0 _) hhalted [] (by decide)).1
  have hawaits := step_of_wait (pastEnd_of_step_halted hhalted).fault_none
    (hwait.trans_ne (Option.some_ne_none 3))
  rw [run_nil, hawaits] at hnext
  cases hnext

end Machine

end ChipEight
