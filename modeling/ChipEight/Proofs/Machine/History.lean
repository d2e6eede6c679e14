import Mathlib.Data.List.Induction
import ChipEight.Journal
import ChipEight.Proofs.Machine.Step

/-!
# Histories

The life of a machine is a list of operations (`Machine.run`). This file packages the inductions
over such lists:

* `Machine.Reachable` — the machines that some history leads to, with `Reachable.induction`;
* `Operation.Continues` — the operations that leave the program where it is, that is all but a
  reset and a load that is accepted; by `apply_of_not_continues` these two start a
  program;
* `run_of_continues` — what steps, timer counts, key events and taken frames keep, a history of
  such operations keeps.
-/

namespace ChipEight

/-- The operation neither starts the program again nor replaces it. A load counts if it is
refused. -/
def Operation.Continues : Operation → Prop
  | .load program => maxProgramSize < program.length
  | .reset => False
  | _ => True

instance : DecidablePred Operation.Continues := fun op => by
  cases op <;> unfold Operation.Continues <;> infer_instance

namespace Machine

variable {m : Machine} {op : Operation} {ops : List Operation}

theorem run_nil (m : Machine) : m.run [] = m := rfl

theorem run_cons (m : Machine) (op : Operation) (ops : List Operation) :
    m.run (op :: ops) = (m.apply op).1.run ops := rfl

theorem run_append (m : Machine) (ops ops' : List Operation) :
    m.run (ops ++ ops') = (m.run ops).run ops' := by
  simp only [run, List.foldl_append]

theorem run_concat (m : Machine) (ops : List Operation) (op : Operation) :
    m.run (ops ++ [op]) = ((m.run ops).apply op).1 := by
  rw [run_append]
  rfl

/-- The machine that a step after some operations, and more after it, lead to. -/
theorem run_around_step (m : Machine) (before after : List Operation) :
    m.run (before ++ .step :: after) = (m.run before).step.1.run after := by
  rw [run_append, run_cons]
  rfl

/-! ### Reachable machines -/

/-- The machine is what some history made of a new one. -/
def Reachable (m : Machine) : Prop :=
  ∃ (seed : UInt64) (ops : List Operation), m = (ofSeed seed).run ops

theorem reachable_run (seed : UInt64) (ops : List Operation) :
    ((ofSeed seed).run ops).Reachable := ⟨seed, ops, rfl⟩

theorem Reachable.run (h : m.Reachable) (ops : List Operation) : (m.run ops).Reachable := by
  obtain ⟨seed, before, rfl⟩ := h
  rw [← run_append]
  exact reachable_run seed _

theorem Reachable.step (h : m.Reachable) : m.step.1.Reachable := h.run [.step]

/-- What holds of new machines and is kept by every operation holds of all reachable machines. -/
theorem Reachable.induction {P : Machine → Prop} (hnew : ∀ seed, P (ofSeed seed))
    (hkeep : ∀ m op, P m → P (m.apply op).1) (h : m.Reachable) : P m := by
  obtain ⟨seed, ops, rfl⟩ := h
  induction ops using List.reverseRecOn with
  | nil => exact hnew seed
  | append_singleton ops op ih =>
      rw [run_concat]
      exact hkeep _ op ih

/-! ### Histories that continue a program -/

theorem load_of_too_large (m : Machine) {program : List UInt8}
    (h : maxProgramSize < program.length) :
    m.load program = .error (.programTooLarge program.length) := if_pos h

/-- An operation that does not continue the program starts one. -/
theorem apply_of_not_continues (m : Machine) (hop : ¬ op.Continues) :
    ∃ program, (m.apply op).1 = { m with program := program }.reset := by
  cases op with
  | load program =>
      have hfits : ¬ maxProgramSize < program.length := hop
      exact ⟨program, by simp only [apply, load, if_neg hfits]⟩
  | reset => exact ⟨m.program, rfl⟩
  | _ => exact (hop trivial).elim

/-- What steps, timer counts, key events and taken frames keep, a history that continues the program
keeps. -/
theorem run_of_continues {P : Machine → Prop} (hops : ∀ op ∈ ops, op.Continues) (h : P m)
    (hstep : ∀ m, P m → P m.step.1) (htick : ∀ m, P m → P m.tick)
    (hkey : ∀ m k down, P m → P (m.keyEvent k down))
    (hframe : ∀ m, P m → P m.takeFrame.1) : P (m.run ops) := by
  induction ops generalizing m with
  | nil => exact h
  | cons op ops ih =>
      have hop := hops op List.mem_cons_self
      have hrest := fun op' h' => hops op' (List.mem_cons_of_mem op h')
      rw [run_cons]
      apply ih hrest
      cases op with
      | load program =>
          simp only [apply, load_of_too_large m hop]
          exact h
      | reset => exact hop.elim
      | step => exact hstep m h
      | tick => exact htick m h
      | key k down => exact hkey m k down h
      | isPressed k => exact h
      | current => exact h
      | takeFrame => exact hframe m h

end Machine

end ChipEight
