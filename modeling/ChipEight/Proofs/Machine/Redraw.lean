import ChipEight.Proofs.Machine.Executed
import ChipEight.Proofs.Machine.Standstill

/-!
# The redraw mark and the frames that are taken

The mark says that the frame may differ from the one that was last taken. Within a program that is
so: only the two instructions that draw reach the frame, and both set the mark. But a start of the
program blanks the frame and clears the mark together, so that a host which goes by taken frames alone
does not hear of it.

* `Machine.InStep` — the mark is set, or the frame is the one that is shown;
* `InStep.step`, `InStep.apply` — what keeps it, and `InStep.takeFrame` what restores it;
* `redraw_steps` — the mark is set by instructions that draw and by nothing else;
* `takeFrame_since_start` — what taking a frame tells in every history;
* `not_takeFrame_since_ever` — what it does not tell.
-/

namespace ChipEight

/-- The instruction draws on the frame. -/
def Instruction.draws : Instruction → Bool
  | .clearScreen => true
  | .draw _ _ _ => true
  | _ => false

/-- The frame that an answer hands over. -/
def Reply.taken? : Reply → Option Frame
  | .frame taken => taken
  | _ => none

namespace Machine

/-- The mark is set, or the frame is still the one that is shown. -/
def InStep (shown : Frame) (m : Machine) : Prop :=
  m.state.redraw = true ∨ m.state.frame = shown

/-- The frame that was taken last in a history, `shown` if none was. -/
def lastTaken : Machine → Frame → List Operation → Frame
  | _, shown, [] => shown
  | m, shown, op :: ops => lastTaken (m.apply op).1 ((m.apply op).2.taken?.getD shown) ops

/-- The frame that was taken last in a history since the program was started, blank if none was. -/
def lastTakenSinceStart : Machine → Frame → List Operation → Frame
  | _, shown, [] => shown
  | m, shown, op :: ops =>
    lastTakenSinceStart (m.apply op).1
      (if op.Continues then (m.apply op).2.taken?.getD shown else Frame.blank) ops

variable {m : Machine} {shown : Frame} {op : Operation} {ops : List Operation}

/-! ### Steps -/

/-- The mark after a step: instructions that draw set it, and nothing clears it. -/
theorem redraw_step (m : Machine) :
    m.step.1.state.redraw = (m.executed?.any Instruction.draws || m.state.redraw) := by
  rw [step_part State.redraw (fun s pc => rfl) m]
  cases m.executed? with
  | none => rfl
  | some ins =>
      show (m.state.perform m.generator ins).redraw = (ins.draws || m.state.redraw)
      rw [State.perform_redraw]
      cases ins <;> rfl

/-- A step without an instruction that draws leaves the frame alone. -/
theorem frame_step (h : m.executed?.any Instruction.draws = false) :
    m.step.1.state.frame = m.state.frame := by
  rw [step_part State.frame (fun s pc => rfl) m]
  cases hrun : m.executed? with
  | none => rfl
  | some ins =>
      have hdraws : ins.draws = false := by
        rw [hrun] at h
        exact h
      show (m.state.perform m.generator ins).frame = _
      rw [State.perform_frame]
      cases ins with
      | clearScreen => cases hdraws
      | draw x y n => cases hdraws
      | _ => rfl

theorem InStep.step (h : m.InStep shown) : m.step.1.InStep shown := by
  have hmark := redraw_step m
  cases hdraws : m.executed?.any Instruction.draws with
  | true =>
      rw [hdraws] at hmark
      exact .inl hmark
  | false =>
      rw [hdraws, Bool.false_or] at hmark
      rw [InStep, hmark, frame_step hdraws]
      exact h

/-- The mark after several steps. -/
theorem redraw_steps (n : Nat) (m : Machine) :
    (m.steps n).state.redraw = ((m.executedIn n).any Instruction.draws || m.state.redraw) := by
  induction n generalizing m with
  | zero => rfl
  | succ n ih =>
      have hfirst : m.executed?.toList.any Instruction.draws = m.executed?.any Instruction.draws := by
        cases m.executed? with
        | none => rfl
        | some ins => exact Bool.or_false _
      rw [steps, ih, redraw_step, executedIn, List.any_append, hfirst, Bool.or_assoc]
      exact Bool.or_left_comm _ _ _

theorem InStep.steps (n : Nat) (h : m.InStep shown) : (m.steps n).InStep shown := by
  induction n generalizing m with
  | zero => exact h
  | succ n ih => exact ih h.step

/-! ### The host -/

theorem redraw_keyEvent (m : Machine) (k : UInt8) (down : Bool) :
    (m.keyEvent k down).state.redraw = m.state.redraw := by
  rw [keyEvent_state]
  unfold State.receive
  split <;> rfl

theorem InStep.keyEvent (h : m.InStep shown) (k : UInt8) (down : Bool) :
    (m.keyEvent k down).InStep shown := by
  have hstore := m.state.sameStore_receive (Operation.key k down).press?
  rw [← keyEvent_state] at hstore
  rw [InStep, redraw_keyEvent, hstore.frame_eq]
  exact h

/-- After a frame was taken the host knows the frame of the machine. -/
theorem InStep.takeFrame (h : m.InStep shown) :
    m.takeFrame.1.state.redraw = false ∧
      m.takeFrame.1.state.frame = m.takeFrame.2.getD shown := by
  rw [takeFrame_eq]
  refine ⟨rfl, ?_⟩
  rcases h with hmark | hframe
  · rw [hmark]
    rfl
  · rw [← hframe]
    cases m.state.redraw <;> rfl

/-- What continues a program keeps a host in step that goes by the taken frames. -/
theorem InStep.apply (h : m.InStep shown) (hop : op.Continues) :
    (m.apply op).1.InStep ((m.apply op).2.taken?.getD shown) := by
  cases op with
  | load program =>
      simp only [Machine.apply, load_of_too_large m hop]
      exact h
  | reset => exact hop.elim
  | step => exact h.step
  | tick => exact h
  | key k down => exact h.keyEvent k down
  | isPressed k => exact h
  | current => exact h
  | takeFrame => exact .inr h.takeFrame.2

/-- A start of the program blanks the frame without a mark. -/
theorem start_hides_frame (m : Machine) (hop : ¬ op.Continues) :
    (m.apply op).1.takeFrame.2 = none ∧ (m.apply op).1.state.frame = Frame.blank := by
  obtain ⟨program, hstart⟩ := apply_of_not_continues m hop
  rw [hstart]
  exact ⟨rfl, rfl⟩

/-! ### Histories -/

theorem InStep.run (h : m.InStep shown) :
    (m.run ops).InStep (m.lastTakenSinceStart shown ops) := by
  induction ops generalizing m shown with
  | nil => exact h
  | cons op ops ih =>
      rw [run_cons, lastTakenSinceStart]
      apply ih
      by_cases hop : op.Continues
      · rw [if_pos hop]
        exact h.apply hop
      · rw [if_neg hop]
        exact .inr (start_hides_frame m hop).2

/-- **What taking a frame tells.** In every history of a machine, a frame that is taken is the frame
of the machine. If none is handed over, the frame of the machine is the one that was taken last since
the program was started, or blank if none was taken since. -/
theorem takeFrame_since_start (seed : UInt64) (ops : List Operation) :
    match ((ofSeed seed).run ops).takeFrame.2 with
    | some taken => taken = ((ofSeed seed).run ops).state.frame
    | none => ((ofSeed seed).run ops).state.frame =
        (ofSeed seed).lastTakenSinceStart Frame.blank ops := by
  have hnew : (ofSeed seed).InStep Frame.blank := .inr rfl
  have hrun : ((ofSeed seed).run ops).InStep _ := hnew.run
  rw [takeFrame_eq]
  rcases hrun with hmark | hframe
  · rw [hmark]
    rfl
  · cases ((ofSeed seed).run ops).state.redraw with
    | true => rfl
    | false => exact hframe

/-- A program that draws a digit. The frame is taken, and then the program is started again. -/
def drawnThenReset : List Operation :=
  [.load [0xF0, 0x29, 0xD0, 0x15], .step, .step, .takeFrame, .reset]

/-- **Taking frames does not tell of a start of the program.** The frame need not be the one that was
taken last in the whole history, though none is handed over. -/
theorem not_takeFrame_since_ever :
    ¬ ∀ (seed : UInt64) (ops : List Operation),
      ((ofSeed seed).run ops).takeFrame.2 = none →
        ((ofSeed seed).run ops).state.frame = (ofSeed seed).lastTaken Frame.blank ops := by
  intro htells
  have hnone : ((ofSeed 0).run drawnThenReset).takeFrame.2 = none := by decide +kernel
  have hlit : ((ofSeed 0).lastTaken Frame.blank drawnThenReset).lit = 14 := by decide +kernel
  rw [← htells 0 drawnThenReset hnone] at hlit
  revert hlit
  decide +kernel

end Machine

end ChipEight
