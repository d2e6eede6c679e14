import ChipEight.Proofs.Machine.InRange

/-!
# Histories fail no check

From a new machine on, every operation that checks its sums, places and blocks has a result, in any
order and with any arguments. A word is fetched only where both of its bytes are in memory.

* `splice_eq` — the glyphs and every program that fits lie in memory as a block;
* `step_eq`, `apply_eq` — one operation;
* `run_eq`, `history_in_range` — a whole history.
-/

namespace ChipEight.Guarded

/-! ### Blocks at fixed places -/

/-- Putting a block where it fits is writing it byte by byte. -/
theorem splice_eq (m : Memory) {a : UInt16} {block : List UInt8}
    (h : a.toNat + block.length ≤ memorySize) (ha : a.toNat < memorySize) :
    splice m a.toNat (a.toNat + block.length) block = some (m.copy a block) := by
  have hcell : (Memory.cell a).val = a.toNat := Nat.mod_eq_of_lt ha
  have hcopy := Memory.getElem_copy m a block (by omega)
  rw [splice, if_pos ⟨by omega, h, by omega⟩]
  refine congrArg (fun bytes => some (Memory.mk bytes)) (Vector.ext fun k hk => ?_)
  simp only [hcopy k hk, Vector.getElem_ofFn]
  by_cases hin : a.toNat ≤ k ∧ k < a.toNat + block.length
  · rw [if_pos hin, Memory.distance_of_le hk (by omega), hcell,
      List.getElem?_eq_getElem (by omega)]
    rw [List.getD_eq_getElem?_getD, List.getElem?_eq_getElem (by omega)]
    rfl
  · have hdist : block.length ≤ Memory.distance a k := by
      rcases Nat.lt_or_ge k a.toNat with hlt | hge
      · rw [Memory.distance_of_lt (by omega)]
        omega
      · rw [Memory.distance_of_le hk (by omega)]
        omega
    rw [if_neg hin, List.getElem?_eq_none hdist]
    rfl

theorem powerOn_eq : powerOn = some Memory.powerOn := by
  have hfits : fontAddress.toNat + glyphs.length ≤ memorySize := by decide
  have hstop : addSize fontAddress.toNat glyphs.length =
      some (fontAddress.toNat + glyphs.length) := addSize_eq (by decide)
  rw [powerOn, hstop]
  exact splice_eq Memory.blank hfits (by decide)

variable {m : Machine}

theorem reset_eq (h : m.program.length ≤ 3583) : reset m = some m.reset := by
  have hstart : programStart.toNat = 512 := rfl
  have hfits : programStart.toNat + m.program.length ≤ memorySize := by
    show 512 + m.program.length ≤ 4096
    omega
  have hstop : addSize programStart.toNat m.program.length =
      some (programStart.toNat + m.program.length) := addSize_eq (by omega)
  rw [reset, hstop, powerOn_eq]
  simp only [Option.bind_eq_bind, Option.bind_some, splice_eq _ hfits (by decide)]
  rfl

/-! ### Operations -/

theorem step_of_active (ha : m.Active) : step m = stepWord m := by
  simp only [step, ha.fault_none, Machine.awaitingKey_eq_false_iff.mpr ha.wait_none,
    Machine.not_lastInstruction_lt ha, Bool.false_eq_true, if_false]

/-- The word at the program counter is fetched and run, or stops the machine. -/
theorem stepWord_eq (h : m.WellFormed) (ha : m.Active) {ins : Instruction}
    (hd : m.current? = some ins) :
    stepWord m = some (match m.state.faultOf? ins with
      | some f => (m.stop f, .faulted f)
      | none => (m.execute ins, Machine.outcomeOf ins (m.execute ins))) := by
  have hdec : Instruction.decode? (m.state.memory.wordAt m.state.pc) = some ins := hd
  have hins := Instruction.decode?_inRange hdec
  rw [stepWord, fetch_eq _ ha.pc_le]
  simp only [Option.bind_eq_bind, Option.bind_some, hdec, execute_eq h.state ha.pc_le hins]
  cases m.state.faultOf? ins with
  | some f => rfl
  | none => rfl

/-- **A step of a machine within its bounds fails no check.** -/
theorem step_eq (h : m.WellFormed) : step m = some m.step := by
  generalize hs : m.step = r
  obtain ⟨m', o⟩ := r
  cases Machine.stepped_of_eq hs with
  | stopped hf => simp only [step, hf]
  | waiting hf hw =>
      have ha : m.awaitingKey = true := Option.isSome_iff_ne_none.mpr hw
      simp only [step, hf, ha, if_true]
  | pastEnd hf hw hp =>
      simp only [step, hf, Machine.awaitingKey_eq_false_iff.mpr hw, hp, if_true]
      rfl
  | skip ha hd =>
      have hpc := State.pc_toNat_le ha.pc_le
      have hnext : addWord m.state.pc 2 = some (m.state.pc + 2) :=
        addWord_eq (show m.state.pc.toNat + 2 < 65536 by omega)
      have hdec : Instruction.decode? (m.state.memory.wordAt m.state.pc) = none := hd
      rw [step_of_active ha, stepWord, fetch_eq _ ha.pc_le]
      simp only [Option.bind_eq_bind, Option.bind_some, hdec, hnext]
      rfl
  | stop ha hd hx => rw [step_of_active ha, stepWord_eq h ha hd, hx]
  | run ha hd hx => rw [step_of_active ha, stepWord_eq h ha hd, hx]

theorem load_eq (m : Machine) (program : List UInt8) :
    load m program = some (m.apply (.load program)) := by
  by_cases hlong : maxProgramSize < program.length
  · simp only [load, Machine.apply, Machine.load, if_pos hlong]
  · have hfits : program.length ≤ 3583 := Nat.le_of_not_lt hlong
    have hreset := reset_eq (m := { m with program := program }) hfits
    simp only [load, Machine.apply, Machine.load, if_neg hlong, hreset]
    rfl

/-- The register that waits for a key exists, though its number is not cut. -/
theorem completeWait_eq (h : m.WellFormed) (key : UInt8) :
    completeWait m key = some (m.completeWait key) := by
  cases hw : m.state.wait with
  | none => simp only [completeWait, Machine.completeWait, hw]
  | some x =>
      have hplace : (place x).val = x.toNat := Nat.mod_eq_of_lt (h.state.wait_lt x hw)
      have hput : put m.state.v x.toNat key = some (m.state.setReg x key).v := by
        rw [← hplace, put_eq _ _ (place x).isLt]
        rfl
      simp only [completeWait, Machine.completeWait, hw, hput]
      rfl

theorem keyEvent_eq (h : m.WellFormed) (key : UInt8) (down : Bool) :
    keyEvent m key down = some (m.keyEvent key down) := by
  by_cases hkey : key.toNat < registerCount
  · have hin : ¬ 0xF < key.toNat := Nat.not_lt.mpr (Nat.le_of_lt_succ hkey)
    have h' : Machine.WellFormed { m with keypad := m.keypad.set key.toNat down hkey } :=
      ⟨h.state, h.program_le⟩
    rw [keyEvent, if_neg hin, Machine.keyEvent, dif_pos hkey, put_eq _ _ hkey]
    cases down with
    | false => rfl
    | true => exact completeWait_eq h' key
  · have hout : 0xF < key.toNat := Nat.lt_of_not_le fun hle => hkey (Nat.lt_succ_of_le hle)
    rw [keyEvent, if_pos hout, Machine.keyEvent, dif_neg hkey]

theorem isPressed_eq (m : Machine) (key : UInt8) :
    isPressed m key = some (m.isPressed key) := by
  rw [isPressed, ← place_val_eq]
  exact Vector.getElem?_eq_getElem (place key).isLt

theorem current_eq (m : Machine) : current m = some m.current? := by
  rw [current, read_eq, read_eq]
  rfl

/-- **No operation on a machine within its bounds fails a check.** -/
theorem apply_eq (h : m.WellFormed) (op : Operation) : apply m op = some (m.apply op) := by
  cases op with
  | load program => exact load_eq m program
  | reset =>
      rw [apply, reset_eq h.program_le]
      rfl
  | step =>
      rw [apply, step_eq h]
      rfl
  | tick => rfl
  | key k down =>
      rw [apply, keyEvent_eq h]
      rfl
  | isPressed k =>
      rw [apply, isPressed_eq]
      rfl
  | current =>
      rw [apply, current_eq]
      rfl
  | takeFrame => rfl

/-- Along a history every operation finds a machine within its bounds. -/
theorem run_eq (h : m.WellFormed) (ops : List Operation) : run m ops = some (m.run ops) := by
  induction ops generalizing m with
  | nil => rfl
  | cons op ops ih =>
      rw [run, List.foldlM_cons, apply_eq h op]
      exact ih (Machine.wellFormed_apply h op)

/-- **No history of a machine leaves the bounds.** From a new machine on, no operation of a history
fails a check, and neither does any operation that may come next. What a step is about to run or to
skip is fetched from two neighbouring places of memory. All numbers of the state are in bounds. -/
theorem history_in_range (seed : UInt64) (ops : List Operation) :
    run (Machine.ofSeed seed) ops = some ((Machine.ofSeed seed).run ops) ∧
    (∀ op, apply ((Machine.ofSeed seed).run ops) op =
      some (((Machine.ofSeed seed).run ops).apply op)) ∧
    (∀ w, ((Machine.ofSeed seed).run ops).pending.word? = some w →
      ((Machine.ofSeed seed).run ops).state.pc.toNat ≤ 0xFFE ∧
      fetch ((Machine.ofSeed seed).run ops).state.memory
        ((Machine.ofSeed seed).run ops).state.pc = some w) ∧
    ((Machine.ofSeed seed).run ops).WellFormed := by
  have hwell := (Machine.reachable_run seed ops).wellFormed
  refine ⟨run_eq (Machine.wellFormed_ofSeed seed) ops, apply_eq hwell, ?_, hwell⟩
  intro w hw
  obtain ⟨hactive, rfl⟩ := Machine.active_of_word hw
  exact ⟨State.pc_toNat_le hactive.pc_le, fetch_eq _ hactive.pc_le⟩

end ChipEight.Guarded
