import ChipEight.Proofs.Machine.Standstill
import ChipEight.Proofs.Machine.Executed

/-!
# The stream of random bytes

A machine has one stream of random words from its seed, and only one instruction takes from it. So
the place in the stream is a count of instructions over the whole life of the machine; a start of
the program does not turn it back. Before the first such instruction the seed cannot be seen at all.

* `Machine.withGenerator` — a machine at another place, or of another seed;
* `generator_apply`, `generator_run` — the place in the stream after one operation and after many;
* `step_withGenerator`, `apply_withGenerator`, `run_withGenerator` — what does not depend on it;
* `random_stream` — the bytes of a whole life, and two lives with different seeds.
-/

namespace ChipEight

/-- The instruction takes a random byte. -/
def Instruction.isRandom : Instruction → Bool
  | .random _ _ => true
  | _ => false

namespace Machine

/-- The machine with another source of random bytes. -/
def withGenerator (m : Machine) (g : Generator) : Machine := { m with generator := g }

variable {m : Machine} {g : Generator} {ins : Instruction} {x b : UInt8} {op : Operation}
  {ops : List Operation}

/-! ### The place in the stream -/

theorem generator_execute (m : Machine) (ins : Instruction) :
    (m.execute ins).generator = if ins.isRandom then m.generator.advance else m.generator := by
  cases ins with
  | random x b => rfl
  | _ => simp only [execute, Instruction.isRandom, Bool.false_eq_true, if_false]

theorem generator_step_of_not_executed (h : m.executed? = none) :
    m.step.1.generator = m.generator := by
  generalize hs : m.step = r
  obtain ⟨m', o⟩ := r
  cases stepped_of_eq hs with
  | run ha hd hx =>
      rw [executed?_eq_some_iff.mpr ⟨ha, hd, hx⟩] at h
      cases h
  | _ => rfl

/-- **One operation takes a word if it runs the instruction for it**, and none otherwise. -/
theorem generator_apply (m : Machine) (op : Operation) :
    (m.apply op).1.generator =
      if (m.runs? op).any Instruction.isRandom then m.generator.advance else m.generator := by
  cases op with
  | load program =>
      by_cases hlong : maxProgramSize < program.length
      · simp only [apply, load_of_too_large m hlong]
        rfl
      · simp only [apply, load, if_neg hlong]
        rfl
  | step =>
      show m.step.1.generator = _
      cases hrun : m.executed? with
      | none =>
          simp only [generator_step_of_not_executed hrun, runs?, hrun]
          rfl
      | some ins =>
          rw [step_of_executed hrun, generator_execute]
          simp only [runs?, hrun, Option.any_some]
  | key k down =>
      simp only [apply, keyEvent_eq]
      rfl
  | takeFrame =>
      simp only [apply, takeFrame_eq]
      rfl
  | _ => rfl

/-- **The place in the stream after a history** is further on by one word for each random byte. -/
theorem generator_run (m : Machine) (ops : List Operation) :
    (m.run ops).generator = { m.generator with
      position := m.generator.position + (m.ran ops).countP Instruction.isRandom } := by
  induction ops generalizing m with
  | nil => rfl
  | cons op ops ih =>
      rw [run_cons, ih, generator_apply, countP_ran_cons]
      split
      · simp only [Generator.advance, Nat.add_assoc]
      · rw [Nat.zero_add]

/-- The instruction that takes a random byte puts it, masked, into its register. -/
theorem step_state_random (h : m.executed? = some (.random x b)) :
    m.step.1.state = { m.state.setReg x (m.generator.byte &&& b) with pc := m.state.pc + 2 } := by
  rw [step_of_executed h]
  rfl

/-! ### What does not depend on the stream -/

theorem execute_withGenerator (h : ins.isRandom = false) :
    (m.withGenerator g).execute ins = (m.execute ins).withGenerator g := by
  cases ins with
  | random x b => cases h
  | _ => rfl

theorem unseen_withGenerator (g : Generator) : Unseen (withGenerator · g) where
  fault_eq := fun _ => rfl
  wait_eq := fun _ => rfl
  pc_eq := fun _ => rfl
  memory_eq := fun _ => rfl
  sp_eq := fun _ => rfl
  next_eq := fun _ _ => rfl
  skipWord_eq := fun _ => rfl
  stop_eq := fun _ _ => rfl

/-- **What a step comes to does not depend on the stream**, and neither does what it leaves, unless
it takes a byte. -/
theorem step_withGenerator (m : Machine) (g : Generator) :
    (m.withGenerator g).step.2 = m.step.2 ∧
      (m.executed?.any Instruction.isRandom = false →
        (m.withGenerator g).step.1 = m.step.1.withGenerator g) := by
  obtain ⟨hout, hleft⟩ := (unseen_withGenerator g).step m
  refine ⟨hout, fun h => hleft fun ins hrun => ?_⟩
  exact execute_withGenerator ((Option.any_eq_false _ _).mp h ins hrun)

/-- So it is with all operations. -/
theorem apply_withGenerator (m : Machine) (g : Generator) (op : Operation) :
    ((m.withGenerator g).apply op).2 = (m.apply op).2 ∧
      ((m.runs? op).any Instruction.isRandom = false →
        ((m.withGenerator g).apply op).1 = (m.apply op).1.withGenerator g) := by
  cases op with
  | load program =>
      by_cases hlong : maxProgramSize < program.length
      · simp only [apply, load_of_too_large _ hlong, implies_true, and_self]
      · simp only [apply, load, if_neg hlong, true_and]
        exact fun _ => rfl
  | step =>
      obtain ⟨hreply, hleft⟩ := step_withGenerator m g
      exact ⟨congrArg Reply.stepped hreply, hleft⟩
  | key k down =>
      simp only [apply, keyEvent_eq, true_and]
      exact fun _ => rfl
  | takeFrame =>
      simp only [apply, takeFrame_eq]
      exact ⟨rfl, fun _ => rfl⟩
  | _ => exact ⟨rfl, fun _ => rfl⟩

/-- **Before the first random byte** a history does the same whatever the stream. -/
theorem run_withGenerator (h : (m.ran ops).countP Instruction.isRandom = 0) (g : Generator) :
    (m.withGenerator g).run ops = (m.run ops).withGenerator g := by
  induction ops generalizing m with
  | nil => rfl
  | cons op ops ih =>
      rw [countP_ran_cons] at h
      cases hfirst : (m.runs? op).any Instruction.isRandom with
      | true =>
          rw [hfirst] at h
          simp only [if_true] at h
          omega
      | false =>
          rw [run_cons, run_cons, (apply_withGenerator m g op).2 hfirst]
          exact ih (by omega)

/-- **The stream of random bytes.** In every history of a machine with a seed, the place in the
stream is the number of instructions that took a byte. The next of them takes the low byte of the
word at this place, masks it and puts it into its register, and does nothing else. As long as none
has run, the machine is that of any other seed but for the stream, and so are its answers, up to
that of the first step that takes a byte. -/
theorem random_stream (seed : UInt64) (ops : List Operation) :
    ((ofSeed seed).run ops).generator =
      { key := Random.keyOfSeed seed
        position := ((ofSeed seed).ran ops).countP Instruction.isRandom } ∧
    (∀ x b, ((ofSeed seed).run ops).executed? = some (.random x b) →
      ((ofSeed seed).run ops).step.1.state =
        { ((ofSeed seed).run ops).state.setReg x
            ((Generator.word (Random.keyOfSeed seed)
              (((ofSeed seed).ran ops).countP Instruction.isRandom)).toUInt8 &&& b) with
          pc := ((ofSeed seed).run ops).state.pc + 2 }) ∧
    (((ofSeed seed).ran ops).countP Instruction.isRandom = 0 →
      ∀ seed' : UInt64,
        (ofSeed seed').run ops =
          { (ofSeed seed).run ops with generator := Generator.ofSeed seed' } ∧
        ∀ op : Operation,
          (((ofSeed seed').run ops).apply op).2 = (((ofSeed seed).run ops).apply op).2) := by
  have hplace : ((ofSeed seed).run ops).generator =
      { key := Random.keyOfSeed seed
        position := ((ofSeed seed).ran ops).countP Instruction.isRandom } := by
    rw [generator_run]
    simp only [ofSeed, Generator.ofSeed, Nat.zero_add]
  refine ⟨hplace, fun x b hrun => ?_, fun hnone seed' => ?_⟩
  · rw [step_state_random hrun, hplace]
    rfl
  · have hseed : ofSeed seed' = (ofSeed seed).withGenerator (Generator.ofSeed seed') := rfl
    rw [hseed, run_withGenerator hnone]
    exact ⟨rfl, fun op => (apply_withGenerator _ _ op).1⟩

/-- A program that takes two random bytes is started again after the first of them, with an
oversized program refused before. -/
def drawnAgain : List Operation :=
  [.load [0xC1, 0xFF, 0xC2, 0x0F], .step, .load (List.replicate 3584 0), .reset, .key 3 true, .step]

/-- The third byte of its life comes from the third word. -/
theorem drawnAgain_takes_third_word :
    ((ofSeed 7).run drawnAgain).generator.position = 2 ∧
    ((ofSeed 7).run drawnAgain).step.1.state.reg 2 =
      (Generator.word (Random.keyOfSeed 7) 2).toUInt8 &&& 0x0F ∧
    (ofSeed 8).run (drawnAgain.take 1) =
      { (ofSeed 7).run (drawnAgain.take 1) with generator := Generator.ofSeed 8 } := by
  have hrun : ((ofSeed 7).run drawnAgain).executed? = some (.random 2 0x0F) := by decide +kernel
  have hcount : ((ofSeed 7).ran drawnAgain).countP Instruction.isRandom = 2 := by decide +kernel
  obtain ⟨hplace, htakes, -⟩ := random_stream 7 drawnAgain
  rw [hcount] at hplace htakes
  refine ⟨congrArg Generator.position hplace, ?_, ?_⟩
  · rw [htakes 2 0x0F hrun]
    exact Vector.getElem_set_self (by decide)
  · exact ((random_stream 7 (drawnAgain.take 1)).2.2 (by decide +kernel) 8).1

end Machine

end ChipEight
