import ChipEight.Proofs.Machine.KeyWait
import ChipEight.Proofs.Machine.RandomStream
import ChipEight.Proofs.Machine.Redraw
import ChipEight.Proofs.Machine.Storage
import ChipEight.Proofs.Machine.Timers

/-!
# The footprint of a step

A machine has parts, and for each part there are few instructions that write it. A step that runs an
instruction leaves alone every part that is not among those it writes, each register being a part of its
own; and it goes on with the next word, except after a jump or a skip. The other steps leave alone all
parts.

* `Part`, with `Part.Same` and `Part.WrittenBy` — the parts, that a part is left alone, and the
  instructions that write it;
* `State.Skips`, `Instruction.jumps` — how the program goes on;
* `get_perform`, `same_execute` — what an instruction leaves alone;
* `next_of_jump`, `next_of_skip`, `next_of_neither` — the program counter;
* `step_footprint` — all steps that fetch a word.
-/

namespace ChipEight

namespace Instruction

/-- The instruction writes to memory. -/
def stores : Instruction → Bool
  | .storeBcd _ | .storeRegisters _ => true
  | _ => false

/-- The instruction moves the stack pointer. -/
def nests : Instruction → Bool
  | .call _ | .ret => true
  | _ => false

/-- The instruction sets the index register. -/
def setsIndex : Instruction → Bool
  | .loadIndex _ | .addIndex _ | .loadGlyph _ => true
  | _ => false

/-- The instruction may set register `r`. -/
def SetsRegister (r : Fin registerCount) : Instruction → Prop
  | .load x _ | .add x _ | .move x _ | .or x _ | .and x _ | .xor x _ | .random x _
  | .readDelay x => r.val = x.toNat
  | .addRegisters x _ | .sub x _ | .subN x _ | .shiftRight x | .shiftLeft x =>
    r.val = x.toNat ∨ r.val = 15
  | .draw _ _ _ => r.val = 15
  | .loadRegisters x => r.val ≤ x.toNat
  | _ => False

/-- The program goes on at an address that the instruction gives. -/
def jumps : Instruction → Bool
  | .jump _ | .call _ | .ret | .jumpOffset _ => true
  | _ => false

end Instruction

/-- The program passes over the word after the instruction. -/
def State.Skips (s : State) (keypad : Keypad) : Instruction → Prop
  | .skipIfEqual x b => s.reg x = b
  | .skipIfNotEqual x b => s.reg x ≠ b
  | .skipIfRegistersEqual x y => s.reg x = s.reg y
  | .skipIfRegistersNotEqual x y => s.reg x ≠ s.reg y
  | .skipIfPressed x => keypad.get (place (s.reg x)) = true
  | .skipIfNotPressed x => keypad.get (place (s.reg x)) = false
  | _ => False

/-- The parts of a machine, apart from its program counter and its fault. -/
inductive Part where
  | memory
  | frame
  | mark
  | stackPointer
  | stack
  | timer (t : Timer)
  | index
  | wait
  | generator
  | register (r : Fin registerCount)
  | keypad
  | program
deriving DecidableEq

namespace Part

/-- Both machines have the same in a part. -/
def Same (m m' : Machine) : Part → Prop
  | memory => m'.state.memory = m.state.memory
  | frame => m'.state.frame = m.state.frame
  | mark => m'.state.redraw = m.state.redraw
  | stackPointer => m'.state.sp = m.state.sp
  | stack => m'.state.stack = m.state.stack
  | timer t => t.read m'.state = t.read m.state
  | index => m'.state.i = m.state.i
  | wait => m'.state.wait = m.state.wait
  | generator => m'.generator = m.generator
  | register r => m'.state.v.get r = m.state.v.get r
  | keypad => m'.keypad = m.keypad
  | program => m'.program = m.program

/-- The instruction may write a part. -/
def WrittenBy (ins : Instruction) : Part → Prop
  | memory => ins.stores = true
  | frame | mark => ins.draws = true
  | stackPointer | stack => ins.nests = true
  | timer t => t.source? ins ≠ none
  | index => ins.setsIndex = true
  | wait => ins.awaitsKey = true
  | generator => ins.isRandom = true
  | register r => ins.SetsRegister r
  | keypad | program => False

end Part

/-! ### Registers -/

namespace State

variable {s : State} {g : Generator} {ins : Instruction} {r : Fin registerCount} {keypad : Keypad}

theorem ne_place {x : UInt8} (hx : x.toNat < 16) (h : r.val ≠ x.toNat) : r ≠ place x := by
  rintro rfl
  exact h (place_val_of_lt hx)

theorem ne_flag (h : r.val ≠ 15) : r ≠ 15 := by
  rintro rfl
  exact h rfl

theorem get_setReg_of_ne {x : UInt8} (hx : x.toNat < 16) (h : r.val ≠ x.toNat) (b : UInt8) :
    (s.setReg x b).v.get r = s.v.get r := by
  rw [get_setReg, if_neg (ne_place hx h)]

theorem get_setResult_of_ne {x : UInt8} (hx : x.toNat < 16) (h : ¬ (r.val = x.toNat ∨ r.val = 15))
    (b : UInt8) (flag : Bool) : (s.setResult x b flag).v.get r = s.v.get r := by
  obtain ⟨hne, hflag⟩ := not_or.mp h
  rw [get_setResult, if_neg (ne_flag hflag), if_neg (ne_place hx hne)]

/-- **A register that an instruction does not set** keeps its value. -/
theorem get_perform (hr : ins.InRange) (h : ¬ ins.SetsRegister r) :
    (s.perform g ins).v.get r = s.v.get r := by
  cases ins with
  | load x b | add x b | random x b => exact get_setReg_of_ne hr h _
  | readDelay x => exact get_setReg_of_ne hr h _
  | move x y | or x y | and x y | xor x y => exact get_setReg_of_ne hr.1 h _
  | addRegisters x y | sub x y | subN x y => exact get_setResult_of_ne hr.1 h _ _
  | shiftRight x | shiftLeft x => exact get_setResult_of_ne hr h _ _
  | draw x y n =>
      show (s.draw x y n).v.get r = s.v.get r
      exact (get_setFlag _ _ r).trans (if_neg (ne_flag h))
  | loadRegisters x =>
      have hx : x.toNat < 16 := hr
      have hbehind : ¬ r.val ≤ x.toNat := h
      have hlen : (s.memory.slice s.i (blockLength x)).length = x.toNat % 16 + 1 :=
        Memory.length_slice _ _ _
      show (s.setRegisters (s.memory.slice s.i (blockLength x))).v.get r = s.v.get r
      rw [get_setRegisters, List.getElem?_eq_none (by omega), Option.getD_none]
  | _ => rfl

/-! ### The program counter -/

theorem next_of_jump (h : ins.jumps = true) : (s.next keypad ins).toNat < memorySize := by
  have hmask : ∀ a : UInt16, (a &&& addressMask).toNat < memorySize := fun a =>
    Nat.lt_succ_of_le (toNat_and_addressMask_le a)
  cases ins with
  | ret => exact hmask _
  | jump a => exact hmask _
  | call a => exact hmask _
  | jumpOffset a => exact hmask _
  | _ => cases h

theorem skipIf_of_true {skip : Bool} (h : skip = true) : s.skipIf skip = s.pc + 4 := if_pos h

theorem skipIf_of_false {skip : Bool} (h : skip = false) : s.skipIf skip = s.pc + 2 := by
  rw [h]
  rfl

theorem next_of_skip (h : s.Skips keypad ins) : s.next keypad ins = s.pc + 4 := by
  cases ins with
  | skipIfEqual x b | skipIfNotEqual x b => exact skipIf_of_true (decide_eq_true h)
  | skipIfRegistersEqual x y | skipIfRegistersNotEqual x y =>
      exact skipIf_of_true (decide_eq_true h)
  | skipIfPressed x => exact skipIf_of_true h
  | skipIfNotPressed x => exact skipIf_of_true (congrArg Bool.not h)
  | _ => exact h.elim

theorem next_of_neither (hj : ins.jumps = false) (hs : ¬ s.Skips keypad ins) :
    s.next keypad ins = s.pc + 2 := by
  cases ins with
  | skipIfEqual x b | skipIfNotEqual x b => exact skipIf_of_false (decide_eq_false hs)
  | skipIfRegistersEqual x y | skipIfRegistersNotEqual x y =>
      exact skipIf_of_false (decide_eq_false hs)
  | skipIfPressed x => exact skipIf_of_false (Bool.eq_false_iff.mpr hs)
  | skipIfNotPressed x =>
      have hdown : s.keyIsDown keypad x = true := Bool.of_not_eq_false hs
      exact skipIf_of_false (congrArg Bool.not hdown)
  | jump a | call a | ret | jumpOffset a => cases hj
  | _ => rfl

end State

namespace Machine

/-- What an instruction leaves alone when it runs, and how the program goes on after it. -/
structure RunsWithin (m : Machine) (ins : Instruction) (m' : Machine) : Prop where
  same_of_not_written : ∀ p : Part, ¬ p.WrittenBy ins → p.Same m m'
  fault_none : m'.fault = none
  pc_of_jump : ins.jumps = true → m'.state.pc.toNat < memorySize
  pc_of_skip : m.state.Skips m.keypad ins → m'.state.pc.toNat = m.state.pc.toNat + 4
  pc_of_neither : ins.jumps = false → ¬ m.state.Skips m.keypad ins →
    m'.state.pc.toNat = m.state.pc.toNat + 2

variable {m : Machine} {ins : Instruction}

/-- **What an instruction does not write it leaves alone**, part by part. -/
theorem same_execute (hr : ins.InRange) {p : Part} (h : ¬ p.WrittenBy ins) :
    p.Same m (m.execute ins) := by
  cases p with
  | memory =>
      show (m.state.perform m.generator ins).memory = m.state.memory
      rw [State.perform_memory]
      cases ins with
      | storeBcd x | storeRegisters x => exact (h rfl).elim
      | _ => rfl
  | frame =>
      show (m.state.perform m.generator ins).frame = m.state.frame
      rw [State.perform_frame]
      cases ins with
      | clearScreen | draw x y n => exact (h rfl).elim
      | _ => rfl
  | mark =>
      show (m.state.perform m.generator ins).redraw = m.state.redraw
      rw [State.perform_redraw]
      cases ins with
      | clearScreen | draw x y n => exact (h rfl).elim
      | _ => rfl
  | stackPointer =>
      show (m.state.perform m.generator ins).sp = m.state.sp
      rw [State.perform_sp]
      cases ins with
      | call a | ret => exact (h rfl).elim
      | _ => rfl
  | stack =>
      show (m.state.perform m.generator ins).stack = m.state.stack
      rw [State.perform_stack]
      cases ins with
      | call a => exact (h rfl).elim
      | _ => rfl
  | timer t =>
      have hread := t.read_perform m.state m.generator ins
      rw [not_not.mp h] at hread
      cases t <;> exact hread
  | index =>
      show (m.state.perform m.generator ins).i = m.state.i
      rw [State.perform_i]
      cases ins with
      | loadIndex a | addIndex x | loadGlyph x => exact (h rfl).elim
      | _ => rfl
  | wait =>
      show (m.state.perform m.generator ins).wait = m.state.wait
      rw [State.perform_wait]
      cases ins with
      | awaitKey x => exact (h rfl).elim
      | _ => rfl
  | generator =>
      have hnot : ins.isRandom = false := Bool.eq_false_iff.mpr h
      show (m.execute ins).generator = m.generator
      rw [generator_execute, hnot]
      rfl
  | register r => exact State.get_perform hr h
  | keypad => rfl
  | program => rfl

/-- An instruction of an active machine, with operands in range. -/
theorem runs_within (ha : m.Active) (hr : ins.InRange) : m.RunsWithin ins (m.execute ins) := by
  refine ⟨fun p hp => same_execute hr hp, ha.fault_none, State.next_of_jump, ?_, ?_⟩
  · intro hs
    rw [execute_pc, State.next_of_skip hs]
    exact State.pc_add_toNat ha.pc_le (by decide)
  · intro hj hs
    rw [execute_pc, State.next_of_neither hj hs]
    exact State.pc_add_toNat ha.pc_le (by decide)

/-- **The footprint of a step.** A step that runs an instruction leaves alone every part that the
instruction does not write, records no fault, and moves the program counter to the next word, to the one
after it if the instruction skips, or to an address in memory if it jumps. If the instruction meets a
fault, this is recorded and nothing else changes. A word that is no instruction is passed over without a
fault, and nothing else changes. -/
theorem step_footprint (m : Machine) :
    (∀ ins, m.executed? = some ins → m.RunsWithin ins m.step.1) ∧
    (∀ ins f, m.Active → m.current? = some ins → m.state.faultOf? ins = some f →
      m.step.1 = { m with fault := some f }) ∧
    (m.Active → m.current? = none →
      m.step.1 = { m with state := { m.state with pc := m.state.pc + 2 } } ∧
      m.step.1.state.pc.toNat = m.state.pc.toNat + 2 ∧ m.step.1.fault = none) := by
  refine ⟨?_, ?_, ?_⟩
  · intro ins hrun
    obtain ⟨ha, hd, -⟩ := executed?_eq_some_iff.mp hrun
    rw [step_of_executed hrun]
    exact runs_within ha (Instruction.decode?_inRange hd)
  · intro ins f ha hd hx
    rw [step_stop ha hd hx]
    rfl
  · intro ha hd
    rw [step_skip ha hd]
    exact ⟨rfl, State.pc_add_toNat ha.pc_le (by decide), ha.fault_none⟩

/-- A program that is about to skip a word, when it has set the flag register. Where it goes on there is
no instruction. -/
def skipping : Machine := (ofSeed 0).run [.load [0x6F, 0x05, 0x3F, 0x05, 0x00, 0xEE], .step]

/-- A program that is about to return from nowhere. -/
def returning : Machine := (ofSeed 0).run [.load [0x00, 0xEE]]

/-- The first skips the return and then passes over a word; the second stays where it is. -/
theorem skipping_stays : skipping.executed? = some (.skipIfEqual 0xF 5) ∧
    skipping.step.1.state.pc.toNat = 0x206 ∧
    skipping.step.1.state.v.get 15 = skipping.state.v.get 15 ∧
    skipping.step.1.state.sp = skipping.state.sp ∧
    skipping.step.1.step.1.state.pc.toNat = 0x208 ∧ skipping.step.1.step.1.fault = none ∧
    returning.step.1.state = returning.state := by
  obtain ⟨⟨hrun, hskips, hpc⟩, hnext, hword⟩ : (skipping.executed? = some (.skipIfEqual 0xF 5) ∧
      skipping.state.reg 0xF = 5 ∧ skipping.state.pc.toNat = 0x202) ∧
      (skipping.step.1.fault = none ∧ skipping.step.1.state.wait = none ∧
        skipping.step.1.state.pc ≤ lastInstruction) ∧
      skipping.step.1.current? = none := by
    decide +kernel
  obtain ⟨hempty, hreturn, hfault⟩ : (returning.fault = none ∧ returning.state.wait = none ∧
      returning.state.pc ≤ lastInstruction) ∧ returning.current? = some .ret ∧
      returning.state.faultOf? .ret = some (.stackUnderflow 0x200) := by
    decide +kernel
  obtain ⟨hin, -, -⟩ := step_footprint skipping
  obtain ⟨-, -, hskip⟩ := step_footprint skipping.step.1
  obtain ⟨-, hstop, -⟩ := step_footprint returning
  have hfirst := hin _ hrun
  obtain ⟨-, hsecond, hnone⟩ := hskip ⟨hnext.1, hnext.2.1, hnext.2.2⟩ hword
  have hjumped := hfirst.pc_of_skip hskips
  rw [hpc] at hjumped
  rw [hjumped] at hsecond
  refine ⟨hrun, hjumped, hfirst.same_of_not_written (.register 15) not_false,
    hfirst.same_of_not_written .stackPointer Bool.false_ne_true, hsecond, hnone, ?_⟩
  rw [hstop .ret _ ⟨hempty.1, hempty.2.1, hempty.2.2⟩ hreturn hfault]

end Machine

end ChipEight
