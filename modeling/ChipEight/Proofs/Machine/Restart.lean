import ChipEight.Proofs.Machine.Standstill
import ChipEight.Proofs.Machine.Storage

/-!
# Loading a program and starting it again

A load that is accepted and a reset leave a machine of which every part is known, whatever happened
before: `Machine.poweredOn` says what it is, byte by byte and field by field. Until another program is
accepted, a reset leads back to it.

* `Memory.loadedByte`, with `memory_ofProgram` — every byte of memory with a program in it;
* `Machine.poweredOn`, with `reset_eq_poweredOn` — the machine after a reset;
* `program_run` — the program is remembered as long as no other is accepted;
* `load_then_resets` — loading, and starting again after any history.
-/

namespace ChipEight

/-- The byte at place `k` of memory with a program in it: the glyphs from `0x050` on, the program from
`0x200` on, and zeros around them. -/
def Memory.loadedByte (program : List UInt8) (k : Nat) : UInt8 :=
  if k < 0x050 then 0
  else if k < 0x200 then glyphs.getD (k - 0x050) 0
  else program.getD (k - 0x200) 0

/-- The operation does not replace the program. A load counts if it is refused. -/
def Operation.KeepsProgram : Operation → Prop
  | .load program => maxProgramSize < program.length
  | _ => True

instance : DecidablePred Operation.KeepsProgram
  | .load program => Nat.decLt maxProgramSize program.length
  | .reset | .step | .tick | .key _ _ | .isPressed _ | .current | .takeFrame => .isTrue trivial

/-- The machine with a program in memory before its first step. -/
def Machine.poweredOn (program : List UInt8) (generator : Generator) : Machine where
  state := {
    v := Vector.replicate 16 0
    i := 0
    pc := 0x200
    sp := 0
    stack := Vector.replicate 16 0
    delay := 0
    sound := 0
    memory := ⟨Vector.ofFn fun k => Memory.loadedByte program k⟩
    frame := Frame.blank
    redraw := false
    wait := none }
  keypad := Vector.replicate 16 false
  program := program
  fault := none
  generator := generator

/-! ### Memory -/

namespace Memory

theorem getElem_blank {k : Nat} (hk : k < memorySize) : blank.bytes[k] = 0 :=
  Vector.getElem_replicate hk

/-- The glyphs lie from `0x050` on, and all else is zero. -/
theorem getElem_powerOn {k : Nat} (hk : k < memorySize) :
    powerOn.bytes[k] = if k < 0x050 then 0 else glyphs.getD (k - 0x050) 0 := by
  have hcell : (cell fontAddress).val = 0x050 := by decide
  have hlen : glyphs.length = 80 := rfl
  have hsize : memorySize = 4096 := rfl
  rw [powerOn, getElem_copy blank fontAddress glyphs (by decide) k hk, getElem_blank hk]
  by_cases hlow : k < 0x050
  · -- seen from the glyphs, the bytes before them come last of all
    rw [if_pos hlow, distance_of_lt (by omega), List.getElem?_eq_none (by omega)]
    rfl
  · rw [if_neg hlow, distance_of_le hk (by omega), hcell, List.getD_eq_getElem?_getD]

/-- Every byte of memory with a program that fits. -/
theorem getElem_copy_program {program : List UInt8} (hfits : program.length ≤ 3583) {k : Nat}
    (hk : k < memorySize) :
    (powerOn.copy programStart program).bytes[k] = loadedByte program k := by
  have hcell : (cell programStart).val = 0x200 := by decide
  have hlen : glyphs.length = 80 := rfl
  have hsize : memorySize = 4096 := rfl
  rw [getElem_copy powerOn programStart program (by omega) k hk, getElem_powerOn hk, loadedByte]
  by_cases hlow : k < 0x200
  · rw [distance_of_lt (by omega), List.getElem?_eq_none (by omega), if_pos hlow]
    rfl
  · have hglyphs : glyphs.getD (k - 0x050) 0 = 0 := by
      rw [List.getD_eq_getElem?_getD, List.getElem?_eq_none (by omega)]
      rfl
    rw [distance_of_le hk (by omega), hcell, if_neg hlow, if_neg (by omega), if_neg (by omega),
      hglyphs, List.getD_eq_getElem?_getD]

end Memory

namespace Machine

variable {m : Machine} {program : List UInt8} {op : Operation} {ops : List Operation}

/-- The memory of a state before its first step. -/
theorem memory_ofProgram (hfits : program.length ≤ 3583) :
    (State.ofProgram program).memory = ⟨Vector.ofFn fun k => Memory.loadedByte program k⟩ := by
  refine congrArg Memory.mk (Vector.ext fun k hk => ?_)
  rw [Vector.getElem_ofFn]
  exact Memory.getElem_copy_program hfits hk

/-- **The machine after a reset**, whatever it was before. -/
theorem reset_eq_poweredOn (hfits : m.program.length ≤ 3583) :
    m.reset = poweredOn m.program m.generator := by
  have hstate : State.ofProgram m.program =
      { memory := (State.ofProgram m.program).memory } := rfl
  rw [reset, hstate, memory_ofProgram hfits]
  rfl

/-! ### The program that is remembered -/

theorem program_step (m : Machine) : m.step.1.program = m.program := by
  generalize hs : m.step = r
  obtain ⟨m', o⟩ := r
  cases stepped_of_eq hs <;> rfl

theorem program_apply (hop : op.KeepsProgram) (m : Machine) :
    (m.apply op).1.program = m.program := by
  cases op with
  | load program => simp only [apply, load_of_too_large m hop]
  | reset => rfl
  | step => exact program_step m
  | tick => rfl
  | key k down => simp only [apply, keyEvent_eq]
  | isPressed k => rfl
  | current => rfl
  | takeFrame => simp only [apply, takeFrame_eq]

/-- The program is remembered until another one is accepted. -/
theorem program_run (hops : ∀ op ∈ ops, op.KeepsProgram) (m : Machine) :
    (m.run ops).program = m.program := by
  induction ops generalizing m with
  | nil => rfl
  | cons op ops ih =>
      rw [run_cons, ih fun op' hmem => hops op' (List.mem_cons_of_mem op hmem)]
      exact program_apply (hops op List.mem_cons_self) m

/-! ### Loading -/

theorem load_of_fits (m : Machine) (hfits : program.length ≤ 3583) :
    m.load program = .ok (poweredOn program m.generator) := by
  have hnot : ¬ maxProgramSize < program.length := Nat.not_lt.mpr hfits
  have hreset := reset_eq_poweredOn (m := { m with program := program }) hfits
  rw [load, if_neg hnot, hreset]

/-- **Loading a program and starting it again.** A program of more than 3583 bytes is refused with its
length, and the machine is left as it was. Any other leaves the machine that is powered on with it,
and a reset after any history without another accepted program leads back there. Only the place in
the random bytes is not a matter of the program. -/
theorem load_then_resets (m : Machine) (program : List UInt8) :
    (3583 < program.length →
      m.apply (.load program) = (m, .refused (.programTooLarge program.length))) ∧
    (program.length ≤ 3583 →
      m.apply (.load program) = (poweredOn program m.generator, .done) ∧
      ∀ ops : List Operation, (∀ op ∈ ops, op.KeepsProgram) →
        ((m.apply (.load program)).1.run ops).reset =
          poweredOn program ((m.apply (.load program)).1.run ops).generator) := by
  constructor
  · intro hlong
    simp only [apply, load_of_too_large m hlong]
  · intro hfits
    have hload : m.apply (.load program) = (poweredOn program m.generator, .done) := by
      simp only [apply, load_of_fits m hfits]
    refine ⟨hload, fun ops hops => ?_⟩
    have hkept : ((m.apply (.load program)).1.run ops).program = program := by
      rw [program_run hops, hload]
      rfl
    have hreset := reset_eq_poweredOn (m := (m.apply (.load program)).1.run ops) (by
      rw [hkept]
      exact hfits)
    rw [hreset, hkept]

/-- A program that overwrites its own first word. -/
def selfErasing : List UInt8 := [0xA2, 0x00, 0x60, 0x07, 0xF0, 0x55]

/-- One byte more than fits. -/
def oversized : List UInt8 := List.replicate 3584 0

/-- The first word comes back with a reset, after a refused load too. -/
theorem selfErasing_resets :
    let ops : List Operation := [.step, .step, .key 3 true, .step, .load oversized, .tick]
    let m := ((ofSeed 0).apply (.load selfErasing)).1.run ops
    m.apply (.load oversized) = (m, .refused (.programTooLarge 3584)) ∧
      m.state.memory.read 0x200 = 7 ∧ m.reset = poweredOn selfErasing m.generator := by
  intro ops m
  have hlen : oversized.length = 3584 := List.length_replicate
  have hfits : selfErasing.length ≤ 3583 := by decide
  have hrefused := (load_then_resets m oversized).1 (by rw [hlen]; decide)
  have hresets := ((load_then_resets (ofSeed 0) selfErasing).2 hfits).2
  rw [hlen] at hrefused
  exact ⟨hrefused, by decide +kernel, hresets ops (by decide +kernel)⟩

end Machine

end ChipEight
