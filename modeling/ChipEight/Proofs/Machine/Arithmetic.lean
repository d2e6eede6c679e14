import ChipEight.Machine
import ChipEight.Proofs.Machine.Storage

/-!
# Arithmetic

Ten instructions compute: they read one or two registers, put a number into the first of them, and
five of them then put a flag into the last register. The operands may be the same register, and each may
be the flag register. The file says once what it is to compute, for a result and a flag as numbers, and
then which numbers these are:

* `Machine.Computes` — an instruction computes a result and a flag;
* `Computes.of_setReg`, `Computes.of_setResult` — what an instruction has to do for that;
* `toNat_sub_bytes`, `toNat_halved`, `toNat_doubled`, `testBit_seven` — bytes as numbers;
* `arithmetic_exact` — all ten.
-/

namespace ChipEight

/-! ### Bytes as numbers -/

theorem toNat_sub_bytes (a b : UInt8) : (a - b).toNat = (256 + a.toNat - b.toNat) % 256 := by
  have hb : b.toNat < 256 := b.toNat_lt
  rw [UInt8.toNat_sub, show 2 ^ 8 - b.toNat + a.toNat = 256 + a.toNat - b.toNat from by omega]

theorem toNat_halved (a : UInt8) : (a >>> 1).toNat = a.toNat / 2 := by
  rw [UInt8.toNat_shiftRight]
  exact Nat.shiftRight_eq_div_pow a.toNat 1

theorem toNat_doubled (a : UInt8) : (a <<< 1).toNat = 2 * a.toNat % 256 := by
  rw [UInt8.toNat_shiftLeft]
  show a.toNat <<< 1 % 256 = 2 * a.toNat % 256
  rw [Nat.shiftLeft_eq, Nat.mul_comm]

/-- The highest bit of a byte is set from the middle of its range on. -/
theorem testBit_seven (a : UInt8) : a.toNat.testBit 7 = decide (128 ≤ a.toNat) := by
  have ha : a.toNat < 256 := a.toNat_lt
  rw [Nat.testBit_eq_decide_div_mod_eq, decide_eq_decide]
  omega

namespace Machine

/-! ### Computing -/

/-- An instruction computes a result and, if there is one, a flag. Register `x` gets the result, and then
the flag register gets the flag, so that it holds the flag even where it is register `x`. The program goes
on with the next word. No other register changes, and nothing besides. -/
structure Computes (m : Machine) (ins : Instruction) (x : UInt8) (result : Nat)
    (flag : Option Bool) : Prop where
  no_fault : m.state.faultOf? ins = none
  result_eq : flag = none ∨ place x ≠ 15 →
    ((m.execute ins).state.v.get (place x)).toNat = result
  flag_eq : ∀ f, flag = some f → ((m.execute ins).state.v.get 15).toNat = f.toNat
  others_eq : ∀ r, r ≠ place x → flag = none ∨ r ≠ 15 →
    (m.execute ins).state.v.get r = m.state.v.get r
  rest_eq : m.execute ins = { m with
    state := { m.state with v := (m.execute ins).state.v, pc := m.state.pc + 2 } }

variable {m : Machine} {ins : Instruction} {x b : UInt8} {flag : Bool} {result : Nat}

/-- An instruction computes that only sets a register. -/
theorem Computes.of_setReg (hx : m.state.faultOf? ins = none)
    (h : m.execute ins = { m with state := { m.state.setReg x b with pc := m.state.pc + 2 } })
    (hb : b.toNat = result) : m.Computes ins x result none := by
  have hv : (m.execute ins).state.v = (m.state.setReg x b).v := by rw [h]
  refine ⟨hx, ?_, ?_, ?_, ?_⟩
  · intro _
    rw [hv, State.get_setReg, if_pos rfl, hb]
  · intro f hf
    cases hf
  · intro r hr _
    rw [hv, State.get_setReg, if_neg hr]
  · rw [hv, h]
    rfl

/-- An instruction computes that sets a register and then the flag. -/
theorem Computes.of_setResult (hx : m.state.faultOf? ins = none)
    (h : m.execute ins =
      { m with state := { m.state.setResult x b flag with pc := m.state.pc + 2 } })
    (hb : b.toNat = result) : m.Computes ins x result (some flag) := by
  have hv : (m.execute ins).state.v = (m.state.setResult x b flag).v := by rw [h]
  refine ⟨hx, ?_, ?_, ?_, ?_⟩
  · rintro (hnone | hne)
    · cases hnone
    · rw [hv, State.get_setResult, if_neg hne, if_pos rfl, hb]
  · intro f hf
    cases hf
    rw [hv, State.get_setResult, if_pos rfl, toNat_flagByte]
  · rintro r hr (hnone | hne)
    · cases hnone
    · rw [hv, State.get_setResult, if_neg hne, if_neg hr]
  · rw [hv, h]
    rfl

/-- **The arithmetic instructions are exact**, for every content of the registers and all operands, be
they the same register or the flag register. -/
theorem arithmetic_exact (m : Machine) (x y byte : UInt8) :
    m.Computes (.move x y) x (m.state.value y) none ∧
    m.Computes (.or x y) x (m.state.value x ||| m.state.value y) none ∧
    m.Computes (.and x y) x (m.state.value x &&& m.state.value y) none ∧
    m.Computes (.xor x y) x (m.state.value x ^^^ m.state.value y) none ∧
    m.Computes (.addRegisters x y) x ((m.state.value x + m.state.value y) % 256)
      (some (decide (255 < m.state.value x + m.state.value y))) ∧
    m.Computes (.sub x y) x ((256 + m.state.value x - m.state.value y) % 256)
      (some (decide (m.state.value y ≤ m.state.value x))) ∧
    m.Computes (.subN x y) x ((256 + m.state.value y - m.state.value x) % 256)
      (some (decide (m.state.value x ≤ m.state.value y))) ∧
    m.Computes (.shiftRight x) x (m.state.value x / 2)
      (some (decide (m.state.value x % 2 = 1))) ∧
    m.Computes (.shiftLeft x) x (2 * m.state.value x % 256)
      (some (decide (128 ≤ m.state.value x))) ∧
    m.Computes (.add x byte) x ((m.state.value x + byte.toNat) % 256) none := by
  refine ⟨.of_setReg rfl rfl rfl, .of_setReg rfl rfl (UInt8.toNat_or _ _),
    .of_setReg rfl rfl (UInt8.toNat_and _ _), .of_setReg rfl rfl (UInt8.toNat_xor _ _),
    .of_setResult rfl rfl (UInt8.toNat_add _ _), .of_setResult rfl rfl (toNat_sub_bytes _ _),
    .of_setResult rfl rfl (toNat_sub_bytes _ _), ?_, ?_,
    .of_setReg rfl rfl (UInt8.toNat_add _ _)⟩
  · have hlow : (m.state.reg x).toNat.testBit 0 = decide (m.state.value x % 2 = 1) :=
      Nat.testBit_zero _
    rw [← hlow]
    exact .of_setResult rfl rfl (toNat_halved _)
  · have hhigh : (m.state.reg x).toNat.testBit 7 = decide (128 ≤ m.state.value x) :=
      testBit_seven _
    rw [← hhigh]
    exact .of_setResult rfl rfl (toNat_doubled _)

end Machine

end ChipEight
