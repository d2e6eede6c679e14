import ChipEight.Proofs.Machine.InRange
import ChipEight.Proofs.Machine.Storage
import ChipEight.Proofs.Machine.Step

/-!
# Blocks between registers and memory

Three instructions move a block of bytes that starts at the index register and goes on around the end of
memory. Two of them store a block, the first registers or three decimal digits, and one loads the first
registers from it. The places of a block are all different, since it is shorter than memory; so what was
stored is loaded again, and what was loaded is stored where it was.

* `Machine.Stores`, `Machine.Loads` — what an instruction does that stores or loads a block;
* `Stores.of_copy` — a block that is copied into memory is stored;
* `loads_exact`, `decimalDigits_spec` — the loading instruction, and the digits;
* `block_transfers_exact` — the three instructions, and the two ways around.
-/

namespace ChipEight

/-- The three digits of a byte are digits, and they make up its number. -/
theorem State.decimalDigits_spec (b : UInt8) : ∃ h t u : UInt8,
    decimalDigits b = [h, t, u] ∧ h.toNat ≤ 9 ∧ t.toNat ≤ 9 ∧ u.toNat ≤ 9 ∧
      100 * h.toNat + 10 * t.toNat + u.toNat = b.toNat := by
  have hb : b.toNat < 256 := b.toNat_lt
  have hundreds : (b / 100).toNat = b.toNat / 100 := UInt8.toNat_div _ _
  have htens : (b / 10 % 10).toNat = b.toNat / 10 % 10 := by
    rw [UInt8.toNat_mod, UInt8.toNat_div]
    rfl
  have hunits : (b % 10).toNat = b.toNat % 10 := UInt8.toNat_mod _ _
  refine ⟨b / 100, b / 10 % 10, b % 10, rfl, ?_⟩
  rw [hundreds, htens, hunits]
  omega

theorem State.blockLength_of_lt {x : UInt8} (hx : x.toNat < 16) : blockLength x = x.toNat + 1 :=
  congrArg (· + 1) (Nat.mod_eq_of_lt hx)

namespace Machine

/-- An instruction stores a block from the index register on. Each place of it gets its byte, all other
places keep theirs, and nothing changes besides but the program counter. No sum of the index register and
the place of a byte passes its width. -/
structure Stores (m : Machine) (ins : Instruction) (block : List UInt8) : Prop where
  no_fault : m.state.faultOf? ins = none
  inside_eq : ∀ r (hr : r < block.length),
    (m.execute ins).state.memory.byteAt (m.state.i.toNat + r) = block[r]
  outside_eq : ∀ k < memorySize, (∀ r < block.length, k ≠ (m.state.i.toNat + r) % memorySize) →
    (m.execute ins).state.memory.byteAt k = m.state.memory.byteAt k
  rest_eq : m.execute ins = { m with
    state := { m.state with memory := (m.execute ins).state.memory, pc := m.state.pc + 2 } }
  checked : m.state.pc.toNat + 2 < UInt16.size →
    Guarded.execute m.state m.keypad m.generator ins = some (.ok (m.execute ins).state)

/-- An instruction loads the registers up to `x` from the index register on. The registers behind it keep
their values, and nothing changes besides but the program counter. No sum passes its width. -/
structure Loads (m : Machine) (ins : Instruction) (x : UInt8) : Prop where
  no_fault : m.state.faultOf? ins = none
  loaded_eq : ∀ r : Fin registerCount, r.val ≤ x.toNat →
    (m.execute ins).state.v.get r = m.state.memory.byteAt (m.state.i.toNat + r.val)
  kept_eq : ∀ r : Fin registerCount, x.toNat < r.val →
    (m.execute ins).state.v.get r = m.state.v.get r
  rest_eq : m.execute ins = { m with
    state := { m.state with v := (m.execute ins).state.v, pc := m.state.pc + 2 } }
  checked : m.state.pc.toNat + 2 < UInt16.size →
    Guarded.execute m.state m.keypad m.generator ins = some (.ok (m.execute ins).state)

variable {m : Machine} {ins : Instruction} {x : UInt8} {block : List UInt8}

/-- A block is stored that is copied to the index register. -/
theorem Stores.of_copy (hx : m.state.faultOf? ins = none) (hlen : block.length ≤ memorySize)
    (h : m.execute ins = { m with state := { m.state with
      memory := m.state.memory.copy m.state.i block, pc := m.state.pc + 2 } })
    (hchecked : m.state.pc.toNat + 2 < UInt16.size →
      Guarded.execute m.state m.keypad m.generator ins = some (.ok (m.execute ins).state)) :
    m.Stores ins block := by
  have hmemory : (m.execute ins).state.memory = m.state.memory.copy m.state.i block := by rw [h]
  refine ⟨hx, ?_, ?_, ?_, hchecked⟩
  · intro r hr
    rw [hmemory]
    exact Memory.byteAt_copy_inside _ _ hlen hr
  · intro k hk hout
    rw [hmemory]
    exact Memory.byteAt_copy_outside _ _ hlen hk hout
  · rw [hmemory]
    exact h

theorem execute_loadRegisters (m : Machine) (x : UInt8) :
    m.execute (.loadRegisters x) = { m with state := { m.state with
      v := (m.state.setRegisters (m.state.memory.slice m.state.i (State.blockLength x))).v
      pc := m.state.pc + 2 } } := by
  show ({ m with state := { m.state.perform m.generator (.loadRegisters x) with
    pc := m.state.pc + 2 } } : Machine) = _
  rw [State.perform, State.setRegisters_eq]

/-- The instruction that loads registers. -/
theorem loads_exact (hx : x.toNat < 16) (hi : m.state.i.toNat ≤ 0xFFF) :
    m.Loads (.loadRegisters x) x := by
  have hlen := Memory.length_slice m.state.memory m.state.i (State.blockLength x)
  have hblock := State.blockLength_of_lt hx
  have hv : ∀ r : Fin registerCount, (m.execute (.loadRegisters x)).state.v.get r =
      (m.state.memory.slice m.state.i (State.blockLength x))[r.val]?.getD (m.state.v.get r) := by
    intro r
    rw [execute_loadRegisters]
    exact State.get_setRegisters _ r _
  refine ⟨rfl, ?_, ?_, ?_, Guarded.execute_of_next (Guarded.loadRegisters_eq hi x) rfl⟩
  · intro r hr
    rw [hv, List.getElem?_eq_getElem (by omega), Option.getD_some, Memory.getElem_slice]
  · intro r hr
    rw [hv, List.getElem?_eq_none (by omega), Option.getD_none]
  · rw [execute_loadRegisters]

theorem length_take_registers (s : State) (hx : x.toNat < 16) :
    (s.v.toList.take (x.toNat + 1)).length = x.toNat + 1 := by
  rw [List.length_take, Vector.length_toList]
  exact Nat.min_eq_left hx

/-- The instruction that stores registers. -/
theorem stores_registers (hx : x.toNat < 16) (hi : m.state.i.toNat ≤ 0xFFF) :
    m.Stores (.storeRegisters x) (m.state.v.toList.take (x.toNat + 1)) := by
  have hlen := length_take_registers m.state hx
  apply Stores.of_copy
  · rfl
  · show _ ≤ 4096
    omega
  · rw [← State.blockLength_of_lt hx]
    rfl
  · exact Guarded.execute_of_next (Guarded.storeRegisters_eq hi x) rfl

/-- The instruction that stores digits. -/
theorem stores_digits (hi : m.state.i.toNat ≤ 0xFFF) :
    m.Stores (.storeBcd x) (State.decimalDigits (m.state.reg x)) :=
  .of_copy rfl (show 3 ≤ 4096 by decide) rfl
    (Guarded.execute_of_next (Guarded.storeBcd_eq hi x) rfl)

/-! ### There and back -/

variable {m' : Machine}

/-- What was stored is loaded again. -/
theorem loads_stored (hx : x.toNat < 16) (hi : m.state.i.toNat ≤ 0xFFF)
    (hindex : m'.state.i = m.state.i)
    (hmemory : m'.state.memory = (m.execute (.storeRegisters x)).state.memory)
    (r : Fin registerCount) (hr : r.val ≤ x.toNat) :
    (m'.execute (.loadRegisters x)).state.v.get r = m.state.v.get r := by
  have hlen := length_take_registers m.state hx
  have hstored := (stores_registers hx hi).inside_eq r.val (by omega)
  have hloads : m'.Loads (.loadRegisters x) x := loads_exact hx (by rw [hindex]; exact hi)
  rw [hloads.loaded_eq r hr, hmemory, hindex, hstored, List.getElem_take, Vector.getElem_toList]
  rfl

/-- What was loaded is stored where it was. -/
theorem stores_loaded (hindex : m'.state.i = m.state.i)
    (hmemory : m'.state.memory = m.state.memory)
    (hv : m'.state.v = (m.execute (.loadRegisters x)).state.v) :
    (m'.execute (.storeRegisters x)).state.memory = m.state.memory := by
  have hblock : m'.state.v.toList.take (State.blockLength x) =
      m.state.memory.slice m.state.i (State.blockLength x) := by
    have hlen := Memory.length_slice m.state.memory m.state.i (State.blockLength x)
    have htake := State.take_setRegisters m.state
      (Nat.le_trans (Nat.le_of_eq hlen) (Guarded.blockLength_le x))
    rw [hlen] at htake
    rw [hv]
    exact htake
  show m'.state.memory.copy m'.state.i (m'.state.v.toList.take (State.blockLength x)) = _
  rw [hblock, hmemory, hindex]
  exact Memory.copy_slice _ _ (Nat.le_trans (Guarded.blockLength_le x) (by decide))

/-- **Blocks are moved exactly.** For each of the three instructions, with an index register of twelve
bits: what is stored or loaded, and what stays. A machine that later loads the same registers, with the
index register and the memory as they were left, has the registers from before; and a machine that stores
what it loaded has the memory from before. -/
theorem block_transfers_exact (m : Machine) (hx : x.toNat < 16) (hi : m.state.i.toNat ≤ 0xFFF) :
    m.Stores (.storeRegisters x) (m.state.v.toList.take (x.toNat + 1)) ∧
    m.Loads (.loadRegisters x) x ∧
    (∃ h t u : UInt8, h.toNat ≤ 9 ∧ t.toNat ≤ 9 ∧ u.toNat ≤ 9 ∧
      100 * h.toNat + 10 * t.toNat + u.toNat = m.state.value x ∧
      m.Stores (.storeBcd x) [h, t, u]) ∧
    (∀ m' : Machine, m'.state.i = m.state.i →
      m'.state.memory = (m.execute (.storeRegisters x)).state.memory →
      ∀ r : Fin registerCount, r.val ≤ x.toNat →
        (m'.execute (.loadRegisters x)).state.v.get r = m.state.v.get r) ∧
    ∀ m' : Machine, m'.state.i = m.state.i → m'.state.memory = m.state.memory →
      m'.state.v = (m.execute (.loadRegisters x)).state.v →
      (m'.execute (.storeRegisters x)).state.memory = m.state.memory := by
  obtain ⟨h, t, u, hdigits, hh, ht, hu, hsum⟩ := State.decimalDigits_spec (m.state.reg x)
  refine ⟨stores_registers hx hi, loads_exact hx hi, ⟨h, t, u, hh, ht, hu, hsum, ?_⟩, ?_, ?_⟩
  · rw [← hdigits]
    exact stores_digits hi
  · intro m' hindex hmemory r hr
    exact loads_stored hx hi hindex hmemory r hr
  · intro m' hindex hmemory hv
    exact stores_loaded hindex hmemory hv

/-- A machine with numbers in all registers and the last two bytes of memory at its index register. -/
def filled : Machine :=
  { ofSeed 0 with state := { v := Vector.ofFn fun r => UInt8.ofNat (16 * r.val + 7), i := 0xFFE } }

/-- A machine with all registers cleared. -/
def cleared (m : Machine) : Machine :=
  { m with state := { m.state with v := Vector.replicate _ 0 } }

/-- Its registers go around the end of memory and come back. -/
theorem filled_goes_around : filled.state.i.toNat = 0xFFE ∧
    (filled.execute (.storeRegisters 3)).state.memory.byteAt 0 = 0x27 ∧
    (filled.execute (.storeRegisters 3)).state.memory.byteAt 2 = filled.state.memory.byteAt 2 ∧
    ((filled.execute (.storeRegisters 3)).cleared.execute (.loadRegisters 3)).state.v.get 3 =
      0x37 ∧
    ((filled.execute (.loadRegisters 3)).execute (.storeRegisters 3)).state.memory =
      filled.state.memory := by
  have hi : filled.state.i.toNat = 0xFFE := rfl
  obtain ⟨hstores, -, -, hback, hthere⟩ :=
    block_transfers_exact (x := 3) filled (by decide) (by omega)
  refine ⟨hi, ?_, ?_, ?_, ?_⟩
  · have hplace := hstores.inside_eq 2 (by decide)
    rw [hi, ← Memory.byteAt_mod] at hplace
    exact hplace.trans (by decide)
  · apply hstores.outside_eq 2 (by decide)
    rw [hi]
    decide
  · have hindex : ∀ m : Machine, (m.execute (.storeRegisters 3)).cleared.state.i = m.state.i :=
      fun m => rfl
    have hmemory : ∀ m : Machine, m.cleared.state.memory = m.state.memory := fun m => rfl
    rw [hback _ (hindex filled) (hmemory _) 3 (by decide)]
    decide
  · have hloaded := execute_loadRegisters filled 3
    exact hthere _ (by rw [hloaded]) (by rw [hloaded]) (Eq.refl _)

end Machine

end ChipEight
