import ChipEight.Proofs.Machine.Bounds
import ChipEight.Proofs.Machine.Guarded

/-!
# No check fails

On a machine within its bounds, every operation that checks its sums, places and blocks has a
result, and it is the result of the operation that does not check. The file goes through the
definitions of `ChipEight.Proofs.Machine.Guarded` from the inside out, with one equation each:

* `read_eq`, `write_eq`, `reg_eq`, `setReg_eq`, `fetch_eq` — parts of the state;
* `drawSprite_eq` — drawing, bit by bit and row by row;
* `effect_eq`, `execute_eq` — all instructions.
-/

namespace ChipEight.Guarded

/-! ### Numbers, tables and loops -/

theorem addByte_eq {a b : UInt8} (h : a.toNat + b.toNat < 256) : addByte a b = some (a + b) :=
  if_pos h

theorem subByte_eq {a b : UInt8} (h : b.toNat ≤ a.toNat) : subByte a b = some (a - b) := if_pos h

theorem addWord_eq {a b : UInt16} (h : a.toNat + b.toNat < 65536) :
    addWord a b = some (a + b) := if_pos h

theorem mulWord_eq {a b : UInt16} (h : a.toNat * b.toNat < 65536) :
    mulWord a b = some (a * b) := if_pos h

theorem addSize_eq {a b : Nat} (h : a + b < 65536) : addSize a b = some (a + b) := if_pos h

theorem put_eq {α : Type} {n k : Nat} (t : Vector α n) (a : α) (h : k < n) :
    put t k a = some (t.set k a h) := dif_pos h

/-- A loop of which no round fails is a plain loop. -/
theorem foldlM_eq_some {α β : Type} {f : β → α → Option β} {g : β → α → β} {l : List α}
    (h : ∀ a ∈ l, ∀ b, f b a = some (g b a)) (b : β) : l.foldlM f b = some (l.foldl g b) := by
  induction l generalizing b with
  | nil => rfl
  | cons a l ih =>
      rw [List.foldlM_cons, h a List.mem_cons_self b]
      exact ih (fun a' ha' => h a' (List.mem_cons_of_mem a ha')) (g b a)

theorem mapM_eq_some {α β : Type} {f : α → Option β} {g : α → β} {l : List α}
    (h : ∀ a ∈ l, f a = some (g a)) : l.mapM f = some (l.map g) := by
  induction l with
  | nil => rfl
  | cons a l ih =>
      rw [List.mapM_cons, h a List.mem_cons_self,
        ih fun a' ha' => h a' (List.mem_cons_of_mem a ha')]
      rfl

/-! ### Parts of the state -/

theorem place_val_eq (x : UInt8) : (place x).val = (x &&& 0xF).toNat :=
  (State.toNat_and_digit x).symm

theorem read_eq (s : State) (a : UInt16) : read s a = some (s.memory.read a) := by
  rw [read, ← Memory.cell_val_eq]
  exact Vector.getElem?_eq_getElem (Memory.cell a).isLt

theorem write_eq (s : State) (a : UInt16) (b : UInt8) :
    write s a b = some { s with memory := s.memory.write a b } := by
  rw [write, ← Memory.cell_val_eq, put_eq _ _ (Memory.cell a).isLt]
  rfl

theorem reg_eq (s : State) (x : UInt8) : reg s x = some (s.reg x) := by
  rw [reg, ← place_val_eq]
  exact Vector.getElem?_eq_getElem (place x).isLt

theorem setReg_eq (s : State) (x b : UInt8) : setReg s x b = some (s.setReg x b) := by
  rw [setReg, ← place_val_eq, put_eq _ _ (place x).isLt]
  rfl

theorem putFlag_eq (s : State) (flag : Bool) :
    put s.v 0xF (flagByte flag) = some (s.setFlag flag).v := put_eq _ _ (by decide)

theorem keyIsDown_eq (s : State) (keypad : Keypad) (x : UInt8) :
    keyIsDown s keypad x = some (s.keyIsDown keypad x) := by
  rw [keyIsDown, reg_eq]
  show keypad[(s.reg x &&& 0xF).toNat]? = _
  rw [← place_val_eq]
  exact Vector.getElem?_eq_getElem (place (s.reg x)).isLt

/-- **The word at an address at which an instruction can start lies in memory as a whole.** -/
theorem fetch_eq (m : Memory) {a : UInt16} (h : a ≤ lastInstruction) :
    fetch m a = some (m.wordAt a) := by
  have ha : a.toNat ≤ 0xFFE := UInt16.le_iff_toNat_le.mp h
  have hs : (a + 1).toNat = a.toNat + 1 := by
    rw [UInt16.toNat_add]
    exact Nat.mod_eq_of_lt (by simp only [UInt16.toNat_one]; omega)
  have hhigh : (Memory.cell a).val = a.toNat :=
    Nat.mod_eq_of_lt (show a.toNat < 4096 by omega)
  have hlow : (Memory.cell (a + 1)).val = a.toNat + 1 := by
    rw [← hs]
    exact Nat.mod_eq_of_lt (show (a + 1).toNat < 4096 by omega)
  rw [fetch, ← hlow, ← hhigh, Vector.getElem?_eq_getElem (Memory.cell a).isLt,
    Vector.getElem?_eq_getElem (Memory.cell (a + 1)).isLt]
  rfl

/-! ### Blocks at the index register -/

variable {s : State}

theorem addIndex_eq (hi : s.i.toNat ≤ 0xFFF) {n : Nat} (hn : n ≤ 256) :
    addWord s.i (UInt16.ofNat n) = some (s.i + UInt16.ofNat n) := by
  apply addWord_eq
  rw [UInt16.toNat_ofNat_of_lt' (show n < 65536 by omega)]
  omega

theorem store_eq (s : State) (hi : s.i.toNat ≤ 0xFFF) {n : Nat} (hn : n ≤ 256) (b : UInt8) :
    store s (b, n) = some { s with memory := s.memory.write (s.i + UInt16.ofNat n) b } := by
  rw [store, addIndex_eq hi hn]
  exact write_eq s _ b

/-- Bytes stored one by one from a distance on are a block. -/
theorem foldlM_store_eq (bs : List UInt8) : ∀ (s : State) (n : Nat), s.i.toNat ≤ 0xFFF →
    n + bs.length ≤ 256 → (bs.zipIdx n).foldlM store s =
      some { s with memory := s.memory.copy (s.i + UInt16.ofNat n) bs } := by
  induction bs with
  | nil => intro s n _ _; rfl
  | cons b bs ih =>
      intro s n hi hn
      rw [List.length_cons] at hn
      have hrest := ih { s with memory := s.memory.write (s.i + UInt16.ofNat n) b } (n + 1) hi
        (by omega)
      rw [Memory.add_ofNat_succ] at hrest
      rw [List.zipIdx_cons, List.foldlM_cons, store_eq s hi (by omega)]
      exact hrest

/-- A number below sixteen is the place of the register that it names. -/
theorem place_ofNat_val {r : Nat} (hr : r < registerCount) : (place (UInt8.ofNat r)).val = r := by
  simp only [place, registerCount] at *
  rw [UInt8.toNat_ofNat_of_lt' (show r < 256 by omega)]
  exact Nat.mod_eq_of_lt hr

theorem take_succ_registers (s : State) {n : Nat} (hn : n < registerCount) :
    s.v.toList.take (n + 1) = s.v.toList.take n ++ [s.reg (UInt8.ofNat n)] := by
  have hlen : n < s.v.toList.length := by
    rw [Vector.length_toList]
    exact hn
  rw [List.take_succ_eq_append_getElem hlen]
  simp only [State.reg, Fin.getElem_fin, place_ofNat_val hn, Vector.getElem_toList]

/-- The first registers stored one by one are a block. -/
theorem foldlM_storeRegister_eq (hi : s.i.toNat ≤ 0xFFF) {n : Nat} (hn : n ≤ registerCount) :
    (List.range n).foldlM storeRegister s =
      some { s with memory := s.memory.copy s.i (s.v.toList.take n) } := by
  induction n with
  | zero => rfl
  | succ n ih =>
      have hn' : n < 16 := hn
      have hlen : (s.v.toList.take n).length = n := by
        rw [List.length_take, Vector.length_toList]
        exact Nat.min_eq_left (by omega)
      have hstore := store_eq { s with memory := s.memory.copy s.i (s.v.toList.take n) } hi
        (show n ≤ 256 by omega) (s.reg (UInt8.ofNat n))
      rw [List.range_succ, List.foldlM_append, ih (by omega), take_succ_registers s hn',
        Memory.copy_append, hlen]
      show ([n].foldlM storeRegister { s with memory := s.memory.copy s.i (s.v.toList.take n) }) = _
      rw [List.foldlM_cons, storeRegister, reg_eq]
      show (store _ (s.reg (UInt8.ofNat n), n) >>= _) = _
      rw [hstore]
      rfl

theorem setRegisters_nil (s : State) : s.setRegisters [] = s := by
  have hv : (Vector.ofFn fun r : Fin registerCount => s.v[r]) = s.v := by
    simp
  show ({ s with v := Vector.ofFn fun r => s.v[r] } : State) = s
  rw [hv]

/-- One more byte goes to one more register. -/
theorem setRegisters_concat (s : State) {bytes : List UInt8} (h : bytes.length < registerCount)
    (b : UInt8) : s.setRegisters (bytes ++ [b]) =
      (s.setRegisters bytes).setReg (UInt8.ofNat bytes.length) b := by
  have hv : (s.setRegisters (bytes ++ [b])).v =
      (s.setRegisters bytes).v.set (place (UInt8.ofNat bytes.length)) b := by
    ext r hr
    simp only [State.setRegisters, Vector.getElem_ofFn, Vector.getElem_set, place_ofNat_val h]
    by_cases hlt : r < bytes.length
    · rw [if_neg (by omega), List.getElem?_append_left hlt]
    · by_cases heq : bytes.length = r
      · simp [heq]
      · rw [if_neg heq, List.getElem?_eq_none (by simp; omega), List.getElem?_eq_none (by omega)]
  rw [State.setRegisters_eq, hv, State.setReg]
  simp only [State.setRegisters]

/-- The first registers loaded one by one are a block. -/
theorem foldlM_loadRegister_eq (hi : s.i.toNat ≤ 0xFFF) {n : Nat} (hn : n ≤ registerCount) :
    (List.range n).foldlM loadRegister s = some (s.setRegisters (s.memory.slice s.i n)) := by
  induction n with
  | zero => exact congrArg some (setRegisters_nil s).symm
  | succ n ih =>
      have hn' : n < 16 := hn
      have hlen := Memory.length_slice s.memory s.i n
      rw [List.range_succ, List.foldlM_append, ih (by omega), Memory.slice_succ,
        setRegisters_concat s (by omega), hlen]
      show ([n].foldlM loadRegister (s.setRegisters (s.memory.slice s.i n))) = _
      rw [List.foldlM_cons, loadRegister, State.setRegisters_i, addIndex_eq hi (by omega)]
      show ((read _ _ >>= fun b => setReg _ (UInt8.ofNat n) b) >>= _) = _
      rw [read_eq, State.setRegisters_memory]
      show (setReg _ (UInt8.ofNat n) _ >>= _) = _
      rw [setReg_eq]
      rfl

/-! ### Drawing -/

theorem pixelPlace_eq (x y : Nat) :
    pixelPlace (x % screenWidth) (y % screenHeight) = some (Frame.cell x y).val :=
  if_pos ⟨Nat.mod_lt _ (by decide), Nat.mod_lt _ (by decide)⟩

/-- Drawing a bit toggles its pixel if the bit is set. -/
theorem drawBit_eq {x k : Nat} (hx : x + 8 ≤ 65536) (hk : k < 8) (y : Nat) (b : UInt8)
    (p : Frame × Bool) :
    drawBit x y b p k =
      some (if Frame.isSet b k then Frame.toggle p (Frame.cell (x + k) y) else p) := by
  obtain ⟨f, hit⟩ := p
  have hc : (Frame.cell (x + k) y).val < screenWidth * screenHeight :=
    (Frame.cell (x + k) y).isLt
  have hshift : subSize 7 k = some (7 - k) := if_pos (by omega)
  simp only [drawBit, addSize_eq (show x + k < 65536 by omega), hshift, pixelPlace_eq,
    guard, if_pos (show 7 - k < 8 by omega), Vector.getElem?_eq_getElem hc, put_eq _ _ hc,
    Option.pure_def, Option.bind_eq_bind, Option.bind_some, Frame.isSet]
  by_cases hbit : b.toNat.testBit (7 - k) = true
  · simp [hbit, Frame.toggle]
  · simp [hbit]

theorem drawRow_eq {x y n : Nat} (hx : x + 8 ≤ 65536) (hy : y + n < 65536) (b : UInt8)
    (p : Frame × Bool) :
    drawRow x y p (b, n) = some ((Frame.coveredByRow x (y + n) b).foldl Frame.toggle p) := by
  have hbits : (List.range 8).foldlM (drawBit x (y + n) b) p = some ((List.range 8).foldl
      (fun p k => if Frame.isSet b k then Frame.toggle p (Frame.cell (x + k) (y + n)) else p) p) :=
    foldlM_eq_some (fun k hk p => drawBit_eq hx (List.mem_range.mp hk) (y + n) b p) p
  simp only [drawRow, addSize_eq hy, Option.bind_eq_bind, Option.bind_some, hbits,
    Frame.coveredByRow, List.foldl_map, List.foldl_filter]

/-- The rows from number `n` on, by induction on them. -/
theorem drawRows_eq {x y : Nat} (hx : x + 8 ≤ 65536) (sprite : List UInt8) :
    ∀ (n : Nat) (p : Frame × Bool), y + n + sprite.length ≤ 65536 →
      (sprite.zipIdx n).foldlM (drawRow x y) p =
        some ((Frame.covered x (y + n) sprite).foldl Frame.toggle p) := by
  induction sprite with
  | nil => intro n p _; rfl
  | cons b bs ih =>
      intro n p hn
      rw [List.length_cons] at hn
      rw [List.zipIdx_cons, List.foldlM_cons, drawRow_eq hx (by omega)]
      show (bs.zipIdx (n + 1)).foldlM (drawRow x y) _ = _
      rw [ih (n + 1) _ (by omega), Frame.covered, List.foldl_append]
      rfl

theorem drawSprite_eq {x y : Nat} {sprite : List UInt8} (hx : x + 8 ≤ 65536)
    (hy : y + sprite.length ≤ 65536) (f : Frame) :
    drawSprite f x y sprite = some (f.drawSprite x y sprite) :=
  drawRows_eq hx sprite 0 (f, false) hy

/-! ### Instructions -/

variable {keypad : Keypad} {g : Generator} {ins : Instruction} {f : Fault}

theorem assign_eq (s : State) (x b : UInt8) :
    assign s x b = some (.ok (s.setReg x b, .next)) := by
  rw [assign, setReg_eq]
  rfl

theorem assignFlagged_eq (s : State) (x b : UInt8) (flag : Bool) :
    assignFlagged s x b flag = some (.ok (s.setResult x b flag, .next)) := by
  rw [assignFlagged, setReg_eq]
  simp only [Option.bind_eq_bind, Option.bind_some, putFlag_eq]
  rfl

theorem draw_eq (hi : s.i.toNat ≤ 0xFFF) {n : UInt8} (hn : n.toNat < 16) (x y : UInt8) :
    draw s x y n = some (.ok (s.draw x y n, .next)) := by
  have hsprite : ((List.range n.toNat).mapM fun row => do
      read s (← addWord s.i (UInt16.ofNat row))) = some (s.memory.slice s.i n.toNat) := by
    apply mapM_eq_some
    intro row hrow
    have hrow' := List.mem_range.mp hrow
    rw [addIndex_eq hi (by omega)]
    exact read_eq s _
  have hlen := Memory.length_slice s.memory s.i n.toNat
  have hx : (s.reg x).toNat < 256 := (s.reg x).toNat_lt
  have hy : (s.reg y).toNat < 256 := (s.reg y).toNat_lt
  rw [draw, hsprite, reg_eq, reg_eq]
  simp only [Option.bind_eq_bind, Option.bind_some]
  rw [drawSprite_eq (by omega) (by omega)]
  simp only [Option.bind_some, putFlag_eq]
  rfl

/-- The instructions that meet a fault do so before anything else. -/
theorem effect_of_fault (hx : s.faultOf? ins = some f) :
    effect s keypad g ins = some (.error f) := by
  rcases State.faultOf?_cases hx with ⟨a, rfl, hfull, rfl⟩ | ⟨rfl, hempty, rfl⟩
  · exact if_pos hfull
  · exact if_pos hempty

theorem ret_eq (h : s.WellFormed) (hx : s.faultOf? .ret = none) :
    ret s = some (.ok (s.pop, .jump s.top)) := by
  have hpos := State.sp_pos_of_ret hx
  have hne : s.sp ≠ 0 := by
    intro hempty
    rw [hempty] at hpos
    exact absurd hpos (by decide)
  have hsp : (s.sp - 1).toNat < stackDepth := by
    have hle := h.sp_le
    rw [State.sp_sub_one_toNat hx]
    show s.sp.toNat - 1 < 16
    omega
  have htop : s.top = s.stack[(s.sp - 1).toNat] := by
    simp only [State.top, Vector.getD, Array.getD_eq_getD_getElem?, Vector.getElem?_toArray,
      Vector.getElem?_eq_getElem hsp, Option.getD_some]
  have hpop : subByte s.sp 1 = some (s.sp - 1) := subByte_eq hpos
  rw [ret, if_neg hne, hpop, htop]
  simp only [Option.bind_eq_bind, Option.bind_some, Vector.getElem?_eq_getElem hsp]
  rfl

theorem call_eq (hp : s.pc ≤ lastInstruction) {a : UInt16}
    (hx : s.faultOf? (.call a) = none) :
    call s a = some (.ok (s.push ((s.pc + 2) &&& addressMask), .jump a)) := by
  have hsp := State.sp_lt_of_call hx
  have hpc := State.pc_toNat_le hp
  have hback : addWord s.pc 2 = some (s.pc + 2) :=
    addWord_eq (show s.pc.toNat + 2 < 65536 by omega)
  have hnext : addByte s.sp 1 = some (s.sp + 1) := addByte_eq (show s.sp.toNat + 1 < 256 by omega)
  have hstack : s.stack.set s.sp.toNat ((s.pc + 2) &&& addressMask) hsp =
      s.stack.setIfInBounds s.sp.toNat ((s.pc + 2) &&& addressMask) := by
    ext k hk
    rw [Vector.getElem_set, Vector.getElem_setIfInBounds]
  rw [call, if_neg (Nat.not_le.mpr hsp), hback]
  simp only [Option.bind_eq_bind, Option.bind_some, put_eq _ _ hsp, hnext]
  rw [State.push, hstack]
  rfl

theorem move_next (hp : s.pc ≤ lastInstruction) : Flow.next.move s.pc = some (s.pc + 2) := by
  have hpc := State.pc_toNat_le hp
  exact addWord_eq (show s.pc.toNat + 2 < 65536 by omega)

theorem move_ofSkip (hp : s.pc ≤ lastInstruction) (skip : Bool) :
    (Flow.ofSkip skip).move s.pc = some (s.skipIf skip) := by
  cases skip with
  | false => exact move_next hp
  | true =>
      have hpc := State.pc_toNat_le hp
      exact addWord_eq (show s.pc.toNat + 4 < 65536 by omega)

theorem addRegister_eq {a : UInt16} (ha : a.toNat ≤ 0xFFF) (b : UInt8) :
    addWord a b.toUInt16 = some (a + b.toUInt16) := by
  have hb := b.toNat_lt
  apply addWord_eq
  rw [UInt8.toNat_toUInt16]
  omega

theorem glyphOffset_eq (b : UInt8) : mulWord (b &&& 0xF).toUInt16 glyphSize =
    some ((b &&& 0xF).toUInt16 * glyphSize) := by
  have hb := State.toNat_and_digit_lt b
  apply mulWord_eq
  rw [UInt8.toNat_toUInt16]
  show _ * 5 < 65536
  omega

theorem glyphAddress_eq (b : UInt8) : addWord fontAddress ((b &&& 0xF).toUInt16 * glyphSize) =
    some (fontAddress + (b &&& 0xF).toUInt16 * glyphSize) := by
  have hb := State.toNat_and_digit_lt b
  apply addWord_eq
  rw [UInt16.toNat_mul, UInt8.toNat_toUInt16]
  show 0x50 + (b &&& 0xF).toNat * 5 % 65536 < 65536
  rw [Nat.mod_eq_of_lt (by omega)]
  omega

theorem blockLength_eq (x : UInt8) : (x &&& 0xF).toNat + 1 = State.blockLength x := by
  rw [State.toNat_and_digit]
  rfl

theorem blockLength_le (x : UInt8) : State.blockLength x ≤ registerCount :=
  Nat.mod_lt x.toNat (by decide)

theorem storeBcd_eq (hi : s.i.toNat ≤ 0xFFF) (x : UInt8) :
    storeBcd s x = some (.ok (s.perform g (.storeBcd x), .next)) := by
  have hdigits : (State.decimalDigits (s.reg x)).zipIdx.foldlM store s = _ :=
    foldlM_store_eq _ s 0 hi (show 0 + 3 ≤ 256 by decide)
  have hstart : s.i + UInt16.ofNat 0 = s.i := UInt16.add_zero s.i
  rw [storeBcd, reg_eq]
  simp only [Option.bind_eq_bind, Option.bind_some, hdigits, hstart]
  rfl

theorem storeRegisters_eq (hi : s.i.toNat ≤ 0xFFF) (x : UInt8) :
    storeRegisters s x = some (.ok (s.perform g (.storeRegisters x), .next)) := by
  rw [storeRegisters, blockLength_eq, foldlM_storeRegister_eq hi (blockLength_le x)]
  rfl

theorem loadRegisters_eq (hi : s.i.toNat ≤ 0xFFF) (x : UInt8) :
    loadRegisters s x = some (.ok (s.perform g (.loadRegisters x), .next)) := by
  rw [loadRegisters, blockLength_eq, foldlM_loadRegister_eq hi (blockLength_le x)]
  rfl

/-- **No check of an instruction without a fault fails.** -/
theorem effect_eq (keypad : Keypad) (g : Generator) (h : s.WellFormed)
    (hp : s.pc ≤ lastInstruction) (hr : ins.InRange) (hx : s.faultOf? ins = none) : ∃ flow,
      effect s keypad g ins = some (.ok (s.perform g ins, flow)) ∧
      flow.move s.pc = some (s.next keypad ins) := by
  have hi : s.i.toNat ≤ 0xFFF := h.i_le
  cases ins with
  | ret => exact ⟨_, ret_eq h hx, rfl⟩
  | jump a => exact ⟨_, rfl, rfl⟩
  | call a => exact ⟨_, call_eq hp hx, rfl⟩
  | jumpOffset a =>
      have ha : a.toNat < 4096 := hr
      refine ⟨.jump ((a + (s.reg 0).toUInt16) &&& addressMask), ?_, ?_⟩
      · simp only [effect, reg_eq, addRegister_eq (show a.toNat ≤ 0xFFF by omega),
          Option.bind_eq_bind, Option.bind_some]
        rfl
      · simp only [Flow.move, State.next, UInt16.and_assoc, UInt16.and_self]
  | draw x y n => exact ⟨_, draw_eq hi hr.2.2 x y, move_next hp⟩
  | skipIfEqual x b | skipIfNotEqual x b | skipIfRegistersEqual x y
  | skipIfRegistersNotEqual x y =>
      refine ⟨.ofSkip _, ?_, move_ofSkip hp _⟩
      simp only [effect, reg_eq]
      rfl
  | skipIfPressed x | skipIfNotPressed x =>
      refine ⟨.ofSkip _, ?_, move_ofSkip hp _⟩
      simp only [effect, keyIsDown_eq]
      rfl
  | load x b | random x b | readDelay x => exact ⟨.next, assign_eq s x _, move_next hp⟩
  | add x b | move x y | or x y | and x y | xor x y =>
      refine ⟨.next, ?_, move_next hp⟩
      simp only [effect, reg_eq, Option.bind_eq_bind, Option.bind_some]
      exact assign_eq s x _
  | addRegisters x y | sub x y | subN x y | shiftRight x | shiftLeft x =>
      refine ⟨.next, ?_, move_next hp⟩
      simp only [effect, reg_eq, Option.bind_eq_bind, Option.bind_some]
      exact assignFlagged_eq s x _ _
  | clearScreen | loadIndex a | awaitKey x => exact ⟨.next, rfl, move_next hp⟩
  | setDelay x | setSound x =>
      refine ⟨.next, ?_, move_next hp⟩
      simp only [effect, reg_eq]
      rfl
  | addIndex x =>
      refine ⟨.next, ?_, move_next hp⟩
      simp only [effect, reg_eq, addRegister_eq hi, Option.bind_eq_bind, Option.bind_some]
      rfl
  | loadGlyph x =>
      refine ⟨.next, ?_, move_next hp⟩
      simp only [effect, reg_eq, glyphOffset_eq, glyphAddress_eq, Option.bind_eq_bind,
        Option.bind_some]
      rfl
  | storeBcd x => exact ⟨.next, storeBcd_eq hi x, move_next hp⟩
  | storeRegisters x => exact ⟨.next, storeRegisters_eq hi x, move_next hp⟩
  | loadRegisters x => exact ⟨.next, loadRegisters_eq hi x, move_next hp⟩

/-- The state after an instruction, or the fault that it meets. -/
theorem execute_eq (h : s.WellFormed) (hp : s.pc ≤ lastInstruction) (hr : ins.InRange) :
    execute s keypad g ins = some (match s.faultOf? ins with
      | some f => .error f
      | none => .ok { s.perform g ins with pc := s.next keypad ins }) := by
  cases hx : s.faultOf? ins with
  | some f =>
      rw [execute, effect_of_fault hx]
      rfl
  | none =>
      obtain ⟨flow, heffect, hmove⟩ := effect_eq keypad g h hp hr hx
      rw [execute, heffect]
      simp only [Option.bind_eq_bind, Option.bind_some, s.perform_pc, hmove]
      rfl

/-- An instruction after which the program goes on with the next word, wherever that may be. -/
theorem execute_of_next {m : Machine}
    (h : effect m.state m.keypad m.generator ins =
      some (.ok (m.state.perform m.generator ins, .next)))
    (hnext : m.state.next m.keypad ins = m.state.pc + 2)
    (hpc : m.state.pc.toNat + 2 < UInt16.size) :
    execute m.state m.keypad m.generator ins = some (.ok (m.execute ins).state) := by
  have hmove : Flow.next.move m.state.pc = some (m.state.pc + 2) := addWord_eq hpc
  rw [execute, h]
  simp only [Option.bind_eq_bind, Option.bind_some, State.perform_pc, hmove, ← hnext]
  rfl

end ChipEight.Guarded
