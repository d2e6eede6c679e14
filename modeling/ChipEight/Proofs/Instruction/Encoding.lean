import ChipEight.Layout
import ChipEight.Instruction

/-!
# Words and instructions

Decoding accepts the words of the instruction set and no other, and it undoes encoding. The two shifts
take no second register, so the digit in its place may be anything; every other instruction has one
word.

* `Instruction.InRange`, with `decode?_inRange` — the operands of a decoded instruction fit into the bits that
  a word has for them;
* `fields_addressed`, `fields_xbyte`, `fields_xyn` — what stands in an encoded word, one lemma for each
  of the three shapes;
* `decode?_encode` — the word of an instruction is decoded to it;
* `isWordFor_of_decode?` — a decoded word is a word for its instruction;
* `decode?_of_sameButY` — the digit that a shift leaves alone is not looked at;
* `decode?_exact` — all of it together.
-/

namespace ChipEight

namespace Word

/-! ### The fields of a word as numbers -/

theorem toNat_x (w : UInt16) : (x w).toNat = w.toNat / 256 % 16 :=
  UInt8.toNat_ofNat_of_lt' (by simp only [UInt8.size]; omega)

theorem toNat_y (w : UInt16) : (y w).toNat = w.toNat / 16 % 16 :=
  UInt8.toNat_ofNat_of_lt' (by simp only [UInt8.size]; omega)

theorem toNat_n (w : UInt16) : (n w).toNat = w.toNat % 16 :=
  UInt8.toNat_ofNat_of_lt' (by simp only [UInt8.size]; omega)

theorem toNat_byte (w : UInt16) : (byte w).toNat = w.toNat % 256 :=
  UInt8.toNat_ofNat_of_lt' (by simp only [UInt8.size]; omega)

theorem toNat_addr (w : UInt16) : (addr w).toNat = w.toNat % 4096 :=
  UInt16.toNat_ofNat_of_lt' (by simp only [UInt16.size]; omega)

theorem x_lt (w : UInt16) : (x w).toNat < 16 := by
  rw [toNat_x]
  exact Nat.mod_lt _ (by decide)

theorem y_lt (w : UInt16) : (y w).toNat < 16 := by
  rw [toNat_y]
  exact Nat.mod_lt _ (by decide)

theorem n_lt (w : UInt16) : (n w).toNat < 16 := by
  rw [toNat_n]
  exact Nat.mod_lt _ (by decide)

theorem addr_lt (w : UInt16) : (addr w).toNat < memorySize := by
  rw [toNat_addr]
  exact Nat.mod_lt _ (by decide)

/-- The first byte of a word is the more significant. -/
theorem toNat_ofBytes (high low : UInt8) :
    (ofBytes high low).toNat = 256 * high.toNat + low.toNat := by
  have hhigh := high.toNat_lt
  have hlow := low.toNat_lt
  exact UInt16.toNat_ofNat_of_lt' (by simp only [UInt16.size]; omega)

/-! ### Shifts -/

/-- Two words that agree in all bits but those of the second register number, bits 4 to 7. -/
def SameButY (w v : UInt16) : Prop :=
  w.toNat / 256 = v.toNat / 256 ∧ w.toNat % 16 = v.toNat % 16

/-- A word of the form `8xy6` or `8xyE`. -/
def IsShift (w : UInt16) : Prop :=
  family w = 0x8 ∧ (w.toNat % 16 = 0x6 ∨ w.toNat % 16 = 0xE)

theorem SameButY.symm {w v : UInt16} (h : SameButY w v) : SameButY v w := ⟨h.1.symm, h.2.symm⟩

theorem SameButY.trans {u v w : UInt16} (h : SameButY u v) (h' : SameButY v w) : SameButY u w :=
  ⟨h.1.trans h'.1, h.2.trans h'.2⟩

theorem IsShift.of_sameButY {w v : UInt16} (h : IsShift v) (hsame : SameButY w v) : IsShift w := by
  simp only [IsShift, SameButY, family] at *
  omega

end Word

namespace Instruction

open Word encode

/-! ### Operands of decoded instructions -/

/-- Register numbers and counts are below sixteen and addresses below `memorySize`. -/
def InRange : Instruction → Prop
  | clearScreen | ret => True
  | jump a | call a | loadIndex a | jumpOffset a => a.toNat < memorySize
  | skipIfEqual x _ | skipIfNotEqual x _ | load x _ | add x _ | random x _ => x.toNat < 16
  | skipIfRegistersEqual x y | skipIfRegistersNotEqual x y | move x y | or x y | and x y | xor x y
  | addRegisters x y | sub x y | subN x y => x.toNat < 16 ∧ y.toNat < 16
  | draw x y n => x.toNat < 16 ∧ y.toNat < 16 ∧ n.toNat < 16
  | shiftRight x | shiftLeft x | skipIfPressed x | skipIfNotPressed x | readDelay x | awaitKey x
  | setDelay x | setSound x | addIndex x | loadGlyph x | storeBcd x | storeRegisters x
  | loadRegisters x => x.toNat < 16

/-- **The operands of a decoded instruction are in range.** -/
theorem decode?_inRange {w : UInt16} {ins : Instruction} (h : decode? w = some ins) :
    ins.InRange := by
  unfold decode? at h
  -- each row that yields an instruction cuts its operands out of the word
  repeat' split at h
  all_goals cases h
  all_goals simp only [InRange, x_lt, y_lt, n_lt, addr_lt, and_self]

/-! ### The shapes of an encoded word -/

section

variable {f b d : Nat} {x y : UInt8} {a : UInt16} (hf : f % 4096 = 0) (hlt : f < 65536)
include hf hlt

theorem toNat_addressed (ha : a.toNat < memorySize) :
    (UInt16.ofNat (f + a.toNat)).toNat = f + a.toNat :=
  UInt16.toNat_ofNat_of_lt' (by simp only [UInt16.size, memorySize] at *; omega)

theorem toNat_xbyte (hx : x.toNat < 16) (hb : b < 256) :
    (xbyte f x b).toNat = f + 256 * x.toNat + b :=
  UInt16.toNat_ofNat_of_lt' (by simp only [UInt16.size]; omega)

theorem toNat_xyn (hx : x.toNat < 16) (hy : y.toNat < 16) (hd : d < 16) :
    (xyn f x y d).toNat = f + 256 * x.toNat + 16 * y.toNat + d :=
  UInt16.toNat_ofNat_of_lt' (by simp only [UInt16.size]; omega)

/-- A family and an address. -/
theorem fields_addressed (ha : a.toNat < memorySize) :
    family (UInt16.ofNat (f + a.toNat)) = f / 4096 ∧ addr (UInt16.ofNat (f + a.toNat)) = a := by
  rw [← UInt16.toNat_inj, toNat_addr, family, toNat_addressed hf hlt ha]
  simp only [memorySize] at ha
  omega

/-- A family, a register number and a low byte. -/
theorem fields_xbyte (hx : x.toNat < 16) (hb : b < 256) :
    family (xbyte f x b) = f / 4096 ∧ Word.x (xbyte f x b) = x ∧
      (xbyte f x b).toNat % 256 = b := by
  rw [← UInt8.toNat_inj, toNat_x, family, toNat_xbyte hf hlt hx hb]
  omega

/-- A family, two register numbers and a low digit. -/
theorem fields_xyn (hx : x.toNat < 16) (hy : y.toNat < 16) (hd : d < 16) :
    family (xyn f x y d) = f / 4096 ∧ Word.x (xyn f x y d) = x ∧ Word.y (xyn f x y d) = y ∧
      (xyn f x y d).toNat % 16 = d := by
  rw [← UInt8.toNat_inj, ← UInt8.toNat_inj, toNat_x, toNat_y, family, toNat_xyn hf hlt hx hy hd]
  omega

end

/-- **Decoding undoes encoding.** -/
theorem decode?_encode {ins : Instruction} (h : ins.InRange) : decode? ins.encode = some ins := by
  -- by the shape of the word: its fields pick the row of `decode?` and give back the operands
  cases ins with
  | clearScreen | ret => rfl
  | jump a | call a | loadIndex a | jumpOffset a =>
      have ha : a.toNat < memorySize := h
      simp only [encode, decode?, fields_addressed, ha, Nat.reduceLT]
  | skipIfEqual x b | skipIfNotEqual x b | load x b | add x b | random x b =>
      have hx : x.toNat < 16 := h
      have hb : b.toNat < 256 := b.toNat_lt
      simp only [encode, decode?, fields_xbyte, hx, hb, byte, UInt8.ofNat_toNat, Nat.reduceLT]
  | skipIfRegistersEqual x y | skipIfRegistersNotEqual x y | move x y | or x y | and x y | xor x y
  | addRegisters x y | sub x y | subN x y =>
      obtain ⟨hx, hy⟩ : x.toNat < 16 ∧ y.toNat < 16 := h
      simp only [encode, decode?, fields_xyn, hx, hy, Nat.reduceLT, if_true]
  | draw x y n =>
      obtain ⟨hx, hy, hn⟩ : x.toNat < 16 ∧ y.toNat < 16 ∧ n.toNat < 16 := h
      simp only [encode, decode?, fields_xyn, hx, hy, hn, Word.n, UInt8.ofNat_toNat, Nat.reduceLT]
  | shiftRight x | shiftLeft x =>
      have hx : x.toNat < 16 := h
      simp only [encode, decode?, fields_xyn, hx, UInt8.toNat_zero, Nat.reduceLT]
  | skipIfPressed x | skipIfNotPressed x | readDelay x | awaitKey x | setDelay x | setSound x
  | addIndex x | loadGlyph x | storeBcd x | storeRegisters x | loadRegisters x =>
      have hx : x.toNat < 16 := h
      simp only [encode, decode?, fields_xbyte, hx, Nat.reduceLT]

/-! ### All words of an instruction -/

/-- The two shifts. -/
def IsShift : Instruction → Prop
  | shiftRight _ | shiftLeft _ => True
  | _ => False

/-- A word for an instruction: the one that `encode` gives, where a shift may have any second register
number. -/
def IsWordFor (w : UInt16) (ins : Instruction) : Prop :=
  w = ins.encode ∨ ins.IsShift ∧ SameButY w ins.encode

/-- A decoded word is a word for its instruction. -/
theorem isWordFor_of_decode? {w : UInt16} {ins : Instruction} (h : decode? w = some ins) :
    IsWordFor w ins := by
  have hw := w.toNat_lt
  unfold decode? family at h
  -- in each row that yields an instruction, what the row asks of the word and the operands that were
  -- cut out of it make up all of its digits
  repeat' split at h
  all_goals cases h
  all_goals simp only [IsWordFor, IsShift, SameButY, false_and, or_false, true_and,
    ← UInt16.toNat_inj, encode, xbyte, xyn, UInt16.toNat_ofNat', toNat_x, toNat_y, toNat_n,
    toNat_byte, toNat_addr, UInt8.toNat_zero, UInt16.reduceToNat]
  all_goals omega

/-- The word of a shift is of one of the two forms. -/
theorem isShift_encode {ins : Instruction} (hshift : ins.IsShift) (h : ins.InRange) :
    Word.IsShift ins.encode := by
  cases ins with
  | shiftRight x | shiftLeft x =>
      have hx : x.toNat < 16 := h
      simp only [Word.IsShift, encode, fields_xyn, hx, UInt8.toNat_zero, Nat.reduceLT, true_or,
        or_true, and_self]
  | _ => exact hshift.elim

/-- **The digit that a shift leaves alone** is not looked at. -/
theorem decode?_of_sameButY {w v : UInt16} (hshift : Word.IsShift v) (h : SameButY w v) :
    decode? w = decode? v := by
  have hx : x w = x v := by rw [← UInt8.toNat_inj, toNat_x, toNat_x, h.1]
  have hfamily : family w = 0x8 := (hshift.of_sameButY h).1
  rcases hshift with ⟨hfamily', hlow | hlow⟩
  · simp only [decode?, hfamily, hfamily', h.2, hlow, hx]
  · simp only [decode?, hfamily, hfamily', h.2, hlow, hx]

/-- What is decoded to an instruction is what stands for it. -/
theorem decode?_eq_some_iff {w : UInt16} {ins : Instruction} :
    decode? w = some ins ↔ ins.InRange ∧ IsWordFor w ins := by
  constructor
  · exact fun h => ⟨decode?_inRange h, isWordFor_of_decode? h⟩
  · rintro ⟨hrange, rfl | ⟨hshift, hsame⟩⟩
    · exact decode?_encode hrange
    · rw [decode?_of_sameButY (isShift_encode hshift hrange) hsame, decode?_encode hrange]

/-- **Two words of one instruction** are the same or those of a shift. -/
theorem eq_iff_of_decode? {w w' : UInt16} {ins ins' : Instruction} (h : decode? w = some ins)
    (h' : decode? w' = some ins') : ins = ins' ↔ w = w' ∨ Word.IsShift w ∧ SameButY w w' := by
  constructor
  · rintro rfl
    obtain ⟨hrange, hw⟩ := decode?_eq_some_iff.mp h
    rcases hw, (decode?_eq_some_iff.mp h').2 with ⟨rfl | ⟨hshift, hsame⟩, rfl | ⟨hshift', hsame'⟩⟩
    · exact .inl rfl
    · exact .inr ⟨isShift_encode hshift' hrange, hsame'.symm⟩
    · exact .inr ⟨(isShift_encode hshift hrange).of_sameButY hsame, hsame⟩
    · exact .inr ⟨(isShift_encode hshift hrange).of_sameButY hsame, hsame.trans hsame'.symm⟩
  · rintro (rfl | ⟨hshift, hsame⟩)
    · exact Option.some.inj (h.symm.trans h')
    · rw [decode?_of_sameButY hshift hsame.symm] at h'
      exact Option.some.inj (h.symm.trans h')

/-- **Decoding is exact.** The word of an instruction whose operands fit into a word is decoded to it. If
a word is decoded to an instruction, the operands of this fit, and the word is the one of the
instruction, except perhaps for the second register number of a shift. Every other word is refused. -/
theorem decode?_exact :
    (∀ ins : Instruction, ins.InRange → decode? ins.encode = some ins) ∧
    (∀ w ins, decode? w = some ins →
      ins.InRange ∧ (w = ins.encode ∨ ins.IsShift ∧ SameButY w ins.encode)) ∧
    ∀ w, decode? w = none ↔
      ¬ ∃ ins : Instruction, ins.InRange ∧ (w = ins.encode ∨ ins.IsShift ∧ SameButY w ins.encode) := by
  refine ⟨fun ins h => decode?_encode h, fun w ins h => decode?_eq_some_iff.mp h, fun w => ?_⟩
  constructor
  · rintro hnone ⟨ins, hins⟩
    have hsome : decode? w = some ins := decode?_eq_some_iff.mpr hins
    rw [hnone] at hsome
    cases hsome
  · intro hno
    cases hins : decode? w with
    | none => rfl
    | some ins => exact (hno ⟨ins, decode?_eq_some_iff.mp hins⟩).elim

/-- A shift with a second register number is decoded, to an instruction with another word. The word
`5121` is refused. -/
theorem shifted_decodes : decode? (shiftRight 1).encode = some (shiftRight 1) ∧
    (decode? 0x81F6 = some (shiftRight 1) ∧ 0x81F6 ≠ (shiftRight 1).encode ∧
      SameButY 0x81F6 (shiftRight 1).encode) ∧
    ¬ ∃ ins : Instruction,
      ins.InRange ∧ (0x5121 = ins.encode ∨ ins.IsShift ∧ SameButY 0x5121 ins.encode) := by
  have hrange : (shiftRight 1).InRange := show (1 : UInt8).toNat < 16 by decide
  have hne : (0x81F6 : UInt16) ≠ (shiftRight 1).encode := by decide
  have hword : decode? 0x81F6 = some (shiftRight 1) := by decide
  obtain ⟨hencode, hdecode, hnone⟩ := decode?_exact
  refine ⟨hencode _ hrange, ⟨hword, hne, ?_⟩, (hnone 0x5121).mp (by decide)⟩
  exact ((hdecode _ _ hword).2.resolve_left hne).2

end Instruction

end ChipEight
