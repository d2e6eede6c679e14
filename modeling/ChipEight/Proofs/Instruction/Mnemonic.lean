import ChipEight.Instruction
import ChipEight.Proofs.Instruction.Encoding
import ChipEight.Text

/-!
# Reading assembly text

The text of an instruction can be read back: its name ends at the first blank, commas part its
operands, and each operand shows by its first characters and its length of what kind it is. So no two
instructions have the same text.

* `Operand.read`, with `Operand.read_text` — an operand from its text;
* `ofAssembly?`, with `ofAssembly?_assembly` — an instruction from its name and its operands;
* `pieces`, with `pieces_mnemonic` — the name and the operands in a text;
* `ofText?_mnemonic` — an instruction from its text;
* `mnemonic_unambiguous` — equal texts are those of equal instructions, and what that says of words.
-/

namespace ChipEight

/-! ### Operands -/

namespace Operand

/-- The operand that a text stands for. -/
def read : List Char → Operand
  | 'V' :: cs => register (UInt8.ofNat (Hex.value cs))
  | '0' :: 'x' :: cs =>
    if cs.length ≤ 2 then byte (UInt8.ofNat (Hex.value cs))
    else address (UInt16.ofNat (Hex.value cs))
  | cs =>
    if cs.all Char.isDigit then rows (UInt8.ofNat (Nat.ofDigitChars 10 cs 0))
    else named (String.ofList cs)

/-- The parts of the machine that have a name. -/
def names : List String := ["I", "DT", "ST", "K", "F", "B", "[I]"]

/-- An operand that has a name has one of these. -/
def Known : Operand → Prop
  | named name => name ∈ names
  | _ => True

theorem text_register (x : UInt8) :
    (register x).text.toList = 'V' :: (Hex.padded 0 x.toNat).toList := by
  rw [text, String.toList_append, Hex.plain_eq_padded]
  rfl

theorem toList_marked (width n : Nat) :
    (Hex.marked width n).toList = '0' :: 'x' :: (Hex.padded width n).toList :=
  String.toList_append

theorem text_rows (n : UInt8) : (rows n).text.toList = Nat.toDigits 10 n.toNat :=
  Nat.toList_repr

theorem isDigit_of_mem_rows {n : UInt8} {c : Char} (h : c ∈ (rows n).text.toList) :
    c.isDigit = true := by
  rw [text_rows] at h
  exact Nat.isDigit_of_mem_toDigits (by decide) (by decide) h

/-- The text of an immediate value has two digits. -/
theorem length_byte (b : UInt8) : (Hex.padded 2 b.toNat).toList.length = 2 := by
  rw [Hex.length_padded]
  exact Nat.max_eq_left (Hex.length_digits_le b.toNat_lt)

/-- **An operand can be read back.** -/
theorem read_text {op : Operand} (h : op.Known) : read op.text.toList = op := by
  cases op with
  | register x =>
      rw [text_register]
      show register (UInt8.ofNat (Hex.value (Hex.padded 0 x.toNat).toList)) = _
      rw [Hex.value_padded, UInt8.ofNat_toNat]
  | address a =>
      rw [text, toList_marked]
      have hlong : ¬ (Hex.padded 3 a.toNat).toList.length ≤ 2 := by
        rw [Hex.length_padded]
        omega
      rw [read, if_neg hlong, Hex.value_padded, UInt16.ofNat_toNat]
  | byte b =>
      rw [text, toList_marked, read, if_pos (Nat.le_of_eq (length_byte b)), Hex.value_padded,
        UInt8.ofNat_toNat]
  | rows n =>
      have hdigits : (rows n).text.toList.all Char.isDigit = true :=
        List.all_eq_true.mpr fun c hc => isDigit_of_mem_rows hc
      unfold read
      split
      · rename_i cs hcs
        rw [hcs] at hdigits
        cases hdigits
      · rename_i cs hcs
        rw [hcs] at hdigits
        cases hdigits
      · rw [if_pos hdigits, text_rows, Nat.ofDigitChars_ten_toDigits, UInt8.ofNat_toNat]
  | named name =>
      have hnames : ∀ name ∈ names, read name.toList = named name := by decide
      exact hnames name h

/-- The characters in the texts of operands, apart from the digits of numbers of rows. -/
def letters : List Char := 'V' :: '0' :: 'x' :: Hex.characters ++ names.flatMap String.toList

/-- What holds of digits and of these characters holds of every character in the text of an operand. -/
theorem forall_mem_text {P : Char → Prop} [DecidablePred P] (hletters : letters.all (P ·) = true)
    (hdigit : ∀ c : Char, c.isDigit = true → P c) {op : Operand} (h : op.Known) :
    ∀ c ∈ op.text.toList, P c := by
  have hletter : ∀ c ∈ letters, P c := fun c hc =>
    of_decide_eq_true (List.all_eq_true.mp hletters c hc)
  have hhex : ∀ {width n : Nat}, ∀ c ∈ (Hex.padded width n).toList, P c := fun c hc =>
    hletter c (List.mem_append_left _ (List.mem_cons_of_mem _ (List.mem_cons_of_mem _
      (List.mem_cons_of_mem _ (Hex.mem_characters hc)))))
  have hmarked : ∀ {width n : Nat}, ∀ c ∈ (Hex.marked width n).toList, P c := by
    intro width n c hc
    rw [toList_marked, List.mem_cons, List.mem_cons] at hc
    rcases hc with rfl | rfl | hc
    · exact hletter _ (by decide)
    · exact hletter _ (by decide)
    · exact hhex c hc
  cases op with
  | register x =>
      intro c hc
      rw [text_register, List.mem_cons] at hc
      rcases hc with rfl | hc
      · exact hletter _ (by decide)
      · exact hhex c hc
  | address a => exact hmarked
  | byte b => exact hmarked
  | rows n => exact fun c hc => hdigit c (isDigit_of_mem_rows hc)
  | named name =>
      exact fun c hc => hletter c (List.mem_append_right _ (List.mem_flatMap.mpr ⟨name, h, hc⟩))

/-- A character that neither ends a name nor parts operands. -/
def IsPlain (c : Char) : Prop := c ≠ ' ' ∧ c ≠ ','

instance : DecidablePred IsPlain := fun _ => inferInstanceAs (Decidable (_ ∧ _))

theorem isPlain_of_mem_padded {width n : Nat} {c : Char} (h : c ∈ (Hex.padded width n).toList) :
    IsPlain c := by
  have hdigits : (Hex.characters.all fun c => IsPlain c) = true := by decide
  exact of_decide_eq_true (List.all_eq_true.mp hdigits c (Hex.mem_characters h))

theorem isPlain_of_isDigit {c : Char} (h : c.isDigit = true) : IsPlain c := by
  constructor <;> rintro rfl <;> cases h

/-- There is no blank and no comma in the text of an operand. -/
theorem isPlain_of_mem_text {op : Operand} (h : op.Known) {c : Char} (hc : c ∈ op.text.toList) :
    IsPlain c :=
  forall_mem_text (by decide) (fun _ => isPlain_of_isDigit) h c hc

end Operand

namespace Instruction

/-! ### Names and operands -/

/-- The instruction with a name and some operands. -/
def ofAssembly? : String × List Operand → Option Instruction
  | ("CLS", []) => some clearScreen
  | ("RET", []) => some ret
  | ("JP", [.address a]) => some (jump a)
  | ("CALL", [.address a]) => some (call a)
  | ("SE", [.register x, .byte b]) => some (skipIfEqual x b)
  | ("SNE", [.register x, .byte b]) => some (skipIfNotEqual x b)
  | ("SE", [.register x, .register y]) => some (skipIfRegistersEqual x y)
  | ("LD", [.register x, .byte b]) => some (load x b)
  | ("ADD", [.register x, .byte b]) => some (add x b)
  | ("LD", [.register x, .register y]) => some (move x y)
  | ("OR", [.register x, .register y]) => some (or x y)
  | ("AND", [.register x, .register y]) => some (and x y)
  | ("XOR", [.register x, .register y]) => some (xor x y)
  | ("ADD", [.register x, .register y]) => some (addRegisters x y)
  | ("SUB", [.register x, .register y]) => some (sub x y)
  | ("SHR", [.register x]) => some (shiftRight x)
  | ("SUBN", [.register x, .register y]) => some (subN x y)
  | ("SHL", [.register x]) => some (shiftLeft x)
  | ("SNE", [.register x, .register y]) => some (skipIfRegistersNotEqual x y)
  | ("LD", [.named "I", .address a]) => some (loadIndex a)
  | ("JP", [.register _, .address a]) => some (jumpOffset a)
  | ("RND", [.register x, .byte b]) => some (random x b)
  | ("DRW", [.register x, .register y, .rows n]) => some (draw x y n)
  | ("SKP", [.register x]) => some (skipIfPressed x)
  | ("SKNP", [.register x]) => some (skipIfNotPressed x)
  | ("LD", [.register x, .named "DT"]) => some (readDelay x)
  | ("LD", [.register x, .named "K"]) => some (awaitKey x)
  | ("LD", [.named "DT", .register x]) => some (setDelay x)
  | ("LD", [.named "ST", .register x]) => some (setSound x)
  | ("ADD", [.named "I", .register x]) => some (addIndex x)
  | ("LD", [.named "F", .register x]) => some (loadGlyph x)
  | ("LD", [.named "B", .register x]) => some (storeBcd x)
  | ("LD", [.named "[I]", .register x]) => some (storeRegisters x)
  | ("LD", [.register x, .named "[I]"]) => some (loadRegisters x)
  | _ => none

theorem ofAssembly?_assembly (ins : Instruction) : ofAssembly? ins.assembly = some ins := by
  cases ins <;> rfl

/-- The operands of an instruction that have a name have a known one. -/
theorem known_of_mem {ins : Instruction} {op : Operand} (h : op ∈ ins.assembly.2) : op.Known := by
  revert op
  cases ins <;> simp [assembly, Operand.Known, Operand.names]

theorem not_mem_name (ins : Instruction) : ' ' ∉ ins.assembly.1.toList := by
  cases ins <;> simp [assembly]

/-! ### Texts -/

/-- The name in a text, and the texts of the operands behind it. -/
def pieces (cs : List Char) : List Char × List (List Char) :=
  (cs.takeWhile (· ≠ ' '),
    match cs.dropWhile (· ≠ ' ') with
    | [] => []
    | _ :: operands => (operands.filter (· ≠ ' ')).splitOn ',')

/-- The blanks behind the commas taken out. -/
theorem filter_intercalate {fields : List (List Char)} (h : ∀ field ∈ fields, ' ' ∉ field) :
    ([',', ' '].intercalate fields).filter (· ≠ ' ') = [','].intercalate fields := by
  have hkeep : ∀ field ∈ fields, field.filter (· ≠ ' ') = field := fun field hfield =>
    List.filter_eq_self.mpr fun c hc => decide_eq_true fun hblank => h field hfield (hblank ▸ hc)
  induction fields with
  | nil => rfl
  | cons field fields ih =>
      have hfield := hkeep field List.mem_cons_self
      have hrest := ih (fun f hf => h f (List.mem_cons_of_mem _ hf))
        (fun f hf => hkeep f (List.mem_cons_of_mem _ hf))
      cases fields with
      | nil => rw [List.intercalate_singleton, List.intercalate_singleton, hfield]
      | cons next fields =>
          rw [List.intercalate_cons_cons, List.intercalate_cons_cons, List.filter_append,
            List.filter_append, hfield, hrest]
          rfl

/-- A name goes to the first blank. -/
theorem cut_name {name : List Char} (hname : ' ' ∉ name) (rest : List Char) :
    (name ++ rest).takeWhile (· ≠ ' ') = name ++ rest.takeWhile (· ≠ ' ') ∧
      (name ++ rest).dropWhile (· ≠ ' ') = rest.dropWhile (· ≠ ' ') := by
  have hall : ∀ c ∈ name, decide (c ≠ ' ') = true := fun c hc =>
    decide_eq_true fun hblank => hname (hblank ▸ hc)
  exact ⟨List.takeWhile_append_of_pos hall, List.dropWhile_append_of_pos hall⟩

theorem pieces_name {name : List Char} (hname : ' ' ∉ name) : pieces name = (name, []) := by
  obtain ⟨htake, hdrop⟩ := cut_name hname []
  rw [List.append_nil] at htake hdrop
  rw [pieces, htake, hdrop]
  exact Prod.ext (List.append_nil name) rfl

/-- Fields with a comma and a blank between them, told apart. -/
theorem splitOn_filter_intercalate {fields : List (List Char)} (hne : fields ≠ [])
    (hfields : ∀ field ∈ fields, ∀ c ∈ field, Operand.IsPlain c) :
    (([',', ' '].intercalate fields).filter (· ≠ ' ')).splitOn ',' = fields := by
  have hblank : ∀ field ∈ fields, ' ' ∉ field := fun field hfield hmem =>
    (hfields field hfield _ hmem).1 rfl
  have hcomma : ∀ field ∈ fields, ',' ∉ field := fun field hfield hmem =>
    (hfields field hfield _ hmem).2 rfl
  rw [filter_intercalate hblank, List.splitOn_intercalate ',' hcomma hne]

theorem pieces_fields {name : List Char} {fields : List (List Char)} (hname : ' ' ∉ name)
    (hne : fields ≠ []) (hfields : ∀ field ∈ fields, ∀ c ∈ field, Operand.IsPlain c) :
    pieces (name ++ ' ' :: [',', ' '].intercalate fields) = (name, fields) := by
  obtain ⟨htake, hdrop⟩ := cut_name hname (' ' :: [',', ' '].intercalate fields)
  rw [pieces, htake, hdrop]
  show (name ++ [], (([',', ' '].intercalate fields).filter (· ≠ ' ')).splitOn ',') = _
  rw [List.append_nil, splitOn_filter_intercalate hne hfields]

/-- The text of an instruction is its name, or that and a list of operands. -/
theorem mnemonic_cases (ins : Instruction) :
    (ins.mnemonic = ins.assembly.1 ∧ ins.assembly.2 = []) ∨
    ins.assembly.2 ≠ [] ∧ ins.mnemonic.toList = ins.assembly.1.toList ++
      ' ' :: [',', ' '].intercalate (ins.assembly.2.map fun op => op.text.toList) := by
  rw [mnemonic]
  rcases ins.assembly with ⟨name, _ | ⟨op, ops⟩⟩
  · exact .inl ⟨rfl, rfl⟩
  · refine .inr ⟨List.cons_ne_nil _ _, ?_⟩
    show (name ++ " " ++ ", ".intercalate ((op :: ops).map Operand.text)).toList = _
    rw [String.toList_append, String.toList_append, String.toList_intercalate, List.append_assoc,
      List.map_map]
    rfl

/-- The name and the operands in the text of an instruction. -/
theorem pieces_mnemonic (ins : Instruction) : pieces ins.mnemonic.toList =
    (ins.assembly.1.toList, ins.assembly.2.map fun op => op.text.toList) := by
  have hname := not_mem_name ins
  rcases ins.mnemonic_cases with ⟨htext, hnone⟩ | ⟨hne, htext⟩
  · rw [htext, hnone]
    exact pieces_name hname
  · rw [htext]
    refine pieces_fields hname (mt List.map_eq_nil_iff.mp hne) ?_
    intro field hfield c hc
    obtain ⟨op, hop, rfl⟩ := List.mem_map.mp hfield
    exact Operand.isPlain_of_mem_text (known_of_mem hop) hc

/-- The instruction that a text stands for. -/
def ofText? (text : String) : Option Instruction :=
  match pieces text.toList with
  | (name, operands) => ofAssembly? (String.ofList name, operands.map Operand.read)

/-- **The text of an instruction can be read back.** -/
theorem ofText?_mnemonic (ins : Instruction) : ofText? ins.mnemonic = some ins := by
  have hread : (ins.assembly.2.map fun op => op.text.toList).map Operand.read = ins.assembly.2 := by
    rw [List.map_map]
    calc ins.assembly.2.map (Operand.read ∘ fun op => op.text.toList)
      _ = ins.assembly.2.map id :=
          List.map_congr_left fun op hop => Operand.read_text (known_of_mem hop)
      _ = ins.assembly.2 := List.map_id _
  rw [ofText?, pieces_mnemonic]
  show ofAssembly? (String.ofList ins.assembly.1.toList, _) = _
  rw [hread, String.ofList_toList]
  exact ofAssembly?_assembly ins

/-- **Assembly text is unambiguous.** Instructions with the same text are the same, whatever their
operands are. So two words that are decoded have the same text if and only if they are the same word or
both of the form `8xy6`, or both of the form `8xyE`, with the same first register number. -/
theorem mnemonic_unambiguous :
    (∀ ins ins' : Instruction, ins.mnemonic = ins'.mnemonic → ins = ins') ∧
    ∀ w w' ins ins', decode? w = some ins → decode? w' = some ins' →
      (ins.mnemonic = ins'.mnemonic ↔ w = w' ∨ Word.IsShift w ∧ Word.SameButY w w') := by
  have hinj : ∀ ins ins' : Instruction, ins.mnemonic = ins'.mnemonic → ins = ins' := by
    intro ins ins' h
    have hread : some ins = some ins' := by rw [← ofText?_mnemonic, ← ofText?_mnemonic, h]
    exact Option.some.inj hread
  refine ⟨hinj, fun w w' ins ins' hw hw' => ?_⟩
  rw [← eq_iff_of_decode? hw hw']
  exact ⟨hinj ins ins', fun h => h ▸ rfl⟩

/-- The words `8F26` and `8FA6` have one text, so they differ in the digit that a shift leaves alone. The
word `8F2E` has another. -/
theorem shifted_text : decode? 0x8F26 = some (shiftRight 0xF) ∧
    decode? 0x8FA6 = some (shiftRight 0xF) ∧ decode? 0x8F2E = some (shiftLeft 0xF) ∧
    (Word.IsShift 0x8F26 ∧ Word.SameButY 0x8F26 0x8FA6) ∧
    (shiftRight 0xF).mnemonic ≠ (shiftLeft 0xF).mnemonic := by
  have hfirst : decode? 0x8F26 = some (shiftRight 0xF) := by decide
  have hsecond : decode? 0x8FA6 = some (shiftRight 0xF) := by decide
  obtain ⟨hinj, hwords⟩ := mnemonic_unambiguous
  refine ⟨hfirst, hsecond, by decide, ?_, fun h => ?_⟩
  · exact ((hwords _ _ _ _ hfirst hsecond).mp rfl).resolve_left (by decide)
  · exact absurd (hinj _ _ h) (by decide)

end Instruction

end ChipEight
