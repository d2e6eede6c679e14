import Mathlib.Data.List.DropRight
import ChipEight.Journal
import ChipEight.Proofs.Instruction.Mnemonic

/-!
# Reading the journal

The lines of a journal that tell what a machine has fetched can be read back. Their numerals do not say
where they end, but what stands behind each of them does: the line is cut at these characters, one after
the other, and every piece is read on its own.

* `Fields.cut`, with `cut_join` — pieces of a text, each up to a character that is not in it;
* `Instruction.ofText?_padded` — an instruction from its text with blanks behind it;
* `Record.ofLine?`, with `ofLine?_line` — a record of what was fetched from its line. Lines of other
  records are not mistaken for one;
* `Record.readFetches`, with `readFetches_lines` — the addresses and the words in a whole log.
-/

namespace ChipEight

/-! ### Pieces of texts -/

namespace Fields

/-- The pieces of a text up to some characters, each of which is looked for behind the one before, and what
follows the last of them. -/
def cut : List Char → List Char → List (List Char)
  | [], cs => [cs]
  | d :: ds, cs => cs.takeWhile (· ≠ d) :: cut ds (cs.dropWhile (· ≠ d)).tail

/-- Pieces with the characters that end them, and what follows the last one. -/
def join : List (List Char × Char) → List Char → List Char
  | [], last => last
  | (field, d) :: fields, last => field ++ d :: join fields last

/-- **Pieces can be told apart** if none holds the character that ends it. -/
theorem cut_join {fields : List (List Char × Char)} (h : ∀ f ∈ fields, f.2 ∉ f.1) (last : List Char) :
    cut (fields.map Prod.snd) (join fields last) = fields.map Prod.fst ++ [last] := by
  induction fields with
  | nil => rfl
  | cons f fields ih =>
      obtain ⟨field, d⟩ := f
      have hfield : ∀ c ∈ field, decide (c ≠ d) = true := fun c hc =>
        decide_eq_true fun hd => h (field, d) List.mem_cons_self (hd ▸ hc)
      have hrest := ih fun f hf => h f (List.mem_cons_of_mem _ hf)
      have htake : (field ++ d :: join fields last).takeWhile (· ≠ d) = field := by
        rw [List.takeWhile_append_of_pos hfield, List.takeWhile_cons_of_neg (by simp), List.append_nil]
      have hdrop : (field ++ d :: join fields last).dropWhile (· ≠ d) = d :: join fields last := by
        rw [List.dropWhile_append_of_pos hfield, List.dropWhile_cons_of_neg (by simp)]
      rw [List.map_cons, List.map_cons, List.cons_append, join, cut, htake, hdrop, List.tail_cons, hrest]

/-- A text that does not end in a blank. -/
def EndsPlain (cs : List Char) : Prop := ∃ front c, cs = front ++ [c] ∧ c ≠ ' '

theorem endsPlain_of_ne_nil {cs : List Char} (hne : cs ≠ []) (hblank : ' ' ∉ cs) : EndsPlain cs := by
  refine ⟨cs.dropLast, cs.getLast hne, (List.dropLast_append_getLast hne).symm, fun h => hblank ?_⟩
  exact h ▸ List.getLast_mem hne

theorem EndsPlain.append {cs : List Char} (h : EndsPlain cs) (before : List Char) :
    EndsPlain (before ++ cs) := by
  obtain ⟨front, c, rfl, hc⟩ := h
  exact ⟨before ++ front, c, (List.append_assoc _ _ _).symm, hc⟩

/-- Fields that do not end in a blank make a list that does not. -/
theorem endsPlain_intercalate {fields : List (List Char)} (hne : fields ≠ [])
    (h : ∀ field ∈ fields, EndsPlain field) : EndsPlain ([',', ' '].intercalate fields) := by
  induction fields with
  | nil => exact (hne rfl).elim
  | cons field fields ih =>
      cases fields with
      | nil =>
          rw [List.intercalate_singleton]
          exact h field List.mem_cons_self
      | cons next fields =>
          rw [List.intercalate_cons_cons]
          exact (ih (List.cons_ne_nil _ _) fun f hf => h f (List.mem_cons_of_mem _ hf)).append _

/-- Blanks behind a text can be taken off. -/
theorem EndsPlain.rdropWhile_blanks {cs : List Char} (h : EndsPlain cs) (n : Nat) :
    (cs ++ List.replicate n ' ').rdropWhile (· = ' ') = cs := by
  obtain ⟨front, c, rfl, hc⟩ := h
  induction n with
  | zero =>
      rw [List.replicate_zero, List.append_nil]
      exact List.rdropWhile_concat_neg _ _ _ (by simpa using hc)
  | succ n ih =>
      rw [List.replicate_succ', ← List.append_assoc, List.rdropWhile_concat_pos _ _ _ (by simp)]
      exact ih

/-- A character of a list is in one of the fields or between two of them. -/
theorem mem_of_mem_intercalate {c : Char} {fields : List (List Char)}
    (h : c ∈ [',', ' '].intercalate fields) : (c = ',' ∨ c = ' ') ∨ ∃ field ∈ fields, c ∈ field := by
  induction fields with
  | nil => cases h
  | cons field fields ih =>
      cases fields with
      | nil =>
          rw [List.intercalate_singleton] at h
          exact .inr ⟨field, List.mem_cons_self, h⟩
      | cons next fields =>
          rw [List.intercalate_cons_cons, List.mem_append, List.mem_append] at h
          rcases h with (h | h) | h
          · exact .inr ⟨field, List.mem_cons_self, h⟩
          · exact .inl (by simpa using h)
          · exact (ih h).imp_right fun ⟨f, hf, hc⟩ => ⟨f, List.mem_cons_of_mem _ hf, hc⟩

end Fields

/-! ### Instructions with blanks behind them -/

namespace Operand

theorem text_ne_nil {op : Operand} (h : op.Known) : op.text.toList ≠ [] := by
  cases op with
  | register x =>
      rw [text_register]
      exact List.cons_ne_nil _ _
  | address a =>
      rw [text, toList_marked]
      exact List.cons_ne_nil _ _
  | byte b =>
      rw [text, toList_marked]
      exact List.cons_ne_nil _ _
  | rows n =>
      rw [text_rows]
      exact Nat.toDigits_ne_nil
  | named name =>
      have hnames : ∀ name ∈ names, name.toList ≠ [] := by decide
      exact hnames name h

end Operand

namespace Instruction

open Fields

variable (ins : Instruction)

theorem endsPlain_mnemonic : EndsPlain ins.mnemonic.toList := by
  have hname : ins.assembly.1.toList ≠ [] := by cases ins <;> simp [assembly]
  rcases ins.mnemonic_cases with ⟨htext, -⟩ | ⟨hne, htext⟩
  · rw [htext]
    exact endsPlain_of_ne_nil hname ins.not_mem_name
  · rw [htext, List.append_cons]
    refine (endsPlain_intercalate (mt List.map_eq_nil_iff.mp hne) fun field hfield => ?_).append _
    obtain ⟨op, hop, rfl⟩ := List.mem_map.mp hfield
    have hknown := known_of_mem hop
    exact endsPlain_of_ne_nil (Operand.text_ne_nil hknown) fun hblank =>
      (Operand.isPlain_of_mem_text hknown hblank).1 rfl

/-- There is no `v` in the text of an instruction. -/
theorem not_mem_mnemonic : 'v' ∉ ins.mnemonic.toList := by
  have hname : 'v' ∉ ins.assembly.1.toList := by cases ins <;> simp [assembly]
  rcases ins.mnemonic_cases with ⟨htext, -⟩ | ⟨-, htext⟩
  · rwa [htext]
  · rw [htext, List.mem_append, List.mem_cons, not_or, not_or]
    refine ⟨hname, by decide, fun h => ?_⟩
    rcases mem_of_mem_intercalate h with h | ⟨field, hfield, h⟩
    · exact absurd h (by decide)
    · obtain ⟨op, hop, rfl⟩ := List.mem_map.mp hfield
      have hother : 'v' ≠ 'v' := Operand.forall_mem_text (P := (· ≠ 'v')) (by decide)
        (fun c hc => by rintro rfl; cases hc) (known_of_mem hop) _ h
      exact hother rfl

/-- The instruction that a text with blanks behind it stands for. -/
def ofPadded? (cs : List Char) : Option Instruction :=
  ofText? (String.ofList (cs.rdropWhile (· = ' ')))

theorem ofText?_padded (n : Nat) :
    ofPadded? (ins.mnemonic.toList ++ List.replicate n ' ') = some ins := by
  rw [ofPadded?, ins.endsPlain_mnemonic.rdropWhile_blanks, String.ofList_toList, ofText?_mnemonic]

end Instruction

/-! ### Records -/

namespace Record

open Fields

/-- The record tells of an instruction. -/
def isTrace : Record → Bool
  | traced _ _ _ _ _ _ => true
  | _ => false

/-- The record tells of a word that is no instruction. -/
def isSkip : Record → Bool
  | skipped _ _ => true
  | _ => false

/-- The record tells of something that was fetched. -/
def isFetch (r : Record) : Bool := r.isTrace || r.isSkip

/-- Records of instructions are those of the lowest level. -/
theorem isTrace_iff (r : Record) : r.isTrace = true ↔ r.level = .trace := by
  cases r <;> simp [isTrace, level]

theorem isFetch_eq_false_iff {r : Record} :
    r.isFetch = false ↔ r.isTrace = false ∧ r.isSkip = false := Bool.or_eq_false_iff

/-- The registers in a list between commas. -/
def readRegisters? (cs : List Char) : Option (Vector UInt8 registerCount) :=
  let values := ((cs.filter (· ≠ ' ')).splitOn ',').map fun field => UInt8.ofNat (Hex.value field)
  if h : values.toArray.size = registerCount then some ⟨values.toArray, h⟩ else none

/-- The record of an instruction in the text of a line. -/
def readTrace? (cs : List Char) : Option Record :=
  match cut [':', ' ', ' ', 'v', '[', ']', 'i', ' ', 'p'] cs with
  | [address, _, word, ins, _, registers, _, i, _, sp] => do
    let ins ← Instruction.ofPadded? ins
    let v ← readRegisters? registers
    some (traced (UInt16.ofNat (Hex.value address)) (UInt16.ofNat (Hex.value word)) ins v
      (UInt16.ofNat (Hex.value i)) (UInt8.ofNat (Nat.ofDigitChars 10 sp 0)))
  | _ => none

/-- The record of a word that is skipped in the text of a line. -/
def readSkip? (cs : List Char) : Option Record :=
  match cut [' ', ' ', ' ', ' ', ' '] cs with
  | [verb, _, _, word, _, address] =>
    if verb = "skipping".toList then
      some (skipped (UInt16.ofNat (Hex.value word)) (UInt16.ofNat (Hex.value address)))
    else none
  | _ => none

/-- The record of what was fetched that a line stands for. -/
def ofLine? (line : String) : Option Record :=
  match cut [' '] line.toList with
  | [level, text] =>
    if level = Level.trace.text.toList then readTrace? text
    else if level = Level.warn.text.toList then readSkip? text
    else none
  | _ => none

/-- The address and the word in a record of what was fetched. -/
def fetch? : Record → Option (UInt16 × UInt16)
  | traced address word _ _ _ _ => some (address, word)
  | skipped word address => some (address, word)
  | _ => none

theorem not_mem_padded {c : Char} (h : c ∉ Hex.characters) (width n : Nat) :
    c ∉ (Hex.padded width n).toList := fun hc => h (Hex.mem_characters hc)

/-- The registers between the brackets. -/
def registersList (v : Vector UInt8 registerCount) : List Char :=
  [',', ' '].intercalate (v.toList.map fun b => (Hex.padded 2 b.toNat).toList)

theorem toList_registersText (v : Vector UInt8 registerCount) :
    (registersText v).toList = '[' :: (registersList v ++ [']']) := by
  simp only [registersText, String.toList_append, String.toList_intercalate, List.map_map]
  rfl

theorem readRegisters?_registersList (v : Vector UInt8 registerCount) :
    readRegisters? (registersList v) = some v := by
  have hne : (v.toList.map fun b => (Hex.padded 2 b.toNat).toList) ≠ [] := by
    rw [← List.length_pos_iff, List.length_map, Vector.length_toList]
    decide
  have hplain : ∀ field ∈ v.toList.map fun b => (Hex.padded 2 b.toNat).toList,
      ∀ c ∈ field, Operand.IsPlain c := by
    intro field hfield c hc
    obtain ⟨b, -, rfl⟩ := List.mem_map.mp hfield
    exact Operand.isPlain_of_mem_padded hc
  have hvalues : (((registersList v).filter (· ≠ ' ')).splitOn ',').map
      (fun field => UInt8.ofNat (Hex.value field)) = v.toList := by
    rw [registersList, Instruction.splitOn_filter_intercalate hne hplain, List.map_map]
    calc v.toList.map _
      _ = v.toList.map id := List.map_congr_left fun b _ => by
          rw [Function.comp_apply, Hex.value_padded, UInt8.ofNat_toNat, id]
      _ = v.toList := List.map_id _
  have hsize : v.toList.toArray.size = registerCount := by simp
  simp only [readRegisters?, hvalues, dif_pos hsize]
  exact congrArg some (Vector.toArray_inj.mp Array.toArray_toList)

theorem not_mem_registersList (v : Vector UInt8 registerCount) : ']' ∉ registersList v := by
  intro h
  rcases mem_of_mem_intercalate h with h | ⟨field, hfield, h⟩
  · exact absurd h (by decide)
  · obtain ⟨b, -, rfl⟩ := List.mem_map.mp hfield
    exact not_mem_padded (by decide) _ _ h

/-- The pieces of the text about an instruction. -/
def traceFields (a w : UInt16) (ins : Instruction) (v : Vector UInt8 registerCount) (i : UInt16) :
    List (List Char × Char) :=
  [((Hex.padded 3 a.toNat).toList, ':'), ([], ' '), ((Hex.padded 4 w.toNat).toList, ' '),
    (ins.mnemonic.toList ++
      List.replicate (mnemonicWidth - ins.mnemonic.toList.length + 1) ' ', 'v'),
    ([], '['), (registersList v, ']'), ([' '], 'i'), ((Hex.padded 3 i.toNat).toList, ' '),
    (['s'], 'p')]

theorem text_traced (a w : UInt16) (ins : Instruction) (v : Vector UInt8 registerCount) (i : UInt16)
    (sp : UInt8) : (traced a w ins v i sp).text.toList =
      join (traceFields a w ins v i) (Nat.toDigits 10 sp.toNat) := by
  show (Hex.padded 3 a.toNat ++ ": " ++ Hex.padded 4 w.toNat ++ " " ++
    String.ofList (ins.mnemonic.toList.rightpad mnemonicWidth ' ') ++ " v" ++ registersText v ++
    " i" ++ Hex.padded 3 i.toNat ++ " sp" ++ toString sp.toNat).toList = _
  simp [traceFields, join, toList_registersText, List.rightpad, List.replicate_succ']

theorem readTrace?_text (a w : UInt16) (ins : Instruction) (v : Vector UInt8 registerCount)
    (i : UInt16) (sp : UInt8) :
    readTrace? (traced a w ins v i sp).text.toList = some (traced a w ins v i sp) := by
  have hseams : ∀ f ∈ traceFields a w ins v i, f.2 ∉ f.1 := by
    simp only [traceFields, List.forall_mem_cons]
    refine ⟨not_mem_padded (by decide) _ _, List.not_mem_nil, not_mem_padded (by decide) _ _, ?_,
      List.not_mem_nil, not_mem_registersList v, by decide, not_mem_padded (by decide) _ _, by decide,
      by simp⟩
    rw [List.mem_append, not_or]
    exact ⟨ins.not_mem_mnemonic, fun h => absurd (List.eq_of_mem_replicate h) (by decide)⟩
  have hcut := cut_join hseams (Nat.toDigits 10 sp.toNat)
  rw [← text_traced a w ins v i sp] at hcut
  have hparts : cut [':', ' ', ' ', 'v', '[', ']', 'i', ' ', 'p']
      (traced a w ins v i sp).text.toList = _ := hcut
  simp only [readTrace?, hparts, traceFields, List.map_cons, List.map_nil, List.cons_append,
    List.nil_append, Instruction.ofText?_padded, readRegisters?_registersList, Hex.value_padded,
    Nat.ofDigitChars_ten_toDigits, UInt16.ofNat_toNat, UInt8.ofNat_toNat]
  rfl

/-- The pieces of the text about a skipped word. -/
def skipFields (w : UInt16) : List (List Char × Char) :=
  [("skipping".toList, ' '), ("unknown".toList, ' '), ("opcode".toList, ' '),
    ((Hex.padded 4 w.toNat).toList, ' '), ("at".toList, ' ')]

theorem text_skipped (w a : UInt16) : (skipped w a).text.toList =
    join (skipFields w) (Hex.padded 3 a.toNat).toList := by
  show ("skipping unknown opcode " ++ Hex.padded 4 w.toNat ++ " at " ++
    Hex.padded 3 a.toNat).toList = _
  simp [skipFields, join]

theorem readSkip?_text (w a : UInt16) :
    readSkip? (skipped w a).text.toList = some (skipped w a) := by
  have hseams : ∀ f ∈ skipFields w, f.2 ∉ f.1 := by
    simp only [skipFields, List.forall_mem_cons]
    exact ⟨by decide, by decide, by decide, not_mem_padded (by decide) _ _, by decide, by simp⟩
  have hcut := cut_join hseams (Hex.padded 3 a.toNat).toList
  rw [← text_skipped w a] at hcut
  have hparts : cut [' ', ' ', ' ', ' ', ' '] (skipped w a).text.toList = _ := hcut
  simp only [readSkip?, hparts, skipFields, List.map_cons, List.map_nil, List.cons_append,
    List.nil_append, if_true, Hex.value_padded, UInt16.ofNat_toNat]

/-- A text that does not begin as that of a skipped word does is not mistaken for one. -/
theorem readSkip?_of_ne {c : Char} (hc : c ≠ 's') (cs : List Char) : readSkip? (c :: cs) = none := by
  have hverb : (c :: cs).takeWhile (· ≠ ' ') ≠ "skipping".toList := by
    intro h
    rw [List.takeWhile_cons] at h
    split at h
    · exact hc (List.cons.inj h).1
    · cases h
  simp only [readSkip?, cut, if_neg hverb]

/-- The level and the text of a line. -/
theorem cut_line (r : Record) : cut [' '] r.line.toList = [r.level.text.toList, r.text.toList] := by
  have hlevel : ' ' ∉ r.level.text.toList := by cases r.level <;> decide
  have hseam : ∀ f ∈ [(r.level.text.toList, ' ')], f.2 ∉ f.1 := by simpa using hlevel
  have hline : r.line.toList = join [(r.level.text.toList, ' ')] r.text.toList := by
    simp [line, join]
  rw [hline]
  exact cut_join hseam r.text.toList

/-- A line of a level that tells of nothing that was fetched. -/
theorem ofLine?_of_level {r : Record} (htrace : r.level ≠ .trace) (hwarn : r.level ≠ .warn) :
    ofLine? r.line = none := by
  have hinj : ∀ l l' : Level, l.text.toList = l'.text.toList → l = l' := by
    intro l l'
    cases l <;> cases l' <;> decide
  simp only [ofLine?, cut_line, if_neg (mt (hinj _ _) htrace), if_neg (mt (hinj _ _) hwarn)]

/-- **Records of what was fetched can be read back**, and no other line is mistaken for one. -/
theorem ofLine?_line (r : Record) : ofLine? r.line = if r.isFetch then some r else none := by
  have hwarn : r.level = .warn → ofLine? r.line = readSkip? r.text.toList := by
    intro h
    simp only [ofLine?, cut_line, h]
    rfl
  cases r with
  | traced a w ins v i sp =>
      simp only [ofLine?, cut_line, level, if_true]
      exact readTrace?_text a w ins v i sp
  | skipped w a => exact (hwarn rfl).trans (readSkip?_text w a)
  | ignoredKey k =>
      have htext : (ignoredKey k).text.toList = ("ignoring event for key " ++
          Hex.marked 1 k.toNat ++ "; the keypad has 16 keys").toList := rfl
      rw [hwarn rfl, htext, String.toList_append, String.toList_append]
      exact readSkip?_of_ne (by decide) _
  | unmapped c =>
      have htext : (unmapped c).text.toList =
          (Quoted.text c ++ " isn't mapped to a keypad key").toList := rfl
      rw [hwarn rfl, htext, String.toList_append, Quoted.text, String.toList_ofList]
      exact readSkip?_of_ne (by decide) _
  | started size => exact ofLine?_of_level Level.noConfusion Level.noConfusion
  | loaded size => exact ofLine?_of_level Level.noConfusion Level.noConfusion
  | stopped f => exact ofLine?_of_level Level.noConfusion Level.noConfusion
  | pastEnd pc => exact ofLine?_of_level Level.noConfusion Level.noConfusion
  | completedWait k x => exact ofLine?_of_level Level.noConfusion Level.noConfusion
  | sound on => exact ofLine?_of_level Level.noConfusion Level.noConfusion
  | halted frames => exact ofLine?_of_level Level.noConfusion Level.noConfusion
  | failed f => exact ofLine?_of_level Level.noConfusion Level.noConfusion
  | keyboard reports => exact ofLine?_of_level Level.noConfusion Level.noConfusion

/-- The addresses and the words of what was fetched, read from the lines of a log. -/
def readFetches (log : List String) : List (UInt16 × UInt16) :=
  (log.filterMap ofLine?).filterMap fetch?

theorem filterMap_ofLine? (records : List Record) :
    (records.map line).filterMap ofLine? = records.filter isFetch := by
  rw [List.filterMap_map, ← List.filterMap_eq_filter]
  exact List.filterMap_congr fun r _ => by
    rw [Function.comp_apply, ofLine?_line]
    rfl

theorem readFetches_lines (records : List Record) :
    readFetches (records.map line) = (records.filter isFetch).filterMap fetch? := by
  rw [readFetches, filterMap_ofLine?]

end Record

end ChipEight
