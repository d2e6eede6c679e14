import ChipEight.Display

/-!
# Monitors

What characters do that are sent to a terminal, as far as can be seen. A terminal has two screens, each a
grid of cells; a character takes one cell, it is printed on the one under the cursor and the cursor moves
on, and an escape sequence moves the cursor, empties a screen, turns from one to the other, or hides the
cursor.

* `Monitor.put`, `Monitor.obey` — what a character and an escape sequence do;
* `Monitor.read` — characters one after the other, with `Reads` for those that leave no sequence open;
* `reads_sequence` — an escape sequence is obeyed at its end;
* `reads_moveTo` — one with a decimal number;
* `reads_text` — characters that fit behind the cursor, with `write_apply`.
-/

namespace ChipEight

/-- What stands in the cells of a screen, by row and column: the character that was printed there, if one
was since the screen was emptied. -/
abbrev Cells := Nat → Nat → Option Char

namespace Cells

/-- The screen with a character printed on a cell. -/
def set (cells : Cells) (row column : Nat) (c : Char) : Cells :=
  fun y x => if y = row ∧ x = column then some c else cells y x

/-- The screen with characters printed from a cell on to the right. -/
def write (cells : Cells) (row column : Nat) : List Char → Cells
  | [] => cells
  | c :: cs => (cells.set row column c).write row (column + 1) cs

/-- The screen moved up by a row. -/
def scroll (cells : Cells) (height : Nat) : Cells :=
  fun y x => if y + 1 < height then cells (y + 1) x else none

/-- **What stands in a cell** when characters were printed. -/
theorem write_apply (cells : Cells) (row column : Nat) (cs : List Char) (y x : Nat) :
    cells.write row column cs y x =
      if y = row ∧ column ≤ x ∧ x < column + cs.length then cs[x - column]? else cells y x := by
  induction cs generalizing cells column with
  | nil => rw [write, if_neg (by rw [List.length_nil]; omega)]
  | cons c cs ih =>
      rw [write, ih, List.length_cons]
      by_cases hrow : y = row
      · by_cases hhere : x = column
        · subst hrow hhere
          rw [if_neg (by omega), if_pos (by omega), Nat.sub_self, set, if_pos ⟨rfl, rfl⟩]
          rfl
        · by_cases hbehind : column + 1 ≤ x ∧ x < column + 1 + cs.length
          · obtain ⟨k, rfl⟩ := Nat.exists_eq_add_of_le hbehind.1
            rw [if_pos ⟨hrow, hbehind⟩, if_pos (by omega), Nat.add_sub_cancel_left,
              Nat.add_assoc column, Nat.add_sub_cancel_left, Nat.add_comm 1, List.getElem?_cons_succ]
          · rw [if_neg (fun h => hbehind h.2), if_neg (by omega), set, if_neg (fun h => hhere h.2)]
      · rw [if_neg (fun h => hrow h.1), if_neg (fun h => hrow h.1), set, if_neg (fun h => hrow h.1)]

end Cells

/-- A cell that a character was printed on. -/
structure Mark where
  /-- Whether it is one of the second screen. -/
  onSecond : Bool
  row : Nat
  column : Nat
deriving DecidableEq, Repr

/-- What can be seen of a terminal. Rows and columns are counted from zero. -/
structure Monitor where
  width : Nat
  height : Nat
  first : Cells := fun _ _ => none
  second : Cells := fun _ _ => none
  /-- Whether the second screen is shown. -/
  onSecond : Bool := false
  /-- The row of the cursor. -/
  row : Nat := 0
  /-- The column of the cursor. Behind a full row it is `width`. -/
  column : Nat := 0
  cursorShown : Bool := true
  /-- Where the cursor was when the second screen was turned to. -/
  saved : Nat × Nat := (0, 0)
  /-- The cells that were printed on, the last one first. -/
  marks : List Mark := []

/-- How much of an escape sequence has come. -/
inductive Escape where
  | none
  /-- The character that starts one. -/
  | started
  /-- Its introducer and some parameters. -/
  | introduced (params : List Char)
deriving DecidableEq, Repr

namespace Monitor

/-! ### Printing -/

/-- Changes what stands on the screen that is shown. -/
def onCells (m : Monitor) (change : Cells → Cells) : Monitor :=
  if m.onSecond then { m with second := change m.second } else { m with first := change m.first }

/-- Moves the cursor down, and in the last row the screen up. -/
def lineFeed (m : Monitor) : Monitor :=
  if m.row + 1 < m.height then { m with row := m.row + 1 }
  else m.onCells fun cells => cells.scroll m.height

/-- A character behind a full row goes to the start of the next one. -/
def wrap (m : Monitor) : Monitor :=
  if m.width ≤ m.column then { m with column := 0 }.lineFeed else m

/-- Prints a character on the cell under the cursor. -/
def place (m : Monitor) (c : Char) : Monitor :=
  { m.onCells (fun cells => cells.set m.row m.column c) with
    column := m.column + 1
    marks := ⟨m.onSecond, m.row, m.column⟩ :: m.marks }

/-- The character is no control character. -/
def Visible (c : Char) : Prop := 0x20 ≤ c.toNat ∧ ¬ (0x7F ≤ c.toNat ∧ c.toNat < 0xA0)

instance : DecidablePred Visible := fun _ => inferInstanceAs (Decidable (_ ∧ _))

/-- Prints a character. A line feed does not go to the start of the row. -/
def put (m : Monitor) (c : Char) : Monitor :=
  if Visible c then m.wrap.place c
  else if c = '\n' then m.lineFeed
  else if c = '\r' then { m with column := 0 }
  else m

/-! ### Escape sequences -/

/-- A decimal number; none is zero. -/
def number (digits : List Char) : Nat := Nat.ofDigitChars 10 digits 0

/-- The numbers between semicolons. -/
def numbers (params : List Char) : List Nat := (params.splitOn ';').map number

/-- Moves the cursor to a cell, or as far as the screen goes. -/
def moveTo (m : Monitor) (row column : Nat) : Monitor :=
  { m with row := min row (m.height - 1), column := min column (m.width - 1) }

/-- Turns a mode on or off: the second screen, which is empty whenever it is turned to, or the
cursor. -/
def switch (m : Monitor) (mode : Nat) (on : Bool) : Monitor :=
  match mode, on with
  | 1049, true => { m with second := fun _ _ => none, onSecond := true, saved := (m.row, m.column) }
  | 1049, false => { m with onSecond := false, row := m.saved.1, column := m.saved.2 }
  | 25, on => { m with cursorShown := on }
  | _, _ => m

/-- Obeys an escape sequence, by its last character. -/
def obey (m : Monitor) (params : List Char) (last : Char) : Monitor :=
  match last with
  | 'H' => m.moveTo ((numbers params).getD 0 0 - 1) ((numbers params).getD 1 0 - 1)
  | 'J' => if number params = 2 then m.onCells fun _ _ _ => none else m
  | 'h' => if params.head? = some '?' then m.switch (number params.tail) true else m
  | 'l' => if params.head? = some '?' then m.switch (number params.tail) false else m
  | _ => m

/-- The character stands between the introducer of an escape sequence and its last character. -/
def IsParameter (c : Char) : Prop := 0x30 ≤ c.toNat ∧ c.toNat < 0x40

instance : DecidablePred IsParameter := fun _ => inferInstanceAs (Decidable (_ ∧ _))

/-- Takes one more character. -/
def feed : Escape × Monitor → Char → Escape × Monitor
  | (.none, m), c => if c.toNat = 0x1B then (.started, m) else (.none, m.put c)
  | (.started, m), c => if c = '[' then (.introduced [], m) else (.none, m)
  | (.introduced params, m), c =>
    if IsParameter c then (.introduced (params ++ [c]), m) else (.none, m.obey params c)

/-- The monitor when some characters were sent to it. -/
def read (m : Monitor) (cs : List Char) : Monitor := (cs.foldl feed (.none, m)).2

/-! ### Reading piece by piece -/

/-- Some characters turn a monitor into another and leave no escape sequence open. -/
def Reads (m : Monitor) (cs : List Char) (m' : Monitor) : Prop :=
  cs.foldl feed (.none, m) = (.none, m')

variable {m m' m'' : Monitor} {cs cs' params : List Char} {c : Char}

theorem Reads.read_eq (h : m.Reads cs m') : m.read cs = m' := congrArg Prod.snd h

theorem Reads.nil (m : Monitor) : m.Reads [] m := rfl

theorem Reads.append (h : m.Reads cs m') (h' : m'.Reads cs' m'') : m.Reads (cs ++ cs') m'' := by
  rw [Reads, List.foldl_append, h]
  exact h'

/-- A sequence that has begun takes its parameters. -/
theorem foldl_params (m : Monitor) (params : List Char) (h : ∀ c ∈ cs, IsParameter c) :
    cs.foldl feed (.introduced params, m) = (.introduced (params ++ cs), m) := by
  induction cs generalizing params with
  | nil => rw [List.append_nil]; rfl
  | cons c cs ih =>
      rw [List.foldl_cons, feed, if_pos (h c List.mem_cons_self),
        ih _ (fun c' hc' => h c' (List.mem_cons_of_mem c hc')), List.append_assoc,
        List.singleton_append]

/-- **An escape sequence** is obeyed when its last character has come. -/
theorem reads_sequence (m : Monitor) (hparams : ∀ c ∈ params, IsParameter c)
    (hlast : ¬ IsParameter c) :
    m.Reads (Screen.introducer.toList ++ (params ++ [c])) (m.obey params c) := by
  have hintroduced : Screen.introducer.toList.foldl feed (.none, m) = (.introduced [], m) := rfl
  rw [Reads, List.foldl_append, hintroduced, List.foldl_append, foldl_params m [] hparams,
    List.nil_append, List.foldl_cons, feed, if_neg hlast]
  rfl

/-! ### Moving the cursor -/

theorem isParameter_of_isDigit (h : c.isDigit = true) : IsParameter c := by
  simp only [Char.isDigit, Bool.and_eq_true, decide_eq_true_eq] at h
  have hle : c.toNat ≤ 0x39 := h.2
  exact ⟨h.1, by omega⟩

theorem isDigit_of_mem_toDigits {n : Nat} (h : c ∈ Nat.toDigits 10 n) : c.isDigit = true :=
  Nat.isDigit_of_mem_toDigits (by decide) (by decide) h

/-- The numbers in the parameters of a movement. -/
theorem numbers_toDigits (n : Nat) : numbers (Nat.toDigits 10 n ++ [';', '1']) = [n, 1] := by
  have hdigits : ';' ∉ Nat.toDigits 10 n := fun h => nomatch isDigit_of_mem_toDigits h
  have hparts : Nat.toDigits 10 n ++ [';', '1'] = [';'].intercalate [Nat.toDigits 10 n, ['1']] := by
    rw [List.intercalate_cons_cons, List.intercalate_singleton, List.append_assoc]
    rfl
  have hclean : ∀ part ∈ [Nat.toDigits 10 n, ['1']], ';' ∉ part :=
    List.forall_mem_cons.mpr ⟨hdigits, List.forall_mem_singleton.mpr (by decide)⟩
  rw [numbers, hparts, List.splitOn_intercalate ';' hclean (List.cons_ne_nil _ _), List.map_cons,
    List.map_singleton, number, Nat.ofDigitChars_ten_toDigits]
  rfl

/-- **A movement** goes to the left end of a row that the screen has. -/
theorem reads_moveTo (m : Monitor) {y : Nat} (hrow : y < m.height) :
    m.Reads (Screen.moveTo y).toList { m with row := y, column := 0 } := by
  have htext : (Screen.moveTo y).toList =
      Screen.introducer.toList ++ ((Nat.toDigits 10 (y + 1) ++ [';', '1']) ++ ['H']) := by
    rw [Screen.moveTo, String.toList_append, String.toList_append, List.append_assoc]
    show _ ++ ((y + 1).repr.toList ++ _) = _
    rw [Nat.toList_repr, List.append_assoc]
    rfl
  have hparams : ∀ c ∈ Nat.toDigits 10 (y + 1) ++ [';', '1'], IsParameter c :=
    List.forall_mem_append.mpr
      ⟨fun c hc => isParameter_of_isDigit (isDigit_of_mem_toDigits hc),
        List.forall_mem_cons.mpr ⟨by decide, List.forall_mem_singleton.mpr (by decide)⟩⟩
  have hmove : m.obey (Nat.toDigits 10 (y + 1) ++ [';', '1']) 'H' =
      { m with row := y, column := 0 } := by
    show m.moveTo _ _ = _
    rw [numbers_toDigits, moveTo]
    show { m with row := min y _, column := min 0 _ } = _
    rw [Nat.min_eq_left (by omega), Nat.zero_min]
  rw [htext, ← hmove]
  exact m.reads_sequence hparams (by decide)

/-! ### Writing text -/

/-- The marks of some characters in a row, the last one first. -/
def marksOf (row column : Nat) : Nat → List Mark
  | 0 => []
  | n + 1 => marksOf row (column + 1) n ++ [⟨true, row, column⟩]

theorem mem_marksOf {row column n : Nat} {k : Mark} (h : k ∈ marksOf row column n) :
    k.onSecond = true ∧ k.row = row ∧ k.column < column + n := by
  induction n generalizing column with
  | zero => cases h
  | succ n ih =>
      rcases List.mem_append.mp h with h | h
      · obtain ⟨hsecond, hrow, hcolumn⟩ := ih h
        exact ⟨hsecond, hrow, by omega⟩
      · rw [List.mem_singleton.mp h]
        exact ⟨rfl, rfl, Nat.lt_add_of_pos_right n.succ_pos⟩

/-- **Characters that can be seen** go one behind the other to the cells from the cursor on, if the row has
as many. -/
theorem reads_text (hsecond : m.onSecond = true) (hvisible : ∀ c ∈ cs, Visible c)
    (hfits : m.column + cs.length ≤ m.width) :
    m.Reads cs { m with
      second := m.second.write m.row m.column cs
      column := m.column + cs.length
      marks := marksOf m.row m.column cs.length ++ m.marks } := by
  induction cs generalizing m with
  | nil => exact Reads.nil m
  | cons c cs ih =>
      rw [List.length_cons] at hfits
      have hc : Visible c := hvisible c List.mem_cons_self
      have hput : feed (.none, m) c = (.none, { m with
          second := m.second.set m.row m.column c
          column := m.column + 1
          marks := ⟨true, m.row, m.column⟩ :: m.marks }) := by
        rw [feed, if_neg (by have := hc.1; omega), put, if_pos hc, wrap, if_neg (by omega), place,
          onCells, hsecond, if_pos rfl]
      rw [Reads, List.foldl_cons, hput]
      refine (ih (m := { m with
          second := m.second.set m.row m.column c
          column := m.column + 1
          marks := ⟨true, m.row, m.column⟩ :: m.marks }) hsecond
        (fun c' hc' => hvisible c' (List.mem_cons_of_mem c hc')) ?_).trans ?_
      · show m.column + 1 + cs.length ≤ m.width
        omega
      · simp only [Cells.write, marksOf, List.length_cons, List.append_assoc, List.singleton_append,
          Nat.add_assoc, Nat.add_comm 1]

end Monitor

end ChipEight
