import SymbolRename.Proofs.ByteIndex

/-! # Clamped positions and the table of lines

An editor that goes to a row and a column looks the row up in a table of lines and then
counts UTF-16 units inside the line: a column inside a character, or behind the line, is moved
to the next place that the line has, and a row behind the last line is moved to the end of the
text (`tableOffset`).  `clampedOffset` keeps no table.  It scans the text once, with one exit
for the position and one for the end of the row, and finds the same place
(`clampedOffset_eq_table`): the scan passes whole lines as long as the row is not reached
(`clampedFrom_append`), and then stays inside one line (`clampedFrom_row`).
-/
namespace SymbolRename

namespace Text

open Position

/-- The lines of a text, without their line feeds. -/
def lines (cs : List Char) : List (List Char) := cs.splitOn '\n'

/-- The text of the lines in front of line `row`, with their line feeds. -/
def linesBefore (cs : List Char) (row : Nat) : List Char :=
  ((lines cs).take row).flatMap (· ++ ['\n'])

/-- The number of UTF-16 units that a text takes. -/
def utf16Size : List Char → Nat
  | [] => 0
  | c :: cs => (if c.toNat < 0x10000 then 1 else 2) + utf16Size cs

/-- The first place of a line with at least `column` units in front of it; the end of the line if
there is none. -/
def columnOffset (column : Nat) (line : List Char) : Nat :=
  ((List.range (line.length + 1)).find? fun k => column ≤ utf16Size (line.take k)).getD line.length

/-- Where a table of lines has a row and a column: in the line with that number, or at the end of
the text if there are fewer lines. -/
def tableOffset (cs : List Char) (row column : Nat) : Nat :=
  match (lines cs)[row]? with
  | none => cs.length
  | some line => (linesBefore cs row).length + columnOffset column line

/-! ## Lines -/

/-- A text begins with a line, which ends with the text or with a line feed. -/
theorem exists_first_line (cs : List Char) :
    ∃ line after, '\n' ∉ line ∧ (after = [] ∨ ∃ rest, after = '\n' :: rest) ∧
      cs = line ++ after := by
  by_cases h : '\n' ∈ cs
  · obtain ⟨line, rest, rfl, hline⟩ := List.eq_append_cons_of_mem h
    exact ⟨line, '\n' :: rest, hline, Or.inr ⟨rest, rfl⟩, rfl⟩
  · exact ⟨cs, [], h, Or.inl rfl, (List.append_nil cs).symm⟩

theorem lines_of_notMem {line : List Char} (h : '\n' ∉ line) : lines line = [line] :=
  List.splitOn_eq_singleton h

theorem lines_append {line : List Char} (h : '\n' ∉ line) (rest : List Char) :
    lines (line ++ '\n' :: rest) = line :: lines rest :=
  List.splitOn_append_cons_self_of_not_mem h rest

theorem linesBefore_append {line : List Char} (h : '\n' ∉ line) (rest : List Char) (row : Nat) :
    linesBefore (line ++ '\n' :: rest) (row + 1) = line ++ '\n' :: linesBefore rest row := by
  rw [linesBefore, lines_append h, List.take_succ_cons, List.flatMap_cons, List.append_assoc]
  rfl

/-- The table cuts the text: a line stands behind the lines in front of it. -/
theorem exists_append_of_line {cs line : List Char} {row : Nat}
    (h : (lines cs)[row]? = some line) : ∃ after, cs = linesBefore cs row ++ line ++ after := by
  induction row generalizing cs with
  | zero =>
    obtain ⟨first, after, hfirst, hafter, rfl⟩ := exists_first_line cs
    obtain rfl : first = line := by
      rcases hafter with rfl | ⟨rest, rfl⟩
      · rw [List.append_nil, lines_of_notMem hfirst] at h
        exact Option.some.inj h
      · rw [lines_append hfirst] at h
        exact Option.some.inj h
    exact ⟨after, rfl⟩
  | succ row ih =>
    obtain ⟨first, after, hfirst, rfl | ⟨rest, rfl⟩, rfl⟩ := exists_first_line cs
    · rw [List.append_nil, lines_of_notMem hfirst] at h
      cases h
    · rw [lines_append hfirst, List.getElem?_cons_succ] at h
      obtain ⟨after, hafter⟩ := ih h
      refine ⟨after, ?_⟩
      rw [linesBefore_append hfirst, List.append_assoc, List.append_assoc, List.cons_append,
        ← List.append_assoc (linesBefore rest row), ← hafter]

theorem length_lines (cs : List Char) : (lines cs).length = cs.count '\n' + 1 := by
  generalize hn : cs.count '\n' = n
  induction n generalizing cs with
  | zero => rw [lines_of_notMem (List.count_eq_zero.mp hn), List.length_singleton]
  | succ n ih =>
    obtain ⟨line, after, hline, rfl | ⟨rest, rfl⟩, rfl⟩ := exists_first_line cs
    · rw [List.append_nil, List.count_eq_zero.mpr hline] at hn
      cases hn
    · rw [List.count_append, List.count_eq_zero.mpr hline, List.count_cons_self] at hn
      rw [lines_append hline, List.length_cons, ih rest (by omega)]

/-! ## Columns -/

theorem utf16Size_append (a b : List Char) : utf16Size (a ++ b) = utf16Size a + utf16Size b := by
  induction a with
  | nil => exact (Nat.zero_add _).symm
  | cons c a ih => rw [List.cons_append, utf16Size, utf16Size, ih, Nat.add_assoc]

/-- Every line feed is a unit. -/
theorem count_le_utf16Size (cs : List Char) : cs.count '\n' ≤ utf16Size cs := by
  induction cs with
  | nil => exact Nat.le_refl 0
  | cons c cs ih =>
    rw [utf16Size, List.count_cons]
    split <;> split <;> omega

/-- Reading a character of a line moves the column by its units. -/
theorem column_ofChar {c : Char} (hc : c ≠ '\n') (column : Nat) (row : Nat) :
    (⟨row, column⟩ : Position) + ofChar c =
      ⟨row, column + if c.toNat < 0x10000 then 1 else 2⟩ := by
  rw [add_def, ofChar, if_neg hc]
  rfl

theorem columnOffset_zero (line : List Char) : columnOffset 0 line = 0 := by
  rw [columnOffset, List.range_succ_eq_map, List.find?_cons_of_pos (by simp)]
  rfl

theorem columnOffset_nil (column : Nat) : columnOffset column [] = 0 := by
  by_cases h : column = 0 <;> simp [columnOffset, List.range_succ_eq_map, utf16Size, h]

/-- A column that is not reached yet is looked for behind the first character. -/
theorem columnOffset_cons {column : Nat} (h : 0 < column) (c : Char) (line : List Char) :
    columnOffset column (c :: line) =
      columnOffset (column - if c.toNat < 0x10000 then 1 else 2) line + 1 := by
  have hfirst : ¬column ≤ utf16Size ((c :: line).take 0) := Nat.not_le.mpr h
  have hnext : (fun k => decide (column ≤ utf16Size ((c :: line).take k))) ∘ Nat.succ =
      fun k => decide (column - (if c.toNat < 0x10000 then 1 else 2) ≤ utf16Size (line.take k)) := by
    funext k
    simp only [Function.comp_apply, List.take_succ_cons, utf16Size]
    exact decide_eq_decide.mpr (Nat.sub_le_iff_le_add'.symm)
  rw [columnOffset, columnOffset, List.length_cons, List.range_succ_eq_map,
    List.find?_cons_of_neg (by rw [decide_eq_true_iff]; exact hfirst), List.find?_map, hnext]
  cases (List.range (line.length + 1)).find? _ <;> rfl

/-- No place of a line lies behind all its units. -/
theorem columnOffset_min {line : List Char} {bound : Nat} (h : utf16Size line < bound)
    (column : Nat) : columnOffset (min column bound) line = columnOffset column line := by
  have hsame : (fun k => decide (min column bound ≤ utf16Size (line.take k))) =
      fun k => decide (column ≤ utf16Size (line.take k)) := by
    funext k
    have hle := utf16Size_append (line.take k) (line.drop k)
    rw [List.take_append_drop] at hle
    refine decide_eq_decide.mpr ?_
    omega
  rw [columnOffset, columnOffset, hsame]

/-! ## Rows of the table -/

theorem tableOffset_zero {line after : List Char} (hline : '\n' ∉ line)
    (hafter : after = [] ∨ ∃ rest, after = '\n' :: rest) (column : Nat) :
    tableOffset (line ++ after) 0 column = columnOffset column line := by
  have hfirst : (lines (line ++ after))[0]? = some line := by
    rcases hafter with rfl | ⟨rest, rfl⟩
    · rw [List.append_nil, lines_of_notMem hline]
      rfl
    · rw [lines_append hline]
      rfl
  rw [tableOffset, hfirst, linesBefore, List.take_zero]
  exact Nat.zero_add _

/-- Behind the last line there is only the end of the text. -/
theorem tableOffset_of_length_le {cs : List Char} {row : Nat} (h : (lines cs).length ≤ row)
    (column : Nat) : tableOffset cs row column = cs.length := by
  rw [tableOffset, List.getElem?_eq_none h]

theorem tableOffset_append {line : List Char} (hline : '\n' ∉ line) (rest : List Char)
    (row column : Nat) :
    tableOffset (line ++ '\n' :: rest) (row + 1) column =
      line.length + 1 + tableOffset rest row column := by
  rw [tableOffset, tableOffset, lines_append hline, List.getElem?_cons_succ]
  cases (lines rest)[row]? with
  | none =>
    simp only [List.length_append, List.length_cons]
    omega
  | some found =>
    simp only [linesBefore_append hline, List.length_append, List.length_cons]
    omega

theorem tableOffset_min {cs : List Char} {bound : Nat} (h : utf16Size cs < bound)
    (row column : Nat) : tableOffset cs row (min column bound) = tableOffset cs row column := by
  rw [tableOffset, tableOffset]
  cases hline : (lines cs)[row]? with
  | none => rfl
  | some line =>
    obtain ⟨after, hafter⟩ := exists_append_of_line hline
    have hsize := congrArg utf16Size hafter
    rw [utf16Size_append, utf16Size_append] at hsize
    exact congrArg _ (columnOffset_min (by omega) column)

/-! ## The scan finds the table's place -/

/-- On the row of the target, the scan stops at the column or at the end of the line. -/
theorem clampedFrom_row (row target here i : Nat) {line after : List Char} (hline : '\n' ∉ line)
    (hafter : after = [] ∨ ∃ rest, after = '\n' :: rest) :
    clampedFrom ⟨row, target⟩ ⟨row, here⟩ i (line ++ after) =
      i + columnOffset (target - here) line := by
  induction line generalizing here i with
  | nil =>
    rw [List.nil_append, columnOffset_nil, Nat.add_zero]
    rcases hafter with rfl | ⟨rest, rfl⟩
    · rfl
    · rw [clampedFrom, if_pos (Or.inr ⟨rfl, rfl⟩)]
  | cons c line ih =>
    rw [List.mem_cons, not_or] at hline
    have hcolumn : (⟨row, target⟩ : Position) ≤ ⟨row, here⟩ ↔ target ≤ here := by
      rw [le_iff]
      simp
    rw [List.cons_append, clampedFrom]
    by_cases hreached : target ≤ here
    · rw [if_pos (Or.inl (hcolumn.mpr hreached)), Nat.sub_eq_zero_of_le hreached,
        columnOffset_zero, Nat.add_zero]
    · rw [if_neg, column_ofChar (Ne.symm hline.1), ih _ _ hline.2,
        columnOffset_cons (by omega), Nat.sub_sub]
      · omega
      · rintro (hstop | ⟨rfl, -⟩)
        · exact hreached (hcolumn.mp hstop)
        · exact hline.1 rfl

/-- As long as the row of the target is not reached, a line is passed as a whole. -/
theorem clampedFrom_append {target here : Position} (hrow : here.row < target.row)
    {line : List Char} (hline : '\n' ∉ line) (i : Nat) (rest : List Char) :
    clampedFrom target here i (line ++ rest) =
      clampedFrom target (advance here line) (i + line.length) rest := by
  induction line generalizing here i with
  | nil => rfl
  | cons c line ih =>
    rw [List.mem_cons, not_or] at hline
    have hsame : (here + ofChar c).row = here.row := by
      rw [column_ofChar (Ne.symm hline.1) here.column here.row]
    rw [List.cons_append, clampedFrom, if_neg]
    · rw [ih (hsame ▸ hrow) hline.2, advance_cons, List.length_cons]
      congr 1
      omega
    · rintro (hreached | ⟨rfl, -⟩)
      · have := row_le_of_le hreached
        omega
      · exact hline.1 rfl

/-- The line feed of such a line is passed, too, and the next line begins. -/
theorem clampedFrom_newline {target here : Position} (hrow : here.row < target.row)
    {line : List Char} (hline : '\n' ∉ line) (i : Nat) (rest : List Char) :
    clampedFrom target here i (line ++ '\n' :: rest) =
      clampedFrom target ⟨here.row + 1, 0⟩ (i + (line.length + 1)) rest := by
  have hsame : (advance here line).row = here.row := row_advance_of_no_newline here hline
  have hnext : advance here line + ofChar '\n' = ⟨here.row + 1, 0⟩ := by
    rw [add_def, hsame]
    rfl
  rw [clampedFrom_append hrow hline, clampedFrom, if_neg, hnext, Nat.add_assoc]
  rintro (hreached | ⟨-, hreached⟩)
  · have := row_le_of_le hreached
    omega
  · omega

/-- The scan from the start of a line finds the place in the table that begins there. -/
theorem clampedFrom_eq_table (row column first i : Nat) (cs : List Char) :
    clampedFrom ⟨first + row, column⟩ ⟨first, 0⟩ i cs = i + tableOffset cs row column := by
  -- The row of the scan and the row of the table go down together, one line at a time.
  induction row generalizing first i cs with
  | zero =>
    obtain ⟨line, after, hline, hafter, rfl⟩ := exists_first_line cs
    rw [tableOffset_zero hline hafter]
    exact clampedFrom_row first column 0 i hline hafter
  | succ row ih =>
    have hrow : first < first + (row + 1) := by omega
    obtain ⟨line, after, hline, rfl | ⟨rest, rfl⟩, rfl⟩ := exists_first_line cs
    · have hlines : (lines line).length ≤ row + 1 := by
        rw [lines_of_notMem hline, List.length_singleton]
        omega
      rw [clampedFrom_append hrow hline, List.append_nil, tableOffset_of_length_le hlines]
      rfl
    · have hrest := ih (first + 1) (i + (line.length + 1)) rest
      rw [show first + 1 + row = first + (row + 1) by omega] at hrest
      rw [clampedFrom_newline hrow hline, tableOffset_append hline, hrest, Nat.add_assoc]

/-- **Clamping a position looks it up in the table of lines.** -/
theorem clampedOffset_eq_table (cs : List Char) (row column : Nat) :
    clampedOffset cs ⟨row, column⟩ = tableOffset cs row column := by
  have h := clampedFrom_eq_table row column 0 0 cs
  rwa [Nat.zero_add, Nat.zero_add] at h

/-! ## Bounds, order and boundaries -/

/-- In a text with fewer units than the limit, no row and no column lies behind the limit. -/
theorem clampedOffset_ofEditor {cs : List Char} (h : utf16Size cs < limit) (row column : Nat) :
    clampedOffset cs (ofEditor row column) = clampedOffset cs ⟨row, column⟩ := by
  rw [ofEditor, clampedOffset_eq_table, clampedOffset_eq_table]
  by_cases hrow : row ≤ limit
  · rw [Nat.min_eq_left hrow, tableOffset_min h]
  · have hlines : (lines cs).length ≤ limit := by
      have := count_le_utf16Size cs
      rw [length_lines]
      omega
    rw [tableOffset_of_length_le (by omega), tableOffset_of_length_le (by omega)]

theorem le_clampedFrom (target here : Position) (i : Nat) (cs : List Char) :
    i ≤ clampedFrom target here i cs := by
  induction cs generalizing here i with
  | nil => exact Nat.le_refl i
  | cons c cs ih =>
    rw [clampedFrom]
    split
    · exact Nat.le_refl i
    · have := ih (here + ofChar c) (i + 1)
      omega

/-- A scan for a later position does not stop earlier. -/
theorem clampedFrom_mono {p q : Position} (hpq : p ≤ q) (here : Position) (i : Nat)
    (cs : List Char) : clampedFrom p here i cs ≤ clampedFrom q here i cs := by
  induction cs generalizing here i with
  | nil => exact Nat.le_refl i
  | cons c cs ih =>
    by_cases hp : p ≤ here ∨ (c = '\n' ∧ here.row = p.row)
    · rw [clampedFrom, if_pos hp]
      exact le_clampedFrom q here i (c :: cs)
    · have hq : ¬(q ≤ here ∨ (c = '\n' ∧ here.row = q.row)) := by
        rintro (hstop | ⟨hc, hrow⟩)
        · exact hp (Or.inl (le_trans hpq hstop))
        · -- The earlier position lies on the same row, or on a row that is over.
          rcases Nat.lt_or_eq_of_le (row_le_of_le hpq) with hlt | heq
          · exact hp (Or.inl (le_of_lt (Or.inl (hrow ▸ hlt))))
          · exact hp (Or.inr ⟨hc, hrow.trans heq.symm⟩)
      rw [clampedFrom, clampedFrom, if_neg hp, if_neg hq]
      exact ih (here + ofChar c) (i + 1)

theorem clampedByteIndex_mono {p q : Position} (h : p ≤ q) (cs : List Char) :
    clampedByteIndex cs p ≤ clampedByteIndex cs q :=
  byteOffset_le (clampedFrom_mono h origin 0 cs) (clampedOffset_le cs q)

/-- Clamping agrees with the exact search wherever that succeeds. -/
theorem clampedByteIndex_eq_of_byteIndex? {cs : List Char} {p : Position} {i : Nat}
    (h : byteIndex? cs p = some i) : clampedByteIndex cs p = i := by
  obtain ⟨k, hk, rfl⟩ := Option.map_eq_some_iff.mp h
  obtain ⟨hle, rfl⟩ := offset?_eq_some_iff.mp hk
  rw [clampedByteIndex, clampedOffset_measure hle]

/-- What clamping makes of the positions of an editor. -/
structure FollowsTable (text : String) : Prop where
  /-- The byte is that of the place that the table of lines has for the row and the column. -/
  table : ∀ row column, clampedByteIndex text.toList (ofEditor row column) =
    byteOffset text.toList (tableOffset text.toList row column)
  /-- A byte that the exact search finds is found. -/
  exact : ∀ p i, byteIndex? text.toList p = some i → clampedByteIndex text.toList p = i
  /-- Every byte that is found is a boundary of the text. -/
  boundary : ∀ p, ∃ b : text.Pos, b.offset.byteIdx = clampedByteIndex text.toList p
  /-- No byte behind the text is found. -/
  bounded : ∀ p, clampedByteIndex text.toList p ≤ text.utf8ByteSize
  /-- Cutting rows and columns off at the limit changes nothing. -/
  limited : ∀ row column, clampedByteIndex text.toList (ofEditor row column) =
    clampedByteIndex text.toList ⟨row, column⟩
  /-- Later positions are found at later bytes, or at the same. -/
  monotone : ∀ p q, p ≤ q → clampedByteIndex text.toList p ≤ clampedByteIndex text.toList q
  /-- The ends of a span keep their order. -/
  span : ∀ s : Span, s.start ≤ s.stop →
    clampedByteIndex text.toList s.start ≤ clampedByteIndex text.toList s.stop

/-- **Clamping looks rows and columns up in the table of lines**, in every text with fewer units
than the limit of an editor's numbers, and keeps their order. -/
theorem clamped_index_follows_table (text : String) (h : utf16Size text.toList < limit) :
    FollowsTable text where
  table := by
    intro row column
    rw [clampedByteIndex, clampedOffset_ofEditor h, clampedOffset_eq_table]
  exact := fun _ _ => clampedByteIndex_eq_of_byteIndex?
  boundary := by
    intro p
    obtain ⟨b, hb, -⟩ :=
      exists_pos_of_append (List.take_append_drop (clampedOffset text.toList p) text.toList).symm
    exact ⟨b, hb⟩
  bounded := by
    intro p
    have hle := byteOffset_le (clampedOffset_le text.toList p) (Nat.le_refl _)
    rwa [byteOffset, byteOffset, List.take_length, byteSize_toList] at hle
  limited := by
    intro row column
    rw [clampedByteIndex, clampedOffset_ofEditor h, clampedByteIndex]
  monotone := fun _ _ hpq => clampedByteIndex_mono hpq text.toList
  span := fun _ hs => clampedByteIndex_mono hs text.toList

/-- A column inside a surrogate pair, a column behind the line and a row behind the text. -/
theorem pair_follows_table :
    utf16Size "a😀b\né".toList < limit ∧
      clampedByteIndex "a😀b\né".toList (ofEditor 0 2) = 5 ∧
      clampedByteIndex "a😀b\né".toList (ofEditor 0 18446744073709551615) = 6 ∧
      clampedByteIndex "a😀b\né".toList (ofEditor 4294967296 0) = 9 := by
  have hsize : utf16Size "a😀b\né".toList < limit := by decide
  have h := clamped_index_follows_table "a😀b\né" hsize
  refine ⟨hsize, ?_, ?_, ?_⟩
  · rw [h.table]
    decide
  · rw [h.table]
    decide
  · rw [h.table]
    decide

end Text

end SymbolRename
