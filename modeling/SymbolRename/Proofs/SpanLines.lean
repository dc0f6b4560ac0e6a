import SymbolRename.Proofs.LineTable

/-! # The first lines of a span

A span that reaches over several lines is cut down to its first ones.  `Text.slice?` takes the
text from the start of the span to its clamped end and keeps lines of it
(`firstLines_eq_lines`).  The same text comes out if the line feed that ends the last of these
lines is looked for in all of the text behind the start, and the earlier one of the two ends
counts (`slice?_eq_limits`): a line feed behind the end of the span is never the earlier one.
-/
namespace SymbolRename

namespace Text

open Position

/-- Where the line feeds of a text stand. -/
def newlines (cs : List Char) : List Nat :=
  (List.range cs.length).filter fun k => cs[k]? = some '\n'

/-- Where the `n`-th line feed of a text stands, or the first one if `n` is zero; the end of the
text if it has fewer. -/
def lineLimit (n : Nat) (cs : List Char) : Nat := ((newlines cs)[n - 1]?).getD cs.length

/-! ## Lines joined by line feeds -/

theorem lines_cons {c : Char} (hc : c ≠ '\n') (cs : List Char) :
    ∃ line more, lines cs = line :: more ∧ lines (c :: cs) = (c :: line) :: more := by
  cases hlines : lines cs with
  | nil => exact absurd hlines (List.splitOn_ne_nil '\n' cs)
  | cons line more =>
    refine ⟨line, more, rfl, ?_⟩
    rw [lines] at hlines
    rw [lines, List.splitOn_cons_eq_if_modifyHead, hlines, if_neg (by simpa using hc)]
    rfl

theorem intercalate_cons_line (sep : List Char) (c : Char) (line : List Char)
    (more : List (List Char)) :
    sep.intercalate ((c :: line) :: more) = c :: sep.intercalate (line :: more) := by
  cases more with
  | nil => simp
  | cons next more => simp [List.intercalate_cons_cons]

/-- **The text up to a line feed is its first lines, joined by line feeds.** -/
theorem firstLines_eq_lines (n : Nat) (cs : List Char) :
    firstLines n cs = ['\n'].intercalate ((lines cs).take (max 1 n)) := by
  induction cs generalizing n with
  | nil =>
    have hlines : (lines []).take (max 1 n) = [[]] :=
      List.take_of_length_le (Nat.le_max_left 1 n)
    rw [hlines]
    rfl
  | cons c cs ih =>
    by_cases hc : c = '\n'
    · subst hc
      have hlines : lines ('\n' :: cs) = [] :: lines cs := lines_append List.not_mem_nil cs
      rw [firstLines, if_pos rfl, hlines]
      by_cases hn : n ≤ 1
      · rw [if_pos hn, Nat.max_eq_left hn]
        rfl
      · obtain ⟨m, rfl⟩ : ∃ m, n = m + 2 := ⟨n - 2, by omega⟩
        rw [if_neg hn, ih, Nat.max_eq_right (by omega), Nat.max_eq_right (by omega)]
        -- A text has a first line, so that a line follows the line feed.
        cases hrest : lines cs with
        | nil => exact absurd hrest (List.splitOn_ne_nil '\n' cs)
        | cons line more => simp [List.intercalate_cons_cons]
    · obtain ⟨line, more, hline, hlines⟩ := lines_cons hc cs
      obtain ⟨m, hm⟩ : ∃ m, max 1 n = m + 1 := ⟨max 1 n - 1, by omega⟩
      rw [firstLines, if_neg hc, ih, hlines, hline, hm, List.take_succ_cons, List.take_succ_cons,
        intercalate_cons_line]

theorem newline_notMem_firstLines {n : Nat} (hn : n ≤ 1) (cs : List Char) :
    '\n' ∉ firstLines n cs := by
  induction cs with
  | nil => exact List.not_mem_nil
  | cons c cs ih =>
    by_cases hc : c = '\n'
    · rw [firstLines, if_pos hc, if_pos hn]
      exact List.not_mem_nil
    · rw [firstLines, if_neg hc, List.mem_cons, not_or]
      exact ⟨Ne.symm hc, ih⟩

/-! ## The line feed behind the first lines -/

theorem newlines_cons (c : Char) (cs : List Char) :
    newlines (c :: cs) = if c = '\n' then 0 :: (newlines cs).map (· + 1)
      else (newlines cs).map (· + 1) := by
  rw [newlines, newlines, List.length_cons, List.range_succ_eq_map, List.filter_cons,
    List.filter_map]
  by_cases hc : c = '\n' <;> simp [hc] <;> rfl

theorem lineLimit_cons {c : Char} (hc : c ≠ '\n') (n : Nat) (cs : List Char) :
    lineLimit n (c :: cs) = lineLimit n cs + 1 := by
  rw [lineLimit, lineLimit, newlines_cons, if_neg hc, List.getElem?_map]
  cases (newlines cs)[n - 1]? <;> rfl

theorem lineLimit_newline {n : Nat} (hn : n ≤ 1) (cs : List Char) :
    lineLimit n ('\n' :: cs) = 0 := by
  rw [lineLimit, newlines_cons, if_pos rfl, Nat.sub_eq_zero_of_le hn]
  rfl

theorem lineLimit_next_line {n : Nat} (hn : 1 < n) (cs : List Char) :
    lineLimit n ('\n' :: cs) = lineLimit (n - 1) cs + 1 := by
  obtain ⟨m, rfl⟩ : ∃ m, n = m + 2 := ⟨n - 2, by omega⟩
  rw [lineLimit, lineLimit, newlines_cons, if_pos rfl]
  show ((0 :: (newlines cs).map (· + 1))[m + 1]?).getD _ = ((newlines cs)[m]?).getD _ + 1
  rw [List.getElem?_cons_succ, List.getElem?_map]
  cases (newlines cs)[m]? <;> rfl

/-- Keeping lines of a beginning of a text and cutting the text at the line feed meet at the
earlier one of the two ends. -/
theorem firstLines_take (n m : Nat) (cs : List Char) :
    firstLines n (cs.take m) = cs.take (min m (lineLimit n cs)) := by
  induction cs generalizing n m with
  | nil => rw [List.take_nil, List.take_nil, firstLines]
  | cons c cs ih =>
    cases m with
    | zero => rw [Nat.zero_min, List.take_zero, firstLines]
    | succ m =>
      rw [List.take_succ_cons, firstLines]
      by_cases hc : c = '\n'
      · subst hc
        by_cases hn : n ≤ 1
        · rw [if_pos rfl, if_pos hn, lineLimit_newline hn, Nat.min_zero, List.take_zero]
        · rw [if_pos rfl, if_neg hn, lineLimit_next_line (by omega), Nat.add_min_add_right,
            List.take_succ_cons, ih]
      · rw [if_neg hc, lineLimit_cons hc, Nat.add_min_add_right, List.take_succ_cons, ih]

/-- The slice of a span ends at the clamped end of the span, or at the line feed behind its last
line if that stands earlier. -/
theorem slice?_eq_limits (cs : List Char) (s : Span) (n : Nat) :
    slice? cs s n = (offset? cs s.start).map fun i =>
      (cs.drop i).take
        (min (max (clampedOffset cs s.stop) i) (i + lineLimit n (cs.drop i)) - i) := by
  rw [slice?]
  congr 1
  funext i
  rw [firstLines_take]
  congr 1
  omega

/-! ## Slices -/

/-- The text between two offsets, in bytes; between two offsets in reverse there is none. -/
theorem byteSize_covered {cs : List Char} {i j : Nat} (hi : i ≤ cs.length) (hj : j ≤ cs.length) :
    byteSize (cs.take i ++ (cs.drop i).take (j - i)) = max (byteOffset cs i) (byteOffset cs j) := by
  rw [← List.take_add]
  rcases Nat.le_total i j with hij | hij
  · rw [Nat.add_sub_cancel' hij, Nat.max_eq_right (byteOffset_le hij hj)]
    rfl
  · rw [Nat.sub_eq_zero_of_le hij, Nat.max_eq_left (byteOffset_le hij hi)]
    rfl

/-- What stands behind an offset of a text is found behind the position of the offset. -/
theorem byteIndex?_behind (cs : List Char) (i n : Nat) :
    byteIndex? cs (measure (cs.take i) + measure ((cs.drop i).take n)) =
      some (byteOffset cs i + byteSize ((cs.drop i).take n)) := by
  have h := byteIndex?_append (cs.take i ++ (cs.drop i).take n) (cs.drop (i + n))
  rwa [measure_append, byteSize_append, ← List.take_add, List.take_append_drop] at h

/-- What is cut out of a text for a span and a number of lines. -/
structure CutsFirstLines (text : String) (s : Span) (n : Nat) : Prop where
  /-- Nothing is cut out exactly if the text does not have the start of the span. -/
  none_iff : slice? text.toList s n = none ↔ byteIndex? text.toList s.start = none
  /-- Otherwise it is the first lines of the text that the span covers, up to its clamped end. -/
  lines_eq : ∀ i, byteIndex? text.toList s.start = some i →
    ∃ before covered after, text.toList = before ++ covered ++ after ∧ byteSize before = i ∧
      byteSize (before ++ covered) = max i (clampedByteIndex text.toList s.stop) ∧
      slice? text.toList s n = some (['\n'].intercalate ((lines covered).take (max 1 n)))
  /-- It ends at the clamped end of the span or, if that is earlier, at a line feed that is looked
  for in all of the text behind the start. -/
  limits : slice? text.toList s n = (offset? text.toList s.start).map fun i =>
    (text.toList.drop i).take (min (max (clampedOffset text.toList s.stop) i)
      (i + lineLimit n (text.toList.drop i)) - i)
  /-- A single line has no line feed. -/
  single : n ≤ 1 → ∀ slice, slice? text.toList s n = some slice → '\n' ∉ slice
  /-- Its own measure leads from the start of the span to its end. -/
  stop : ∀ i slice, byteIndex? text.toList s.start = some i → slice? text.toList s n = some slice →
    byteIndex? text.toList (s.start + measure slice) = some (i + byteSize slice)

/-- **A slice is the first lines of the text that a span covers**, for every span, reversed ones and
those that reach behind the text included, and every number of lines. -/
theorem slice_has_first_lines (text : String) (s : Span) (n : Nat) : CutsFirstLines text s n where
  none_iff := by
    rw [slice?, byteIndex?, Option.map_eq_none_iff, Option.map_eq_none_iff]
  lines_eq := by
    intro i hi
    obtain ⟨k, hk, rfl⟩ := Option.map_eq_some_iff.mp hi
    obtain ⟨hle, -⟩ := offset?_eq_some_iff.mp hk
    refine ⟨text.toList.take k, (text.toList.drop k).take (clampedOffset text.toList s.stop - k),
      text.toList.drop (k + (clampedOffset text.toList s.stop - k)), ?_, rfl,
      byteSize_covered hle (clampedOffset_le text.toList s.stop), ?_⟩
    · rw [← List.take_add, List.take_append_drop]
    · rw [slice?, hk, Option.map_some, firstLines_eq_lines]
  limits := slice?_eq_limits text.toList s n
  single := by
    intro hn slice hslice
    obtain ⟨k, -, rfl⟩ := Option.map_eq_some_iff.mp hslice
    exact newline_notMem_firstLines hn _
  stop := by
    intro i slice hi hslice
    obtain ⟨k, hk, rfl⟩ := Option.map_eq_some_iff.mp hi
    obtain ⟨-, hstart⟩ := offset?_eq_some_iff.mp hk
    rw [slice?_eq_limits, hk] at hslice
    cases hslice
    rw [← hstart]
    exact byteIndex?_behind text.toList k _

/-- A span from the second line on, and the same span reversed. -/
example : slice? "ab\ncd\nef".toList ⟨⟨1, 1⟩, ⟨2, 9⟩⟩ 2 = some "d\nef".toList ∧
    slice? "ab\ncd\nef".toList ⟨⟨2, 1⟩, ⟨1, 1⟩⟩ 2 = some [] := by decide

end Text

end SymbolRename
