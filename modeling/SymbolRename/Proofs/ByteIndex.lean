import SymbolRename.Proofs.Offsets

/-! # Byte indices are the inverse of measuring

A byte of a text is a boundary if it does not lie inside a character, and the text up to a
boundary has a position.  `Text.byteIndex?` turns that around: it finds a byte at a position
exactly if the byte is a boundary and the text up to it measures the position
(`byteIndex?_eq_some_iff`).  Positions increase from boundary to boundary, so no byte is found
at a position between two neighbours (`offset?_eq_none_of_between`): inside a surrogate
pair, or behind the end of a line and before the next one.
-/
namespace SymbolRename

namespace Text

open Position

/-- The text up to a boundary. -/
def upTo (text : String) (b : text.Pos) : List Char := (text.sliceTo b).copy.toList

/-! ## Boundaries -/

theorem byteSize_toList (text : String) : byteSize text.toList = text.utf8ByteSize := by
  obtain ⟨cs, rfl⟩ : ∃ cs, text = String.ofList cs := ⟨text.toList, String.ofList_toList.symm⟩
  rw [String.toList_ofList]
  induction cs with
  | nil => rfl
  | cons c cs ih =>
    rw [byteSize, ih, String.ofList_cons, String.utf8ByteSize_append, String.utf8ByteSize_singleton]

/-- A boundary cuts the text into two. -/
theorem exists_upTo_append (text : String) (b : text.Pos) :
    (∃ after, text.toList = upTo text b ++ after) ∧ byteSize (upTo text b) = b.offset.byteIdx := by
  have hsplits := b.splits
  constructor
  · refine ⟨(text.sliceFrom b).copy.toList, ?_⟩
    rw [upTo, ← String.toList_append, ← hsplits.eq_append]
  · rw [upTo, byteSize_toList, hsplits.offset_eq_rawEndPos]
    rfl

/-- Wherever a text is cut into two, there is a boundary. -/
theorem exists_pos_of_append {text : String} {before after : List Char}
    (h : text.toList = before ++ after) :
    ∃ b : text.Pos, b.offset.byteIdx = byteSize before ∧ upTo text b = before := by
  have htext : text = String.ofList before ++ String.ofList after := by
    rw [← String.ofList_append, ← h, String.ofList_toList]
  have hvalid : (String.ofList before).rawEndPos.IsValid text :=
    String.Pos.Raw.isValid_iff_exists_append.mpr ⟨_, _, htext, rfl⟩
  have hcopy : (text.sliceTo ⟨_, hvalid⟩).copy = String.ofList before :=
    String.copy_sliceTo_eq_iff_exists_splits.mpr ⟨String.ofList after, htext, rfl⟩
  refine ⟨⟨_, hvalid⟩, ?_, ?_⟩
  · have hsize := byteSize_toList (String.ofList before)
    rw [String.toList_ofList] at hsize
    exact hsize.symm
  · rw [upTo, hcopy, String.toList_ofList]

/-! ## Exact indices -/

theorem byteIndex?_eq_some_iff_append {cs : List Char} {p : Position} {i : Nat} :
    byteIndex? cs p = some i ↔
      ∃ before after, cs = before ++ after ∧ byteSize before = i ∧ measure before = p := by
  rw [byteIndex?, Option.map_eq_some_iff]
  constructor
  · rintro ⟨k, hk, rfl⟩
    obtain ⟨-, hp⟩ := offset?_eq_some_iff.mp hk
    exact ⟨cs.take k, cs.drop k, (List.take_append_drop k cs).symm, rfl, hp⟩
  · rintro ⟨before, after, rfl, rfl, rfl⟩
    exact Option.map_eq_some_iff.mp (byteIndex?_append before after)

/-- **A byte is found exactly where the text up to it measures the position.** -/
theorem byteIndex?_eq_some_iff {text : String} {p : Position} {i : Nat} :
    byteIndex? text.toList p = some i ↔
      ∃ b : text.Pos, b.offset.byteIdx = i ∧ measure (upTo text b) = p := by
  rw [byteIndex?_eq_some_iff_append]
  constructor
  · rintro ⟨before, after, htext, rfl, rfl⟩
    obtain ⟨b, hb, hupTo⟩ := exists_pos_of_append htext
    exact ⟨b, hb, by rw [hupTo]⟩
  · rintro ⟨b, rfl, rfl⟩
    obtain ⟨⟨after, htext⟩, hsize⟩ := exists_upTo_append text b
    exact ⟨upTo text b, after, htext, hsize, rfl⟩

/-! ## Positions of no boundary -/

/-- Positions increase from boundary to boundary, so there is none between two neighbours. -/
theorem offset?_eq_none_of_between {cs : List Char} {n : Nat} {p : Position} (hn : n < cs.length)
    (hlow : measure (cs.take n) < p) (hhigh : p < measure (cs.take (n + 1))) :
    offset? cs p = none := by
  refine Option.eq_none_iff_forall_ne_some.mpr fun k hsome => ?_
  obtain ⟨hk, rfl⟩ := offset?_eq_some_iff.mp hsome
  rcases Nat.lt_or_ge n k with hlt | hle
  · exact lt_irrefl _ (lt_of_lt_of_le hhigh ((measure_take_le_iff hn hk).mpr hlt))
  · exact lt_irrefl _
      (lt_of_lt_of_le hlow ((measure_take_le_iff hk (Nat.le_of_lt hn)).mpr hle))

theorem byteIndex?_eq_none_of_between {before after : List Char} {c : Char} {p : Position}
    (hlow : measure before < p) (hhigh : p < measure before + ofChar c) :
    byteIndex? (before ++ c :: after) p = none := by
  have htake : (before ++ c :: after).take before.length = before := List.take_left
  have htake' : (before ++ c :: after).take (before.length + 1) = before ++ [c] := by
    rw [List.take_length_add_append, List.take_succ_cons, List.take_zero]
  have hlength : before.length < (before ++ c :: after).length := by
    rw [List.length_append, List.length_cons]
    omega
  have hnone : offset? (before ++ c :: after) p = none := by
    refine offset?_eq_none_of_between hlength ?_ ?_
    · rwa [htake]
    · rwa [htake', measure_append, measure_singleton]
  rw [byteIndex?, hnone, Option.map_none]

/-- Half a surrogate pair is no character. -/
theorem byteIndex?_inside_pair {before after : List Char} {c : Char} (hc : 0x10000 ≤ c.toNat) :
    byteIndex? (before ++ c :: after) (measure before + ⟨0, 1⟩) = none := by
  have hnewline : c ≠ '\n' := by
    rintro rfl
    exact absurd hc (by decide)
  have hpair : ofChar c = ⟨0, 2⟩ := by
    rw [ofChar, if_neg hnewline, if_neg (Nat.not_lt.mpr hc)]
  refine byteIndex?_eq_none_of_between ?_ ?_
  · rw [lt_iff, add_def]
    simp
  · rw [hpair, lt_iff, add_def, add_def]
    simp

example : byteIndex? ['a', '😀', 'b'] ⟨0, 2⟩ = none ∧
    byteIndex? ['a', '😀', 'b'] ⟨0, 3⟩ = some 5 := by decide

/-- A line ends with its line feed. -/
theorem byteIndex?_behind_line {before after : List Char} {column : Nat}
    (h : (measure before).column < column) :
    byteIndex? (before ++ '\n' :: after) ⟨(measure before).row, column⟩ = none := by
  refine byteIndex?_eq_none_of_between (Or.inr ⟨rfl, h⟩) (Or.inl ?_)
  rw [row_add_newline]
  exact Nat.lt_succ_self _

theorem byteIndex?_behind_text {cs : List Char} {p : Position} (h : measure cs < p) :
    byteIndex? cs p = none := by
  refine Option.eq_none_iff_forall_ne_some.mpr fun i hsome => ?_
  obtain ⟨before, after, rfl, -, rfl⟩ := byteIndex?_eq_some_iff_append.mp hsome
  have hle : measure before ≤ measure (before ++ after) := by
    rw [measure_append, ← advance_eq_add]
    exact le_advance _ _
  exact lt_irrefl _ (lt_of_lt_of_le h hle)

/-- What looking up positions finds in a text. -/
structure IndexesBoundaries (text : String) : Prop where
  /-- A byte is found at a position exactly if it is a boundary and the text up to it measures the
  position. -/
  index_iff : ∀ p i, byteIndex? text.toList p = some i ↔
    ∃ b : text.Pos, b.offset.byteIdx = i ∧ measure (upTo text b) = p
  /-- Every boundary is found at its position. -/
  boundary : ∀ b : text.Pos, byteIndex? text.toList (measure (upTo text b)) = some b.offset.byteIdx
  /-- Nothing is found inside a surrogate pair. -/
  inside_pair : ∀ before c after, text.toList = before ++ c :: after → 0x10000 ≤ c.toNat →
    byteIndex? text.toList (measure before + ⟨0, 1⟩) = none
  /-- Nothing is found behind the end of a line. -/
  behind_line : ∀ before after column, text.toList = before ++ '\n' :: after →
    (measure before).column < column →
      byteIndex? text.toList ⟨(measure before).row, column⟩ = none
  /-- Nothing is found behind the text. -/
  behind_text : ∀ p, measure text.toList < p → byteIndex? text.toList p = none

/-- **Looking up a position is the inverse of measuring the text up to a boundary.** -/
theorem byteIndex_inverts_measure (text : String) : IndexesBoundaries text where
  index_iff := fun _ _ => byteIndex?_eq_some_iff
  boundary := fun b => byteIndex?_eq_some_iff.mpr ⟨b, rfl, rfl⟩
  inside_pair := by
    intro before c after htext hc
    rw [htext]
    exact byteIndex?_inside_pair hc
  behind_line := by
    intro before after column htext hcolumn
    rw [htext]
    exact byteIndex?_behind_line hcolumn
  behind_text := fun _ => byteIndex?_behind_text

end Text

end SymbolRename
