import SymbolRename.Proofs.ByteIndex

/-! # Spans of a part of a text

A name is looked for in a part of a text, and its span is measured from the start of that part.
`Span.shift` makes it a span of the whole text.  This is right because the part is one of three
texts that follow each other: what stands in front of it moves the positions of its boundaries by
its own measure (`measure_upTo_inside`), however many line feeds there are in either of them, and
what stands behind it moves nothing.  Positions increase from boundary to boundary
(`measure_upTo_lt_iff`), so the shifted span marks no other part of the whole text.
-/
namespace SymbolRename

namespace Text

open Position

/-- The span between two boundaries of a text, measured from its start. -/
def spanBetween (text : String) (i j : text.Pos) : Span :=
  ⟨measure (upTo text i), measure (upTo text j)⟩

/-- A boundary of the middle text cuts the whole text as well. -/
theorem append_eq_cut (a c : String) {b : String} (i : b.Pos) :
    a ++ b ++ c = (a ++ (b.sliceTo i).copy) ++ ((b.sliceFrom i).copy ++ c) :=
  calc a ++ b ++ c = a ++ ((b.sliceTo i).copy ++ (b.sliceFrom i).copy) ++ c := by
        rw [← i.splits.eq_append]
    _ = (a ++ (b.sliceTo i).copy) ++ ((b.sliceFrom i).copy ++ c) := by
        simp only [String.append_assoc]

/-- A boundary of a text as a boundary of the text `a ++ b ++ c` that it is the middle of. -/
def inside (a c : String) {b : String} (i : b.Pos) : (a ++ b ++ c).Pos :=
  .ofEqAppend (append_eq_cut a c i)

/-! ## Boundaries -/

theorem splits_inside (a c : String) {b : String} (i : b.Pos) :
    (inside a c i).Splits (a ++ (b.sliceTo i).copy) ((b.sliceFrom i).copy ++ c) :=
  String.Pos.splits_ofEqAppend _

/-- The text in front pushes a boundary back by its own bytes. -/
theorem byteIdx_inside (a c : String) {b : String} (i : b.Pos) :
    (inside a c i).offset.byteIdx = a.utf8ByteSize + i.offset.byteIdx := by
  rw [(splits_inside a c i).offset_eq_rawEndPos, i.splits.offset_eq_rawEndPos]
  exact String.utf8ByteSize_append

theorem upTo_inside (a c : String) {b : String} (i : b.Pos) :
    upTo (a ++ b ++ c) (inside a c i) = a.toList ++ upTo b i := by
  rw [upTo, (splits_inside a c i).copy_sliceTo_eq, String.toList_append]
  rfl

/-- **The text in front moves a position by its own measure.** -/
theorem measure_upTo_inside (a c : String) {b : String} (i : b.Pos) :
    measure (upTo (a ++ b ++ c) (inside a c i)) = measure a.toList + measure (upTo b i) := by
  rw [upTo_inside, measure_append]

/-- A boundary further on has more text in front of it. -/
theorem exists_upTo_append_of_lt {text : String} {i j : text.Pos} (h : i < j) :
    ∃ between, between ≠ [] ∧ upTo text j = upTo text i ++ between := by
  obtain ⟨between, hne, hupTo, -⟩ := (i.splits.lt_iff_exists_eq_append j.splits).mp h
  refine ⟨between.toList, ?_, ?_⟩
  · intro hnil
    exact hne (String.toList_eq_nil_iff.mp hnil)
  · rw [upTo, hupTo, String.toList_append]
    rfl

theorem measure_upTo_lt {text : String} {i j : text.Pos} (h : i < j) :
    measure (upTo text i) < measure (upTo text j) := by
  obtain ⟨between, hne, hupTo⟩ := exists_upTo_append_of_lt h
  rw [hupTo, measure_append, ← advance_eq_add]
  exact lt_advance _ hne

/-- **Positions increase strictly from boundary to boundary.** -/
theorem measure_upTo_lt_iff {text : String} {i j : text.Pos} :
    measure (upTo text i) < measure (upTo text j) ↔ i < j := by
  constructor
  · intro hlt
    apply Classical.byContradiction
    intro hnot
    rcases Std.le_iff_lt_or_eq.mp (Std.not_lt.mp hnot) with hji | rfl
    · exact lt_irrefl _ (lt_of_lt_of_le hlt (le_of_lt (measure_upTo_lt hji)))
    · exact lt_irrefl _ hlt
  · exact measure_upTo_lt

/-! ## Spans -/

/-- How measures and spans of three texts go together with those of the text that they make up. -/
structure Composes (a b c : String) : Prop where
  /-- Addition of positions is associative. -/
  assoc : ∀ p q r : Position, p + q + r = p + (q + r)
  /-- The origin is its unit, on both sides. -/
  unit : ∀ p : Position, origin + p = p ∧ p + origin = p
  /-- One text behind the other ends where their measures add up to. -/
  append : measure (a ++ b).toList = measure a.toList + measure b.toList
  /-- A longer beginning of a text ends further on. -/
  increasing : ∀ i j : b.Pos, measure (upTo b i) < measure (upTo b j) ↔ i < j
  /-- A boundary of the middle text is one of the whole text, behind the bytes of the first. -/
  boundary : ∀ i : b.Pos, (inside a c i).offset.byteIdx = a.utf8ByteSize + i.offset.byteIdx
  /-- What two boundaries of the middle text enclose is what they enclose in the whole text. -/
  enclosed : ∀ i j : b.Pos, ∀ slice, upTo b j = upTo b i ++ slice ↔
    upTo (a ++ b ++ c) (inside a c j) = upTo (a ++ b ++ c) (inside a c i) ++ slice
  /-- A span of the middle text, shifted by the measure of the first, is the span between the same
  boundaries in the whole text. -/
  shift : ∀ i j : b.Pos, (spanBetween b i j).shift (measure a.toList) =
    spanBetween (a ++ b ++ c) (inside a c i) (inside a c j)
  /-- Both of its ends are found at these boundaries. -/
  found : ∀ i : b.Pos, byteIndex? (a ++ b ++ c).toList (measure a.toList + measure (upTo b i)) =
    some (a.utf8ByteSize + i.offset.byteIdx)

/-- **Spans measured from the start of a part are shifted into the whole text**, for all texts in
front of the part and behind it and all boundaries of it, in whichever rows they lie. -/
theorem relative_spans_compose (a b c : String) : Composes a b c where
  assoc := add_assoc
  unit := fun p => ⟨origin_add p, add_origin p⟩
  append := by rw [String.toList_append, measure_append]
  increasing := fun _ _ => measure_upTo_lt_iff
  boundary := byteIdx_inside a c
  enclosed := by
    intro i j slice
    rw [upTo_inside, upTo_inside, List.append_assoc, List.append_cancel_left_eq]
  shift := by
    intro i j
    simp only [spanBetween, Span.shift, measure_upTo_inside]
  found := by
    intro i
    rw [byteIndex?_eq_some_iff]
    exact ⟨inside a c i, byteIdx_inside a c i, measure_upTo_inside a c i⟩

/-- A part that begins in the middle of a row: its first row goes on there, its second row does
not. -/
example : (⟨⟨0, 2⟩, ⟨1, 1⟩⟩ : Span).shift (measure "ab\nclass ".toList) = ⟨⟨1, 8⟩, ⟨2, 1⟩⟩ := by
  decide

end Text

end SymbolRename
