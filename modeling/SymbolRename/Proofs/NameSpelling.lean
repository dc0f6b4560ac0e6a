import SymbolRename.NameLocation

/-! # What a found name looks like

`NameLocation.find` answers with two numbers.  `Spelling` says, independently of any
search, how a name stands in the text around it: a type behind a keyword and white
space, a method in front of white space and a parenthesis, a literal alone.
`find_spelling` proves that the numbers cut the searched text into three parts of
which the middle one is so spelled; it is never empty.
-/
namespace SymbolRename

namespace NameLocation

open Unicode

/-- How a name of a category stands between the text `front` before it and the text `back`
behind it. -/
def Spelling : Category → (front name back : List Char) → Prop
  | .type declared, front, name, _ =>
    name = simpleName declared.toList ∧
      ∃ before, ∃ keyword ∈ typeKeywords, ∃ gap,
        front = before ++ keyword ++ gap ∧ gap ≠ [] ∧ ∀ c ∈ gap, isSpace c
  | .method declared, _, name, back =>
    name = declared.toList ∧ ∃ gap rest, back = gap ++ '(' :: rest ∧ ∀ c ∈ gap, isSpace c
  | .property declared, _, name, _ => name = declared.toList
  | .literal, front, _, back => front = [] ∧ back = []

/-- The character in front of a place is the last one before it, or the one before the text. -/
theorem getLast?_cons_or (c : Char) (cs : List Char) (before : Option Char) :
    (c :: cs).getLast?.or before = cs.getLast?.or (some c) := by
  rw [List.getLast?_cons]
  cases cs.getLast? <;> rfl

/-- A search that succeeds cuts the text in front of the first place where the test succeeds. -/
theorem leftmost_eq_some {test : Option Char → List Char → Option Nat} {before : Option Char}
    {cs : List Char} {k : Nat} (h : leftmost test before cs = some k) :
    ∃ front rest n, cs = front ++ rest ∧ k = front.length + n ∧
      test (front.getLast?.or before) rest = some n ∧
      ∀ front' rest', cs = front' ++ rest' → front'.length < front.length →
        test (front'.getLast?.or before) rest' = none := by
  induction cs generalizing before k with
  | nil =>
    exact ⟨[], [], k, rfl, (Nat.zero_add k).symm, h, fun _ _ _ hlt => absurd hlt (Nat.not_lt_zero _)⟩
  | cons c cs ih =>
    rw [leftmost] at h
    split at h
    · rename_i n hn
      cases h
      exact ⟨[], c :: cs, k, rfl, (Nat.zero_add k).symm, hn,
        fun _ _ _ hlt => absurd hlt (Nat.not_lt_zero _)⟩
    · rename_i hfail
      obtain ⟨j, hj, rfl⟩ := Option.map_eq_some_iff.mp h
      obtain ⟨front, rest, n, rfl, rfl, htest, hleast⟩ := ih hj
      refine ⟨c :: front, rest, n, rfl, by rw [List.length_cons]; omega, ?_, ?_⟩
      · rw [← htest, getLast?_cons_or]
      · intro front' rest' hsplit hlt
        cases front' with
        | nil => rw [← hsplit.trans (List.nil_append rest')]; exact hfail
        | cons d front' =>
          obtain ⟨rfl, htail⟩ := List.cons.inj hsplit
          rw [getLast?_cons_or]
          exact hleast front' rest' htail (Nat.lt_of_succ_lt_succ hlt)

theorem nameAhead_append {name rest : List Char} (h : nameAhead name rest = true) :
    ∃ back, rest = name ++ back := by
  rw [nameAhead, Bool.and_eq_true] at h
  obtain ⟨back, hback⟩ := List.isPrefixOf_iff_prefix.mp h.1
  exact ⟨back, hback.symm⟩

theorem wordAhead_append {name : List Char} {before : Option Char} {rest : List Char}
    (h : wordAhead name before rest = true) : ∃ back, rest = name ++ back := by
  rw [wordAhead, Bool.and_eq_true] at h
  exact nameAhead_append h.2

theorem propertyTest_eq_some {name : List Char} {before : Option Char} {rest : List Char} {n : Nat}
    (h : propertyTest name before rest = some n) : n = 0 ∧ ∃ back, rest = name ++ back := by
  rw [propertyTest, Option.ite_none_right_eq_some] at h
  exact ⟨(Option.some.inj h.2).symm, wordAhead_append h.1⟩

theorem methodTest_eq_some {name : List Char} {before : Option Char} {rest : List Char} {n : Nat}
    (h : methodTest name before rest = some n) :
    n = 0 ∧ ∃ gap back, rest = name ++ (gap ++ '(' :: back) ∧ ∀ c ∈ gap, isSpace c := by
  rw [methodTest, Option.ite_none_right_eq_some] at h
  obtain ⟨⟨hword, hparen⟩, hn⟩ := h
  obtain ⟨back, rfl⟩ := wordAhead_append hword
  rw [List.drop_left] at hparen
  obtain ⟨tail, htail⟩ := List.head?_eq_some_iff.mp hparen
  refine ⟨(Option.some.inj hn).symm, back.takeWhile isSpace, tail, ?_, ?_⟩
  · rw [← htail, List.takeWhile_append_dropWhile]
  · exact List.all_eq_true.mp List.all_takeWhile

/-- The white space before a name is a part of the white space that the text begins with. -/
theorem gapBefore_eq_some {name rest : List Char} {n : Nat} (h : gapBefore name rest = some n) :
    ∃ gap back, rest = gap ++ (name ++ back) ∧ n = gap.length ∧ gap ≠ [] ∧
      ∀ c ∈ gap, isSpace c := by
  rw [gapBefore] at h
  have hahead := List.find?_some h
  obtain ⟨m, hm, rfl⟩ := List.mem_map.mp (List.mem_of_find?_eq_some h)
  rw [List.mem_reverse, List.mem_range] at hm
  obtain ⟨back, hback⟩ := nameAhead_append hahead
  obtain ⟨tail, htail⟩ := List.takeWhile_prefix isSpace (l := rest)
  -- The search gives white space back until the name fits, so the gap may not be all of it.
  have hgap : rest.take (m + 1) = (rest.takeWhile isSpace).take (m + 1) := by
    have htake := congrArg (List.take (m + 1)) htail
    rwa [List.take_append_of_le_length hm, eq_comm] at htake
  refine ⟨rest.take (m + 1), back, ?_, ?_, ?_, ?_⟩
  · rw [← hback, List.take_append_drop]
  · rw [hgap, List.length_take, Nat.min_eq_left hm]
  · intro hnil
    have hlen := congrArg List.length (hgap.symm.trans hnil)
    rw [List.length_take, Nat.min_eq_left hm] at hlen
    exact Nat.succ_ne_zero m hlen
  · intro c hc
    rw [hgap] at hc
    exact List.all_eq_true.mp List.all_takeWhile c (List.mem_of_mem_take hc)

theorem typeTest_eq_some {name : List Char} {before : Option Char} {rest : List Char} {n : Nat}
    (h : typeTest name before rest = some n) :
    ∃ keyword ∈ typeKeywords, ∃ gap back, rest = keyword ++ gap ++ (name ++ back) ∧
      n = (keyword ++ gap).length ∧ gap ≠ [] ∧ ∀ c ∈ gap, isSpace c := by
  rw [typeTest, Option.ite_none_right_eq_some] at h
  obtain ⟨keyword, hmem, hkeyword⟩ := List.exists_of_findSome?_eq_some h.2
  rw [Option.ite_none_right_eq_some] at hkeyword
  obtain ⟨tail, rfl⟩ := List.isPrefixOf_iff_prefix.mp hkeyword.1
  rw [List.drop_left] at hkeyword
  obtain ⟨m, hm, rfl⟩ := Option.map_eq_some_iff.mp hkeyword.2
  obtain ⟨gap, back, rfl, rfl, hne, hspace⟩ := gapBefore_eq_some hm
  refine ⟨keyword, hmem, gap, back, ?_, ?_, hne, hspace⟩
  · rw [List.append_assoc]
  · rw [List.length_append]

/-- A search for a name cuts the text in front of a place where its test succeeds, and the
name is not empty. -/
theorem search_eq_some {test : List Char → Option Char → List Char → Option Nat}
    {name text : List Char} {i n : Nat} (h : search test name text = some (i, n)) :
    name ≠ [] ∧ n = name.length ∧
      ∃ front rest m before, text = front ++ rest ∧ i = front.length + m ∧
        test name before rest = some m := by
  rw [search, Option.ite_none_left_eq_some] at h
  obtain ⟨hne, h⟩ := h
  obtain ⟨k, hk, heq⟩ := Option.map_eq_some_iff.mp h
  cases heq
  obtain ⟨front, rest, m, htext, hi, htest, -⟩ := leftmost_eq_some hk
  exact ⟨hne, rfl, front, rest, m, _, htext, hi, htest⟩

/-- **A found name is spelled as its category demands**, and it is not empty. -/
theorem find_spelling {category : Category} {text : List Char} {i n : Nat}
    (h : find category text = some (i, n)) :
    ∃ front name back, text = front ++ name ++ back ∧ i = front.length ∧ n = name.length ∧
      name ≠ [] ∧ Spelling category front name back := by
  cases category with
  | type declared =>
    obtain ⟨hne, rfl, before, rest, m, _, rfl, rfl, htest⟩ := search_eq_some h
    obtain ⟨keyword, hmem, gap, back, rfl, rfl, hgap, hspace⟩ := typeTest_eq_some htest
    refine ⟨before ++ keyword ++ gap, _, back, ?_, ?_, rfl, hne, rfl,
      before, keyword, hmem, gap, rfl, hgap, hspace⟩
    · simp only [List.append_assoc]
    · simp only [List.length_append, Nat.add_assoc]
  | method declared =>
    obtain ⟨hne, rfl, front, rest, m, _, rfl, rfl, htest⟩ := search_eq_some h
    obtain ⟨rfl, gap, back, rfl, hspace⟩ := methodTest_eq_some htest
    exact ⟨front, _, gap ++ '(' :: back, (List.append_assoc ..).symm, rfl, rfl, hne, rfl,
      gap, back, rfl, hspace⟩
  | property declared =>
    obtain ⟨hne, rfl, front, rest, m, _, rfl, rfl, htest⟩ := search_eq_some h
    obtain ⟨rfl, back, rfl⟩ := propertyTest_eq_some htest
    exact ⟨front, _, back, (List.append_assoc ..).symm, rfl, rfl, hne, rfl⟩
  | literal =>
    rw [find, Option.ite_none_left_eq_some] at h
    cases h.2
    exact ⟨[], text, [], (List.append_nil text).symm, rfl, rfl, h.1, rfl, rfl⟩

/-- The span of a found name reaches from the position in front of it to the position behind it. -/
theorem locate_spelling {category : Category} {text : List Char} {s : Span}
    (h : locate category text = some s) :
    ∃ front name back, text = front ++ name ++ back ∧
      s = ⟨Position.measure front, Position.measure (front ++ name)⟩ ∧
      name ≠ [] ∧ Spelling category front name back := by
  obtain ⟨⟨i, n⟩, hfind, rfl⟩ := Option.map_eq_some_iff.mp h
  obtain ⟨front, name, back, rfl, rfl, rfl, hne, hspelling⟩ := find_spelling hfind
  refine ⟨front, name, back, rfl, ?_, hne, hspelling⟩
  show Span.mk _ _ = _
  rw [← List.length_append, List.take_left, List.append_assoc, List.take_left]

end NameLocation

end SymbolRename
