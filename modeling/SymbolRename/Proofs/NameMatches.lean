import SymbolRename.Proofs.NamePatterns

/-! # The first match is found, and none is missed

A `Match` is a place of a text where a name stands as its category demands: between word
boundaries, a method's in front of a parenthesis, a type's behind a keyword and white space.  It is
said without any search.  `NameLocation.locate` answers with the match that starts first and, of
those that start there, has the most white space before the name (`Match.Preferred`); it answers
nothing exactly if there is no match (`locates_preferred`).  A candidate that fails late hides no
other: each test decides about its own place alone (`Decides`), and the search passes a place only
if its test fails there (`leftmost_eq_some`).
-/
namespace SymbolRename

namespace NameLocation

open Unicode Position

/-- How a name of a category stands behind the text `lead` and before the text `back`; `before` is
the character in front of `lead`. -/
def Stands : Category → Option Char → (lead name back : List Char) → Prop
  | .type declared, before, lead, name, back =>
    name = simpleName declared.toList ∧ isBoundary before lead.head? = true ∧
      (∃ keyword ∈ typeKeywords, ∃ gap, lead = keyword ++ gap ∧ gap ≠ [] ∧
        ∀ c ∈ gap, isSpace c = true) ∧
      isBoundary name.getLast? back.head? = true
  | .method declared, before, lead, name, back =>
    name = declared.toList ∧ lead = [] ∧ isBoundary before name.head? = true ∧
      isBoundary name.getLast? back.head? = true ∧
      ∃ gap rest, back = gap ++ '(' :: rest ∧ ∀ c ∈ gap, isSpace c = true
  | .property declared, before, lead, name, back =>
    name = declared.toList ∧ lead = [] ∧ isBoundary before name.head? = true ∧
      isBoundary name.getLast? back.head? = true
  | .literal, before, lead, _, back => before = none ∧ lead = [] ∧ back = []

/-- A place of a text where a name stands.  The match starts behind `before`, and the name behind
`lead`. -/
structure Match (category : Category) (text : List Char) where
  before : List Char
  lead : List Char
  name : List Char
  back : List Char
  text_eq : text = before ++ (lead ++ (name ++ back))
  name_ne_nil : name ≠ []
  stands : Stands category before.getLast? lead name back

namespace Match

variable {category : Category} {text : List Char}

/-- From the position in front of the name to the position behind it. -/
def span (m : Match category text) : Span :=
  ⟨measure (m.before ++ m.lead), measure (m.before ++ m.lead ++ m.name)⟩

theorem take_front (m : Match category text) :
    text.take (m.before ++ m.lead).length = m.before ++ m.lead := by
  have hbegins : m.before ++ m.lead <+: text :=
    ⟨m.name ++ m.back, (List.append_assoc ..).trans m.text_eq.symm⟩
  exact (List.prefix_iff_eq_take.mp hbegins).symm

theorem take_name (m : Match category text) :
    text.take ((m.before ++ m.lead).length + m.name.length) = m.before ++ m.lead ++ m.name := by
  have hbegins : m.before ++ m.lead ++ m.name <+: text := by
    refine ⟨m.back, ?_⟩
    rw [List.append_assoc, List.append_assoc]
    exact m.text_eq.symm
  rw [← List.length_append]
  exact (List.prefix_iff_eq_take.mp hbegins).symm

/-- No match starts earlier, and none that starts here has more text before its name. -/
def Preferred (m : Match category text) : Prop :=
  ∀ other : Match category text, m.before.length < other.before.length ∨
    m.before.length = other.before.length ∧ other.lead.length ≤ m.lead.length

/-- A category has one name, and a literal is all of its text. -/
theorem name_eq (m other : Match category text) : m.name = other.name := by
  cases category with
  | type declared => exact m.stands.1.trans other.stands.1.symm
  | method declared => exact m.stands.1.trans other.stands.1.symm
  | property declared => exact m.stands.1.trans other.stands.1.symm
  | literal =>
    have htext : ∀ m : Match .literal text, m.name = text := by
      intro m
      obtain ⟨hbefore, hlead, hback⟩ := m.stands
      have htext := m.text_eq
      rw [hlead, hback, List.getLast?_eq_none_iff.mp hbefore, List.append_nil] at htext
      exact htext.symm
    rw [htext m, htext other]

/-- Two preferred matches are one and the same place. -/
theorem Preferred.span_eq {m other : Match category text} (hm : m.Preferred)
    (hother : other.Preferred) : m.span = other.span := by
  have hstart : m.before.length = other.before.length := by
    rcases hm other with h | h <;> rcases hother m with h' | h' <;> omega
  have hlead : m.lead.length = other.lead.length := by
    rcases hm other with h | h <;> rcases hother m with h' | h' <;> omega
  obtain ⟨hbefore, hrest⟩ := List.append_inj (m.text_eq.symm.trans other.text_eq) hstart
  rw [span, span, hbefore, (List.append_inj hrest hlead).1, name_eq m other]

end Match

/-! ## What a test decides -/

/-- A test for a name decides, at each place, whether the name stands there. -/
structure Decides (category : Category) (name : List Char)
    (test : Option Char → List Char → Option Nat) : Prop where
  /-- No other name stands anywhere. -/
  name_eq : ∀ {before lead word back}, Stands category before lead word back → word = name
  /-- The answer is how much text is before the name. -/
  stands : ∀ {before rest n}, test before rest = some n →
    ∃ lead back, rest = lead ++ (name ++ back) ∧ lead.length = n ∧
      Stands category before lead name back
  /-- There is no way to have more. -/
  longest : ∀ {before lead back n}, test before (lead ++ (name ++ back)) = some n →
    Stands category before lead name back → lead.length ≤ n
  /-- Where the name stands, there is an answer. -/
  complete : ∀ {before lead back}, Stands category before lead name back →
    test before (lead ++ (name ++ back)) ≠ none

theorem nameAhead_iff {name rest : List Char} :
    nameAhead name rest = true ↔
      ∃ back, rest = name ++ back ∧ isBoundary name.getLast? back.head? = true := by
  constructor
  · intro h
    obtain ⟨back, rfl⟩ := nameAhead_append h
    rw [nameAhead, List.drop_left, Bool.and_eq_true] at h
    exact ⟨back, rfl, h.2⟩
  · rintro ⟨back, rfl, hback⟩
    rw [nameAhead, List.drop_left, hback, Bool.and_true]
    exact List.isPrefixOf_iff_prefix.mpr (List.prefix_append name back)

/-- A word ahead is the name between two boundaries. -/
theorem wordAhead_append_iff {name : List Char} (hname : name ≠ []) {before : Option Char}
    {back : List Char} :
    wordAhead name before (name ++ back) = true ↔
      isBoundary before name.head? = true ∧ isBoundary name.getLast? back.head? = true := by
  have hhead : (name ++ back).head? = name.head? := by
    cases name with
    | nil => exact absurd rfl hname
    | cons c name => rfl
  have hahead : nameAhead name (name ++ back) = true ↔
      isBoundary name.getLast? back.head? = true := by
    rw [nameAhead_iff]
    exact ⟨fun ⟨_, h, hback⟩ => List.append_cancel_left h ▸ hback, fun h => ⟨back, rfl, h⟩⟩
  rw [wordAhead, Bool.and_eq_true, hhead, hahead]

theorem property_decides {declared : String} (hname : declared.toList ≠ []) :
    Decides (.property declared) declared.toList (propertyTest declared.toList) where
  name_eq h := h.1
  stands := by
    intro before rest n h
    obtain ⟨rfl, back, rfl⟩ := propertyTest_eq_some h
    rw [propertyTest, Option.ite_none_right_eq_some, wordAhead_append_iff hname] at h
    exact ⟨[], back, rfl, rfl, rfl, rfl, h.1⟩
  longest := by
    rintro before lead back n - ⟨-, rfl, -⟩
    exact Nat.zero_le n
  complete := by
    rintro before lead back ⟨-, rfl, hword⟩
    rw [List.nil_append, propertyTest, if_pos ((wordAhead_append_iff hname).mpr hword)]
    exact Option.some_ne_none 0

theorem method_decides {declared : String} (hname : declared.toList ≠ []) :
    Decides (.method declared) declared.toList (methodTest declared.toList) where
  name_eq h := h.1
  stands := by
    intro before rest n h
    obtain ⟨rfl, gap, back, rfl, hgap⟩ := methodTest_eq_some h
    rw [methodTest, Option.ite_none_right_eq_some, wordAhead_append_iff hname] at h
    exact ⟨[], gap ++ '(' :: back, rfl, rfl, rfl, rfl, h.1.1.1, h.1.1.2, gap, back, rfl, hgap⟩
  longest := by
    rintro before lead back n - ⟨-, rfl, -⟩
    exact Nat.zero_le n
  complete := by
    rintro before lead back ⟨-, rfl, hfront, hback, hparen⟩
    have hword := (wordAhead_append_iff hname).mpr ⟨hfront, hback⟩
    rw [← Pattern.head?_dropWhile_iff (by decide)] at hparen
    rw [List.nil_append, methodTest, List.drop_left, if_pos ⟨hword, hparen⟩]
    exact Option.some_ne_none 0

/-! ## Types -/

/-- So much white space can stand before the name. -/
def IsGap (name rest : List Char) (n : Nat) : Prop :=
  0 < n ∧ n ≤ (rest.takeWhile isSpace).length ∧ nameAhead name (rest.drop n) = true

theorem isGap_append {name gap back : List Char} (hne : gap ≠ [])
    (hgap : ∀ c ∈ gap, isSpace c = true) (hback : isBoundary name.getLast? back.head? = true) :
    IsGap name (gap ++ (name ++ back)) gap.length := by
  refine ⟨List.length_pos_iff.mpr hne, Pattern.le_length_takeWhile_iff.mpr ⟨?_, ?_⟩, ?_⟩
  · rw [List.length_append]
    omega
  · rwa [List.take_left]
  · rw [List.drop_left]
    exact nameAhead_iff.mpr ⟨back, rfl, hback⟩

theorem mem_gaps {n run : Nat} :
    n ∈ (List.range run).reverse.map (· + 1) ↔ 0 < n ∧ n ≤ run := by
  simp only [List.mem_map, List.mem_reverse, List.mem_range]
  constructor
  · rintro ⟨m, hm, rfl⟩
    omega
  · rintro ⟨hpos, hle⟩
    exact ⟨n - 1, by omega, by omega⟩

/-- The gaps are tried from the longest one down, so that the first one that fits is the longest. -/
theorem gapBefore_longest {name rest : List Char} {n : Nat} (h : gapBefore name rest = some n) :
    IsGap name rest n ∧ ∀ m, IsGap name rest m → m ≤ n := by
  obtain ⟨hahead, longer, shorter, hgaps, hlonger⟩ := List.find?_eq_some_iff_append.mp h
  have hdown : ((List.range (rest.takeWhile isSpace).length).reverse.map (· + 1)).Pairwise
      (· > ·) := by
    rw [List.pairwise_map, List.pairwise_reverse]
    exact List.pairwise_lt_range.imp Nat.succ_lt_succ
  rw [hgaps] at hdown
  have hn := mem_gaps.mp (hgaps ▸ List.mem_append_right longer List.mem_cons_self)
  refine ⟨⟨hn.1, hn.2, hahead⟩, ?_⟩
  rintro m ⟨hpos, hle, hm⟩
  have hmem := mem_gaps.mpr ⟨hpos, hle⟩
  rw [hgaps, List.mem_append, List.mem_cons] at hmem
  rcases hmem with hmem | rfl | hmem
  · have := hlonger m hmem
    rw [hm] at this
    cases this
  · exact Nat.le_refl m
  · have := (List.pairwise_cons.mp (List.pairwise_append.mp hdown).2.1).1 m hmem
    omega

theorem gapBefore_ne_none {name rest : List Char} {n : Nat} (h : IsGap name rest n) :
    gapBefore name rest ≠ none := by
  intro hnone
  exact List.find?_eq_none.mp hnone n (mem_gaps.mpr ⟨h.1, h.2.1⟩) h.2.2

theorem head?_keyword_append {keyword : List Char} (h : keyword ∈ typeKeywords)
    (rest : List Char) : (keyword ++ rest).head? = keyword.head? := by
  have hne : ∀ k ∈ typeKeywords, k ≠ [] := by decide
  cases keyword with
  | nil => exact absurd rfl (hne [] h)
  | cons c keyword => rfl

/-- The keywords begin with different letters, so that at most one of them stands at a place. -/
theorem keyword_unique {keyword other a b : List Char} (hkeyword : keyword ∈ typeKeywords)
    (hother : other ∈ typeKeywords) (h : keyword ++ a = other ++ b) : keyword = other := by
  have hletters : ∀ k ∈ typeKeywords, ∀ l ∈ typeKeywords, k.head? = l.head? → k = l := by decide
  refine hletters keyword hkeyword other hother ?_
  rw [← head?_keyword_append hkeyword a, h, head?_keyword_append hother b]

/-- A type is found behind one of the keywords, behind the gap that the search chooses. -/
theorem exists_keyword_of_typeTest {name : List Char} {before : Option Char} {rest : List Char}
    {n : Nat} (h : typeTest name before rest = some n) :
    isBoundary before rest.head? = true ∧ ∃ keyword ∈ typeKeywords, ∃ tail m,
      rest = keyword ++ tail ∧ gapBefore name tail = some m ∧ n = keyword.length + m := by
  rw [typeTest, Option.ite_none_right_eq_some] at h
  obtain ⟨hbefore, h⟩ := h
  obtain ⟨keyword, hmem, hkeyword⟩ := List.exists_of_findSome?_eq_some h
  rw [Option.ite_none_right_eq_some] at hkeyword
  obtain ⟨hbegins, hgap⟩ := hkeyword
  obtain ⟨tail, rfl⟩ := List.isPrefixOf_iff_prefix.mp hbegins
  rw [List.drop_left] at hgap
  obtain ⟨m, hm, rfl⟩ := Option.map_eq_some_iff.mp hgap
  exact ⟨hbefore, keyword, hmem, tail, m, rfl, hm, rfl⟩

theorem type_decides (declared : String) :
    Decides (.type declared) (simpleName declared.toList)
      (typeTest (simpleName declared.toList)) where
  name_eq h := h.1
  stands := by
    intro before rest n h
    obtain ⟨hbefore, keyword, hkeyword, tail, m, rfl, hm, rfl⟩ := exists_keyword_of_typeTest h
    obtain ⟨gap, back, rfl, rfl, hne, hgap⟩ := gapBefore_eq_some hm
    obtain ⟨⟨-, -, hahead⟩, -⟩ := gapBefore_longest hm
    rw [List.drop_left] at hahead
    obtain ⟨back', hback', hboundary⟩ := nameAhead_iff.mp hahead
    rw [head?_keyword_append hkeyword] at hbefore
    refine ⟨keyword ++ gap, back, (List.append_assoc ..).symm, List.length_append, rfl, ?_,
      ⟨keyword, hkeyword, gap, rfl, hne, hgap⟩, ?_⟩
    · rwa [head?_keyword_append hkeyword]
    · rwa [List.append_cancel_left hback']
  longest := by
    rintro before lead back n h ⟨-, -, ⟨keyword, hkeyword, gap, rfl, hne, hgap⟩, hboundary⟩
    obtain ⟨-, other, hother, tail, m, hrest, hm, rfl⟩ := exists_keyword_of_typeTest h
    rw [List.append_assoc] at hrest
    obtain rfl := keyword_unique hkeyword hother hrest
    obtain rfl := List.append_cancel_left hrest
    have hle := (gapBefore_longest hm).2 gap.length (isGap_append hne hgap hboundary)
    rw [List.length_append]
    omega
  complete := by
    rintro before lead back ⟨-, hbefore, ⟨keyword, hkeyword, gap, rfl, hne, hgap⟩, hboundary⟩ hnone
    rw [head?_keyword_append hkeyword] at hbefore
    rw [List.append_assoc, typeTest, head?_keyword_append hkeyword, if_pos hbefore,
      List.findSome?_eq_none_iff] at hnone
    have hfail := hnone keyword hkeyword
    rw [if_pos (List.isPrefixOf_iff_prefix.mpr (List.prefix_append _ _)), Option.map_eq_none_iff,
      List.drop_left] at hfail
    exact gapBefore_ne_none (isGap_append hne hgap hboundary) hfail

/-! ## The search -/

variable {category : Category} {name text : List Char}
  {test : List Char → Option Char → List Char → Option Nat}

/-- What a search with a deciding test finds is the preferred match. -/
theorem Decides.exists_preferred (d : Decides category name (test name)) {i n : Nat}
    (h : search test name text = some (i, n)) :
    ∃ m : Match category text, m.Preferred ∧ i = (m.before ++ m.lead).length ∧
      n = m.name.length := by
  rw [search, Option.ite_none_left_eq_some] at h
  obtain ⟨hname, h⟩ := h
  obtain ⟨k, hk, heq⟩ := Option.map_eq_some_iff.mp h
  cases heq
  obtain ⟨front, rest, j, rfl, rfl, htest, hleast⟩ := leftmost_eq_some hk
  rw [Option.or_none] at htest
  obtain ⟨lead, back, rfl, rfl, hstands⟩ := d.stands htest
  refine ⟨⟨front, lead, name, back, rfl, hname, hstands⟩, ?_, List.length_append.symm, rfl⟩
  rintro ⟨before, lead', word, back', htext, -, hstands'⟩
  obtain rfl := d.name_eq hstands'
  rcases Nat.lt_trichotomy front.length before.length with hlt | heq | hlt
  · exact Or.inl hlt
  · obtain ⟨rfl, hrest⟩ := List.append_inj htext heq
    exact Or.inr ⟨rfl, d.longest (hrest ▸ htest) hstands'⟩
  · have hnone := hleast before _ htext hlt
    rw [Option.or_none] at hnone
    exact absurd hnone (d.complete hstands')

theorem exists_preferred_of_find {i n : Nat} (h : find category text = some (i, n)) :
    ∃ m : Match category text, m.Preferred ∧ i = (m.before ++ m.lead).length ∧
      n = m.name.length := by
  cases category with
  | type declared => exact (type_decides declared).exists_preferred h
  | method declared => exact (method_decides (search_eq_some h).1).exists_preferred h
  | property declared => exact (property_decides (search_eq_some h).1).exists_preferred h
  | literal =>
    rw [find, Option.ite_none_left_eq_some] at h
    cases h.2
    refine ⟨⟨[], [], text, [], (List.append_nil text).symm, h.1, rfl, rfl, rfl⟩, ?_, rfl, rfl⟩
    rintro ⟨before, lead, word, back, htext, hne, hbefore, rfl, rfl⟩
    have hstart : before.length = 0 := by rw [List.getLast?_eq_none_iff.mp hbefore, List.length_nil]
    exact Or.inr ⟨hstart.symm, Nat.le_refl 0⟩

/-- The span of what is found is the span of the preferred match. -/
theorem exists_preferred_of_locate {s : Span} (h : locate category text = some s) :
    ∃ m : Match category text, m.Preferred ∧ m.span = s := by
  obtain ⟨⟨i, n⟩, hfind, rfl⟩ := Option.map_eq_some_iff.mp h
  obtain ⟨m, hm, rfl, rfl⟩ := exists_preferred_of_find hfind
  refine ⟨m, hm, ?_⟩
  show m.span = ⟨measure (text.take _), measure (text.take _)⟩
  rw [m.take_front, m.take_name]
  rfl

/-- The field in front fails at its parenthesis only, and does not hide the method. -/
example : locate (.method "size") "int size = size ()".toList = some ⟨⟨0, 11⟩, ⟨0, 15⟩⟩ := by
  decide

end NameLocation

end SymbolRename
