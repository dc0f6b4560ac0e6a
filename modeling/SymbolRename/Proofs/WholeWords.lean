import SymbolRename.Proofs.ByteIndex
import SymbolRename.Proofs.NameMatches

/-! # Which names are found as whole words

A name is searched between word boundaries.  A boundary lies between a word character and one that
is none, so at the ends of a name it says something about the characters around the name only
together with those of the name itself: around a name that begins and ends with word characters
there are none, but a name that begins or ends with any other character, such as `$`, is found
nowhere but next to a word character.  `whole_word_iff` says exactly which located names are whole
words; the white space in front of a type's name is never a word character.
-/
namespace SymbolRename

namespace Unicode

/-- A boundary has a word character on one side only. -/
theorem isWordAt_of_isBoundary {before after : Option Char} (h : isBoundary before after = true) :
    isWordAt after = !isWordAt before := by
  rw [isBoundary] at h
  cases hb : isWordAt before <;> cases ha : isWordAt after <;> simp_all

theorem ranges_apart :
    (spaceRanges.all fun s => wordRanges.all fun w => s.2.blt w.1 || w.2.blt s.1) = true := by
  decide +kernel

/-- White space belongs to no word. -/
theorem isWord_of_isSpace {c : Char} (h : isSpace c = true) : isWord c = false := by
  by_cases hascii : c.toNat < 0x80
  · have hlow : c.toNat < 33 := by
      simp only [isSpace, inRanges, spaceRanges, List.any_cons, List.any_nil, Bool.or_eq_true,
        Bool.and_eq_true, decide_eq_true_eq, Bool.false_eq_true, or_false] at h
      omega
    have hcontrol : ∀ n < 33, isWord (Char.ofNat n) = false := by decide
    have := hcontrol c.toNat hlow
    rwa [Char.ofNat_toNat] at this
  · rw [isWord, if_neg hascii]
    obtain ⟨s, hs, hc⟩ := List.any_eq_true.mp h
    refine List.any_eq_false.mpr fun w hw => ?_
    have hapart := List.all_eq_true.mp (List.all_eq_true.mp ranges_apart s hs) w hw
    simp only [Bool.and_eq_true, Bool.or_eq_true, decide_eq_true_eq, Nat.blt_eq] at hc hapart ⊢
    omega

end Unicode

namespace Position

/-- Two beginnings of a text with one position are the same. -/
theorem eq_of_measure_eq {a b c d : List Char} (htext : a ++ b = c ++ d)
    (h : measure a = measure c) : a = c := by
  have ha : Text.offset? (a ++ b) (measure a) = some a.length :=
    Text.offset?_eq_some_iff.mpr ⟨by rw [List.length_append]; omega, by rw [List.take_left]⟩
  have hc : Text.offset? (c ++ d) (measure c) = some c.length :=
    Text.offset?_eq_some_iff.mpr ⟨by rw [List.length_append]; omega, by rw [List.take_left]⟩
  rw [htext, h, hc] at ha
  exact (List.append_inj htext (Option.some.inj ha).symm).1

end Position

namespace NameLocation

open Unicode Position

/-- A span of a text has no word character in front of it and none behind it. -/
def WholeWord (text : List Char) (s : Span) : Prop :=
  ∃ front word back, text = front ++ (word ++ back) ∧
    s = ⟨measure front, measure (front ++ word)⟩ ∧
    isWordAt front.getLast? = false ∧ isWordAt back.head? = false

/-- The name that is searched for a category; for a literal there is none. -/
def searchedName : Category → List Char
  | .type declared => simpleName declared.toList
  | .method declared => declared.toList
  | .property declared => declared.toList
  | .literal => []

/-- A span cuts its text in one way only. -/
theorem wholeWord_append_iff (front word back : List Char) :
    WholeWord (front ++ (word ++ back)) ⟨measure front, measure (front ++ word)⟩ ↔
      isWordAt front.getLast? = false ∧ isWordAt back.head? = false := by
  constructor
  · rintro ⟨front', word', back', htext, hspan, hfront, hback⟩
    obtain ⟨hstart, hstop⟩ := Span.mk.inj hspan
    obtain rfl := eq_of_measure_eq htext hstart
    rw [← List.append_assoc, ← List.append_assoc] at htext
    obtain rfl := List.append_cancel_left (eq_of_measure_eq htext hstop)
    rw [List.append_cancel_left htext]
    exact ⟨hfront, hback⟩
  · rintro ⟨hfront, hback⟩
    exact ⟨front, word, back, rfl, rfl, hfront, hback⟩

namespace Match

variable {category : Category} {text : List Char}

theorem name_eq_searchedName (m : Match category text) (h : category ≠ .literal) :
    m.name = searchedName category := by
  cases category with
  | type declared => exact m.stands.1
  | method declared => exact m.stands.1
  | property declared => exact m.stands.1
  | literal => exact absurd rfl h

/-- Behind a name there is a word character exactly if the name does not end with one. -/
theorem isWordAt_back (m : Match category text) (h : category ≠ .literal) :
    isWordAt m.back.head? = !isWordAt m.name.getLast? := by
  cases category with
  | type declared => exact isWordAt_of_isBoundary m.stands.2.2.2
  | method declared => exact isWordAt_of_isBoundary m.stands.2.2.2.1
  | property declared => exact isWordAt_of_isBoundary m.stands.2.2.2
  | literal => exact absurd rfl h

/-- In front of a name there is a word character exactly if the name does not begin with one; in
front of a type's name there is white space. -/
theorem isWordAt_front (m : Match category text) (h : category ≠ .literal) :
    isWordAt (m.before ++ m.lead).getLast? = !(category.isType || isWordAt m.name.head?) := by
  cases category with
  | type declared =>
    obtain ⟨-, -, ⟨keyword, -, gap, hlead, hne, hgap⟩, -⟩ := m.stands
    have hlast := List.getLast?_eq_some_getLast hne
    have hspace := isWord_of_isSpace (hgap _ (List.getLast_mem hne))
    rw [hlead, List.getLast?_append, List.getLast?_append, hlast]
    exact hspace
  | method declared =>
    obtain ⟨-, hlead, hboundary, -⟩ := m.stands
    rw [hlead, List.append_nil, isWordAt_of_isBoundary hboundary]
    simp [Category.isType]
  | property declared =>
    obtain ⟨-, hlead, hboundary, -⟩ := m.stands
    rw [hlead, List.append_nil, isWordAt_of_isBoundary hboundary]
    simp [Category.isType]
  | literal => exact absurd rfl h

end Match

/-- **Which located names are whole words.**  The located name of a declaration has no word
character next to it exactly if it ends with a word character and, unless it is a type's, begins
with one. -/
theorem whole_word_iff {category : Category} {text : List Char} {s : Span}
    (hdeclaration : category ≠ .literal) (h : locate category text = some s) :
    WholeWord text s ↔
      (category.isType = true ∨ isWordAt (searchedName category).head? = true) ∧
        isWordAt (searchedName category).getLast? = true := by
  obtain ⟨m, -, rfl⟩ := exists_preferred_of_locate h
  have hcut : WholeWord text m.span ↔
      isWordAt (m.before ++ m.lead).getLast? = false ∧ isWordAt m.back.head? = false := by
    have hcut := wholeWord_append_iff (m.before ++ m.lead) m.name m.back
    rwa [List.append_assoc, ← m.text_eq] at hcut
  rw [hcut, m.isWordAt_front hdeclaration, m.isWordAt_back hdeclaration,
    m.name_eq_searchedName hdeclaration, Bool.not_eq_false', Bool.not_eq_false', Bool.or_eq_true]

/-- A `$` inside a name does no harm. -/
theorem inner_dollar_whole_word :
    Category.property "a$b" ≠ .literal ∧
      locate (.property "a$b") "int a$b = 1".toList = some ⟨⟨0, 4⟩, ⟨0, 7⟩⟩ ∧
      WholeWord "int a$b = 1".toList ⟨⟨0, 4⟩, ⟨0, 7⟩⟩ := by
  have hdeclaration : Category.property "a$b" ≠ .literal := by decide
  have h : locate (.property "a$b") "int a$b = 1".toList = some ⟨⟨0, 4⟩, ⟨0, 7⟩⟩ := by decide
  exact ⟨hdeclaration, h, (whole_word_iff hdeclaration h).mpr (by decide)⟩

/-- A name that begins with a `$` is found inside a longer word, and only there. -/
theorem leading_dollar_inside_word :
    locate (.property "$id") "int user$id = 1".toList = some ⟨⟨0, 8⟩, ⟨0, 11⟩⟩ ∧
      ¬WholeWord "int user$id = 1".toList ⟨⟨0, 8⟩, ⟨0, 11⟩⟩ ∧
      locate (.property "$id") "int $id = 1".toList = none := by
  have hcut := wholeWord_append_iff "int user".toList "$id".toList " = 1".toList
  refine ⟨by decide, ?_, by decide⟩
  intro hword
  exact absurd (hcut.mp hword).1 (by decide)

end NameLocation

end SymbolRename
