import Mathlib.Data.List.Basic
import SymbolRename.Proofs.Utf8Bytes
import SymbolRename.Uri.RenamedFile

/-! # Segments as they are written

`IsWritten` says that a segment stands in a path as it is: encoding it once more changes
nothing (`encodeText_eq_self`), and nothing in it ends it.  Encoded text is written so
(`isPathChar_of_mem_encodeText`).  A name brings no escapes of its own into a path, so an
encoded name stands for `.` or `..` only if it is written with these dots
(`dropDot_encodeText`): here `dropDot` reads one dot in either of its spellings, and a
segment is a dot segment exactly if one or two dots are all there is of it
(`isSingleDot_iff`, `isDoubleDot_iff`).
-/
namespace SymbolRename

namespace Uri

open Digits

/-- Characters that stand in a segment of a `file` URI as they are. -/
def isPathChar (c : Char) : Bool :=
  decide (c.toNat < 0x80) && !pathSet c && decide (c ≠ '/') && decide (c ≠ '\\')

/-- A segment in the form in which a path has it. -/
def IsWritten (segment : String) : Prop := ∀ c ∈ segment.toList, isPathChar c = true

theorem isPathChar_iff {c : Char} :
    isPathChar c = true ↔ c.toNat < 0x80 ∧ pathSet c = false ∧ c ≠ '/' ∧ c ≠ '\\' := by
  simp [isPathChar, and_assoc]

theorem isLayout_of_isPathChar {c : Char} (h : isPathChar c = true) : isLayout c = false := by
  by_contra hlayout
  rw [Bool.not_eq_false, isLayout, Bool.or_eq_true, Bool.or_eq_true, decide_eq_true_eq,
    decide_eq_true_eq, decide_eq_true_eq] at hlayout
  rcases hlayout with (rfl | rfl) | rfl <;> exact absurd h (by decide)

theorem IsWritten.dropLayout_eq {s : String} (h : IsWritten s) : dropLayout s.toList = s.toList := by
  refine List.filter_eq_self.mpr fun c hc => ?_
  rw [isLayout_of_isPathChar (h c hc)]
  rfl

theorem isWritten_empty : IsWritten "" := by
  intro c hc
  rw [String.toList_empty] at hc
  exact absurd hc List.not_mem_nil

theorem IsWritten.append {s t : String} (hs : IsWritten s) (ht : IsWritten t) :
    IsWritten (s ++ t) := by
  intro c hc
  rw [String.toList_append] at hc
  rcases List.mem_append.mp hc with hc | hc
  · exact hs c hc
  · exact ht c hc

theorem isWritten_concat {front : List String} {last : String} (hfront : ∀ s ∈ front, IsWritten s)
    (hlast : IsWritten last) : ∀ s ∈ front ++ [last], IsWritten s := by
  rw [List.forall_mem_append, List.forall_mem_singleton]
  exact ⟨hfront, hlast⟩

/-! ## Escapes -/

/-- A byte written as an escape. -/
def escape (b : UInt8) : List Char := ['%', hexUpper (b.toNat / 16), hexUpper (b.toNat % 16)]

theorem encodeByte_of_high {b : UInt8} (hb : 0x80 ≤ b.toNat) (set : CharSet) :
    encodeByte set b = escape b := by
  have hnot : ¬b < 0x80 := fun hlt => absurd (UInt8.lt_iff_toNat_lt.mp hlt) (Nat.not_lt.mpr hb)
  rw [encodeByte, decide_eq_false hnot, Bool.false_and]
  rfl

theorem plain_or_escaped (set : CharSet) (c : Char) :
    (c.toNat < 0x80 ∧ set c = false) ∨ (c.toNat < 0x80 → set c = true) := by
  by_cases hset : set c = true
  · exact Or.inr fun _ => hset
  · by_cases hascii : c.toNat < 0x80
    · exact Or.inl ⟨hascii, Bool.eq_false_iff.mpr hset⟩
    · exact Or.inr fun h => absurd h hascii

/-- The text of one character. -/
theorem encodeText_cons (set : CharSet) (c : Char) (cs : List Char) :
    encodeText set (c :: cs) =
      (String.utf8EncodeChar c).flatMap (encodeByte set) ++ encodeText set cs := by
  rw [encodeText, encodeBytes, List.flatMap_cons, List.flatMap_append]
  rfl

theorem encodeText_cons_of_plain {set : CharSet} {c : Char} (hc : c.toNat < 0x80)
    (hset : set c = false) (cs : List Char) :
    encodeText set (c :: cs) = c :: encodeText set cs := by
  have hlt : UInt8.ofNat c.toNat < 0x80 := by
    rw [UInt8.lt_iff_toNat_lt, Utf8.toNat_ofNat_of_ascii hc]
    exact hc
  rw [encodeText_cons, Utf8.utf8EncodeChar_of_ascii hc, List.flatMap_singleton, encodeByte,
    Utf8.toNat_ofNat_of_ascii hc, Char.ofNat_toNat, hset, decide_eq_true hlt]
  rfl

/-- A character that is not plain is written with escapes only. -/
theorem encodeText_cons_of_escaped {set : CharSet} {c : Char}
    (h : c.toNat < 0x80 → set c = true) (cs : List Char) :
    encodeText set (c :: cs) =
      (String.utf8EncodeChar c).flatMap escape ++ encodeText set cs := by
  rw [encodeText_cons]
  congr 1
  refine List.flatMap_congr fun b hb => ?_
  by_cases hc : c.toNat < 0x80
  · rw [Utf8.utf8EncodeChar_of_ascii hc, List.mem_singleton] at hb
    rw [hb, encodeByte, Utf8.toNat_ofNat_of_ascii hc, Char.ofNat_toNat, h hc, Bool.not_true,
      Bool.and_false, escape, Utf8.toNat_ofNat_of_ascii hc]
    rfl
  · exact encodeByte_of_high (Utf8.high_of_mem_utf8EncodeChar (Nat.not_lt.mp hc) hb) set

theorem encodeText_cons_ne_nil (set : CharSet) (c : Char) (cs : List Char) :
    encodeText set (c :: cs) ≠ [] := by
  rcases plain_or_escaped set c with ⟨hascii, hset⟩ | hescaped
  · rw [encodeText_cons_of_plain hascii hset]
    exact List.cons_ne_nil _ _
  · obtain ⟨b, bs, hbytes⟩ := List.exists_cons_of_ne_nil (String.utf8EncodeChar_ne_nil (c := c))
    rw [encodeText_cons_of_escaped hescaped, hbytes]
    exact List.cons_ne_nil _ _

theorem encodeText_eq_self {set : CharSet} {cs : List Char}
    (h : ∀ c ∈ cs, c.toNat < 0x80 ∧ set c = false) : encodeText set cs = cs := by
  induction cs with
  | nil => rfl
  | cons c cs ih =>
    obtain ⟨hc, hset⟩ := h c List.mem_cons_self
    rw [encodeText_cons_of_plain hc hset, ih fun c' hc' => h c' (List.mem_cons_of_mem c hc')]

theorem IsWritten.encodeText_eq {s : String} (h : IsWritten s) :
    encodeText pathSet s.toList = s.toList := by
  refine encodeText_eq_self fun c hc => ?_
  obtain ⟨hascii, hset, -, -⟩ := isPathChar_iff.mp (h c hc)
  exact ⟨hascii, hset⟩

theorem isPathChar_of_mem_escape {b : UInt8} {c : Char} (hc : c ∈ escape b) :
    isPathChar c = true := by
  have hdigit : ∀ n < 16, isPathChar (hexUpper n) = true := by decide
  have hb := b.toNat_lt
  rw [escape, List.mem_cons, List.mem_cons, List.mem_singleton] at hc
  rcases hc with rfl | rfl | rfl
  · decide
  · exact hdigit _ (by omega)
  · exact hdigit _ (by omega)

/-- Encoded text is written with the characters of paths, if this is so of the characters that
are not encoded. -/
theorem isPathChar_of_mem_encodeText {set : CharSet} {cs : List Char}
    (h : ∀ c ∈ cs, c.toNat < 0x80 → set c = false → isPathChar c = true) {c : Char}
    (hc : c ∈ encodeText set cs) : isPathChar c = true := by
  induction cs with
  | nil => exact absurd hc List.not_mem_nil
  | cons d cs ih =>
    have hrest : c ∈ encodeText set cs → isPathChar c = true :=
      ih fun c' hc' => h c' (List.mem_cons_of_mem d hc')
    rcases plain_or_escaped set d with ⟨hascii, hset⟩ | hescaped
    · rw [encodeText_cons_of_plain hascii hset] at hc
      rcases List.mem_cons.mp hc with rfl | hc
      · exact h c List.mem_cons_self hascii hset
      · exact hrest hc
    · rw [encodeText_cons_of_escaped hescaped] at hc
      rcases List.mem_append.mp hc with hc | hc
      · obtain ⟨b, -, hc⟩ := List.mem_flatMap.mp hc
        exact isPathChar_of_mem_escape hc
      · exact hrest hc

/-- A segment of a written path is written with the characters of paths. -/
theorem isWritten_encodedSegment {cs : List Char} (h : ∀ c ∈ cs, c ≠ '/' ∧ c ≠ '\\') :
    IsWritten (String.ofList (encodeText pathSet cs)) := by
  intro c hc
  rw [String.toList_ofList] at hc
  refine isPathChar_of_mem_encodeText ?_ hc
  intro d hd hascii hset
  exact isPathChar_iff.mpr ⟨hascii, hset, h d hd⟩

theorem isPathChar_of_plain {c : Char} (hascii : c.toNat < 0x80)
    (hset : specialSegmentSet c = false) : isPathChar c = true := by
  simp only [specialSegmentSet, segmentSet, Bool.or_eq_false_iff, decide_eq_false_iff_not,
    List.contains_eq_mem, List.mem_cons, not_or] at hset
  exact isPathChar_iff.mpr ⟨hascii, hset.1.1, hset.1.2.1, hset.2⟩

/-- A name that is put into a path is written with the characters of paths. -/
theorem isWritten_encodedBytes (bytes : Bytes) :
    IsWritten (String.ofList (encodeBytes specialSegmentSet bytes)) := by
  have hnumber : ∀ n < 0x80, (Char.ofNat n).toNat = n := by decide
  intro c hc
  rw [String.toList_ofList] at hc
  obtain ⟨b, -, hc⟩ := List.mem_flatMap.mp hc
  rw [encodeByte] at hc
  split at hc
  · rename_i hplain
    rw [Bool.and_eq_true, decide_eq_true_eq, Bool.not_eq_true'] at hplain
    have hlt : b.toNat < 0x80 := UInt8.lt_iff_toNat_lt.mp hplain.1
    rw [List.mem_singleton.mp hc]
    refine isPathChar_of_plain ?_ hplain.2
    rwa [hnumber b.toNat hlt]
  · exact isPathChar_of_mem_escape hc

theorem isWritten_encodedName (cs : List Char) :
    IsWritten (String.ofList (encodeText specialSegmentSet cs)) :=
  isWritten_encodedBytes _

/-- ASCII letters, digits, `_` and `$`. -/
def isNameChar (c : Char) : Bool := c.isAlphanum || c = '_' || c = '$'

theorem plain_of_isNameChar {c : Char} (h : isNameChar c = true) :
    c.toNat < 0x80 ∧ specialSegmentSet c = false := by
  have hspell : isNameChar c =
      (((decide (c.val ≥ 'A'.val ∧ c.val ≤ 'Z'.val) ||
        (decide (c.val ≥ 'a'.val) && decide (c.val ≤ 'z'.val)) ||
        (decide (c.val ≥ '0'.val) && decide (c.val ≤ '9'.val))) ||
        decide (c = '_')) || decide (c = '$')) := rfl
  have hascii : c.toNat < 0x80 := by
    simp only [hspell, Bool.or_eq_true, Bool.and_eq_true, decide_eq_true_eq, ge_iff_le,
      UInt32.le_iff_toNat_le] at h
    rcases h with (((⟨-, h⟩ | ⟨-, h⟩) | ⟨-, h⟩) | rfl) | rfl
    · exact Nat.lt_of_le_of_lt h (by decide)
    · exact Nat.lt_of_le_of_lt h (by decide)
    · exact Nat.lt_of_le_of_lt h (by decide)
    · decide
    · decide
  have hplain : ∀ n < 0x80, isNameChar (Char.ofNat n) = true →
      specialSegmentSet (Char.ofNat n) = false := by
    decide
  refine ⟨hascii, ?_⟩
  have hc := hplain c.toNat hascii
  rw [Char.ofNat_toNat] at hc
  exact hc h

/-! ## Dots -/

/-- What follows a dot at the front, which may be written as an escape. -/
def dropDot : List Char → Option (List Char)
  | '.' :: rest => some rest
  | '%' :: '2' :: e :: rest => if e = 'e' ∨ e = 'E' then some rest else none
  | _ => none

theorem dropDot_eq_some_iff {cs rest : List Char} :
    dropDot cs = some rest ↔
      cs = '.' :: rest ∨ cs = '%' :: '2' :: 'e' :: rest ∨ cs = '%' :: '2' :: 'E' :: rest := by
  constructor
  · intro h
    unfold dropDot at h
    split at h
    · exact Or.inl (congrArg _ (Option.some.inj h))
    · obtain ⟨he, heq⟩ := Option.ite_none_right_eq_some.mp h
      obtain rfl := Option.some.inj heq
      rcases he with rfl | rfl
      · exact Or.inr (Or.inl rfl)
      · exact Or.inr (Or.inr rfl)
    · cases h
  · rintro (rfl | rfl | rfl) <;> simp [dropDot]

theorem toNat_toLower (c : Char) :
    c.toLower.toNat = if 65 ≤ c.toNat ∧ c.toNat ≤ 90 then c.toNat + 32 else c.toNat := by
  by_cases h : 65 ≤ c.toNat ∧ c.toNat ≤ 90
  · have hlower : c.toLower.val = c.val + 32 := congrArg Char.val (dif_pos h)
    rw [if_pos h]
    show c.toLower.val.toNat = c.toNat + 32
    rw [hlower, UInt32.toNat_add]
    show (c.toNat + 32) % 2 ^ 32 = _
    omega
  · have hlower : c.toLower = c := dif_neg h
    rw [if_neg h, hlower]

theorem toLower_eq_iff {c d : Char} (hd : d.toNat < 65) : c.toLower = d ↔ c = d := by
  rw [← Char.toNat_inj, ← Char.toNat_inj, toNat_toLower]
  split <;> omega

theorem toLower_eq_e_iff {c : Char} : c.toLower = 'e' ↔ c = 'e' ∨ c = 'E' := by
  rw [← Char.toNat_inj, ← Char.toNat_inj, ← Char.toNat_inj, toNat_toLower]
  show _ = 101 ↔ c.toNat = 101 ∨ c.toNat = 69
  split <;> omega

/-- Both spellings of a dot at the front, in any case. -/
theorem map_toLower_iff_dropDot {cs t : List Char} :
    (cs.map Char.toLower = '.' :: t ∨ cs.map Char.toLower = '%' :: '2' :: 'e' :: t) ↔
      ∃ rest, dropDot cs = some rest ∧ rest.map Char.toLower = t := by
  have hdot {c : Char} : c.toLower = '.' ↔ c = '.' := toLower_eq_iff (by decide)
  have hpercent {c : Char} : c.toLower = '%' ↔ c = '%' := toLower_eq_iff (by decide)
  have htwo {c : Char} : c.toLower = '2' ↔ c = '2' := toLower_eq_iff (by decide)
  simp only [dropDot_eq_some_iff, List.map_eq_cons_iff, hdot, hpercent, htwo, toLower_eq_e_iff]
  constructor
  · rintro (⟨_, rest, rfl, rfl, rfl⟩ | ⟨_, _, rfl, rfl, _, _, rfl, rfl, e, rest, rfl, he, rfl⟩)
    · exact ⟨rest, Or.inl rfl, rfl⟩
    · rcases he with rfl | rfl
      · exact ⟨rest, Or.inr (Or.inl rfl), rfl⟩
      · exact ⟨rest, Or.inr (Or.inr rfl), rfl⟩
  · rintro ⟨rest, rfl | rfl | rfl, rfl⟩
    · exact Or.inl ⟨_, rest, rfl, rfl, rfl⟩
    · exact Or.inr ⟨_, _, rfl, rfl, _, _, rfl, rfl, _, rest, rfl, Or.inl rfl, rfl⟩
    · exact Or.inr ⟨_, _, rfl, rfl, _, _, rfl, rfl, _, rest, rfl, Or.inr rfl, rfl⟩

theorem isSingleDot_iff {s : String} : isSingleDot s = true ↔ dropDot s.toList = some [] := by
  have hspell : isSingleDot s = true ↔ s.toList.map Char.toLower = ['.'] ∨
      s.toList.map Char.toLower = ['%', '2', 'e'] := by
    simp [isSingleDot]
  rw [hspell, map_toLower_iff_dropDot]
  constructor
  · rintro ⟨rest, hrest, hnil⟩
    rw [hrest, List.map_eq_nil_iff.mp hnil]
  · intro h
    exact ⟨[], h, rfl⟩

theorem isDoubleDot_iff {s : String} :
    isDoubleDot s = true ↔ (dropDot s.toList).bind dropDot = some [] := by
  have hspell : isDoubleDot s = true ↔
      (s.toList.map Char.toLower = '.' :: ['.'] ∨
        s.toList.map Char.toLower = '%' :: '2' :: 'e' :: ['.']) ∨
      (s.toList.map Char.toLower = '.' :: ['%', '2', 'e'] ∨
        s.toList.map Char.toLower = '%' :: '2' :: 'e' :: ['%', '2', 'e']) := by
    simp only [isDoubleDot, List.any_cons, List.any_nil, Bool.or_eq_true, decide_eq_true_eq,
      Bool.or_false]
    tauto
  rw [hspell, map_toLower_iff_dropDot, map_toLower_iff_dropDot, Option.bind_eq_some_iff]
  constructor
  · -- The second dot is spelled in one of two ways, too.
    rintro (⟨rest, hrest, hdot⟩ | ⟨rest, hrest, hdot⟩)
    · obtain ⟨last, hlast, hnil⟩ := map_toLower_iff_dropDot.mp (Or.inl hdot)
      exact ⟨rest, hrest, by rw [hlast, List.map_eq_nil_iff.mp hnil]⟩
    · obtain ⟨last, hlast, hnil⟩ := map_toLower_iff_dropDot.mp (Or.inr hdot)
      exact ⟨rest, hrest, by rw [hlast, List.map_eq_nil_iff.mp hnil]⟩
  · rintro ⟨rest, hrest, hlast⟩
    rcases map_toLower_iff_dropDot.mpr ⟨[], hlast, rfl⟩ with hdot | hdot
    · exact Or.inl ⟨rest, hrest, hdot⟩
    · exact Or.inr ⟨rest, hrest, hdot⟩

/-- A segment that stands for no segment, or for the one before it. -/
def IsDots (s : String) : Prop := isSingleDot s = true ∨ isDoubleDot s = true

theorem not_isDots_empty : ¬IsDots "" := by
  rw [IsDots, isSingleDot_iff, isDoubleDot_iff, String.toList_empty]
  simp [dropDot]

/-- An escape spells a dot only if it is the escape of a dot. -/
theorem dropDot_escape {b : UInt8} (hb : b.toNat ≠ 0x2e) (tail : List Char) :
    dropDot (escape b ++ tail) = none := by
  have htwo : ∀ n < 16, hexUpper n = '2' → n = 2 := by decide
  have hlower : ∀ n < 16, hexUpper n ≠ 'e' := by decide
  have hupper : ∀ n < 16, hexUpper n = 'E' → n = 14 := by decide
  have hlt := b.toNat_lt
  refine Option.eq_none_iff_forall_ne_some.mpr fun rest h => ?_
  rw [dropDot_eq_some_iff] at h
  simp only [escape, List.cons_append, List.nil_append, List.cons.injEq] at h
  rcases h with ⟨hpercent, -⟩ | ⟨-, -, hlow, -⟩ | ⟨-, hhigh, hlow, -⟩
  · exact absurd hpercent (by decide)
  · exact hlower _ (by omega) hlow
  · have h2 := htwo _ (by omega) hhigh
    have h14 := hupper _ (by omega) hlow
    omega

/-- A name does not bring a dot into a path, unless it begins with one. -/
theorem dropDot_encodeText {c : Char} (hc : c ≠ '.') (cs tail : List Char) :
    dropDot (encodeText specialSegmentSet (c :: cs) ++ tail) = none := by
  rcases plain_or_escaped specialSegmentSet c with ⟨hascii, hset⟩ | hescaped
  · have hpercent : c ≠ '%' := by
      rintro rfl
      exact absurd hset (by decide)
    refine Option.eq_none_iff_forall_ne_some.mpr fun rest h => ?_
    rw [encodeText_cons_of_plain hascii hset, List.cons_append, dropDot_eq_some_iff] at h
    rcases h with h | h | h
    · exact hc (List.cons.inj h).1
    · exact hpercent (List.cons.inj h).1
    · exact hpercent (List.cons.inj h).1
  · obtain ⟨b, bs, hbytes⟩ := List.exists_cons_of_ne_nil (String.utf8EncodeChar_ne_nil (c := c))
    have hb : b.toNat ≠ 0x2e := by
      by_cases hascii : c.toNat < 0x80
      · rw [Utf8.utf8EncodeChar_of_ascii hascii] at hbytes
        rw [← (List.cons.inj hbytes).1, Utf8.toNat_ofNat_of_ascii hascii]
        exact fun heq => hc (Char.toNat_inj.mp heq)
      · have hhigh := Utf8.high_of_mem_utf8EncodeChar (Nat.not_lt.mp hascii)
          (hbytes ▸ List.mem_cons_self : b ∈ String.utf8EncodeChar c)
        omega
    rw [encodeText_cons_of_escaped hescaped, hbytes, List.flatMap_cons, List.append_assoc,
      List.append_assoc]
    exact dropDot_escape hb _

theorem encodeText_dot (cs : List Char) :
    encodeText specialSegmentSet ('.' :: cs) = '.' :: encodeText specialSegmentSet cs :=
  encodeText_cons_of_plain (by decide) (by decide) cs

/-- An encoded name in front of any text makes it a dot segment only if the name is empty or
consists of one or two dots. -/
theorem not_isDots_encodedName {cs : List Char} (hnil : cs ≠ []) (hone : cs ≠ ['.'])
    (htwo : cs ≠ ['.', '.']) (tail : List Char) :
    ¬IsDots (String.ofList (encodeText specialSegmentSet cs ++ tail)) := by
  rw [IsDots, isSingleDot_iff, isDoubleDot_iff, String.toList_ofList]
  obtain ⟨c, cs, rfl⟩ := List.exists_cons_of_ne_nil hnil
  by_cases hc : c = '.'
  · subst hc
    obtain ⟨d, cs, rfl⟩ := List.exists_cons_of_ne_nil fun h => hone (congrArg _ h)
    have hne := List.append_ne_nil_of_left_ne_nil (encodeText_cons_ne_nil specialSegmentSet d cs) tail
    rw [encodeText_dot, List.cons_append]
    rintro (h | h)
    · exact hne (Option.some.inj h)
    · -- The first character is a dot, and what follows is not just another one.
      replace h : dropDot (encodeText specialSegmentSet (d :: cs) ++ tail) = some [] := h
      by_cases hd : d = '.'
      · subst hd
        obtain ⟨e, cs, rfl⟩ := List.exists_cons_of_ne_nil fun h => htwo (congrArg (['.', '.'] ++ ·) h)
        rw [encodeText_dot, List.cons_append] at h
        exact List.append_ne_nil_of_left_ne_nil (encodeText_cons_ne_nil specialSegmentSet e cs) tail
          (Option.some.inj h)
      · rw [dropDot_encodeText hd] at h
        cases h
  · rw [dropDot_encodeText hc]
    simp

end Uri

end SymbolRename
