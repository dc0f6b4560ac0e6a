import SymbolRename.Text

/-! # Offsets are the inverse of positions

Reading a character moves the position forward, so the positions of the prefixes
of a text increase strictly (`Position.measure_take_lt`).  Hence a position
belongs to at most one offset: `Text.offset?` finds exactly the offset whose
prefix measures it (`Text.offset?_eq_some_iff`), in spite of its early exits, and
`Text.clampedOffset` agrees with it wherever there is such an offset
(`Text.clampedOffset_measure`).  Replacing the span between two offsets therefore
cuts the text at these offsets (`Text.replace_measure`).
-/
namespace SymbolRename

namespace Position

theorem lt_irrefl (p : Position) : ¬p < p := by
  rw [lt_iff]; omega

theorem lt_of_lt_of_le {p q r : Position} (hpq : p < q) (hqr : q ≤ r) : p < r := by
  rw [lt_iff] at *; rw [le_iff] at hqr; omega

theorem lt_of_le_of_lt {p q r : Position} (hpq : p ≤ q) (hqr : q < r) : p < r := by
  rw [lt_iff] at *; rw [le_iff] at hpq; omega

theorem le_of_lt {p q : Position} (h : p < q) : p ≤ q := Or.inl h

theorem le_antisymm {p q : Position} (hpq : p ≤ q) (hqp : q ≤ p) : p = q :=
  hpq.resolve_left fun hlt => lt_irrefl p (lt_of_lt_of_le hlt hqp)

theorem not_le {p q : Position} : ¬p ≤ q ↔ q < p := by
  rw [lt_iff, le_iff]; omega

/-! ## Reading moves forward -/

theorem lt_add_ofChar (p : Position) (c : Char) : p < p + ofChar c := by
  rw [lt_iff, add_def]
  by_cases hc : c = '\n'
  · simp [ofChar, hc]
  · by_cases hbmp : c.toNat < 0x10000 <;> simp [ofChar, hc, hbmp]

/-- A line feed starts a new row. -/
theorem row_add_newline (p : Position) : (p + ofChar '\n').row = p.row + 1 := rfl

theorem measure_singleton (c : Char) : measure [c] = ofChar c := origin_add _

theorem le_advance (p : Position) (cs : List Char) : p ≤ advance p cs := by
  induction cs generalizing p with
  | nil => exact le_refl p
  | cons c cs ih => exact le_trans (le_of_lt (lt_add_ofChar p c)) (ih (p + ofChar c))

theorem lt_advance (p : Position) {cs : List Char} (h : cs ≠ []) : p < advance p cs := by
  cases cs with
  | nil => exact absurd rfl h
  | cons c cs => exact lt_of_lt_of_le (lt_add_ofChar p c) (le_advance (p + ofChar c) cs)

theorem row_le_of_le {p q : Position} (h : p ≤ q) : p.row ≤ q.row := by
  rw [le_iff] at h; omega

/-- Text without a line feed stays on its row. -/
theorem row_advance_of_no_newline (p : Position) {cs : List Char} (h : '\n' ∉ cs) :
    (advance p cs).row = p.row := by
  induction cs generalizing p with
  | nil => rfl
  | cons c cs ih =>
    have hc : c ≠ '\n' := fun he => h (he ▸ List.mem_cons_self ..)
    rw [advance_cons, ih _ (fun hm => h (List.mem_cons_of_mem c hm))]
    simp [add_def, ofChar, hc]

/-- What stands between two offsets leads from the position of the first to that of the second. -/
theorem measure_take_add (cs : List Char) (i n : Nat) :
    measure (cs.take (i + n)) = advance (measure (cs.take i)) ((cs.drop i).take n) := by
  rw [List.take_add, measure_append, advance_eq_add]

/-- **Positions of prefixes increase strictly.** -/
theorem measure_take_lt {cs : List Char} {i j : Nat} (hij : i < j) (hj : j ≤ cs.length) :
    measure (cs.take i) < measure (cs.take j) := by
  obtain ⟨n, rfl⟩ := Nat.exists_eq_add_of_lt hij
  rw [show i + n + 1 = i + (n + 1) from rfl, measure_take_add]
  refine lt_advance _ fun hnil => ?_
  have hlen := congrArg List.length hnil
  simp only [List.length_take, List.length_drop, List.length_nil] at hlen
  omega

/-- The order of positions is the order of offsets. -/
theorem measure_take_le_iff {cs : List Char} {i j : Nat} (hi : i ≤ cs.length)
    (hj : j ≤ cs.length) : measure (cs.take i) ≤ measure (cs.take j) ↔ i ≤ j := by
  constructor
  · intro h
    exact Nat.le_of_not_lt fun hlt => lt_irrefl _ (lt_of_lt_of_le (measure_take_lt hlt hi) h)
  · intro h
    rcases Nat.lt_or_eq_of_le h with hlt | rfl
    · exact le_of_lt (measure_take_lt hlt hj)
    · exact le_refl _

end Position

namespace Text

open Position

/-! ## Exact offsets -/

/-- A target that is not `here` is reached from behind the next character, or not at all. -/
theorem exists_advance_cons_iff {target here : Position} {i k : Nat} {c : Char} {cs : List Char}
    (h : here ≠ target) :
    (∃ n, n ≤ (c :: cs).length ∧ k = i + n ∧ advance here ((c :: cs).take n) = target) ↔
      ∃ n, n ≤ cs.length ∧ k = i + 1 + n ∧ advance (here + ofChar c) (cs.take n) = target := by
  constructor
  · rintro ⟨n, hle, hk, hn⟩
    cases n with
    | zero => exact absurd hn h
    | succ n => exact ⟨n, Nat.le_of_succ_le_succ hle, by omega, hn⟩
  · rintro ⟨n, hle, hk, hn⟩
    exact ⟨n + 1, Nat.succ_le_succ hle, by omega, hn⟩

/-- The search from `here` answers the number of characters that lead from `here` to the
target.  Its early exits only cut off text in which every position lies behind the target. -/
theorem offsetFrom?_eq_some_iff {target here : Position} {i k : Nat} {cs : List Char} :
    offsetFrom? target here i cs = some k ↔
      ∃ n, n ≤ cs.length ∧ k = i + n ∧ advance here (cs.take n) = target := by
  induction cs generalizing here i with
  | nil =>
    simp only [offsetFrom?, List.length_nil, Nat.le_zero, List.take_nil, advance_nil]
    by_cases ht : here = target
    · simp [ht, eq_comm]
    · simp [ht]
  | cons c cs ih =>
    by_cases ht : here = target
    · subst ht
      simp only [offsetFrom?, if_true, Option.some.injEq]
      constructor
      · rintro rfl
        exact ⟨0, Nat.zero_le _, rfl, rfl⟩
      · rintro ⟨n, hn, rfl, hadvance⟩
        -- Only the empty text leads from a position back to it.
        cases n with
        | zero => rfl
        | succ n => exact absurd (hadvance ▸ lt_advance here (List.cons_ne_nil _ _)) (lt_irrefl _)
    · rw [exists_advance_cons_iff ht, offsetFrom?, if_neg ht]
      -- Both exits contradict that the target is reached from behind `c`.
      have hle : (∃ n, n ≤ cs.length ∧ k = i + 1 + n ∧
          advance (here + ofChar c) (cs.take n) = target) → here + ofChar c ≤ target := by
        rintro ⟨n, -, -, hn⟩
        exact hn ▸ le_advance _ _
      split
      · rename_i hrow
        obtain ⟨rfl, hrow⟩ := hrow
        refine ⟨fun h => (nomatch h), fun h => ?_⟩
        have hnext := row_le_of_le (hle h)
        rw [row_add_newline] at hnext
        omega
      · split
        · rename_i hpast
          exact ⟨fun h => (nomatch h), fun h => absurd (hle h) (not_le.mpr hpast)⟩
        · exact ih

/-- **An offset is found exactly where its prefix measures the position.** -/
theorem offset?_eq_some_iff {cs : List Char} {p : Position} {i : Nat} :
    offset? cs p = some i ↔ i ≤ cs.length ∧ measure (cs.take i) = p := by
  rw [offset?, offsetFrom?_eq_some_iff]
  constructor
  · rintro ⟨n, hn, rfl, hp⟩
    rw [Nat.zero_add]
    exact ⟨hn, hp⟩
  · rintro ⟨hi, hp⟩
    exact ⟨i, hi, (Nat.zero_add i).symm, hp⟩

theorem offset?_measure {cs : List Char} {i : Nat} (hi : i ≤ cs.length) :
    offset? cs (measure (cs.take i)) = some i :=
  offset?_eq_some_iff.mpr ⟨hi, rfl⟩

/-! ## Clamped offsets -/

theorem clampedFrom_le (target here : Position) (i : Nat) (cs : List Char) :
    clampedFrom target here i cs ≤ i + cs.length := by
  induction cs generalizing here i with
  | nil => exact Nat.le_refl i
  | cons c cs ih =>
    rw [clampedFrom]
    split
    · exact Nat.le_add_right ..
    · have := ih (here + ofChar c) (i + 1)
      rw [List.length_cons]
      omega

theorem clampedOffset_le (cs : List Char) (p : Position) : clampedOffset cs p ≤ cs.length := by
  have := clampedFrom_le p origin 0 cs
  rwa [Nat.zero_add] at this

/-- The clamping search does not stop before a target that the text has. -/
theorem clampedFrom_advance (here : Position) (i : Nat) {cs : List Char} {n : Nat}
    (hn : n ≤ cs.length) : clampedFrom (advance here (cs.take n)) here i cs = i + n := by
  induction cs generalizing here i n with
  | nil =>
    obtain rfl : n = 0 := Nat.le_zero.mp hn
    rfl
  | cons c cs ih =>
    rw [clampedFrom]
    cases n with
    | zero => exact if_pos (Or.inl (le_refl here))
    | succ n =>
      have hle : here + ofChar c ≤ advance here ((c :: cs).take (n + 1)) :=
        le_advance (here + ofChar c) (cs.take n)
      rw [if_neg]
      · rw [List.take_succ_cons, advance_cons, ih _ _ (Nat.le_of_succ_le_succ hn)]
        omega
      · rintro (hstop | ⟨rfl, hrow⟩)
        · exact lt_irrefl _ (lt_of_lt_of_le (lt_add_ofChar here c) (le_trans hle hstop))
        · have := row_le_of_le hle
          rw [row_add_newline] at this
          omega

/-- **Clamping leaves the positions of the text alone.** -/
theorem clampedOffset_measure {cs : List Char} {i : Nat} (hi : i ≤ cs.length) :
    clampedOffset cs (measure (cs.take i)) = i := by
  have := clampedFrom_advance origin 0 hi
  rwa [Nat.zero_add] at this

/-- Replacing the span between two offsets cuts the text at these offsets. -/
theorem replace_measure {cs : List Char} {i j : Nat} (hij : i ≤ j) (hj : j ≤ cs.length)
    (new : List Char) :
    replace cs ⟨measure (cs.take i), measure (cs.take j)⟩ new = cs.take i ++ new ++ cs.drop j := by
  rw [replace, clampedOffset_measure (Nat.le_trans hij hj), clampedOffset_measure hj,
    Nat.max_eq_left hij]

/-! ## Bytes -/

theorem byteSize_append (a b : List Char) : byteSize (a ++ b) = byteSize a + byteSize b := by
  induction a with
  | nil => exact (Nat.zero_add _).symm
  | cons c a ih => rw [List.cons_append, byteSize, byteSize, ih, Nat.add_assoc]

theorem byteSize_pos {cs : List Char} (h : cs ≠ []) : 0 < byteSize cs := by
  cases cs with
  | nil => exact absurd rfl h
  | cons c cs => exact Nat.add_pos_left (Char.utf8Size_pos c) _

/-- Characters further on start at later bytes. -/
theorem byteOffset_lt {cs : List Char} {i j : Nat} (hij : i < j) (hj : j ≤ cs.length) :
    byteOffset cs i < byteOffset cs j := by
  obtain ⟨n, rfl⟩ := Nat.exists_eq_add_of_lt hij
  have hne : (cs.drop i).take (n + 1) ≠ [] := fun hnil => by
    have hlen := congrArg List.length hnil
    simp only [List.length_take, List.length_drop, List.length_nil] at hlen
    omega
  have := byteSize_pos hne
  rw [byteOffset, byteOffset, show i + n + 1 = i + (n + 1) from rfl, List.take_add,
    byteSize_append]
  omega

theorem byteOffset_le {cs : List Char} {i j : Nat} (hij : i ≤ j) (hj : j ≤ cs.length) :
    byteOffset cs i ≤ byteOffset cs j := by
  rcases Nat.lt_or_eq_of_le hij with hlt | rfl
  · exact Nat.le_of_lt (byteOffset_lt hlt hj)
  · exact Nat.le_refl _

theorem byteIndex?_measure {cs : List Char} {i : Nat} (hi : i ≤ cs.length) :
    byteIndex? cs (measure (cs.take i)) = some (byteOffset cs i) := by
  rw [byteIndex?, offset?_measure hi, Option.map_some]

/-- A part that the text has is found at its own offset. -/
theorem byteIndex?_append (a b : List Char) :
    byteIndex? (a ++ b) (measure a) = some (byteSize a) := by
  have hle : a.length ≤ (a ++ b).length := by rw [List.length_append]; omega
  have h := byteIndex?_measure hle
  rwa [byteOffset, List.take_left] at h

end Text

end SymbolRename
