import Mathlib.Data.List.Induction
import Mathlib.Data.List.TakeDrop
import Mathlib.Data.List.TakeWhile

/-! # First occurrences

Erasing the repetitions of a list leaves each value once (`nodup_eraseDups`), where it
first occurs (`pairwise_eraseDups_filterMap`).  So it changes nothing in a list without
repetitions (`eraseDups_eq_self`), and it leaves the same values, in whatever order, in
two lists that are permutations of each other (`perm_eraseDups`).  A list is cut where a
separator first occurs (`span_ne_append`), or wherever it occurs.
-/
namespace SymbolRename

/-! ## Repetitions -/

theorem eraseDups_concat {β : Type} [DecidableEq β] (l : List β) (b : β) :
    (l ++ [b]).eraseDups = if b ∈ l then l.eraseDups else l.eraseDups ++ [b] := by
  rw [List.eraseDups_append, List.removeAll]
  split
  · rename_i hb
    simp [hb]
  · rename_i hb
    simp [hb, List.eraseDups_cons]

/-- Erasing repetitions keeps the values in the order in which they first occur: of two values
that are left, the first has a source in front of all sources of the second. -/
theorem pairwise_eraseDups_filterMap {α β : Type} [DecidableEq β] (g : α → Option β)
    (l : List α) :
    (l.filterMap g).eraseDups.Pairwise fun a b =>
      ∃ before x after, l = before ++ x :: after ∧ g x = some a ∧
        ∀ y ∈ before ++ [x], g y ≠ some b := by
  induction l using List.reverseRecOn with
  | nil => exact List.Pairwise.nil
  | append_singleton l z ih =>
    -- What stands in front in `l` stands in front in `l ++ [z]`.
    have hkeep : (l.filterMap g).eraseDups.Pairwise fun a b =>
        ∃ before x after, l ++ [z] = before ++ x :: after ∧ g x = some a ∧
          ∀ y ∈ before ++ [x], g y ≠ some b := by
      refine ih.imp ?_
      rintro a b ⟨before, x, after, rfl, hx, hb⟩
      exact ⟨before, x, after ++ [z], by rw [List.append_assoc, List.cons_append], hx, hb⟩
    cases hz : g z with
    | none => rwa [List.filterMap_append, List.filterMap_cons_none hz, List.filterMap_nil,
        List.append_nil]
    | some b =>
      rw [List.filterMap_append, List.filterMap_cons_some hz, List.filterMap_nil, eraseDups_concat]
      split
      · exact hkeep
      · rename_i hb
        -- `b` is new at the end, so every value that is left has a source in front of it.
        refine List.pairwise_append.mpr ⟨hkeep, List.pairwise_singleton _ _, ?_⟩
        intro a ha b' hb'
        obtain rfl := List.mem_singleton.mp hb'
        obtain ⟨x, hx, hxa⟩ := List.mem_filterMap.mp (List.mem_eraseDups.mp ha)
        obtain ⟨before, after, rfl⟩ := List.append_of_mem hx
        refine ⟨before, x, after ++ [z], by rw [List.append_assoc, List.cons_append], hxa, ?_⟩
        intro y hy hyb
        refine hb (List.mem_filterMap.mpr ⟨y, ?_, hyb⟩)
        rcases List.mem_append.mp hy with hy | hy
        · exact List.mem_append_left _ hy
        · obtain rfl := List.mem_singleton.mp hy
          exact List.mem_append_right _ List.mem_cons_self

theorem nodup_eraseDups {β : Type} [DecidableEq β] (l : List β) : l.eraseDups.Nodup := by
  have h := pairwise_eraseDups_filterMap some l
  rw [List.filterMap_some] at h
  refine h.imp ?_
  rintro a b ⟨before, x, after, -, hx, hb⟩ rfl
  exact hb x (List.mem_append_right _ List.mem_cons_self) hx

/-- The values that are left do not depend on whether repetitions are erased first. -/
theorem filter_eraseDups {β : Type} [DecidableEq β] (p : β → Bool) (l : List β) :
    l.eraseDups.filter p = (l.filter p).eraseDups := by
  induction l using List.reverseRecOn with
  | nil => rfl
  | append_singleton l b ih =>
    rw [eraseDups_concat, List.filter_append]
    by_cases hp : p b = true
    · have hmem : b ∈ l.filter p ↔ b ∈ l := by
        rw [List.mem_filter, and_iff_left hp]
      rw [List.filter_cons_of_pos hp, List.filter_nil, eraseDups_concat]
      by_cases hb : b ∈ l
      · rw [if_pos hb, if_pos (hmem.mpr hb), ih]
      · rw [if_neg hb, if_neg (mt hmem.mp hb), List.filter_append, ih,
          List.filter_cons_of_pos hp, List.filter_nil]
    · rw [List.filter_cons_of_neg hp, List.filter_nil, List.append_nil]
      split
      · exact ih
      · rw [List.filter_append, List.filter_cons_of_neg hp, List.filter_nil, List.append_nil, ih]

theorem eraseDups_sublist {β : Type} [DecidableEq β] (l : List β) : l.eraseDups.Sublist l := by
  induction l using List.reverseRecOn with
  | nil => exact List.Sublist.refl _
  | append_singleton l b ih =>
    rw [eraseDups_concat]
    split
    · exact ih.trans (List.sublist_append_left l [b])
    · exact ih.append (List.Sublist.refl [b])

theorem eraseDups_eq_self {β : Type} [DecidableEq β] {l : List β} (h : l.Nodup) :
    l.eraseDups = l := by
  induction l using List.reverseRecOn with
  | nil => rfl
  | append_singleton l b ih =>
    obtain ⟨hl, -, hdisjoint⟩ := List.nodup_append.mp h
    have hb : b ∉ l := fun hmem => hdisjoint b hmem b List.mem_cons_self rfl
    rw [eraseDups_concat, if_neg hb, ih hl]

theorem perm_eraseDups {β : Type} [DecidableEq β] {l l' : List β} (h : l.Perm l') :
    l.eraseDups.Perm l'.eraseDups := by
  refine (List.perm_ext_iff_of_nodup (nodup_eraseDups l) (nodup_eraseDups l')).mpr fun b => ?_
  rw [List.mem_eraseDups, List.mem_eraseDups, h.mem_iff]

/-- A value that is repeated in front of others is left once. -/
theorem eraseDups_replicate_append {β : Type} [DecidableEq β] {l : List β} {b : β} {n : Nat}
    (hn : n ≠ 0) (hb : b ∉ l) : (List.replicate n b ++ l).eraseDups = b :: l.eraseDups := by
  obtain ⟨n, rfl⟩ := Nat.exists_eq_succ_of_ne_zero hn
  have hl : (l.filter fun c => !c == b) = l := by
    refine List.filter_eq_self.mpr fun c hc => ?_
    have hne : c ≠ b := fun heq => hb (heq ▸ hc)
    simpa using hne
  rw [List.replicate_succ, List.cons_append, List.eraseDups_cons, List.filter_append, hl]
  simp

/-! ## Separators -/

theorem forall_ne_of_notMem {α : Type} [DecidableEq α] {sep : α} {l : List α} (h : sep ∉ l) :
    ∀ a ∈ l, decide (a ≠ sep) = true := by
  intro a ha
  refine decide_eq_true ?_
  rintro rfl
  exact h ha

/-- The first separator ends the first part. -/
theorem span_ne_append {α : Type} [DecidableEq α] {sep : α} {l : List α} (h : sep ∉ l)
    (rest : List α) : (l ++ sep :: rest).span (· ≠ sep) = (l, sep :: rest) := by
  rw [List.span_eq_takeWhile_dropWhile, List.takeWhile_append_of_pos (forall_ne_of_notMem h),
    List.dropWhile_append_of_pos (forall_ne_of_notMem h)]
  simp

/-- Without a separator there is nothing to cut. -/
theorem span_ne_of_notMem {α : Type} [DecidableEq α] {sep : α} {l : List α} (h : sep ∉ l) :
    l.span (· ≠ sep) = (l, []) := by
  have hall := forall_ne_of_notMem h
  rw [List.span_eq_takeWhile_dropWhile, List.takeWhile_eq_self_iff.mpr hall,
    List.dropWhile_eq_nil_iff.mpr hall]

/-- A part between separators has only members of the list, and none of them is the separator. -/
theorem mem_of_mem_splitOn {α : Type} [DecidableEq α] {sep a : α} {part l : List α}
    (hpart : part ∈ l.splitOn sep) (ha : a ∈ part) : a ∈ l ∧ a ≠ sep := by
  induction l generalizing part with
  | nil =>
    rw [List.splitOn_nil, List.mem_singleton] at hpart
    exact absurd (hpart ▸ ha) List.not_mem_nil
  | cons b l ih =>
    have hrest {part : List α} (hpart : part ∈ l.splitOn sep) (ha : a ∈ part) :
        a ∈ b :: l ∧ a ≠ sep :=
      ⟨List.mem_cons_of_mem b (ih hpart ha).1, (ih hpart ha).2⟩
    obtain ⟨first, parts, hcut⟩ := List.exists_cons_of_ne_nil (List.splitOn_ne_nil sep l)
    rw [List.splitOn_cons_eq_if_modifyHead, hcut] at hpart
    rw [hcut] at hrest
    split at hpart
    · rcases List.mem_cons.mp hpart with rfl | hpart
      · exact absurd ha List.not_mem_nil
      · exact hrest hpart ha
    · rename_i hb
      rcases List.mem_cons.mp hpart with rfl | hpart
      · rcases List.mem_cons.mp ha with rfl | ha
        · exact ⟨List.mem_cons_self, fun heq => hb (beq_iff_eq.mpr heq)⟩
        · exact hrest List.mem_cons_self ha
      · exact hrest (List.mem_cons_of_mem first hpart) ha

end SymbolRename
