import Mathlib.Data.List.Chain
import SymbolRename.Proofs.FirstOccurrences
import SymbolRename.Proofs.SettledEdits

/-! # The form of settled edits

Settled edits are sorted by start, none is repeated, and no edit overlaps the next one
(`Settled`); and settling leaves a list of that form alone (`Settled.settle_eq`).

The sweep compares an edit with the last one kept, and with no other.  That is enough as
long as the last one kept reaches furthest.  An insertion that arrives behind an edit
with the same start breaks this: it overlaps nothing, but it hides the edit before it from
the sweep.  Then an edit may overlap the next but one, and no overlap is hidden further
away than that (`Settled.pairwise_iff`).
-/
namespace SymbolRename

namespace Span

/-! ## Neighbours -/

theorem eq_point {s : Span} (hs : s.start ≤ s.stop) (h : s.stop ≤ s.start) :
    s = point s.start := by
  show Span.mk s.start s.stop = Span.mk s.start s.start
  rw [Position.le_antisymm h hs]

theorem isEmpty_iff {s : Span} : s.isEmpty = true ↔ s = point s.start := by
  rw [isEmpty, decide_eq_true_eq]
  constructor
  · intro h
    exact eq_point (Or.inr h) (Or.inr h.symm)
  · intro h
    exact (congrArg stop h).symm

theorem ne_of_overlaps_eq_false {s t : Span} (h : s.overlaps t = false) : s ≠ t := by
  rintro rfl
  exact absurd (overlaps_iff.mpr (Or.inl rfl)) (h ▸ Bool.false_ne_true)

/-- A span that starts no earlier than one that it does not overlap lies behind it, or is the
point at its start. -/
theorem behind_or_point {s t : Span} (ht : t.start ≤ t.stop) (hst : s.start ≤ t.start)
    (h : s.overlaps t = false) : s.stop ≤ t.start ∨ t = point s.start := by
  rw [← Bool.not_eq_true, overlaps_iff, not_or, not_and, Position.not_lt] at h
  by_cases hlt : s.start < t.stop
  · exact Or.inl (h.2 hlt)
  · have hstop : t.stop ≤ s.start := Position.not_lt.mp hlt
    have hstart : t.start = s.start := Position.le_antisymm (Position.le_trans ht hstop) hst
    exact Or.inr (hstart ▸ eq_point ht (Position.le_trans hstop hst))

/-- Of three spans in a row, the first two of which do not overlap, the first and the last overlap
only if a point follows a span that starts there and is not a point. -/
theorem point_follows_of_overlaps {s t u : Span} (hs : s.start ≤ s.stop) (ht : t.start ≤ t.stop)
    (hst : s.start ≤ t.start) (htu : t.start ≤ u.start) (hnext : s.overlaps t = false)
    (h : s.overlaps u = true) :
    (s.start = t.start ∧ s.isEmpty = false ∧ t.isEmpty = true) ∨
      (t.start = u.start ∧ t.isEmpty = false ∧ u.isEmpty = true) := by
  have hne := ne_of_overlaps_eq_false hnext
  rcases behind_or_point ht hst hnext with hbehind | rfl
  · rcases overlaps_iff.mp h with rfl | ⟨-, hlt⟩
    · -- The first and the last are the same point, so the one between starts there too.
      have hstart : t.start = s.start := Position.le_antisymm htu hst
      have hpoint : s = point s.start := eq_point hs (hstart ▸ hbehind)
      refine Or.inr ⟨hstart, ?_, isEmpty_iff.mpr hpoint⟩
      rw [← Bool.not_eq_true, isEmpty_iff, hstart, ← hpoint]
      exact hne.symm
    · have hbefore : s.stop ≤ u.start := Position.le_trans hbehind htu
      exact absurd (Position.lt_of_lt_of_le hlt hbefore) (Position.lt_irrefl _)
  · refine Or.inl ⟨rfl, ?_, isEmpty_iff.mpr rfl⟩
    rw [← Bool.not_eq_true, isEmpty_iff]
    exact hne

/-- In a row of spans, neighbours of which do not overlap, a span that overlaps a later one
overlaps the next but one. -/
theorem overlaps_next_but_one {s t u v : Span} (hs : s.start ≤ s.stop) (ht : t.start ≤ t.stop)
    (hu : u.start ≤ u.stop) (hst : s.start ≤ t.start) (htu : t.start ≤ u.start)
    (huv : u.start ≤ v.start) (hnext : s.overlaps t = false) (hnext' : t.overlaps u = false)
    (h : s.overlaps v = true) : s.overlaps u = true := by
  have hne := ne_of_overlaps_eq_false hnext
  have hne' := ne_of_overlaps_eq_false hnext'
  rcases behind_or_point ht hst hnext with hbehind | rfl
  · rcases overlaps_iff.mp h with rfl | ⟨-, hlt⟩
    · -- All start together, and the first is a point.  Between two points stands no third one.
      have hstart : t.start = s.start := Position.le_antisymm (Position.le_trans htu huv) hst
      have hpoint : s = point s.start := eq_point hs (hstart ▸ hbehind)
      rcases behind_or_point hu htu hnext' with hbehind' | rfl
      · have hstop : t.stop ≤ t.start := hstart ▸ Position.le_trans hbehind' huv
        have hpoint' : t = point s.start := hstart ▸ eq_point ht hstop
        exact absurd (hpoint.trans hpoint'.symm) hne
      · exact overlaps_iff.mpr (Or.inl (hstart ▸ hpoint))
    · have hbefore : s.stop ≤ v.start := Position.le_trans hbehind (Position.le_trans htu huv)
      exact absurd (Position.lt_of_lt_of_le hlt hbefore) (Position.lt_irrefl _)
  · -- The second is the point at the start of the first, and the third is not that point.
    have hlt : s.start < s.stop := hs.resolve_right fun heq => hne (eq_point hs (Or.inr heq.symm))
    refine overlaps_iff.mpr (Or.inr ⟨?_, ?_⟩)
    · rw [← Position.not_le]
      intro hstop
      have hstart : u.start = s.start := Position.le_antisymm (Position.le_trans hu hstop) htu
      have hpoint : u = point s.start := hstart ▸ eq_point hu (Position.le_trans hstop htu)
      exact hne' hpoint.symm
    · rcases overlaps_iff.mp h with rfl | ⟨-, hv⟩
      · exact Position.lt_of_le_of_lt huv hlt
      · exact Position.lt_of_le_of_lt huv hv

end Span

namespace DocumentEdits

/-! ## Settled edits -/

/-- What settling makes of a list of edits.  Only neighbours are known not to overlap. -/
structure Settled (edits : List TextEdit) : Prop where
  nodup : edits.Nodup
  sorted : edits.Pairwise fun a b => a.span.start ≤ b.span.start
  next_apart : edits.IsChain fun a b => a.span.overlaps b.span = false

theorem arrange_eq_self {edits : List TextEdit} (hnodup : edits.Nodup)
    (hsorted : edits.Pairwise fun a b => a.span.start ≤ b.span.start) : arrange edits = edits := by
  rw [arrange, eraseDups_eq_self hnodup]
  exact List.mergeSort_of_pairwise (hsorted.imp decide_eq_true)

theorem arrange_perm (edits : List TextEdit) : (arrange edits).Perm edits.eraseDups :=
  List.mergeSort_perm _ _

theorem arrange_nodup (edits : List TextEdit) : (arrange edits).Nodup :=
  (arrange_perm edits).symm.nodup (nodup_eraseDups edits)

/-- Whatever the sweep keeps does not overlap what it kept just before. -/
theorem dropOverlaps_isChain (last : Option TextEdit) (edits : List TextEdit) :
    (last.toList ++ dropOverlaps last edits).IsChain fun a b => a.span.overlaps b.span = false := by
  induction edits generalizing last with
  | nil => cases last <;> simp [dropOverlaps]
  | cons edit edits ih =>
    rw [dropOverlaps]
    split
    · exact ih last
    · rename_i hover
      have hkept := ih (some edit)
      cases last with
      | none => exact hkept
      | some l => exact List.isChain_cons_cons.mpr ⟨Bool.not_eq_true _ ▸ hover, hkept⟩

theorem dropOverlaps_eq_self (last : Option TextEdit) {edits : List TextEdit}
    (h : (last.toList ++ edits).IsChain fun a b => a.span.overlaps b.span = false) :
    dropOverlaps last edits = edits := by
  induction edits generalizing last with
  | nil => rfl
  | cons edit edits ih =>
    have hedits := ih (some edit)
    cases last with
    | none => rw [dropOverlaps, Option.any_none, if_neg Bool.false_ne_true, hedits h]
    | some l =>
      obtain ⟨hl, h⟩ := List.isChain_cons_cons.mp h
      rw [dropOverlaps, Option.any_some, hl, if_neg Bool.false_ne_true, hedits h]

theorem settled_settle (edits : List TextEdit) : Settled (settle edits) where
  nodup := (arrange_nodup edits).sublist (dropOverlaps_sublist none _)
  sorted := (arrange_pairwise edits).sublist (dropOverlaps_sublist none _)
  next_apart := dropOverlaps_isChain none _

/-- **Settled edits stay as they are.** -/
theorem Settled.settle_eq {edits : List TextEdit} (h : Settled edits) : settle edits = edits := by
  rw [settle, arrange_eq_self h.nodup h.sorted]
  exact dropOverlaps_eq_self none h.next_apart

/-! ## Overlaps between settled edits -/

/-- Where edits are sorted and neighbours do not overlap, no overlap reaches further than to the
next edit but one. -/
theorem pairwise_of_next_but_one {edits : List TextEdit}
    (hspans : ∀ e ∈ edits, e.span.start ≤ e.span.stop)
    (hsorted : edits.Pairwise fun a b => a.span.start ≤ b.span.start)
    (hnext : edits.IsChain fun a b => a.span.overlaps b.span = false)
    (hnear : ∀ a b c, [a, b, c] <:+: edits → a.span.overlaps c.span = false) :
    edits.Pairwise fun a b => a.span.overlaps b.span = false := by
  induction edits with
  | nil => exact List.Pairwise.nil
  | cons a edits ih =>
    obtain ⟨ha, hsorted⟩ := List.pairwise_cons.mp hsorted
    refine List.pairwise_cons.mpr ⟨?_, ih (fun e he => hspans e (List.mem_cons_of_mem a he))
      hsorted hnext.tail fun x y z h => hnear x y z (List.infix_cons h)⟩
    intro d hd
    match edits with
    | [b] =>
      obtain rfl := List.mem_singleton.mp hd
      exact (List.isChain_cons_cons.mp hnext).1
    | b :: c :: edits =>
      obtain ⟨hab, hnext⟩ := List.isChain_cons_cons.mp hnext
      obtain ⟨hbc, -⟩ := List.isChain_cons_cons.mp hnext
      rcases List.mem_cons.mp hd with rfl | hd
      · exact hab
      · have hac : a.span.overlaps c.span = false := hnear a b c ⟨[], edits, rfl⟩
        obtain ⟨hb, hsorted⟩ := List.pairwise_cons.mp hsorted
        have hcd : c.span.start ≤ d.span.start := by
          rcases List.mem_cons.mp hd with rfl | hd
          · exact Position.le_refl _
          · exact (List.pairwise_cons.mp hsorted).1 d hd
        rw [← Bool.not_eq_true]
        intro had
        have hover := Span.overlaps_next_but_one (hspans a (by simp)) (hspans b (by simp))
          (hspans c (by simp)) (ha b (by simp)) (hb c (by simp)) hcd hab hbc had
        exact absurd hover (hac ▸ Bool.false_ne_true)

theorem Settled.pairwise_iff {edits : List TextEdit} (h : Settled edits)
    (hspans : ∀ e ∈ edits, e.span.start ≤ e.span.stop) :
    (edits.Pairwise fun a b => a.span.overlaps b.span = false) ↔
      ∀ a b c, [a, b, c] <:+: edits → a.span.overlaps c.span = false := by
  constructor
  · intro hpairwise a b c hrow
    have hac : [a, c].Sublist [a, b, c] := ((List.Sublist.refl [c]).cons b).cons_cons a
    exact hpairwise.forall_sublist (hac.trans hrow.sublist)
  · exact pairwise_of_next_but_one hspans h.sorted h.next_apart

/-! ## The order of arrival -/

/-- No insertion arrives behind an edit that starts at the same place and covers something. -/
def InsertionsFirst (edits : List TextEdit) : Prop :=
  edits.Pairwise fun a b =>
    a.span.start = b.span.start → b.span.isEmpty = true → a.span.isEmpty = true

instance (edits : List TextEdit) : Decidable (InsertionsFirst edits) :=
  inferInstanceAs (Decidable (edits.Pairwise _))

/-- Edits with the same start are arranged in the order in which they arrive. -/
theorem arrange_filter_start (edits : List TextEdit) (p : Position) :
    (arrange edits).filter (·.span.start = p) = edits.eraseDups.filter (·.span.start = p) := by
  have hties : (edits.eraseDups.filter (·.span.start = p)).Pairwise
      fun a b => decide (a.span.start ≤ b.span.start) = true := by
    refine List.pairwise_of_forall_mem_list fun a ha b hb => decide_eq_true (Or.inr ?_)
    rw [of_decide_eq_true (List.mem_filter.mp ha).2, of_decide_eq_true (List.mem_filter.mp hb).2]
  have hkept : (edits.eraseDups.filter (·.span.start = p)).Sublist (arrange edits) :=
    List.sublist_mergeSort starts_trans starts_total hties List.filter_sublist
  -- A sublist of the same length is the whole list.
  have hfilter := hkept.filter (·.span.start = p)
  simp only [List.filter_filter, Bool.and_self] at hfilter
  exact (hfilter.eq_of_length ((arrange_perm edits).filter _).length_eq.symm).symm

theorem sublist_of_arrange {edits : List TextEdit} {a b : TextEdit}
    (h : [a, b].Sublist (arrange edits)) (hstart : a.span.start = b.span.start) :
    [a, b].Sublist edits := by
  have hpair : [a, b].filter (·.span.start = b.span.start) = [a, b] := by simp [hstart]
  have hfilter := h.filter (·.span.start = b.span.start)
  rw [arrange_filter_start, hpair] at hfilter
  exact hfilter.trans (List.filter_sublist.trans (eraseDups_sublist edits))

/-- **If insertions arrive first, settled edits do not overlap.** -/
theorem settle_pairwise_of_insertionsFirst {edits : List TextEdit}
    (hspans : ∀ e ∈ edits, e.span.start ≤ e.span.stop) (hfirst : InsertionsFirst edits) :
    (settle edits).Pairwise fun a b => a.span.overlaps b.span = false := by
  have hsettled := settled_settle edits
  -- Two settled edits with the same start have arrived in this order.
  have harrival {x y : TextEdit} (h : [x, y].Sublist (settle edits))
      (hstart : x.span.start = y.span.start) (hy : y.span.isEmpty = true) :
      x.span.isEmpty = true :=
    hfirst.forall_sublist (sublist_of_arrange (h.trans (dropOverlaps_sublist none _)) hstart)
      hstart hy
  have hspans' : ∀ e ∈ settle edits, e.span.start ≤ e.span.stop :=
    fun e he => hspans e (mem_of_mem_settle he)
  refine (hsettled.pairwise_iff hspans').mpr fun a b c hrow => ?_
  have hab : [a, b].Sublist (settle edits) := .trans (by simp) hrow.sublist
  have hbc : [b, c].Sublist (settle edits) := .trans (by simp) hrow.sublist
  have hchain := List.IsChain.infix hsettled.next_apart hrow
  have hnext : a.span.overlaps b.span = false := (List.isChain_cons_cons.mp hchain).1
  rw [← Bool.not_eq_true]
  intro hover
  rcases Span.point_follows_of_overlaps (hspans' a (hab.subset (by simp)))
    (hspans' b (hab.subset (by simp))) (hsettled.sorted.forall_sublist hab)
    (hsettled.sorted.forall_sublist hbc) hnext hover with ⟨hstart, ha, hb⟩ | ⟨hstart, hb, hc⟩
  · exact absurd (harrival hab hstart hb) (ha ▸ Bool.false_ne_true)
  · exact absurd (harrival hbc hstart hc) (hb ▸ Bool.false_ne_true)

end DocumentEdits

namespace WorkspaceEdit

open DocumentEdits

/-- **Where the edits of a bundle overlap.**  The edits of a bundle are sorted by start.  Two of
them overlap exactly if an edit overlaps the next but one, and none do if no insertion into the
document arrives behind an edit that starts at the same place and covers something. -/
theorem bundle_overlaps_iff (edits : List (Uri × TextEdit)) (renames : List FileRename)
    (hspans : ∀ x ∈ edits, x.2.span.start ≤ x.2.span.stop) (d : DocumentEdits)
    (hd : d ∈ (ofEdits edits renames).documents) :
    (d.edits.Pairwise fun a b => a.span.start ≤ b.span.start) ∧
      ((d.edits.Pairwise fun a b => a.span.overlaps b.span = false) ↔
        ∀ a b c, [a, b, c] <:+: d.edits → a.span.overlaps c.span = false) ∧
      (InsertionsFirst (editsOf edits d.uri) →
        d.edits.Pairwise fun a b => a.span.overlaps b.span = false) := by
  obtain ⟨-, hedits⟩ := mem_ofEdits_documents.mp hd
  have hof : ∀ e ∈ editsOf edits d.uri, e.span.start ≤ e.span.stop :=
    fun e he => hspans (d.uri, e) (mem_editsOf.mp he)
  have hsettled := settled_settle (editsOf edits d.uri)
  rw [hedits]
  exact ⟨hsettled.sorted, hsettled.pairwise_iff fun e he => hof e (mem_of_mem_settle he),
    settle_pairwise_of_insertionsFirst hof⟩

/-- A document that is on no disk. -/
def scratch (name : String) : Uri := ⟨"untitled", none, false, .rootless name, none, none⟩

/-- Puts `newText` between two columns of the first line of a document. -/
def lineEdit (name : String) (start stop : Nat) (newText : String) : Uri × TextEdit :=
  (scratch name, ⟨⟨⟨0, start⟩, ⟨0, stop⟩⟩, newText⟩)

/-- A word, an insertion in front of it, and a part of the word. -/
def wordFirst : List (Uri × TextEdit) :=
  [lineEdit "a" 5 8 "x", lineEdit "a" 5 5 "y", lineEdit "a" 6 7 "z"]

/-- The insertion, the word behind it, and a part of the word. -/
def insertionFirst : List (Uri × TextEdit) :=
  [lineEdit "a" 5 5 "y", lineEdit "a" 5 8 "x", lineEdit "a" 6 7 "z"]

/-- The insertion hides the word from the sweep, which keeps a part of the word as well. -/
theorem insertion_hides_overlap :
    (∀ x ∈ wordFirst, x.2.span.start ≤ x.2.span.stop) ∧
      ∃ d ∈ (ofEdits wordFirst []).documents,
        ¬d.edits.Pairwise fun a b => a.span.overlaps b.span = false := by
  have hsettled : Settled (editsOf wordFirst (scratch "a")) := ⟨by decide, by decide, by decide⟩
  refine ⟨by decide, ⟨scratch "a", editsOf wordFirst (scratch "a")⟩, ?_, by decide⟩
  exact mem_ofEdits_documents.mpr ⟨⟨_, List.mem_cons_self⟩, hsettled.settle_eq.symm⟩

/-- If the insertion arrives first, the part of the word is dropped. -/
theorem insertionFirst_bundle_apart :
    (∀ x ∈ insertionFirst, x.2.span.start ≤ x.2.span.stop) ∧
      ∃ d ∈ (ofEdits insertionFirst []).documents,
        (d.edits.Pairwise fun a b => a.span.start ≤ b.span.start) ∧
          d.edits.Pairwise fun a b => a.span.overlaps b.span = false := by
  have hspans : ∀ x ∈ insertionFirst, x.2.span.start ≤ x.2.span.stop := by decide
  have hd : ⟨scratch "a", settle (editsOf insertionFirst (scratch "a"))⟩ ∈
      (ofEdits insertionFirst []).documents :=
    mem_ofEdits_documents.mpr ⟨⟨_, List.mem_cons_self⟩, rfl⟩
  obtain ⟨hsorted, -, hapart⟩ := bundle_overlaps_iff insertionFirst [] hspans _ hd
  exact ⟨hspans, _, hd, hsorted, hapart (by decide)⟩

end WorkspaceEdit

end SymbolRename
