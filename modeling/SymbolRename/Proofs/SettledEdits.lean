import SymbolRename.Proofs.Offsets
import SymbolRename.WorkspaceEdit

/-! # What collecting edits keeps

The edits of a document go through three stages: repetitions are erased, the rest is
sorted by start, and one sweep drops every edit that overlaps the last one kept.
Whatever goes in, an edit is kept or overlaps a kept one (`settle_covers`), and
nothing new comes out.  If no edit is empty, looking at the last kept edit is enough
to keep all of them apart (`settle_apart`): sorted by start, each kept edit ends
before all later ones start.
-/
namespace SymbolRename

namespace Span

theorem overlaps_iff {s t : Span} :
    s.overlaps t = true ↔ s = t ∨ (s.start < t.stop ∧ t.start < s.stop) := by
  rw [overlaps, decide_eq_true_eq]

/-- Of two spans that do not overlap, the one that does not start later ends before the other
starts, if the other covers something. -/
theorem stop_le_of_not_overlaps {s t : Span} (hle : s.start ≤ t.start) (ht : t.start < t.stop)
    (h : ¬s.overlaps t = true) : s.stop ≤ t.start := by
  rw [overlaps_iff, not_or, not_and, Position.not_lt] at h
  rcases Position.le_total s.stop t.start with hstop | hstop
  · exact hstop
  · refine h.2 ?_
    rw [Position.le_iff] at hle
    rw [Position.lt_iff] at ht ⊢
    omega

end Span

namespace DocumentEdits

/-! ## Sorting -/

@[simp] theorem mem_arrange {edits : List TextEdit} {e : TextEdit} :
    e ∈ arrange edits ↔ e ∈ edits := by
  rw [arrange, List.mem_mergeSort, List.mem_eraseDups]

theorem starts_trans (a b c : TextEdit) (hab : decide (a.span.start ≤ b.span.start) = true)
    (hbc : decide (b.span.start ≤ c.span.start) = true) :
    decide (a.span.start ≤ c.span.start) = true :=
  decide_eq_true (Position.le_trans (of_decide_eq_true hab) (of_decide_eq_true hbc))

theorem starts_total (a b : TextEdit) :
    (decide (a.span.start ≤ b.span.start) || decide (b.span.start ≤ a.span.start)) = true := by
  rw [Bool.or_eq_true, decide_eq_true_eq, decide_eq_true_eq]
  exact Position.le_total _ _

theorem arrange_pairwise (edits : List TextEdit) :
    (arrange edits).Pairwise fun a b => a.span.start ≤ b.span.start :=
  (List.pairwise_mergeSort starts_trans starts_total edits.eraseDups).imp of_decide_eq_true

/-! ## The sweep -/

theorem dropOverlaps_sublist (last : Option TextEdit) (edits : List TextEdit) :
    (dropOverlaps last edits).Sublist edits := by
  induction edits generalizing last with
  | nil => exact List.Sublist.refl _
  | cons edit edits ih =>
    rw [dropOverlaps]
    split
    · exact (ih last).cons edit
    · exact (ih (some edit)).cons_cons edit

/-- What the sweep drops overlaps what it keeps, or the edit that it started with. -/
theorem dropOverlaps_covers (last : Option TextEdit) {edits : List TextEdit} {e : TextEdit}
    (he : e ∈ edits) :
    e ∈ dropOverlaps last edits ∨
      ∃ kept ∈ last.toList ++ dropOverlaps last edits, kept.span.overlaps e.span = true := by
  induction edits generalizing last with
  | nil => exact absurd he List.not_mem_nil
  | cons edit edits ih =>
    rw [dropOverlaps]
    split
    · rename_i hover
      rcases List.mem_cons.mp he with rfl | he
      · cases last with
        | none => cases hover
        | some l => exact Or.inr ⟨l, List.mem_cons_self, hover⟩
      · exact ih last he
    · rcases List.mem_cons.mp he with rfl | he
      · exact Or.inl List.mem_cons_self
      · rcases ih (some edit) he with hkept | ⟨kept, hkept, hover⟩
        · exact Or.inl (List.mem_cons_of_mem edit hkept)
        · exact Or.inr ⟨kept, List.mem_append_right _ hkept, hover⟩

/-- Sweeping over non-empty edits that are sorted by start keeps them apart, from each other
and from the edit that the sweep started with. -/
theorem dropOverlaps_apart (last : Option TextEdit) {edits : List TextEdit}
    (hsorted : edits.Pairwise fun a b => a.span.start ≤ b.span.start)
    (hcover : ∀ e ∈ edits, e.span.start < e.span.stop)
    (hlast : ∀ l ∈ last, ∀ e ∈ edits, l.span.start ≤ e.span.start) :
    (last.toList ++ dropOverlaps last edits).Pairwise
      fun a b => a.span.stop ≤ b.span.start := by
  induction edits generalizing last with
  | nil => cases last <;> simp [dropOverlaps]
  | cons edit edits ih =>
    obtain ⟨hedit, hsorted⟩ := List.pairwise_cons.mp hsorted
    have hrest : ∀ e ∈ edits, e.span.start < e.span.stop :=
      fun e he => hcover e (List.mem_cons_of_mem edit he)
    rw [dropOverlaps]
    split
    · exact ih last hsorted hrest fun l hl e he => hlast l hl e (List.mem_cons_of_mem edit he)
    · rename_i hover
      have hkept : (edit :: dropOverlaps (some edit) edits).Pairwise
          fun a b => a.span.stop ≤ b.span.start := by
        refine ih (some edit) hsorted hrest ?_
        rintro l ⟨⟩ e he
        exact hedit e he
      cases last with
      | none => exact hkept
      | some l =>
        have hself := hcover edit List.mem_cons_self
        have hl : l.span.stop ≤ edit.span.start :=
          Span.stop_le_of_not_overlaps (hlast l rfl edit List.mem_cons_self) hself hover
        refine List.pairwise_cons.mpr ⟨?_, hkept⟩
        -- `edit` separates `l` from all that is kept later, so `l` is compared with `edit` only.
        intro k hk
        rcases List.mem_cons.mp hk with rfl | hk
        · exact hl
        · exact Position.le_trans (Position.le_trans hl (Position.le_of_lt hself))
            ((List.pairwise_cons.mp hkept).1 k hk)

/-! ## Settled edits -/

theorem mem_of_mem_settle {edits : List TextEdit} {e : TextEdit} (h : e ∈ settle edits) :
    e ∈ edits :=
  mem_arrange.mp ((dropOverlaps_sublist none _).subset h)

/-- **Every edit is kept or overlaps a kept one.** -/
theorem settle_covers {edits : List TextEdit} {e : TextEdit} (h : e ∈ edits) :
    e ∈ settle edits ∨ ∃ kept ∈ settle edits, kept.span.overlaps e.span = true :=
  dropOverlaps_covers none (mem_arrange.mpr h)

theorem settle_ne_nil {edits : List TextEdit} (h : edits ≠ []) : settle edits ≠ [] := by
  obtain ⟨e, he⟩ := List.exists_mem_of_ne_nil edits h
  rcases settle_covers he with hkept | ⟨kept, hkept, -⟩
  · exact List.ne_nil_of_mem hkept
  · exact List.ne_nil_of_mem hkept

/-- **Settled edits follow each other**, if none of them is empty. -/
theorem settle_apart {edits : List TextEdit} (h : ∀ e ∈ edits, e.span.start < e.span.stop) :
    (settle edits).Pairwise fun a b => a.span.stop ≤ b.span.start :=
  dropOverlaps_apart none (arrange_pairwise edits)
    (fun e he => h e (mem_arrange.mp he)) fun _ hl => nomatch hl

end DocumentEdits

namespace WorkspaceEdit

/-! ## Edits by document -/

theorem mem_editsOf {edits : List (Uri × TextEdit)} {uri : Uri} {e : TextEdit} :
    e ∈ editsOf edits uri ↔ (uri, e) ∈ edits := by
  rw [editsOf, List.mem_filterMap]
  constructor
  · rintro ⟨⟨u, e'⟩, hmem, h⟩
    obtain ⟨rfl, he⟩ := Option.ite_none_right_eq_some.mp h
    rwa [← Option.some.inj he]
  · intro h
    exact ⟨(uri, e), h, if_pos rfl⟩

theorem mem_documentUris {edits : List (Uri × TextEdit)} {uri : Uri} :
    uri ∈ documentUris edits ↔ ∃ e, (uri, e) ∈ edits := by
  rw [documentUris, List.mem_eraseDups, List.mem_map]
  constructor
  · rintro ⟨⟨u, e⟩, hmem, rfl⟩
    exact ⟨e, hmem⟩
  · rintro ⟨e, hmem⟩
    exact ⟨(uri, e), hmem, rfl⟩

theorem documents_map_uri (edits : List (Uri × TextEdit)) (renames : List FileRename) :
    (ofEdits edits renames).documents.map (·.uri) = documentUris edits := by
  rw [ofEdits, List.map_map]
  exact List.map_id _

/-- A bundle holds the settled edits of a document that has edits. -/
theorem mem_ofEdits_documents {edits : List (Uri × TextEdit)} {renames : List FileRename}
    {d : DocumentEdits} :
    d ∈ (ofEdits edits renames).documents ↔
      (∃ e, (d.uri, e) ∈ edits) ∧ d.edits = DocumentEdits.settle (editsOf edits d.uri) := by
  rw [ofEdits, List.mem_map]
  constructor
  · rintro ⟨uri, huri, rfl⟩
    exact ⟨mem_documentUris.mp huri, rfl⟩
  · rintro ⟨huri, hedits⟩
    exact ⟨d.uri, mem_documentUris.mpr huri, by rw [← hedits]⟩

end WorkspaceEdit

end SymbolRename
