import SymbolRename.Proofs.SettledForm

/-! # Laws of collecting edits

Where the starts tell the edits of a document apart, there is only one way to sort them.
Then it does not matter in which order they arrive (`DocumentEdits.settle_eq_of_perm`), and
the order of all edits shows in the order of the bundles only.

A workspace edit that has been collected has a form of its own: one bundle for each
document, no bundle without edits, settled edits in each bundle, and no file renamed
twice (`WorkspaceEdit.Collected`).  Collecting what such a workspace edit holds gives it
back (`Collected.ofEdits_textEdits`), so collecting again changes nothing.
-/
namespace SymbolRename

namespace DocumentEdits

/-- Edits that their starts tell apart are arranged in one way only. -/
theorem arrange_eq_of_perm {edits edits' : List TextEdit} (hperm : edits.Perm edits')
    (hstarts : ∀ a ∈ edits, ∀ b ∈ edits, a.span.start = b.span.start → a = b) :
    arrange edits = arrange edits' := by
  have harranged : (arrange edits).Perm (arrange edits') :=
    ((arrange_perm edits).trans (perm_eraseDups hperm)).trans (arrange_perm edits').symm
  refine List.Perm.eq_of_pairwise ?_ (arrange_pairwise edits) (arrange_pairwise edits') harranged
  intro a b ha hb hab hba
  have hb' : b ∈ edits := hperm.mem_iff.mpr (mem_arrange.mp hb)
  exact hstarts a (mem_arrange.mp ha) b hb' (Position.le_antisymm hab hba)

theorem settle_eq_of_perm {edits edits' : List TextEdit} (hperm : edits.Perm edits')
    (hstarts : ∀ a ∈ edits, ∀ b ∈ edits, a.span.start = b.span.start → a = b) :
    settle edits = settle edits' := by
  rw [settle, settle, arrange_eq_of_perm hperm hstarts]

/-- The edits of a bundle, each with the document that it changes. -/
def textEdits (d : DocumentEdits) : List (Uri × TextEdit) := d.edits.map fun e => (d.uri, e)

theorem textEdits_map_uri (d : DocumentEdits) :
    d.textEdits.map (·.1) = List.replicate d.edits.length d.uri := by
  rw [textEdits, List.map_map]
  exact List.map_const' ..

end DocumentEdits

namespace WorkspaceEdit

open DocumentEdits

variable {edits edits' : List (Uri × TextEdit)} {documents : List DocumentEdits}

/-! ## The order of arrival -/

theorem documentUris_perm (h : edits.Perm edits') :
    (documentUris edits).Perm (documentUris edits') :=
  perm_eraseDups (h.map _)

theorem editsOf_perm (h : edits.Perm edits') (uri : Uri) :
    (editsOf edits uri).Perm (editsOf edits' uri) :=
  h.filterMap _

/-- **Bundles do not depend on the order of arrival**, where the starts tell the edits of each
document apart: the same documents have bundles, and each has the same bundle. -/
theorem bundles_perm_of_perm (edits edits' : List (Uri × TextEdit)) (renames : List FileRename)
    (hperm : edits.Perm edits')
    (hstarts : ∀ x ∈ edits, ∀ y ∈ edits, x.1 = y.1 → x.2.span.start = y.2.span.start → x.2 = y.2) :
    (ofEdits edits renames).documents.Perm (ofEdits edits' renames).documents := by
  have hsame (uri : Uri) : settle (editsOf edits uri) = settle (editsOf edits' uri) := by
    refine settle_eq_of_perm (editsOf_perm hperm uri) fun a ha b hb hstart => ?_
    exact hstarts _ (mem_editsOf.mp ha) _ (mem_editsOf.mp hb) rfl hstart
  rw [ofEdits, ofEdits]
  simp only [hsame]
  exact (documentUris_perm hperm).map _

/-- Edits of two documents, one of them repeated and one overlapped. -/
def revisions : List (Uri × TextEdit) :=
  [lineEdit "a" 5 8 "x", lineEdit "b" 2 3 "y", lineEdit "a" 6 7 "z", lineEdit "a" 5 8 "x"]

/-- The documents come in another order, with the same edits. -/
theorem revisions_reversed :
    revisions.Perm revisions.reverse ∧
      (∀ x ∈ revisions, ∀ y ∈ revisions, x.1 = y.1 →
        x.2.span.start = y.2.span.start → x.2 = y.2) ∧
      (ofEdits revisions []).documents.Perm (ofEdits revisions.reverse []).documents := by
  have hperm : revisions.Perm revisions.reverse := revisions.reverse_perm.symm
  have hstarts : ∀ x ∈ revisions, ∀ y ∈ revisions, x.1 = y.1 →
      x.2.span.start = y.2.span.start → x.2 = y.2 := by decide
  exact ⟨hperm, hstarts, bundles_perm_of_perm _ _ [] hperm hstarts⟩

/-! ## Collecting again -/

/-- All edits of a workspace edit, bundle by bundle. -/
def textEdits (w : WorkspaceEdit) : List (Uri × TextEdit) :=
  w.documents.flatMap DocumentEdits.textEdits

/-- What collecting makes of edits and file renames. -/
structure Collected (w : WorkspaceEdit) : Prop where
  uris_nodup : (w.documents.map (·.uri)).Nodup
  edits_ne_nil : ∀ d ∈ w.documents, d.edits ≠ []
  edits_settled : ∀ d ∈ w.documents, Settled d.edits
  renames_nodup : w.renames.Nodup

theorem collected_ofEdits (edits : List (Uri × TextEdit)) (renames : List FileRename) :
    Collected (ofEdits edits renames) where
  uris_nodup := by
    rw [documents_map_uri]
    exact nodup_eraseDups _
  edits_ne_nil := by
    intro d hd
    obtain ⟨⟨e, he⟩, hedits⟩ := mem_ofEdits_documents.mp hd
    rw [hedits]
    exact settle_ne_nil (List.ne_nil_of_mem (mem_editsOf.mpr he))
  edits_settled := by
    intro d hd
    rw [(mem_ofEdits_documents.mp hd).2]
    exact settled_settle _
  renames_nodup := nodup_eraseDups renames

theorem uri_mem_of_mem_textEdits {uri : Uri} {e : TextEdit}
    (h : (uri, e) ∈ documents.flatMap DocumentEdits.textEdits) :
    uri ∈ documents.map (·.uri) := by
  obtain ⟨d, hd, he⟩ := List.mem_flatMap.mp h
  obtain ⟨e', -, heq⟩ := List.mem_map.mp he
  exact List.mem_map.mpr ⟨d, hd, congrArg Prod.fst heq⟩

theorem documentUris_textEdits (hnodup : (documents.map (·.uri)).Nodup)
    (hne : ∀ d ∈ documents, d.edits ≠ []) :
    documentUris (documents.flatMap DocumentEdits.textEdits) = documents.map (·.uri) := by
  induction documents with
  | nil => rfl
  | cons d documents ih =>
    obtain ⟨hd, hnodup⟩ := List.nodup_cons.mp hnodup
    obtain ⟨hedits, hne⟩ := List.forall_mem_cons.mp hne
    have hothers : d.uri ∉ (documents.flatMap DocumentEdits.textEdits).map (·.1) := by
      intro hmem
      obtain ⟨⟨uri, e⟩, he, rfl⟩ := List.mem_map.mp hmem
      exact hd (uri_mem_of_mem_textEdits he)
    have hlength : d.edits.length ≠ 0 := fun h => hedits (List.length_eq_zero_iff.mp h)
    rw [documentUris, List.flatMap_cons, List.map_append, d.textEdits_map_uri,
      eraseDups_replicate_append hlength hothers]
    exact congrArg (d.uri :: ·) (ih hnodup hne)

theorem editsOf_bundle (d : DocumentEdits) (uri : Uri) :
    editsOf d.textEdits uri = if d.uri = uri then d.edits else [] := by
  rw [editsOf, DocumentEdits.textEdits, List.filterMap_map]
  split
  · rename_i h
    simp [h]
  · rename_i h
    simp [h]

theorem editsOf_textEdits (hnodup : (documents.map (·.uri)).Nodup) {d : DocumentEdits}
    (hd : d ∈ documents) :
    editsOf (documents.flatMap DocumentEdits.textEdits) d.uri = d.edits := by
  induction documents with
  | nil => exact absurd hd List.not_mem_nil
  | cons c documents ih =>
    obtain ⟨hc, hnodup⟩ := List.nodup_cons.mp hnodup
    rw [List.flatMap_cons, editsOf, List.filterMap_append]
    show editsOf c.textEdits d.uri ++ editsOf _ d.uri = d.edits
    rw [editsOf_bundle]
    rcases List.mem_cons.mp hd with rfl | hd
    · have hothers : editsOf (documents.flatMap DocumentEdits.textEdits) d.uri = [] :=
        List.eq_nil_iff_forall_not_mem.mpr fun e he =>
          hc (uri_mem_of_mem_textEdits (mem_editsOf.mp he))
      rw [hothers, List.append_nil, if_pos rfl]
    · have hne : c.uri ≠ d.uri := fun heq => hc (List.mem_map.mpr ⟨d, hd, heq.symm⟩)
      rw [if_neg hne, List.nil_append, ih hnodup hd]

/-- **Collecting what has been collected gives it back.** -/
theorem Collected.ofEdits_textEdits {w : WorkspaceEdit} (h : Collected w) :
    ofEdits w.textEdits w.renames = w := by
  have hdocuments : (ofEdits w.textEdits w.renames).documents = w.documents := by
    rw [ofEdits, textEdits, documentUris_textEdits h.uris_nodup h.edits_ne_nil, List.map_map]
    refine (List.map_congr_left fun d hd => ?_).trans (List.map_id _)
    show DocumentEdits.mk d.uri (settle (editsOf _ d.uri)) = d
    rw [editsOf_textEdits h.uris_nodup hd, (h.edits_settled d hd).settle_eq]
  show WorkspaceEdit.mk (ofEdits w.textEdits w.renames).documents w.renames.eraseDups = w
  rw [hdocuments, eraseDups_eq_self h.renames_nodup]

/-- **Collecting again changes nothing**: the edits of a workspace edit, bundle by bundle, and its
file renames are collected to the same workspace edit. -/
theorem ofEdits_idempotent (edits : List (Uri × TextEdit)) (renames : List FileRename) :
    ofEdits (ofEdits edits renames).textEdits (ofEdits edits renames).renames =
      ofEdits edits renames :=
  (collected_ofEdits edits renames).ofEdits_textEdits

end WorkspaceEdit

end SymbolRename
