import SymbolRename.Proofs.FirstOccurrences
import SymbolRename.Proofs.Occurrences
import SymbolRename.Protocol.Response

/-! # A rename accounts for every reference

A reference drops out of a rename where something about it is missing, where its edit
repeats another one, or where its edit overlaps one that is kept.  `Rename.AccountsFor`
lists what remains: a bundle for every document with a located reference, in the
order in which these documents first occur, and in it the edit of every located
reference or an edit that overlaps it; and nothing else.  Every rename accounts for
the references of its symbol in this way.
-/
namespace SymbolRename

/-! ## The steps of a workspace edit -/

namespace WorkspaceEdit

theorem documents_of_steps (w : WorkspaceEdit) :
    w.steps.filterMap (·.document?) = w.documents := by
  rw [steps, List.filterMap_append, List.filterMap_map, List.filterMap_map]
  show w.documents.filterMap some ++ w.renames.filterMap (fun _ => none) = w.documents
  simp

theorem renames_of_steps (w : WorkspaceEdit) : w.steps.filterMap (·.file?) = w.renames := by
  rw [steps, List.filterMap_append, List.filterMap_map, List.filterMap_map]
  show w.documents.filterMap (fun _ => none) ++ w.renames.filterMap some = w.renames
  simp

/-- Documents are edited before files are renamed. -/
theorem pairwise_steps (w : WorkspaceEdit) :
    w.steps.Pairwise fun step later => step.file?.isSome = true → later.document? = none := by
  rw [steps, List.pairwise_append, List.pairwise_map, List.pairwise_map]
  refine ⟨?_, ?_, ?_⟩
  · exact List.pairwise_of_forall fun _ _ hfile => absurd hfile Bool.false_ne_true
  · exact List.pairwise_of_forall fun _ _ _ => rfl
  · intro step hstep later hlater _
    obtain ⟨file, -, rfl⟩ := List.mem_map.mp hlater
    rfl

end WorkspaceEdit

namespace Rename

/-! ## What a rename keeps -/

/-- A node that can be located, in the given document. -/
def LocatedIn (index : SyntaxIndex) (texts : TextSource) (home document : Uri) (node : NodeId) :
    Prop :=
  index.documentOf home node = document ∧ Nonempty (Occurrence index texts home node)

/-- What a workspace edit keeps of references that are renamed together. -/
structure AccountsFor (index : SyntaxIndex) (texts : TextSource) (home : Uri) (newName : String)
    (references : List NodeId) (w : WorkspaceEdit) : Prop where
  /-- There is a bundle for every document in which a reference is located, and for no other. -/
  documents_iff : ∀ document, document ∈ w.documents.map (·.uri) ↔
    ∃ m ∈ references, LocatedIn index texts home document m
  /-- A bundle precedes another one if a reference is located in its document before any is
  located in the other document; so no document has two bundles. -/
  documents_order : (w.documents.map (·.uri)).Pairwise fun a b =>
    ∃ before m after, references = before ++ m :: after ∧ LocatedIn index texts home a m ∧
      ∀ m' ∈ before ++ [m], ¬LocatedIn index texts home b m'
  edits_ne_nil : ∀ d ∈ w.documents, d.edits ≠ []
  /-- A located reference is edited, or an edit that overlaps it is kept in its document. -/
  covered : ∀ m ∈ references, ∀ o : Occurrence index texts home m,
    ∃ d ∈ w.documents, d.uri = index.documentOf home m ∧
      (o.site.edit newName ∈ d.edits ∨
        ∃ kept ∈ d.edits, kept.span.overlaps o.site.nameSpan = true)
  /-- If the names in a document do not overlap, all its located references are edited. -/
  complete : ∀ d ∈ w.documents,
    (∀ m ∈ references, ∀ m' ∈ references, ∀ (o : Occurrence index texts home m)
      (o' : Occurrence index texts home m'), index.documentOf home m = d.uri →
      index.documentOf home m' = d.uri → o.site.nameSpan = o'.site.nameSpan ∨
        o.site.nameSpan.overlaps o'.site.nameSpan = false) →
    ∀ m ∈ references, index.documentOf home m = d.uri →
      ∀ o : Occurrence index texts home m, o.site.edit newName ∈ d.edits
  /-- Every edit is the edit of a reference that is located in its document. -/
  sound : ∀ d ∈ w.documents, ∀ e ∈ d.edits, ∃ m ∈ references, index.documentOf home m = d.uri ∧
    ∃ o : Occurrence index texts home m, o.site.edit newName = e
  /-- The files that are renamed are those that a located reference asks for, each once. -/
  renames_iff : ∀ r, r ∈ w.renames ↔ ∃ m ∈ references, ∃ o : Occurrence index texts home m,
    o.site.fileRename? newName = some r
  renames_nodup : w.renames.Nodup
  /-- The steps that are sent are these bundles and these file renames, in their orders. -/
  steps_eq : w.steps.filterMap (·.document?) = w.documents ∧ w.steps.filterMap (·.file?) = w.renames
  /-- Behind a file rename there is no bundle. -/
  steps_order : w.steps.Pairwise fun step later =>
    step.file?.isSome = true → later.document? = none

variable {index : SyntaxIndex} {texts : TextSource} {uri : Uri} {p : Position} {newName : String}

/-- The documents of the bundles are those of the located references, without repetitions. -/
theorem documentUris_eq :
    (rename index texts uri p newName).documents.map (·.uri) =
      ((index.referencesAt uri p).filterMap fun m =>
        (locate index texts uri m).toOption.map Site.uri).eraseDups := by
  rw [rename_eq_ofEdits, WorkspaceEdit.documents_map_uri, WorkspaceEdit.documentUris, siteEdits,
    List.map_map, sitesAt]
  show List.eraseDups (List.map Site.uri _) = _
  rw [List.map_filterMap]

theorem locate_uri_eq_some_iff {document : Uri} {m : NodeId} :
    (locate index texts uri m).toOption.map Site.uri = some document ↔
      LocatedIn index texts uri document m := by
  rw [Option.map_eq_some_iff]
  constructor
  · rintro ⟨site, hsite, rfl⟩
    obtain ⟨o, rfl⟩ := locate_toOption_eq_some_iff.mp hsite
    exact ⟨rfl, ⟨o⟩⟩
  · rintro ⟨rfl, ⟨o⟩⟩
    exact ⟨o.site, locate_toOption_eq_some_iff.mpr ⟨o, rfl⟩, rfl⟩

theorem mem_documentUris_iff {document : Uri} :
    document ∈ (rename index texts uri p newName).documents.map (·.uri) ↔
      ∃ m ∈ index.referencesAt uri p, LocatedIn index texts uri document m := by
  rw [documentUris_eq, List.mem_eraseDups, List.mem_filterMap]
  simp only [locate_uri_eq_some_iff]

/-- Bundles come in the order in which their documents first occur. -/
theorem documentUris_pairwise :
    ((rename index texts uri p newName).documents.map (·.uri)).Pairwise fun a b =>
      ∃ before m after, index.referencesAt uri p = before ++ m :: after ∧
        LocatedIn index texts uri a m ∧ ∀ m' ∈ before ++ [m], ¬LocatedIn index texts uri b m' := by
  rw [documentUris_eq]
  refine (pairwise_eraseDups_filterMap _ _).imp ?_
  rintro a b ⟨before, m, after, hsplit, hm, hbefore⟩
  exact ⟨before, m, after, hsplit, locate_uri_eq_some_iff.mp hm,
    fun m' hm' hloc => hbefore m' hm' (locate_uri_eq_some_iff.mpr hloc)⟩

/-- In the bundle of its document a located reference is edited, or overlaps a kept edit. -/
theorem edit_kept_or_overlaps {d : DocumentEdits}
    (hd : d ∈ (rename index texts uri p newName).documents) {m : NodeId}
    (hm : m ∈ index.referencesAt uri p) (hdoc : index.documentOf uri m = d.uri)
    (o : Occurrence index texts uri m) :
    o.site.edit newName ∈ d.edits ∨
      ∃ kept ∈ d.edits, kept.span.overlaps o.site.nameSpan = true := by
  rw [(mem_rename_documents.mp hd).2]
  exact DocumentEdits.settle_covers (mem_editsOf_sitesAt.mpr ⟨m, hm, hdoc, o, rfl⟩)

/-- If the names in a document do not overlap, every located reference in it is edited. -/
theorem edits_complete {d : DocumentEdits}
    (hd : d ∈ (rename index texts uri p newName).documents)
    (hapart : ∀ m ∈ index.referencesAt uri p, ∀ m' ∈ index.referencesAt uri p,
      ∀ (o : Occurrence index texts uri m) (o' : Occurrence index texts uri m'),
      index.documentOf uri m = d.uri → index.documentOf uri m' = d.uri →
      o.site.nameSpan = o'.site.nameSpan ∨ o.site.nameSpan.overlaps o'.site.nameSpan = false)
    (m : NodeId) (hm : m ∈ index.referencesAt uri p) (hdoc : index.documentOf uri m = d.uri)
    (o : Occurrence index texts uri m) : o.site.edit newName ∈ d.edits := by
  rcases edit_kept_or_overlaps hd hm hdoc o with hedit | ⟨kept, hkept, hover⟩
  · exact hedit
  · obtain ⟨m', hm', hdoc', o', rfl⟩ := exists_occurrence_of_mem_edits hd hkept
    rcases hapart m' hm' m hm o' o hdoc' hdoc with hsame | hclear
    · rwa [Site.edit, ← hsame]
    · exact absurd hover (hclear ▸ Bool.false_ne_true)

/-- The files that a rename moves are those that its located references ask for. -/
theorem mem_renames_iff {r : FileRename} :
    r ∈ (rename index texts uri p newName).renames ↔
      ∃ m ∈ index.referencesAt uri p, ∃ o : Occurrence index texts uri m,
        o.site.fileRename? newName = some r := by
  rw [rename_eq_ofEdits, WorkspaceEdit.ofEdits, List.mem_eraseDups, List.mem_filterMap]
  constructor
  · rintro ⟨site, hsite, hr⟩
    obtain ⟨m, hm, o, rfl⟩ := mem_sitesAt_iff.mp hsite
    exact ⟨m, hm, o, hr⟩
  · rintro ⟨m, hm, o, hr⟩
    exact ⟨o.site, mem_sitesAt_iff.mpr ⟨m, hm, o, rfl⟩, hr⟩

/-- A rename is empty exactly if none of its references can be located. -/
theorem isEmpty_rename_iff :
    (rename index texts uri p newName).isEmpty = true ↔
      ∀ m ∈ index.referencesAt uri p, ¬Nonempty (Occurrence index texts uri m) := by
  rw [WorkspaceEdit.isEmpty, Bool.and_eq_true, List.isEmpty_iff, List.isEmpty_iff]
  constructor
  · rintro ⟨hdocuments, -⟩ m hm ho
    have hmem : index.documentOf uri m ∈
        (rename index texts uri p newName).documents.map (·.uri) :=
      mem_documentUris_iff.mpr ⟨m, hm, rfl, ho⟩
    rw [hdocuments] at hmem
    exact absurd hmem List.not_mem_nil
  · intro hnone
    constructor
    · refine List.eq_nil_iff_forall_not_mem.mpr fun d hd => ?_
      obtain ⟨m, hm, -, ho⟩ := (mem_rename_documents.mp hd).1
      exact hnone m hm ho
    · refine List.eq_nil_iff_forall_not_mem.mpr fun r hr => ?_
      obtain ⟨m, hm, o, -⟩ := mem_renames_iff.mp hr
      exact hnone m hm ⟨o⟩

/-- **A rename accounts for every reference.**  It is empty exactly if there is no symbol at the
position or none of its references can be located; and it keeps of the references what
`AccountsFor` says. -/
theorem rename_accounts_for_references (index : SyntaxIndex) (texts : TextSource) (uri : Uri)
    (p : Position) (newName : String) :
    ((rename index texts uri p newName).isEmpty = true ↔ index.nodeAt uri p = none ∨
      ∀ m ∈ index.referencesAt uri p, ¬Nonempty (Occurrence index texts uri m)) ∧
    AccountsFor index texts uri newName (index.referencesAt uri p)
      (rename index texts uri p newName) := by
  refine ⟨?_, ?_⟩
  · rw [isEmpty_rename_iff]
    constructor
    · exact Or.inr
    · rintro (hnone | hnone)
      · intro m hm
        rw [SyntaxIndex.referencesAt, hnone] at hm
        exact absurd hm List.not_mem_nil
      · exact hnone
  · exact {
      documents_iff := fun _ => mem_documentUris_iff
      documents_order := documentUris_pairwise
      edits_ne_nil := fun _ => edits_ne_nil
      covered := fun m hm o => by
        obtain ⟨d, hd, hdoc⟩ := List.mem_map.mp
          (mem_documentUris_iff.mpr ⟨m, hm, rfl, ⟨o⟩⟩)
        exact ⟨d, hd, hdoc, edit_kept_or_overlaps hd hm hdoc.symm o⟩
      complete := fun _ => edits_complete
      sound := fun _ hd _ => exists_occurrence_of_mem_edits hd
      renames_iff := fun _ => mem_renames_iff
      renames_nodup := by
        rw [rename_eq_ofEdits]
        exact nodup_eraseDups _
      steps_eq := ⟨WorkspaceEdit.documents_of_steps _, WorkspaceEdit.renames_of_steps _⟩
      steps_order := WorkspaceEdit.pairwise_steps _ }

end Rename

end SymbolRename
