import Mathlib.Data.List.Basic
import SymbolRename.Proofs.RenameCoverage

/-! # A document affects nothing but itself

A document may be missing, unreadable or stale, or it may have another text than it
had before.  Its references then drop out of a rename or are found at other places,
and all edits behind them move up or down the list.  `rename_without` computes what a
rename does to the other documents from the sites in these documents alone, and these
sites do not read the document (`sitesAt_filter_congr`).  So two sources of texts that
differ in one document only give renames that differ in that document only
(`rename_isolates_document`).
-/
namespace SymbolRename

/-- A document has the same text in two sources of texts, or it has none in both. -/
def TextSource.AgreeOn (texts₁ texts₂ : TextSource) (document : Uri) : Prop :=
  ∀ text, texts₁ document = .ok text ↔ texts₂ document = .ok text

namespace WorkspaceEdit

/-- What a workspace edit does to all documents but one. -/
def without (w : WorkspaceEdit) (document : Uri) : WorkspaceEdit :=
  ⟨w.documents.filter (·.uri ≠ document), w.renames.filter (·.oldUri ≠ document)⟩

theorem documentUris_filter (edits : List (Uri × TextEdit)) (document : Uri) :
    (documentUris edits).filter (· ≠ document) = documentUris (edits.filter (·.1 ≠ document)) := by
  rw [documentUris, documentUris, filter_eraseDups, List.filter_map]
  rfl

theorem editsOf_filter (edits : List (Uri × TextEdit)) {document uri : Uri} (h : uri ≠ document) :
    editsOf (edits.filter (·.1 ≠ document)) uri = editsOf edits uri := by
  rw [editsOf, editsOf, List.filterMap_filter]
  refine List.filterMap_congr ?_
  rintro ⟨u, edit⟩ -
  dsimp only
  by_cases hu : u = uri
  · rw [if_pos (decide_eq_true (hu ▸ h))]
  · rw [if_neg hu, ite_self]

/-- Leaving a document out of a workspace edit is the same as leaving out what it asked for. -/
theorem ofEdits_without (edits : List (Uri × TextEdit)) (renames : List FileRename)
    (document : Uri) :
    (ofEdits edits renames).without document =
      ofEdits (edits.filter (·.1 ≠ document)) (renames.filter (·.oldUri ≠ document)) := by
  have hdocuments : (ofEdits edits renames).documents.filter (·.uri ≠ document) =
      (ofEdits (edits.filter (·.1 ≠ document)) (renames.filter (·.oldUri ≠ document))).documents := by
    rw [ofEdits, ofEdits, List.filter_map]
    show ((documentUris edits).filter (· ≠ document)).map _ = _
    rw [documentUris_filter]
    refine List.map_congr_left fun uri huri => ?_
    have hne : uri ≠ document := by
      rw [← documentUris_filter] at huri
      exact of_decide_eq_true (List.mem_filter.mp huri).2
    rw [editsOf_filter edits hne]
  have hrenames : (ofEdits edits renames).renames.filter (·.oldUri ≠ document) =
      (ofEdits (edits.filter (·.1 ≠ document)) (renames.filter (·.oldUri ≠ document))).renames :=
    filter_eraseDups _ renames
  rw [without, hdocuments, hrenames]

end WorkspaceEdit

theorem Site.oldUri_of_fileRename? {site : Site} {newName : String} {r : FileRename}
    (h : site.fileRename? newName = some r) : r.oldUri = site.uri := by
  rw [Site.fileRename?, Option.ite_none_right_eq_some] at h
  obtain ⟨newUri, -, rfl⟩ := Option.map_eq_some_iff.mp h.2
  rfl

namespace Rename

variable {index : SyntaxIndex} {uri : Uri} {p : Position} {newName : String}

/-- What a rename does to all documents but one is what the sites in these documents ask for. -/
theorem rename_without (texts : TextSource) (document : Uri) :
    (rename index texts uri p newName).without document =
      .ofEdits (siteEdits ((sitesAt index texts uri p).filter (·.uri ≠ document)) newName)
        (((sitesAt index texts uri p).filter (·.uri ≠ document)).filterMap
          (·.fileRename? newName)) := by
  have hedits (sites : List Site) : (siteEdits sites newName).filter (·.1 ≠ document) =
      siteEdits (sites.filter (·.uri ≠ document)) newName := by
    rw [siteEdits, siteEdits, List.filter_map]
    rfl
  have hrenames (sites : List Site) :
      (sites.filterMap (·.fileRename? newName)).filter (·.oldUri ≠ document) =
        (sites.filter (·.uri ≠ document)).filterMap (·.fileRename? newName) := by
    rw [List.filter_filterMap, List.filterMap_filter]
    refine List.filterMap_congr fun site _ => ?_
    cases hr : site.fileRename? newName with
    | none => rw [Option.filter_none, ite_self]
    | some r => rw [Option.filter_some, Site.oldUri_of_fileRename? hr]
  rw [rename_eq_ofEdits, WorkspaceEdit.ofEdits_without, hedits, hrenames]

/-- The sites in other documents do not depend on a document. -/
theorem sitesAt_filter_congr {texts₁ texts₂ : TextSource} {document : Uri}
    (hagree : ∀ u, u ≠ document → TextSource.AgreeOn texts₁ texts₂ u) :
    (sitesAt index texts₁ uri p).filter (·.uri ≠ document) =
      (sitesAt index texts₂ uri p).filter (·.uri ≠ document) := by
  rw [sitesAt, sitesAt, List.filter_filterMap, List.filter_filterMap]
  refine List.filterMap_congr fun m _ => ?_
  by_cases hm : index.documentOf uri m = document
  · -- A reference in the document itself is left out, whether it is located or not.
    have hnone (texts : TextSource) :
        (locate index texts uri m).toOption.filter (·.uri ≠ document) = none := by
      refine Option.filter_eq_none_iff.mpr fun site hsite => ?_
      obtain ⟨o, rfl⟩ := locate_toOption_eq_some_iff.mp hsite
      exact fun hne => of_decide_eq_true hne hm
    rw [hnone, hnone]
  · rw [locate_toOption_congr rfl (hagree _ hm)]

/-- **A document affects only itself.**  If two sources of texts agree on all documents but one,
then a rename does the same to all other documents with both of them: the same bundles with the
same edits in the same order, and the same renames of files in the same order. -/
theorem rename_isolates_document (index : SyntaxIndex) {texts₁ texts₂ : TextSource}
    {document : Uri} (hagree : ∀ u, u ≠ document → TextSource.AgreeOn texts₁ texts₂ u)
    (uri : Uri) (p : Position) (newName : String) :
    (rename index texts₁ uri p newName).without document =
      (rename index texts₂ uri p newName).without document := by
  rw [rename_without, rename_without, sitesAt_filter_congr hagree]

end Rename

namespace Shapes

/-- The texts after the document of the class has been lost. -/
def textsWithoutClass : TextSource := fun uri =>
  if uri = classUri then .error (.notAFile uri) else texts uri

/-- The use of the class is renamed as before. -/
theorem class_isolated :
    (∀ u, u ≠ classUri → TextSource.AgreeOn texts textsWithoutClass u) ∧
      renamed.without classUri =
        (Rename.rename index textsWithoutClass useUri ⟨0, 14⟩ "Polygon").without classUri ∧
      renamed.without classUri = ⟨[⟨useUri, [⟨⟨⟨0, 13⟩, ⟨0, 18⟩⟩, "Polygon"⟩]⟩], []⟩ := by
  have hagree : ∀ u, u ≠ classUri → TextSource.AgreeOn texts textsWithoutClass u := by
    intro u hu text
    rw [textsWithoutClass, if_neg hu]
  have hsites : (Rename.sitesAt index texts useUri ⟨0, 14⟩).filter (·.uri ≠ classUri) =
      [⟨.literal, useUri, ⟨⟨0, 13⟩, ⟨0, 18⟩⟩, true, ⟨⟨0, 0⟩, ⟨0, 5⟩⟩⟩] := by
    decide +kernel
  refine ⟨hagree, Rename.rename_isolates_document index hagree useUri ⟨0, 14⟩ "Polygon", ?_⟩
  rw [renamed, Rename.rename_without, hsites]
  cbv

end Shapes

end SymbolRename
