import Mathlib.Data.Finset.Card
import Mathlib.Data.List.Perm.Basic
import SymbolRename.Proofs.FileDirectory
import SymbolRename.Proofs.RenameCoverage
import SymbolRename.Proofs.SymbolReferences

/-! # Files that are renamed with their types

A type that no other declaration surrounds shares its name with its file.  The decision to
rename a file is made for every reference on its own; over all references it comes down to
the documents that declare the type (`DeclaresType`, `mem_renames_iff_declaresType`).  Each
of them is renamed once, and a plain name takes the place of the old one in front of the
extension (`file_follows_type`).  There can be several such documents, and then several
files are moved to one place (`two_files_become_one`); `document_renamed_at_most_once` says
when there is at most one.
-/
namespace SymbolRename

/-- Declarations of types use no other declaration. -/
def SyntaxIndex.TypesStandAlone (x : SyntaxIndex) : Prop :=
  ∀ node ∈ x.nodes, ∀ category ∈ node.category, category.isType = true → node.referent = none

instance (x : SyntaxIndex) : Decidable x.TypesStandAlone :=
  inferInstanceAs (Decidable (∀ node ∈ x.nodes, ∀ category ∈ node.category,
    category.isType = true → node.referent = none))

namespace Rename

/-- A located type declaration that no other declaration surrounds. -/
structure TopType (index : SyntaxIndex) (texts : TextSource) (home document : Uri) (node : NodeId) :
    Prop where
  located : LocatedIn index texts home document node
  category : ∃ name, index.category? node = some (.type name)
  parent : index.parent? node = none

/-- A document with a top-level declaration of the type that is renamed. -/
def DeclaresType (index : SyntaxIndex) (texts : TextSource) (uri : Uri) (p : Position)
    (document : Uri) : Prop :=
  ∃ m ∈ index.referencesAt uri p, TopType index texts uri document m

variable {index : SyntaxIndex} {texts : TextSource} {uri : Uri} {p : Position} {newName : String}

theorem isType_iff {category : Category} :
    category.isType = true ↔ ∃ name, category = .type name := by
  cases category <;> simp [Category.isType]

/-- A located reference asks for a new name of its file exactly if it is a top-level type. -/
theorem fileRename?_eq_some_iff {m : NodeId} (o : Occurrence index texts uri m) {r : FileRename} :
    o.site.fileRename? newName = some r ↔ TopType index texts uri r.oldUri m ∧
      r.oldUri.renamedFile newName = some r.newUri := by
  rw [Site.fileRename?, Option.ite_none_right_eq_some, Bool.and_eq_true, isType_iff,
    Option.map_eq_some_iff]
  constructor
  · rintro ⟨⟨⟨name, hcategory⟩, htop⟩, newUri, hnew, rfl⟩
    refine ⟨⟨⟨rfl, ⟨o⟩⟩, ⟨name, ?_⟩, Option.isNone_iff_eq_none.mp htop⟩, hnew⟩
    rw [o.category_eq]
    exact congrArg some hcategory
  · rintro ⟨⟨⟨hdoc, -⟩, ⟨name, hcategory⟩, hparent⟩, hnew⟩
    rw [← hdoc] at hnew
    refine ⟨⟨⟨name, ?_⟩, Option.isNone_iff_eq_none.mpr hparent⟩, r.newUri, hnew, ?_⟩
    · rw [o.category_eq] at hcategory
      exact Option.some.inj hcategory
    · rw [show o.site.uri = r.oldUri from hdoc]

/-- **The files that are renamed** are those of the documents that declare the type. -/
theorem mem_renames_iff_declaresType {r : FileRename} :
    r ∈ (rename index texts uri p newName).renames ↔
      DeclaresType index texts uri p r.oldUri ∧ r.oldUri.renamedFile newName = some r.newUri := by
  rw [mem_renames_iff]
  constructor
  · rintro ⟨m, hm, o, hr⟩
    obtain ⟨htop, hnew⟩ := (fileRename?_eq_some_iff o).mp hr
    exact ⟨⟨m, hm, htop⟩, hnew⟩
  · rintro ⟨⟨m, hm, htop⟩, hnew⟩
    obtain ⟨o⟩ := htop.located.2
    exact ⟨m, hm, o, (fileRename?_eq_some_iff o).mpr ⟨htop, hnew⟩⟩

theorem nodup_renames : (rename index texts uri p newName).renames.Nodup := by
  rw [rename_eq_ofEdits]
  exact nodup_eraseDups _

/-- A document asks for one new name only. -/
theorem eq_of_oldUri_eq {r r' : FileRename} (hr : r ∈ (rename index texts uri p newName).renames)
    (hr' : r' ∈ (rename index texts uri p newName).renames) (h : r.oldUri = r'.oldUri) :
    r = r' := by
  have hnew := (mem_renames_iff_declaresType.mp hr).2
  have hnew' := (mem_renames_iff_declaresType.mp hr').2
  rw [h, hnew'] at hnew
  cases r
  cases r'
  cases h
  cases hnew
  rfl

theorem nodup_oldUris : ((rename index texts uri p newName).renames.map (·.oldUri)).Nodup :=
  nodup_renames.map_on fun _ hr _ hr' h => eq_of_oldUri_eq hr hr' h

theorem mem_oldUris_iff {document : Uri} :
    document ∈ (rename index texts uri p newName).renames.map (·.oldUri) ↔
      DeclaresType index texts uri p document ∧ (document.renamedFile newName).isSome := by
  rw [List.mem_map, Option.isSome_iff_exists]
  constructor
  · rintro ⟨r, hr, rfl⟩
    obtain ⟨hdeclares, hnew⟩ := mem_renames_iff_declaresType.mp hr
    exact ⟨hdeclares, r.newUri, hnew⟩
  · rintro ⟨hdeclares, newUri, hnew⟩
    exact ⟨⟨document, newUri⟩, mem_renames_iff_declaresType.mpr ⟨hdeclares, hnew⟩, rfl⟩

/-- The renames of one document. -/
theorem filter_renames_eq {document newUri : Uri} (hdeclares : DeclaresType index texts uri p document)
    (hnew : document.renamedFile newName = some newUri) :
    (rename index texts uri p newName).renames.filter (·.oldUri = document) =
      [⟨document, newUri⟩] := by
  refine List.perm_singleton.mp ?_
  refine (List.perm_ext_iff_of_nodup (nodup_renames.filter _) (List.nodup_singleton _)).mpr ?_
  intro r
  rw [List.mem_filter, List.mem_singleton, decide_eq_true_eq]
  constructor
  · rintro ⟨hr, rfl⟩
    exact eq_of_oldUri_eq hr (mem_renames_iff_declaresType.mpr ⟨hdeclares, hnew⟩) rfl
  · rintro rfl
    exact ⟨mem_renames_iff_declaresType.mpr ⟨hdeclares, hnew⟩, rfl⟩

/-- **Types and their files have the same names.**  A document that declares the renamed type is
renamed once: a plain new name takes the place of everything in front of the extension, and the
rest of the URI stays as it is, except for a directory that is not settled.  No other document is
renamed. -/
theorem file_follows_type (index : SyntaxIndex) (texts : TextSource) (uri : Uri) (p : Position)
    (hname : Uri.IsPlainName newName) :
    (∀ document : Uri, document.Obtained → document.scheme = "file" →
      DeclaresType index texts uri p document →
      ∃ directory file extension directory', document.IsFile directory file ∧
        Uri.IsExtension extension file ∧
        (rename index texts uri p newName).renames.filter (·.oldUri = document) =
          [⟨document, { document with path := .rooted (directory' ++ [newName ++ extension]) }⟩] ∧
        (directory' = directory ↔ Uri.IsSettled directory)) ∧
    ∀ r ∈ (rename index texts uri p newName).renames, DeclaresType index texts uri p r.oldUri := by
  refine ⟨?_, fun r hr => (mem_renames_iff_declaresType.mp hr).1⟩
  intro document hobtained hscheme hdeclares
  obtain ⟨directory, file, hfile⟩ := hobtained.exists_isFile hscheme
  obtain ⟨directory', hnew, hsettled⟩ := hfile.exists_renamedFile_eq hname
  exact ⟨directory, file, Uri.fileExtension file, directory', hfile,
    Uri.isExtension_fileExtension file, filter_renames_eq hdeclares hnew, hsettled⟩

/-- A declaration of a type at the start of a document. -/
def shapeNode (document : Uri) (referent : Option NodeId) : Node :=
  ⟨some (.type "Shape"), some document, some ⟨⟨0, 0⟩, ⟨0, 14⟩⟩, none, referent⟩

/-- Every document declares the type. -/
def shapeTexts : TextSource := fun _ => .ok "class Shape {}\n"

/-- An index with one declaration. -/
def shapeIndex (document : Uri) : SyntaxIndex := ⟨[shapeNode document none]⟩

theorem shape_declared :
    DeclaresType (shapeIndex Uri.shapeUri) shapeTexts Uri.shapeUri ⟨0, 7⟩ Uri.shapeUri :=
  ⟨0, by decide, locate_uri_eq_some_iff.mp rfl, ⟨"Shape", rfl⟩, rfl⟩

theorem shape_file_follows_type :
    Uri.IsPlainName "Polygon" ∧ Uri.shapeUri.Obtained ∧ Uri.shapeUri.scheme = "file" ∧
      DeclaresType (shapeIndex Uri.shapeUri) shapeTexts Uri.shapeUri ⟨0, 7⟩ Uri.shapeUri ∧
      ∃ directory file extension directory', Uri.shapeUri.IsFile directory file ∧
        Uri.IsExtension extension file ∧
        (rename (shapeIndex Uri.shapeUri) shapeTexts Uri.shapeUri ⟨0, 7⟩ "Polygon").renames.filter
            (·.oldUri = Uri.shapeUri) =
          [⟨Uri.shapeUri,
            { Uri.shapeUri with path := .rooted (directory' ++ ["Polygon" ++ extension]) }⟩] ∧
        (directory' = directory ↔ Uri.IsSettled directory) := by
  have hname : Uri.IsPlainName "Polygon" := ⟨by decide, List.all_eq_true.mp (by decide)⟩
  have hobtained : Uri.shapeUri.Obtained := .parsed Uri.parse_shapeUri
  refine ⟨hname, hobtained, rfl, shape_declared, ?_⟩
  exact (file_follows_type _ _ _ _ hname).1 Uri.shapeUri hobtained rfl shape_declared

/-- A class above a drive. -/
def climbingUri : Uri :=
  ⟨"file", some ⟨"", "", none⟩, false, .rooted ["C:", "..", "Shape.groovy"], none, none⟩

/-- The segment `..` of a directory gets lost when its file is renamed. -/
theorem climbing_file_leaves_directory :
    ¬∀ index texts uri p newName (document : Uri) directory file extension,
      Uri.IsPlainName newName → document.Obtained → document.scheme = "file" →
      DeclaresType index texts uri p document → document.path = .rooted (directory ++ [file]) →
      Uri.IsExtension extension file →
      (rename index texts uri p newName).renames.filter (·.oldUri = document) =
        [⟨document, { document with path := .rooted (directory ++ [newName ++ extension]) }⟩] := by
  intro h
  have hparse : Uri.parse "file:/C:\t../Shape.groovy" = some climbingUri := rfl
  have hdeclares :
      DeclaresType (shapeIndex climbingUri) shapeTexts climbingUri ⟨0, 7⟩ climbingUri :=
    ⟨0, by decide, locate_uri_eq_some_iff.mp rfl, ⟨"Shape", rfl⟩, rfl⟩
  have hnew : climbingUri.renamedFile "Polygon" =
      some { climbingUri with path := .rooted ["C:", "Polygon.groovy"] } := rfl
  have hclaim := h _ _ _ _ "Polygon" climbingUri ["C:", ".."] "Shape.groovy" ".groovy"
    ⟨by decide, List.all_eq_true.mp (by decide)⟩ (.parsed hparse) rfl hdeclares rfl
    (Or.inr ⟨"Shape".toList, "groovy".toList, by decide, by decide, by decide⟩)
  rw [filter_renames_eq hdeclares hnew] at hclaim
  exact absurd hclaim (by decide)

/-! ## How many files are renamed -/

/-- Only the declaration itself is a type among the references of a symbol. -/
theorem eq_declaration_of_type (hindex : index.TypesStandAlone) {d m : NodeId} {name : String}
    (hm : m ∈ d :: index.uses d) (hcategory : index.category? m = some (.type name)) : m = d := by
  rcases List.mem_cons.mp hm with rfl | huse
  · rfl
  · obtain ⟨node, hnode, hreferent⟩ := SyntaxIndex.mem_uses_iff.mp huse
    rw [SyntaxIndex.category?, hnode] at hcategory
    have hnone := hindex node (SyntaxIndex.mem_nodes_of_node? hnode) (.type name) hcategory rfl
    rw [hnone] at hreferent
    cases hreferent

theorem declaresType_unique (hindex : index.TypesStandAlone) {document document' : Uri}
    (h : DeclaresType index texts uri p document) (h' : DeclaresType index texts uri p document') :
    document = document' := by
  obtain ⟨m, hm, htop⟩ := h
  obtain ⟨m', hm', htop'⟩ := h'
  have heq : m = m' := by
    rw [SyntaxIndex.referencesAt] at hm hm'
    cases hnode : index.nodeAt uri p with
    | none =>
      rw [hnode] at hm
      exact absurd hm List.not_mem_nil
    | some node =>
      rw [hnode] at hm hm'
      obtain ⟨d, -, -, hrefs⟩ := SyntaxIndex.exists_declaration_of_mem hm
      dsimp only at hm hm'
      rw [hrefs] at hm hm'
      obtain ⟨name, hcategory⟩ := htop.category
      obtain ⟨name', hcategory'⟩ := htop'.category
      rw [eq_declaration_of_type hindex hm hcategory, eq_declaration_of_type hindex hm' hcategory']
  rw [← htop.located.1, ← htop'.located.1, heq]

/-- A rename moves at most one file exactly if all documents that it moves are the same. -/
theorem length_renames_le_one_iff :
    (rename index texts uri p newName).renames.length ≤ 1 ↔
      ∀ document document', DeclaresType index texts uri p document →
        DeclaresType index texts uri p document' → (document.renamedFile newName).isSome = true →
        (document'.renamedFile newName).isSome = true → document = document' := by
  rw [← List.length_map (·.oldUri), ← List.toFinset_card_of_nodup nodup_oldUris, Finset.card_le_one]
  simp only [List.mem_toFinset, mem_oldUris_iff]
  constructor
  · intro h document document' hdeclares hdeclares' hsome hsome'
    exact h document ⟨hdeclares, hsome⟩ document' ⟨hdeclares', hsome'⟩
  · rintro h document ⟨hdeclares, hsome⟩ document' ⟨hdeclares', hsome'⟩
    exact h document document' hdeclares hdeclares' hsome hsome'

/-- **A document is renamed at most once**, and only if it declares the renamed type and has a
path.  So a rename moves at most one file exactly if all these documents are the same, as they
are if declarations of types use no other declaration. -/
theorem document_renamed_at_most_once (index : SyntaxIndex) (texts : TextSource) (uri : Uri)
    (p : Position) (newName : String) :
    ((rename index texts uri p newName).renames.map (·.oldUri)).Nodup ∧
    (∀ document, document ∈ (rename index texts uri p newName).renames.map (·.oldUri) ↔
      DeclaresType index texts uri p document ∧ (document.renamedFile newName).isSome) ∧
    ((rename index texts uri p newName).renames.length ≤ 1 ↔
      ∀ document document', DeclaresType index texts uri p document →
        DeclaresType index texts uri p document' → (document.renamedFile newName).isSome →
        (document'.renamedFile newName).isSome → document = document') ∧
    (index.TypesStandAlone → (rename index texts uri p newName).renames.length ≤ 1) := by
  refine ⟨nodup_oldUris, fun _ => mem_oldUris_iff, length_renames_le_one_iff, ?_⟩
  intro hindex
  refine length_renames_le_one_iff.mpr ?_
  intro document document' hdeclares hdeclares' _ _
  exact declaresType_unique hindex hdeclares hdeclares'

/-- A file of the directory `ws`. -/
def fileIn (file : String) : Uri :=
  ⟨"file", some ⟨"", "", none⟩, false, .rooted ["ws", file], none, none⟩

/-- A type with a second declaration in another file. -/
def twinIndex : SyntaxIndex :=
  ⟨[shapeNode (fileIn "A.groovy") none, shapeNode (fileIn "B.groovy") (some 0)]⟩

/-- A type that is declared in two files moves both of them, to the same place. -/
theorem two_files_become_one :
    (rename twinIndex shapeTexts (fileIn "A.groovy") ⟨0, 7⟩ "Polygon").renames =
      [⟨fileIn "A.groovy", fileIn "Polygon.groovy"⟩,
        ⟨fileIn "B.groovy", fileIn "Polygon.groovy"⟩] ∧
    ¬twinIndex.TypesStandAlone ∧
    ¬∀ index texts uri p newName, (rename index texts uri p newName).renames.length ≤ 1 := by
  have htwo : (rename twinIndex shapeTexts (fileIn "A.groovy") ⟨0, 7⟩ "Polygon").renames =
      [⟨fileIn "A.groovy", fileIn "Polygon.groovy"⟩,
        ⟨fileIn "B.groovy", fileIn "Polygon.groovy"⟩] := rfl
  refine ⟨htwo, by decide, fun h => ?_⟩
  have hone := h twinIndex shapeTexts (fileIn "A.groovy") ⟨0, 7⟩ "Polygon"
  rw [htwo] at hone
  exact absurd hone (by decide)

end Rename

end SymbolRename
