import SymbolRename.Proofs.RenameCoverage
import SymbolRename.Proofs.SymbolReferences

/-! # A prepared rename can be made

Before a rename an editor asks for the name at a position.  `Rename.prepare` looks at
the node there and at nothing else, while `Rename.rename` goes through the references
of the node and comes back to it only as one reference among others.  The answers fit
together all the same: where a name has been answered, a rename edits it or something
that overlaps it, unless the declaration of the node is missing
(`Rename.rename_edits_prepared_name`).
-/
namespace SymbolRename

/-- The node at a position refers to a declaration that is not in the index. -/
def SyntaxIndex.DanglingAt (index : SyntaxIndex) (uri : Uri) (p : Position) : Prop :=
  ∃ n node d, index.nodeAt uri p = some n ∧ index.node? n = some node ∧
    node.referent = some d ∧ index.node? d = none

namespace Rename

variable {index : SyntaxIndex} {texts : TextSource} {uri : Uri} {p : Position} {span : Span}

/-- A prepared name is the name of an occurrence at the position, in the document of the
position. -/
theorem exists_occurrence_of_prepare (h : prepare index texts uri p = some span) :
    ∃ n node, index.nodeAt uri p = some n ∧ index.node? n = some node ∧
      index.documentOf uri n = uri ∧ ∃ o : Occurrence index texts uri n, o.site.nameSpan = span := by
  obtain ⟨n, hn, h⟩ := Option.bind_eq_some_iff.mp h
  obtain ⟨site, hsite, h⟩ := Option.bind_eq_some_iff.mp h
  obtain rfl := Option.some.inj h
  obtain ⟨o, rfl⟩ := locate_toOption_eq_some_iff.mp hsite
  obtain ⟨node, hnode, huri⟩ := SyntaxIndex.exists_node_of_nodeAt hn
  refine ⟨n, node, hn, hnode, ?_, o, rfl⟩
  rw [SyntaxIndex.documentOf, SyntaxIndex.uri?, hnode]
  exact congrArg (Option.getD · uri) huri

/-- Unless its declaration is missing, the node at a position is among the references there. -/
theorem mem_referencesAt_of_not_dangling {n : NodeId} {node : Node}
    (hn : index.nodeAt uri p = some n) (hnode : index.node? n = some node)
    (h : ¬index.DanglingAt uri p) : n ∈ index.referencesAt uri p := by
  rw [SyntaxIndex.referencesAt, hn]
  refine SyntaxIndex.mem_references_self hnode ?_
  cases hreferent : node.referent with
  | none => exact SyntaxIndex.lt_size_iff.mpr ⟨node, hnode⟩
  | some d =>
    refine SyntaxIndex.lt_size_iff.mpr (Option.ne_none_iff_exists'.mp fun hd => h ?_)
    exact ⟨n, node, d, hn, hnode, hreferent, hd⟩

theorem referencesAt_eq_nil_of_dangling (h : index.DanglingAt uri p) :
    index.referencesAt uri p = [] := by
  obtain ⟨n, node, d, hn, hnode, hreferent, hd⟩ := h
  refine List.eq_nil_iff_forall_not_mem.mpr fun m hm => ?_
  rw [SyntaxIndex.referencesAt, hn] at hm
  obtain ⟨d', hd', hsize, -⟩ := SyntaxIndex.exists_declaration_of_mem hm
  rw [SyntaxIndex.declaration?_eq_of_node? hnode, hreferent, Option.getD_some] at hd'
  obtain rfl := Option.some.inj hd'
  obtain ⟨declaration, hdeclaration⟩ := SyntaxIndex.lt_size_iff.mp hsize
  exact Option.some_ne_none declaration (hdeclaration.symm.trans hd)

/-- **What has been prepared is renamed.**  Where a name is answered for a position, a rename
there is empty exactly if the declaration of the node at the position is missing.  In every other
case it has a bundle for the document, and in it the name is edited or overlaps a kept edit. -/
theorem rename_edits_prepared_name (h : prepare index texts uri p = some span)
    (newName : String) :
    ((rename index texts uri p newName).isEmpty = true ↔ index.DanglingAt uri p) ∧
      (¬index.DanglingAt uri p → ∃ d ∈ (rename index texts uri p newName).documents,
        d.uri = uri ∧ (⟨span, newName⟩ ∈ d.edits ∨
          ∃ kept ∈ d.edits, kept.span.overlaps span = true)) := by
  obtain ⟨n, node, hn, hnode, hdoc, o, rfl⟩ := exists_occurrence_of_prepare h
  constructor
  · rw [isEmpty_rename_iff]
    constructor
    · intro hnone
      by_contra hdangling
      exact hnone n (mem_referencesAt_of_not_dangling hn hnode hdangling) ⟨o⟩
    · intro hdangling m hm
      rw [referencesAt_eq_nil_of_dangling hdangling] at hm
      exact absurd hm List.not_mem_nil
  · intro hdangling
    have hmem := mem_referencesAt_of_not_dangling hn hnode hdangling
    obtain ⟨d, hd, huri⟩ := List.mem_map.mp
      (mem_documentUris_iff.mpr ⟨n, hmem, hdoc, ⟨o⟩⟩)
    exact ⟨d, hd, huri, edit_kept_or_overlaps hd hmem (hdoc.trans huri.symm) o⟩

/-- The name of the class is prepared at its use, and then it is edited there. -/
theorem shapes_use_is_edited :
    prepare Shapes.index Shapes.texts Shapes.useUri ⟨0, 14⟩ = some ⟨⟨0, 13⟩, ⟨0, 18⟩⟩ ∧
      ¬Shapes.index.DanglingAt Shapes.useUri ⟨0, 14⟩ ∧
      Shapes.renamed.isEmpty = false ∧
      ∃ d ∈ Shapes.renamed.documents, d.uri = Shapes.useUri ∧
        (⟨⟨⟨0, 13⟩, ⟨0, 18⟩⟩, "Polygon"⟩ ∈ d.edits ∨
          ∃ kept ∈ d.edits, kept.span.overlaps ⟨⟨0, 13⟩, ⟨0, 18⟩⟩ = true) := by
  have hprepare : prepare Shapes.index Shapes.texts Shapes.useUri ⟨0, 14⟩ =
      some ⟨⟨0, 13⟩, ⟨0, 18⟩⟩ := by
    decide +kernel
  have hreferences : Shapes.index.referencesAt Shapes.useUri ⟨0, 14⟩ ≠ [] := by decide
  have hdangling : ¬Shapes.index.DanglingAt Shapes.useUri ⟨0, 14⟩ :=
    fun h => hreferences (referencesAt_eq_nil_of_dangling h)
  obtain ⟨hempty, hedited⟩ := rename_edits_prepared_name hprepare "Polygon"
  exact ⟨hprepare, hdangling, Bool.eq_false_iff.mpr fun h => hdangling (hempty.mp h),
    hedited hdangling⟩

end Rename

end SymbolRename
