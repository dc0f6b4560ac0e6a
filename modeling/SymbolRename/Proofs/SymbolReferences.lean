import Mathlib.Data.List.Basic
import Mathlib.Data.List.Induction
import SymbolRename.Proofs.Occurrences

/-! # Symbols and their references

A declaration and the nodes that use it make up a symbol.  Where no declaration uses
another one (`SyntaxIndex.Grounded`), every node of a symbol leads to the same
declaration, so the references of a symbol are the same list whichever of its nodes
they are asked for (`Grounded.references_eq`), and that list is the symbol
(`Grounded.isSymbol`).  A rename looks at nothing but this list, so it does not matter
from which occurrence a symbol is renamed (`Rename.rename_same_from_every_occurrence`).
-/
namespace SymbolRename

namespace SyntaxIndex

variable {x : SyntaxIndex} {n m d : NodeId} {node : Node}

/-! ## Nodes -/

theorem mem_nodes_of_node? (h : x.node? n = some node) : node ∈ x.nodes :=
  List.mem_of_getElem? h

theorem lt_size_iff : n < x.size ↔ ∃ node, x.node? n = some node := by
  constructor
  · intro h
    exact ⟨x.nodes[n], List.getElem?_eq_getElem h⟩
  · rintro ⟨node, h⟩
    exact (List.getElem?_eq_some_iff.mp h).1

/-- Nodes are numbered in the order of the index. -/
theorem zipIdx_pairwise (x : SyntaxIndex) : x.nodes.zipIdx.Pairwise fun a b => a.2 < b.2 := by
  refine List.pairwise_map.mp ?_
  rw [List.zipIdx_map_snd]
  exact List.pairwise_lt_range'

theorem mem_candidates_of_innermost {candidates : List (NodeId × Span)} {c : NodeId × Span}
    (h : innermost candidates = some c) : c ∈ candidates := by
  induction candidates using List.reverseRecOn with
  | nil => cases h
  | append_singleton candidates last ih =>
    -- The last candidate is taken, or the best one before it stays.
    rw [innermost, List.foldl_append, ← innermost, List.foldl_cons, List.foldl_nil] at h
    cases hbest : innermost candidates with
    | none =>
      rw [hbest] at h
      obtain rfl := Option.some.inj h
      exact List.mem_append_right _ List.mem_cons_self
    | some b =>
      rw [hbest] at h
      dsimp only at h
      split at h
      · obtain rfl := Option.some.inj h
        exact List.mem_append_right _ List.mem_cons_self
      · exact List.mem_append_left _ (ih (hbest.trans h))

/-- The node at a position belongs to the document of the position. -/
theorem exists_node_of_nodeAt {uri : Uri} {p : Position} (h : x.nodeAt uri p = some n) :
    ∃ node, x.node? n = some node ∧ node.uri = some uri := by
  obtain ⟨c, hc, rfl⟩ := Option.map_eq_some_iff.mp h
  obtain ⟨⟨node, i⟩, hmem, hcandidate⟩ := List.mem_filterMap.mp (mem_candidates_of_innermost hc)
  obtain ⟨span, hspan, rfl⟩ := Option.map_eq_some_iff.mp hcandidate
  rw [candidateSpan?, Option.ite_none_right_eq_some] at hspan
  exact ⟨node, List.mk_mem_zipIdx_iff_getElem?.mp hmem, hspan.1.2⟩

/-! ## Uses and references -/

theorem mem_uses_iff : n ∈ x.uses d ↔ ∃ node, x.node? n = some node ∧ node.referent = some d := by
  rw [uses, List.mem_filterMap]
  constructor
  · rintro ⟨⟨node, i⟩, hmem, h⟩
    obtain ⟨hreferent, hi⟩ := Option.ite_none_right_eq_some.mp h
    obtain rfl := Option.some.inj hi
    exact ⟨node, List.mk_mem_zipIdx_iff_getElem?.mp hmem, hreferent⟩
  · rintro ⟨node, hnode, hreferent⟩
    exact ⟨(node, n), List.mk_mem_zipIdx_iff_getElem?.mpr hnode, if_pos hreferent⟩

/-- Uses come in the order of the index. -/
theorem uses_pairwise (x : SyntaxIndex) (d : NodeId) : (x.uses d).Pairwise (· < ·) := by
  refine List.pairwise_filterMap.mpr (x.zipIdx_pairwise.imp ?_)
  intro a b hab i hi j hj
  obtain ⟨-, hi⟩ := Option.ite_none_right_eq_some.mp hi
  obtain ⟨-, hj⟩ := Option.ite_none_right_eq_some.mp hj
  rwa [← Option.some.inj hi, ← Option.some.inj hj]

theorem declaration?_eq_of_node? (h : x.node? n = some node) :
    x.declaration? n = some (node.referent.getD n) := by
  rw [declaration?, h]
  rfl

theorem references_eq_cons (h : x.declaration? n = some d) (hd : d < x.size) :
    x.references n = d :: x.uses d := by
  rw [references, h]
  exact if_pos hd

/-- Only a node whose declaration is in the index has references. -/
theorem exists_declaration_of_mem (hm : m ∈ x.references n) :
    ∃ d, x.declaration? n = some d ∧ d < x.size ∧ x.references n = d :: x.uses d := by
  cases hd : x.declaration? n with
  | none =>
    rw [references, hd] at hm
    exact absurd hm List.not_mem_nil
  | some d =>
    by_cases hsize : d < x.size
    · exact ⟨d, rfl, hsize, references_eq_cons hd hsize⟩
    · rw [references, hd] at hm
      dsimp only at hm
      rw [if_neg hsize] at hm
      exact absurd hm List.not_mem_nil

/-- A node is one of its own references, if its declaration is in the index. -/
theorem mem_references_self (hnode : x.node? n = some node) (hd : node.referent.getD n < x.size) :
    n ∈ x.references n := by
  rw [references_eq_cons (declaration?_eq_of_node? hnode) hd]
  cases hreferent : node.referent with
  | none => exact List.mem_cons_self
  | some d =>
    refine List.mem_cons_of_mem d ?_
    exact mem_uses_iff.mpr ⟨node, hnode, hreferent⟩

/-! ## Symbols -/

/-- A node that is named as a referent has no referent itself. -/
def Grounded (x : SyntaxIndex) : Prop :=
  ∀ node ∈ x.nodes, ∀ d ∈ node.referent, ∀ declaration ∈ x.node? d, declaration.referent = none

instance (x : SyntaxIndex) : Decidable x.Grounded :=
  inferInstanceAs (Decidable (∀ node ∈ x.nodes, ∀ d ∈ node.referent,
    ∀ declaration ∈ x.node? d, declaration.referent = none))

/-- A declaration and all its uses. -/
structure IsSymbol (x : SyntaxIndex) (declaration : NodeId) (uses : List NodeId) : Prop where
  /-- The declaration is in the index and uses nothing itself. -/
  declared : ∃ node, x.node? declaration = some node ∧ node.referent = none
  /-- The uses are the nodes whose referent is the declaration. -/
  used_iff : ∀ i, i ∈ uses ↔ ∃ node, x.node? i = some node ∧ node.referent = some declaration
  /-- The uses come in the order of the index, each once. -/
  increasing : uses.Pairwise (· < ·)

theorem IsSymbol.nodup {uses : List NodeId} (h : x.IsSymbol d uses) : (d :: uses).Nodup := by
  refine List.nodup_cons.mpr ⟨?_, h.increasing.imp Nat.ne_of_lt⟩
  intro hd
  obtain ⟨node, hnode, hreferent⟩ := (h.used_iff d).mp hd
  obtain ⟨node', hnode', hnone⟩ := h.declared
  obtain rfl := Option.some.inj (hnode.symm.trans hnode')
  exact Option.some_ne_none d (hreferent.symm.trans hnone)

namespace Grounded

/-- The declaration of a node has no referent. -/
theorem referent_eq_none (h : x.Grounded) {declaration : Node} (hd : x.declaration? n = some d)
    (hnode : x.node? d = some declaration) : declaration.referent = none := by
  obtain ⟨node, hn, hdecl⟩ := Option.map_eq_some_iff.mp hd
  cases hreferent : node.referent with
  | none =>
    rw [hreferent, Option.getD_none] at hdecl
    rw [hdecl, hnode] at hn
    rwa [Option.some.inj hn]
  | some d' =>
    rw [hreferent, Option.getD_some] at hdecl
    exact h node (mem_nodes_of_node? hn) d (hdecl ▸ hreferent) declaration hnode

/-- All references of a node have its declaration. -/
theorem declaration?_eq (h : x.Grounded) (hm : m ∈ x.references n) :
    x.declaration? m = x.declaration? n := by
  obtain ⟨d, hd, hsize, hrefs⟩ := exists_declaration_of_mem hm
  rw [hd]
  rw [hrefs] at hm
  rcases List.mem_cons.mp hm with rfl | huse
  · obtain ⟨node, hnode⟩ := lt_size_iff.mp hsize
    rw [declaration?_eq_of_node? hnode, h.referent_eq_none hd hnode, Option.getD_none]
  · obtain ⟨node, hnode, hreferent⟩ := mem_uses_iff.mp huse
    rw [declaration?_eq_of_node? hnode, hreferent, Option.getD_some]

/-- **All nodes of a symbol have the same references.** -/
theorem references_eq (h : x.Grounded) (hm : m ∈ x.references n) :
    x.references m = x.references n := by
  rw [references, h.declaration?_eq hm]
  rfl

/-- **The references of a node are its symbol**, and the node is one of them. -/
theorem isSymbol (h : x.Grounded) (hm : m ∈ x.references n) :
    ∃ d uses, x.references n = d :: uses ∧ x.IsSymbol d uses ∧ n ∈ d :: uses := by
  obtain ⟨d, hd, hsize, hrefs⟩ := exists_declaration_of_mem hm
  refine ⟨d, x.uses d, hrefs, ⟨?_, fun _ => mem_uses_iff, x.uses_pairwise d⟩, ?_⟩
  · obtain ⟨node, hnode⟩ := lt_size_iff.mp hsize
    exact ⟨node, hnode, h.referent_eq_none hd hnode⟩
  · obtain ⟨node, hnode, hdecl⟩ := Option.map_eq_some_iff.mp hd
    rw [← hrefs]
    exact mem_references_self hnode (hdecl ▸ hsize)

end Grounded

end SyntaxIndex

namespace Rename

variable {index : SyntaxIndex} {n m : NodeId}

/-- A rename depends on where it is asked for only through the references that it finds there,
and through the document to which nodes without a document are counted. -/
theorem rename_congr {uri₁ uri₂ : Uri} {p₁ p₂ : Position}
    (hrefs : index.referencesAt uri₁ p₁ = index.referencesAt uri₂ p₂)
    (hhome : (∀ k ∈ index.referencesAt uri₁ p₁, (index.uri? k).isSome) ∨ uri₁ = uri₂)
    (texts : TextSource) (newName : String) :
    rename index texts uri₁ p₁ newName = rename index texts uri₂ p₂ newName := by
  have hsites : sitesAt index texts uri₁ p₁ = sitesAt index texts uri₂ p₂ := by
    rw [sitesAt, sitesAt, ← hrefs]
    refine List.filterMap_congr fun k hk => ?_
    have hdoc : index.documentOf uri₁ k = index.documentOf uri₂ k := by
      rcases hhome with hown | rfl
      · obtain ⟨uri, huri⟩ := Option.isSome_iff_exists.mp (hown k hk)
        rw [SyntaxIndex.documentOf, SyntaxIndex.documentOf, huri, Option.getD_some,
          Option.getD_some]
      · rfl
    exact locate_toOption_congr hdoc fun text => by rw [hdoc]
  rw [rename_eq_ofEdits, rename_eq_ofEdits, hsites]

/-- **A rename is the same from every occurrence.**  In a grounded index all references of a node
have the same references: the declaration of a symbol and then its uses, in the order of the
index and each once.  So wherever a symbol is renamed from, the same is done, if its nodes name
their documents or the requests name the same document. -/
theorem rename_same_from_every_occurrence (hindex : index.Grounded)
    (hm : m ∈ index.references n) :
    index.references m = index.references n ∧ (index.references n).Nodup ∧
      (∃ declaration uses, index.references n = declaration :: uses ∧
        index.IsSymbol declaration uses ∧ n ∈ declaration :: uses) ∧
      ∀ (uri₁ uri₂ : Uri) (p₁ p₂ : Position), index.nodeAt uri₁ p₁ = some n →
        index.nodeAt uri₂ p₂ = some m →
        ((∀ k ∈ index.references n, (index.uri? k).isSome) ∨ uri₁ = uri₂) →
        ∀ (texts : TextSource) (newName : String),
          rename index texts uri₁ p₁ newName = rename index texts uri₂ p₂ newName := by
  have hrefs := hindex.references_eq hm
  obtain ⟨declaration, uses, hlist, hsymbol, hn⟩ := hindex.isSymbol hm
  refine ⟨hrefs, hlist ▸ hsymbol.nodup, ⟨declaration, uses, hlist, hsymbol, hn⟩, ?_⟩
  intro uri₁ uri₂ p₁ p₂ h₁ h₂ hhome texts newName
  have hat₁ : index.referencesAt uri₁ p₁ = index.references n := by
    rw [SyntaxIndex.referencesAt, h₁]
  have hat₂ : index.referencesAt uri₂ p₂ = index.references m := by
    rw [SyntaxIndex.referencesAt, h₂]
  refine rename_congr ?_ ?_ texts newName
  · rw [hat₁, hat₂, hrefs]
  · rwa [hat₁]

/-- The class is renamed from its use as from its declaration. -/
theorem shapes_renamed_from_declaration :
    Shapes.index.Grounded ∧ 0 ∈ Shapes.index.references 2 ∧
      Shapes.index.nodeAt Shapes.useUri ⟨0, 14⟩ = some 2 ∧
      Shapes.index.nodeAt Shapes.classUri ⟨0, 8⟩ = some 0 ∧
      Shapes.renamed = rename Shapes.index Shapes.texts Shapes.classUri ⟨0, 8⟩ "Polygon" := by
  have hindex : Shapes.index.Grounded := by decide
  have hm : 0 ∈ Shapes.index.references 2 := by decide
  have huse : Shapes.index.nodeAt Shapes.useUri ⟨0, 14⟩ = some 2 := by decide
  have hdeclaration : Shapes.index.nodeAt Shapes.classUri ⟨0, 8⟩ = some 0 := by decide
  have hown : ∀ k ∈ Shapes.index.references 2, (Shapes.index.uri? k).isSome := by decide
  exact ⟨hindex, hm, huse, hdeclaration, (rename_same_from_every_occurrence hindex hm).2.2.2
    _ _ _ _ huse hdeclaration (Or.inl hown) _ _⟩

end Rename

end SymbolRename
