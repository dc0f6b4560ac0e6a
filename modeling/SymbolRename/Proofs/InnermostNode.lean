import SymbolRename.Proofs.SymbolReferences

/-! # The innermost node at a position

A cursor stands in many nodes at once, and a rename takes one of them.  `Candidate` says
which nodes come into question, and `IsInnermost` which of them is meant: none starts
behind it, none lies strictly inside it, and of those with its span it was added last.
At most one node is innermost (`IsInnermost.unique`), and the sweep over all candidates
ends with it (`innermost_leads`), so `nodeAt` finds the innermost node and nothing else.
Spans may touch, cross or be reversed; a node that is no candidate changes at most the
numbers of the others (`candidates_insert`).
-/
namespace SymbolRename

/-- `s` lies within `t`. -/
def Span.Within (s t : Span) : Prop := t.start ≤ s.start ∧ s.stop ≤ t.stop

/-- A renameable node of a document whose span holds a position, both ends included. -/
structure Node.LiesAt (node : Node) (uri : Uri) (p : Position) (span : Span) : Prop where
  renameable : node.category ≠ none
  uri_eq : node.uri = some uri
  span_eq : node.span = some span
  start_le : span.start ≤ p
  le_stop : p ≤ span.stop

namespace SyntaxIndex

open Position

variable {x : SyntaxIndex} {uri : Uri} {p : Position} {n m : NodeId} {s t u : Span}

/-- The node with the number `n` may be meant by a position, and `span` is its span. -/
def Candidate (x : SyntaxIndex) (uri : Uri) (p : Position) (n : NodeId) (span : Span) : Prop :=
  ∃ node, x.node? n = some node ∧ node.LiesAt uri p span

/-- The candidate that a position means. -/
structure IsInnermost (x : SyntaxIndex) (uri : Uri) (p : Position) (n : NodeId) (span : Span) :
    Prop where
  candidate : x.Candidate uri p n span
  /-- No candidate starts behind it. -/
  latest : ∀ m t, x.Candidate uri p m t → t.start ≤ span.start
  /-- No candidate lies strictly inside it. -/
  minimal : ∀ m t, x.Candidate uri p m t → t.Within span → t = span
  /-- Of the candidates with its span it was added last. -/
  newest : ∀ m, x.Candidate uri p m span → m ≤ n

/-! ## Candidates -/

theorem candidateSpan?_eq_some_iff {node : Node} :
    candidateSpan? uri p node = some s ↔ node.LiesAt uri p s := by
  rw [candidateSpan?, Option.ite_none_right_eq_some, Option.filter_eq_some_iff, Span.contains,
    decide_eq_true_eq]
  constructor
  · rintro ⟨⟨hcategory, huri⟩, hspan, hstart, hstop⟩
    exact ⟨Option.isSome_iff_ne_none.mp hcategory, huri, hspan, hstart, hstop⟩
  · intro h
    exact ⟨⟨Option.isSome_iff_ne_none.mpr h.renameable, h.uri_eq⟩, h.span_eq, h.start_le, h.le_stop⟩

theorem candidateSpan?_eq_none_iff {node : Node} :
    candidateSpan? uri p node = none ↔ ∀ s, ¬node.LiesAt uri p s := by
  rw [Option.eq_none_iff_forall_not_mem]
  exact forall_congr' fun s => not_congr candidateSpan?_eq_some_iff

/-- What lacks a category or a span, belongs to another document or has a reversed span is no
candidate anywhere. -/
theorem not_liesAt {node : Node} (h : node.category = none ∨ node.span = none ∨
    node.uri ≠ some uri ∨ ∃ t, node.span = some t ∧ t.stop < t.start) (s : Span) :
    ¬node.LiesAt uri p s := by
  intro hlies
  rcases h with hcategory | hspan | huri | ⟨t, ht, hreversed⟩
  · exact hlies.renameable hcategory
  · exact Option.some_ne_none s (hlies.span_eq.symm.trans hspan)
  · exact huri hlies.uri_eq
  · obtain rfl := Option.some.inj (ht.symm.trans hlies.span_eq)
    exact not_lt.mpr (le_trans hlies.start_le hlies.le_stop) hreversed

/-- The candidates among nodes that are numbered from `k` on. -/
def candidatesFrom (uri : Uri) (p : Position) (k : Nat) (nodes : List Node) :
    List (NodeId × Span) :=
  (nodes.zipIdx k).filterMap fun (node, i) => (candidateSpan? uri p node).map fun span => (i, span)

theorem candidates_eq_candidatesFrom : x.candidates uri p = candidatesFrom uri p 0 x.nodes := rfl

theorem mem_candidates_iff : (n, s) ∈ x.candidates uri p ↔ x.Candidate uri p n s := by
  rw [candidates, List.mem_filterMap]
  constructor
  · rintro ⟨⟨node, i⟩, hmem, h⟩
    obtain ⟨span, hspan, heq⟩ := Option.map_eq_some_iff.mp h
    cases heq
    exact ⟨node, List.mk_mem_zipIdx_iff_getElem?.mp hmem, candidateSpan?_eq_some_iff.mp hspan⟩
  · rintro ⟨node, hnode, hlies⟩
    refine ⟨(node, n), List.mk_mem_zipIdx_iff_getElem?.mpr hnode, ?_⟩
    exact Option.map_eq_some_iff.mpr ⟨s, candidateSpan?_eq_some_iff.mpr hlies, rfl⟩

/-- Candidates come in the order of the index. -/
theorem candidates_pairwise (x : SyntaxIndex) (uri : Uri) (p : Position) :
    (x.candidates uri p).Pairwise fun a b => a.1 < b.1 := by
  refine List.pairwise_filterMap.mpr (x.zipIdx_pairwise.imp ?_)
  rintro ⟨node, i⟩ ⟨node', j⟩ hij a ha b hb
  obtain ⟨-, -, rfl⟩ := Option.map_eq_some_iff.mp ha
  obtain ⟨-, -, rfl⟩ := Option.map_eq_some_iff.mp hb
  exact hij

/-! ## The sweep -/

theorem insideOf_iff :
    insideOf s t = true ↔ s.start < t.start ∨ (s.start = t.start ∧ t.stop ≤ s.stop) := by
  rw [insideOf, decide_eq_true_eq]

theorem insideOf_refl (s : Span) : insideOf s s = true :=
  insideOf_iff.mpr (Or.inr ⟨rfl, Position.le_refl s.stop⟩)

theorem insideOf_trans (hst : insideOf s t = true) (htu : insideOf t u = true) :
    insideOf s u = true := by
  rw [insideOf_iff] at *
  rcases hst with hst | ⟨hst, hstops⟩
  · rcases htu with htu | ⟨htu, -⟩
    · exact Or.inl (lt_of_lt_of_le hst (le_of_lt htu))
    · exact Or.inl (htu ▸ hst)
  · rcases htu with htu | ⟨htu, hstops'⟩
    · exact Or.inl (hst ▸ htu)
    · exact Or.inr ⟨hst.trans htu, le_trans hstops' hstops⟩

theorem insideOf_of_not (h : ¬insideOf s t = true) : insideOf t s = true := by
  rw [insideOf_iff, not_or, not_and, not_lt] at h
  rw [insideOf_iff]
  rcases h.1 with hlt | heq
  · exact Or.inl hlt
  · exact Or.inr ⟨heq, (le_total s.stop t.stop).resolve_right (h.2 heq.symm)⟩

theorem innermost_concat (l : List (NodeId × Span)) (c : NodeId × Span) :
    innermost (l ++ [c]) =
      match innermost l with
      | none => some c
      | some b => if insideOf b.2 c.2 then some c else some b := by
  rw [innermost, List.foldl_append]
  rfl

theorem innermost_eq_none_iff {l : List (NodeId × Span)} : innermost l = none ↔ l = [] := by
  constructor
  · intro h
    rcases List.eq_nil_or_concat' l with rfl | ⟨front, c, rfl⟩
    · rfl
    · rw [innermost_concat] at h
      split at h
      · cases h
      · split at h <;> cases h
  · rintro rfl
    rfl

/-- A candidate lies inside of all others and is the last of those with its span. -/
def Leads (l : List (NodeId × Span)) (c : NodeId × Span) : Prop :=
  ∀ d ∈ l, insideOf d.2 c.2 = true ∧ (d.2 = c.2 → d.1 ≤ c.1)

theorem leads_concat_iff {l : List (NodeId × Span)} {c d : NodeId × Span} :
    Leads (l ++ [d]) c ↔ Leads l c ∧ insideOf d.2 c.2 = true ∧ (d.2 = c.2 → d.1 ≤ c.1) := by
  rw [Leads, List.forall_mem_append, List.forall_mem_singleton]
  exact Iff.rfl

/-- A new candidate takes the lead if it lies inside of all others. -/
theorem leads_concat_self {l : List (NodeId × Span)} {c : NodeId × Span}
    (h : ∀ d ∈ l, insideOf d.2 c.2 = true ∧ d.1 < c.1) : Leads (l ++ [c]) c := by
  refine leads_concat_iff.mpr ⟨?_, insideOf_refl c.2, fun _ => Nat.le_refl c.1⟩
  intro d hd
  exact ⟨(h d hd).1, fun _ => Nat.le_of_lt (h d hd).2⟩

/-- **The sweep ends with the candidate that leads.** -/
theorem innermost_leads {l : List (NodeId × Span)} {c : NodeId × Span}
    (hsorted : l.Pairwise fun a b => a.1 < b.1) (h : innermost l = some c) : Leads l c := by
  induction l using List.reverseRecOn generalizing c with
  | nil => cases h
  | append_singleton l last ih =>
    obtain ⟨hl, -, hlast⟩ := List.pairwise_append.mp hsorted
    replace hlast : ∀ d ∈ l, d.1 < last.1 := fun d hd => hlast d hd last List.mem_cons_self
    rw [innermost_concat] at h
    cases hbest : innermost l with
    | none =>
      obtain rfl := innermost_eq_none_iff.mp hbest
      rw [hbest] at h
      obtain rfl := Option.some.inj h
      exact leads_concat_self fun d hd => absurd hd List.not_mem_nil
    | some best =>
      have hleads : Leads l best := ih hl hbest
      rw [hbest] at h
      dsimp only at h
      split at h
      · -- The last candidate lies inside of the best one, and so of all others.
        rename_i hinside
        obtain rfl := Option.some.inj h
        exact leads_concat_self fun d hd => ⟨insideOf_trans (hleads d hd).1 hinside, hlast d hd⟩
      · -- The best one stays, and the last candidate has another span.
        rename_i houtside
        obtain rfl := Option.some.inj h
        refine leads_concat_iff.mpr ⟨hleads, insideOf_of_not houtside, fun hspan => ?_⟩
        exact absurd (hspan ▸ insideOf_refl last.2) houtside

/-- The sweep looks at spans only, so numbers may be changed before or after it. -/
theorem innermost_map (f : NodeId → NodeId) (l : List (NodeId × Span)) :
    innermost (l.map fun c => (f c.1, c.2)) = (innermost l).map fun c => (f c.1, c.2) := by
  induction l using List.reverseRecOn with
  | nil => rfl
  | append_singleton l last ih =>
    rw [List.map_append, List.map_cons, List.map_nil, innermost_concat, innermost_concat, ih]
    cases innermost l with
    | none => rfl
    | some best =>
      simp only [Option.map_some]
      split <;> rfl

/-! ## The innermost node -/

/-- What lies inside of every candidate, and is the last with its span, is innermost. -/
theorem isInnermost_of_insideOf (hn : x.Candidate uri p n s)
    (hinside : ∀ m t, x.Candidate uri p m t → insideOf t s = true)
    (hnewest : ∀ m, x.Candidate uri p m s → m ≤ n) : x.IsInnermost uri p n s := by
  refine ⟨hn, ?_, ?_, hnewest⟩
  · intro m t hm
    rcases insideOf_iff.mp (hinside m t hm) with hlt | ⟨heq, -⟩
    · exact le_of_lt hlt
    · exact heq ▸ Position.le_refl t.start
  · intro m t hm hwithin
    rcases insideOf_iff.mp (hinside m t hm) with hlt | ⟨heq, hstop⟩
    · exact absurd hlt (not_lt.mpr hwithin.1)
    · obtain ⟨start, stop⟩ := t
      obtain ⟨start', stop'⟩ := s
      obtain rfl : start = start' := heq
      obtain rfl : stop = stop' := le_antisymm hwithin.2 hstop
      rfl

/-- Candidates that start together lie one within the other, so only one span is innermost. -/
theorem IsInnermost.unique (h : x.IsInnermost uri p n s) (h' : x.IsInnermost uri p m t) :
    n = m ∧ s = t := by
  have hstart : s.start = t.start :=
    le_antisymm (h'.latest n s h.candidate) (h.latest m t h'.candidate)
  have hspan : s = t := by
    rcases le_total s.stop t.stop with hstop | hstop
    · exact h'.minimal n s h.candidate ⟨hstart ▸ Position.le_refl _, hstop⟩
    · exact (h.minimal m t h'.candidate ⟨hstart ▸ Position.le_refl _, hstop⟩).symm
  subst hspan
  exact ⟨Nat.le_antisymm (h'.newest n h.candidate) (h.newest m h'.candidate), rfl⟩

theorem nodeAt_eq_none_iff : x.nodeAt uri p = none ↔ ∀ n s, ¬x.Candidate uri p n s := by
  rw [nodeAt, Option.map_eq_none_iff, innermost_eq_none_iff, List.eq_nil_iff_forall_not_mem]
  constructor
  · intro h n s hcandidate
    exact h (n, s) (mem_candidates_iff.mpr hcandidate)
  · rintro h ⟨n, s⟩ hmem
    exact h n s (mem_candidates_iff.mp hmem)

theorem exists_isInnermost_of_nodeAt (h : x.nodeAt uri p = some n) :
    ∃ s, x.IsInnermost uri p n s := by
  obtain ⟨⟨i, s⟩, hc, rfl⟩ := Option.map_eq_some_iff.mp h
  have hleads := innermost_leads (x.candidates_pairwise uri p) hc
  refine ⟨s, isInnermost_of_insideOf ?_ ?_ ?_⟩
  · exact mem_candidates_iff.mp (mem_candidates_of_innermost hc)
  · intro m t hm
    exact (hleads (m, t) (mem_candidates_iff.mpr hm)).1
  · intro m hm
    exact (hleads (m, s) (mem_candidates_iff.mpr hm)).2 rfl

theorem nodeAt_eq_some_iff : x.nodeAt uri p = some n ↔ ∃ s, x.IsInnermost uri p n s := by
  constructor
  · exact exists_isInnermost_of_nodeAt
  · rintro ⟨s, hs⟩
    cases hat : x.nodeAt uri p with
    | none => exact absurd hs.candidate (nodeAt_eq_none_iff.mp hat n s)
    | some m =>
      obtain ⟨t, ht⟩ := exists_isInnermost_of_nodeAt hat
      rw [(hs.unique ht).1]

/-- Where of two candidates one always lies within the other, the innermost lies within all. -/
theorem IsInnermost.within_of_nested (h : x.IsInnermost uri p n s)
    (hnested : ∀ i t j u, x.Candidate uri p i t → x.Candidate uri p j u →
      t.Within u ∨ u.Within t) (hm : x.Candidate uri p m t) : s.Within t := by
  rcases hnested n s m t h.candidate hm with hwithin | hwithin
  · exact hwithin
  · rw [h.minimal m t hm hwithin]
    exact ⟨Position.le_refl _, Position.le_refl _⟩

/-! ## Nodes that are no candidates -/

theorem candidatesFrom_append (k : Nat) (front back : List Node) :
    candidatesFrom uri p k (front ++ back) =
      candidatesFrom uri p k front ++ candidatesFrom uri p (k + front.length) back := by
  rw [candidatesFrom, List.zipIdx_append, List.filterMap_append]
  rfl

theorem candidatesFrom_eq_nil {k : Nat} {nodes : List Node}
    (h : ∀ node ∈ nodes, ∀ s, ¬node.LiesAt uri p s) : candidatesFrom uri p k nodes = [] := by
  refine List.filterMap_eq_nil_iff.mpr ?_
  rintro ⟨node, i⟩ hmem
  have hnode : node ∈ nodes := by
    rw [(List.mem_zipIdx hmem).2.2]
    exact List.getElem_mem _
  dsimp only
  rw [candidateSpan?_eq_none_iff.mpr (h node hnode), Option.map_none]

theorem candidatesFrom_add (k d : Nat) (nodes : List Node) :
    candidatesFrom uri p (k + d) nodes =
      (candidatesFrom uri p k nodes).map fun c => (c.1 + d, c.2) := by
  rw [candidatesFrom, candidatesFrom, List.map_filterMap, Nat.add_comm,
    ← List.map_snd_add_zipIdx_eq_zipIdx, List.filterMap_map]
  refine List.filterMap_congr ?_
  rintro ⟨node, i⟩ -
  show (candidateSpan? uri p node).map (fun span => (i + d, span)) = _
  rw [Option.map_map]
  rfl

theorem number_of_mem_candidatesFrom {k : Nat} {nodes : List Node} {c : NodeId × Span}
    (hc : c ∈ candidatesFrom uri p k nodes) : k ≤ c.1 ∧ c.1 < k + nodes.length := by
  obtain ⟨⟨node, i⟩, hmem, h⟩ := List.mem_filterMap.mp hc
  obtain ⟨-, -, rfl⟩ := Option.map_eq_some_iff.mp h
  exact ⟨(List.mem_zipIdx hmem).1, (List.mem_zipIdx hmem).2.1⟩

/-- The number of a node after `added` nodes have been put in at the number `k`. -/
def renumber (k added : Nat) (n : NodeId) : NodeId := if n < k then n else n + added

/-- Nodes that are no candidates change only the numbers of the candidates behind them. -/
theorem candidates_insert {front added back : List Node}
    (h : ∀ node ∈ added, ∀ s, ¬node.LiesAt uri p s) :
    candidates ⟨front ++ added ++ back⟩ uri p =
      (candidates ⟨front ++ back⟩ uri p).map fun c =>
        (renumber front.length added.length c.1, c.2) := by
  simp only [candidates_eq_candidatesFrom, candidatesFrom_append, candidatesFrom_eq_nil h,
    List.append_nil, List.map_append, Nat.zero_add]
  congr 1
  · have hsame : ∀ c ∈ candidatesFrom uri p 0 front,
        (renumber front.length added.length c.1, c.2) = c := by
      intro c hc
      have hlt := (number_of_mem_candidatesFrom hc).2
      rw [Nat.zero_add] at hlt
      rw [renumber, if_pos hlt]
    rw [List.map_congr_left hsame, List.map_id']
  · rw [List.length_append, candidatesFrom_add]
    refine List.map_congr_left fun c hc => ?_
    have hle := (number_of_mem_candidatesFrom hc).1
    rw [renumber, if_neg (Nat.not_lt.mpr hle)]

theorem nodeAt_insert (front back : List Node) {added : List Node}
    (h : ∀ node ∈ added, ∀ s, ¬node.LiesAt uri p s) :
    nodeAt ⟨front ++ added ++ back⟩ uri p =
      (nodeAt ⟨front ++ back⟩ uri p).map (renumber front.length added.length) := by
  rw [nodeAt, nodeAt, candidates_insert h, innermost_map, Option.map_map, Option.map_map]
  rfl

theorem nodes_foldl_add (x : SyntaxIndex) (added : List Node) :
    added.foldl add x = ⟨x.nodes ++ added⟩ := by
  induction added generalizing x with
  | nil => rw [List.foldl_nil, List.append_nil]
  | cons node added ih => rw [List.foldl_cons, ih, add, List.append_assoc, List.singleton_append]

theorem nodeAt_foldl_add {added : List Node} (h : ∀ node ∈ added, ∀ s, ¬node.LiesAt uri p s) :
    (added.foldl add x).nodeAt uri p = x.nodeAt uri p := by
  have hinsert := nodeAt_insert x.nodes [] h
  rw [List.append_nil, List.append_nil] at hinsert
  rw [nodes_foldl_add, hinsert]
  cases hat : x.nodeAt uri p with
  | none => rfl
  | some n =>
    obtain ⟨node, hnode, -⟩ := exists_node_of_nodeAt hat
    have hn : n < x.nodes.length := lt_size_iff.mpr ⟨node, hnode⟩
    rw [Option.map_some, renumber, if_pos hn]

/-- **The node at a position is the innermost candidate.**  There is none exactly if there is no
candidate, and otherwise it is the one that no candidate starts behind, that no candidate lies
strictly inside of, and that was added last of those with its span; where candidates are nested
it lies within all of them.  Nodes that are no candidates do not change it when they are added,
and anywhere else they only change its number.  Such are all nodes without a category or a span,
in other documents or with a reversed span. -/
theorem nodeAt_finds_innermost (x : SyntaxIndex) (uri : Uri) (p : Position) :
    (x.nodeAt uri p = none ↔ ∀ n s, ¬x.Candidate uri p n s) ∧
    (∀ n, x.nodeAt uri p = some n ↔ ∃ s, x.IsInnermost uri p n s) ∧
    (∀ n s, x.IsInnermost uri p n s →
      (∀ i t j u, x.Candidate uri p i t → x.Candidate uri p j u → t.Within u ∨ u.Within t) →
      ∀ m t, x.Candidate uri p m t → s.Within t) ∧
    (∀ added : List Node, (∀ node ∈ added, ∀ s, ¬node.LiesAt uri p s) →
      (added.foldl add x).nodeAt uri p = x.nodeAt uri p) ∧
    (∀ front added back : List Node, (∀ node ∈ added, ∀ s, ¬node.LiesAt uri p s) →
      x = ⟨front ++ back⟩ → nodeAt ⟨front ++ added ++ back⟩ uri p =
        (x.nodeAt uri p).map (renumber front.length added.length)) ∧
    ∀ node : Node, (node.category = none ∨ node.span = none ∨ node.uri ≠ some uri ∨
      ∃ t, node.span = some t ∧ t.stop < t.start) → ∀ s, ¬node.LiesAt uri p s := by
  refine ⟨nodeAt_eq_none_iff, fun n => nodeAt_eq_some_iff, ?_, ?_, ?_, ?_⟩
  · intro n s h hnested m t hm
    exact h.within_of_nested hnested hm
  · intro added hadded
    exact nodeAt_foldl_add hadded
  · rintro front added back hadded rfl
    exact nodeAt_insert front back hadded
  · intro node hnode
    exact not_liesAt hnode

end SyntaxIndex

end SymbolRename
