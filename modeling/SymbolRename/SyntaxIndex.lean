import SymbolRename.Category
import SymbolRename.Uri.Basic

/-! # The nodes of a workspace

The index lists the nodes of all documents in the order in which they were added;
the number of a node is its place in that list.  `nodeAt` finds the innermost node
at a position, `references` the declaration of a symbol and all its uses.
-/
namespace SymbolRename

/-- The place of a node in the index. -/
abbrev NodeId := Nat

/-- The node that a number from outside names.  Nodes are numbered with 32 bits, and the bits
beyond do not count. -/
def NodeId.ofNumber (n : Nat) : NodeId := n % 4294967296

/-- A node as the analysis of a document reports it.  `parent` is the declaration around it,
`referent` the declaration that it uses; a declaration has no referent. -/
structure Node where
  category : Option Category
  uri : Option Uri
  span : Option Span
  parent : Option NodeId
  referent : Option NodeId
deriving DecidableEq, Repr

/-- All nodes that have been added. -/
structure SyntaxIndex where
  nodes : List Node
deriving DecidableEq, Repr

namespace SyntaxIndex

def empty : SyntaxIndex := ⟨[]⟩

def size (x : SyntaxIndex) : Nat := x.nodes.length

def add (x : SyntaxIndex) (node : Node) : SyntaxIndex := ⟨x.nodes ++ [node]⟩

def node? (x : SyntaxIndex) (i : NodeId) : Option Node := x.nodes[i]?

def category? (x : SyntaxIndex) (i : NodeId) : Option Category := x.node? i >>= Node.category

def uri? (x : SyntaxIndex) (i : NodeId) : Option Uri := x.node? i >>= Node.uri

def span? (x : SyntaxIndex) (i : NodeId) : Option Span := x.node? i >>= Node.span

def parent? (x : SyntaxIndex) (i : NodeId) : Option NodeId := x.node? i >>= Node.parent

/-- The span of a node that is renameable and lies at a position of a document. -/
def candidateSpan? (uri : Uri) (p : Position) (node : Node) : Option Span :=
  if node.category.isSome ∧ node.uri = some uri then node.span.filter (·.contains p) else none

/-- The renameable nodes at a position, in the order of the index. -/
def candidates (x : SyntaxIndex) (uri : Uri) (p : Position) : List (NodeId × Span) :=
  x.nodes.zipIdx.filterMap fun (node, i) => (candidateSpan? uri p node).map fun span => (i, span)

/-- `t` starts behind `s`, or starts with it and ends no later. -/
def insideOf (s t : Span) : Bool :=
  s.start < t.start ∨ (s.start = t.start ∧ t.stop ≤ s.stop)

/-- The last of the innermost candidates. -/
def innermost (candidates : List (NodeId × Span)) : Option (NodeId × Span) :=
  candidates.foldl
    (fun best c =>
      match best with
      | none => some c
      | some b => if insideOf b.2 c.2 then some c else some b)
    none

/-- The innermost renameable node at a position. -/
def nodeAt (x : SyntaxIndex) (uri : Uri) (p : Position) : Option NodeId :=
  (innermost (x.candidates uri p)).map (·.1)

/-- The nodes that use a declaration, in the order of the index. -/
def uses (x : SyntaxIndex) (declaration : NodeId) : List NodeId :=
  x.nodes.zipIdx.filterMap fun (node, i) => if node.referent = some declaration then some i else none

/-- The declaration of the symbol that a node stands for: its referent, or itself. -/
def declaration? (x : SyntaxIndex) (i : NodeId) : Option NodeId :=
  (x.node? i).map fun node => node.referent.getD i

/-- The declaration of a node's symbol followed by its uses; none if the declaration is not there. -/
def references (x : SyntaxIndex) (i : NodeId) : List NodeId :=
  match x.declaration? i with
  | none => []
  | some declaration => if declaration < x.size then declaration :: x.uses declaration else []

end SyntaxIndex

end SymbolRename
