import SymbolRename.Documents
import SymbolRename.NameLocation
import SymbolRename.SyntaxIndex
import SymbolRename.Uri.RenamedFile
import SymbolRename.WorkspaceEdit

/-! # Renaming a symbol

Every reference of the symbol at a position is located on its own: `locate` finds
the name in the first line of its span, or says why the reference is passed over.
`rename` turns the located references into one `WorkspaceEdit`; a reference that
cannot be located takes nothing away from the others.
-/
namespace SymbolRename

/-- Why a reference is passed over. -/
inductive SkipReason where
  | notRenameable
  | noRange
  | noText (cause : TextError)
  | rangeOutOfText
  | nameNotFound
deriving DecidableEq, Repr

/-- An occurrence of a symbol.  `span` is the first line of the node, and `name` the span
of the name measured from the start of it. -/
structure Site where
  category : Category
  uri : Uri
  span : Span
  topLevel : Bool
  name : Span
deriving DecidableEq, Repr

namespace Site

/-- Where the name stands in its document. -/
def nameSpan (site : Site) : Span := site.name.shift site.span.start

/-- The edit that gives the occurrence a new name. -/
def edit (site : Site) (newName : String) : TextEdit := ⟨site.nameSpan, newName⟩

/-- A type that no other declaration surrounds shares its name with its file. -/
def fileRename? (site : Site) (newName : String) : Option FileRename :=
  if site.category.isType && site.topLevel then
    (site.uri.renamedFile newName).map fun newUri => ⟨site.uri, newUri⟩
  else none

end Site

namespace Rename

/-- The lines of a node's span in which its name is looked for. -/
def searchedLines : Nat := 1

variable (index : SyntaxIndex) (texts : TextSource)

/-- Finds the name of a node; a node without a document of its own belongs to `home`. -/
def locate (home : Uri) (node : NodeId) : Except SkipReason Site := do
  let some category := index.category? node | .error .notRenameable
  let uri := (index.uri? node).getD home
  let some span := index.span? node | .error .noRange
  let text ← (texts uri).mapError .noText
  let some line := Text.slice? text.toList span searchedLines | .error .rangeOutOfText
  let some name := NameLocation.locate category line | .error .nameNotFound
  return ⟨category, uri, ⟨span.start, span.start.advance line⟩, (index.parent? node).isNone, name⟩

/-- The references of a node, each with its site or with the reason to pass it over. -/
def attempts (home : Uri) (node : NodeId) : List (NodeId × Except SkipReason Site) :=
  (index.references node).map fun reference => (reference, locate index texts home reference)

/-- The references of a node that can be renamed. -/
def sites (home : Uri) (node : NodeId) : List Site :=
  (index.references node).filterMap fun reference => (locate index texts home reference).toOption

/-- The edits of sites, each with its document. -/
def siteEdits (sites : List Site) (newName : String) : List (Uri × TextEdit) :=
  sites.map fun site => (site.uri, site.edit newName)

/-- Renames the symbol at a position of a document. -/
def rename (uri : Uri) (p : Position) (newName : String) : WorkspaceEdit :=
  match index.nodeAt uri p with
  | none => .empty
  | some node =>
    let sites := sites index texts uri node
    .ofEdits (siteEdits sites newName) (sites.filterMap (·.fileRename? newName))

/-- The span of the name at a position, if the symbol there can be renamed. -/
def prepare (uri : Uri) (p : Position) : Option Span := do
  let node ← index.nodeAt uri p
  let site ← (locate index texts uri node).toOption
  return site.nameSpan

end Rename

end SymbolRename
