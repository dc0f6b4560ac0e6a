import SymbolRename.Span
import SymbolRename.Uri.Basic

/-! # Edits of a whole workspace

Edits are collected per document, in the order in which the documents first occur.
Within a document repeated edits count once, the edits are put in the order of
their starts, and an edit that overlaps the one kept before it is dropped.  Files
are renamed after all documents have been edited.
-/
namespace SymbolRename

/-- Puts `newText` in the place of a span. -/
structure TextEdit where
  span : Span
  newText : String
deriving DecidableEq, Repr

/-- Moves a file. -/
structure FileRename where
  oldUri : Uri
  newUri : Uri
deriving DecidableEq, Repr

/-- The edits of one document. -/
structure DocumentEdits where
  uri : Uri
  edits : List TextEdit
deriving DecidableEq, Repr

/-- Everything that one request changes. -/
structure WorkspaceEdit where
  documents : List DocumentEdits
  renames : List FileRename
deriving DecidableEq, Repr

namespace DocumentEdits

/-- Edits without repetitions, ordered by their starts; edits with the same start keep their order. -/
def arrange (edits : List TextEdit) : List TextEdit :=
  edits.eraseDups.mergeSort fun a b => decide (a.span.start ≤ b.span.start)

/-- Drops every edit that overlaps the last one kept before it. -/
def dropOverlaps (last : Option TextEdit) : List TextEdit → List TextEdit
  | [] => []
  | edit :: edits =>
    if last.any (fun l => l.span.overlaps edit.span) then dropOverlaps last edits
    else edit :: dropOverlaps (some edit) edits

/-- The edits that `dropOverlaps` drops, each with the one it overlaps. -/
def overlapping (last : Option TextEdit) : List TextEdit → List (TextEdit × TextEdit)
  | [] => []
  | edit :: edits =>
    match last with
    | some l =>
      if l.span.overlaps edit.span then (edit, l) :: overlapping last edits
      else overlapping (some edit) edits
    | none => overlapping (some edit) edits

/-- Edits that can be made together. -/
def settle (edits : List TextEdit) : List TextEdit := dropOverlaps none (arrange edits)

end DocumentEdits

namespace WorkspaceEdit

def empty : WorkspaceEdit := ⟨[], []⟩

def isEmpty (w : WorkspaceEdit) : Bool := w.documents.isEmpty && w.renames.isEmpty

/-- One step of what a request changes. -/
inductive Step where
  | edit (document : DocumentEdits)
  | rename (file : FileRename)
deriving DecidableEq, Repr

/-- The bundle that a step makes the edits of. -/
def Step.document? : Step → Option DocumentEdits
  | .edit document => some document
  | .rename _ => none

/-- The file that a step renames. -/
def Step.file? : Step → Option FileRename
  | .edit _ => none
  | .rename file => some file

/-- The steps in their order: documents are edited before files are renamed. -/
def steps (w : WorkspaceEdit) : List Step := w.documents.map .edit ++ w.renames.map .rename

/-- The documents with edits, in the order of their first edits. -/
def documentUris (edits : List (Uri × TextEdit)) : List Uri := (edits.map (·.1)).eraseDups

/-- The edits of one document. -/
def editsOf (edits : List (Uri × TextEdit)) (uri : Uri) : List TextEdit :=
  edits.filterMap fun (u, edit) => if u = uri then some edit else none

/-- Collects edits per document and leaves out repeated renames. -/
def ofEdits (edits : List (Uri × TextEdit)) (renames : List FileRename) : WorkspaceEdit :=
  ⟨(documentUris edits).map fun uri => ⟨uri, DocumentEdits.settle (editsOf edits uri)⟩,
    renames.eraseDups⟩

/-- The edits that `ofEdits` drops, each with its document and the edit that it overlaps. -/
def droppedEdits (edits : List (Uri × TextEdit)) : List (Uri × TextEdit × TextEdit) :=
  (documentUris edits).flatMap fun uri =>
    (DocumentEdits.overlapping none (DocumentEdits.arrange (editsOf edits uri))).map (uri, ·)

end WorkspaceEdit

end SymbolRename
