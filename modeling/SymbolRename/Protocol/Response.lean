import SymbolRename.Json.Writer
import SymbolRename.Protocol.Frame
import SymbolRename.WorkspaceEdit

/-! # Responses

The answers to requests, and their JSON texts.
-/
namespace SymbolRename

namespace Program

/-- What the program calls itself, to the editor and on the command line. -/
def name : String := "gs_lsp"

def version : String := "0.1.0"

end Program

/-- What a request is answered with. -/
inductive Answer where
  | session
  | done
  | span (span : Option Span)
  | edit (edit : WorkspaceEdit)
  | methodNotFound (method : String)
deriving DecidableEq, Repr

/-- An answer and the number of its request. -/
structure Response where
  id : Int
  answer : Answer
deriving DecidableEq, Repr

namespace Position

def toJson (p : Position) : Json := .record [("line", .int p.row), ("character", .int p.column)]

end Position

namespace Span

def toJson (s : Span) : Json := .record [("start", s.start.toJson), ("end", s.stop.toJson)]

end Span

namespace TextEdit

def toJson (e : TextEdit) : Json :=
  .record [("range", e.span.toJson), ("newText", .text e.newText)]

end TextEdit

namespace DocumentEdits

/-- The edits are for whatever version the document has. -/
def toJson (d : DocumentEdits) : Json :=
  .record [
    ("textDocument", .record [("uri", .text d.uri.render), ("version", .null)]),
    ("edits", .array (d.edits.map TextEdit.toJson))]

end DocumentEdits

namespace FileRename

def toJson (r : FileRename) : Json :=
  .record [
    ("kind", .text "rename"),
    ("oldUri", .text r.oldUri.render),
    ("newUri", .text r.newUri.render)]

end FileRename

namespace WorkspaceEdit

def Step.toJson : Step → Json
  | .edit document => document.toJson
  | .rename file => file.toJson

def toJson (w : WorkspaceEdit) : Json :=
  .record [("documentChanges", .array (w.steps.map Step.toJson))]

end WorkspaceEdit

namespace Response

/-- What the server can do, and who it is. -/
def sessionResult : Json :=
  .record [
    ("capabilities", .record [
      ("textDocumentSync", .record [("openClose", .bool true), ("change", .int 2)]),
      ("renameProvider", .record [("prepareProvider", .bool true)])]),
    ("serverInfo", .record [
      ("name", .text Program.name), ("version", .text Program.version)])]

/-- The code of a request with a method that nobody knows. -/
def methodNotFoundCode : Int := -32601

/-- The field of a response that carries an answer. -/
def answerField : Answer → String × Json
  | .session => ("result", sessionResult)
  | .done => ("result", .null)
  | .span none => ("result", .null)
  | .span (some span) => ("result", span.toJson)
  | .edit edit => ("result", edit.toJson)
  | .methodNotFound method =>
    ("error", .record [
      ("code", .int methodNotFoundCode),
      ("message", .text ("method not found: " ++ method))])

def toJson (r : Response) : Json :=
  .record [("jsonrpc", .text "2.0"), ("id", .int r.id), answerField r.answer]

/-- The text of a response. -/
def body (r : Response) : String := r.toJson.render

/-- The bytes that are sent. -/
def frame (r : Response) : Bytes := Frame.render (Utf8.encode r.body)

end Response

end SymbolRename
