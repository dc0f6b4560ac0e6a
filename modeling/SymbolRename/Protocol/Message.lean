import SymbolRename.Documents
import SymbolRename.Json.Reader
import SymbolRename.Protocol.Capabilities

/-! # Messages

A message is JSON text.  Its envelope says what it is for and whether it waits for
an answer; the rest is read according to its method.  A text that cannot be read as
its method requires is no message.
-/
namespace SymbolRename

/-- What every message says: its method, and the number of the answer it waits for. -/
structure Envelope where
  id : Option Int
  method : String
deriving DecidableEq, Repr

/-- What an editor can ask for or report.  A request has a number, a report has none. -/
inductive Message where
  | beginSession (id : Int)
  | sessionBegun
  | shutdown (id : Option Int)
  | exit
  | didOpen (uri : Uri) (doc : Document)
  | didChange (uri : Uri) (version : Int) (changes : List Change)
  | didClose (uri : Uri)
  | prepareRename (id : Int) (uri : Uri) (position : Position)
  | rename (id : Int) (uri : Uri) (position : Position) (newName : String)
  | unknown (id : Option Int) (method : String)
deriving DecidableEq, Repr

namespace Envelope

open Record

def ofJson? (j : Json) : Option Envelope :=
  match fields? ["id", "method"] j with
  | some [id, method] => do return ⟨← optional signed? id, ← required text? method⟩
  | _ => none

/-- The envelope of a text. -/
def decode? (s : String) : Option Envelope := Json.parse s >>= ofJson?

end Envelope

namespace Message

open Record

/-- Values that are kept whole may nest so deeply in a message. -/
def depthLimit : Nat := 127

/-- The number and the parameters of a request. -/
def request? {α : Type} (params? : Json → Option α) (j : Json) : Option (Int × α) :=
  match fields? ["jsonrpc", "id", "method", "params"] j with
  | some [jsonrpc, id, method, params] => do
    let _ ← required text? jsonrpc
    let id ← required signed? id
    let _ ← required text? method
    return (id, ← required params? params)
  | _ => none

/-- The parameters of a report. -/
def report? {α : Type} (params? : Json → Option α) (j : Json) : Option α :=
  match fields? ["jsonrpc", "method", "params"] j with
  | some [jsonrpc, method, params] => do
    let _ ← required text? jsonrpc
    let _ ← required text? method
    required params? params
  | _ => none

/-- A record whose only field that is read names a document. -/
def identifier? (j : Json) : Option Uri :=
  match fields? ["uri"] j with
  | some [uri] => required uri? uri
  | _ => none

/-- A document with its text. -/
def item? (j : Json) : Option (Uri × Document) :=
  match fields? ["uri", "languageId", "version", "text"] j with
  | some [uri, languageId, version, text] => do
    let uri ← required uri? uri
    let _ ← required text? languageId
    return (uri, ⟨← required signed? version, ← required text? text⟩)
  | _ => none

/-- A document with a version; zero where none is told. -/
def versioned? (j : Json) : Option (Uri × Int) :=
  match fields? ["uri", "version"] j with
  | some [uri, version] => do
    return (← required uri? uri, (← optional signed? version).getD 0)
  | _ => none

def change? (j : Json) : Option Change :=
  match fields? ["range", "rangeLength", "text"] j with
  | some [range, rangeLength, text] => do
    let span ← optional span? range
    let _ ← optional unsigned? rangeLength
    return ⟨span, ← required text? text⟩
  | _ => none

def openParams? (j : Json) : Option (Uri × Document) :=
  match fields? ["textDocument"] j with
  | some [doc] => required item? doc
  | _ => none

def changeParams? (j : Json) : Option ((Uri × Int) × List Change) :=
  match fields? ["textDocument", "contentChanges"] j with
  | some [doc, changes] => do
    return (← required versioned? doc, ← required (list? change?) changes)
  | _ => none

def closeParams? (j : Json) : Option Uri :=
  match fields? ["textDocument"] j with
  | some [doc] => required identifier? doc
  | _ => none

def positionParams? (j : Json) : Option (Uri × Position) :=
  match fields? ["textDocument", "position"] j with
  | some [doc, position] => do
    return (← required identifier? doc, ← required position? position)
  | _ => none

/-- What a client may call the progress of a request by. -/
def isProgressToken (j : Json) : Bool := (unsigned? j).isSome || (text? j).isSome

/-- The parameters of a rename: always an object, and all of it is kept. -/
def renameParams? (j : Json) : Option ((Uri × Position) × String) :=
  match j with
  | .object _ =>
    if j.isPlain ∧ j.depth < depthLimit then
      match fields? ["textDocument", "position", "newName", "workDoneToken"] j with
      | some [doc, position, newName, token] => do
        let doc ← required identifier? doc
        let position ← required position? position
        let newName ← required text? newName
        let _ ← optional (fun t => if isProgressToken t then some () else none) token
        return ((doc, position), newName)
      | _ => none
    else none
  | _ => none

def sessionParams? (j : Json) : Option Unit :=
  if Capabilities.session.accepts (depthLimit - 1) j then some () else none

/-- Reads the rest of a message whose envelope is known. -/
def ofJson? (envelope : Envelope) (j : Json) : Option Message :=
  match envelope.method with
  | "initialize" => (request? sessionParams? j).map fun (id, _) => .beginSession id
  | "initialized" => some .sessionBegun
  | "shutdown" => some (.shutdown envelope.id)
  | "exit" => some .exit
  | "textDocument/didOpen" => (report? openParams? j).map fun (uri, doc) => .didOpen uri doc
  | "textDocument/didChange" =>
    (report? changeParams? j).map fun ((uri, version), changes) => .didChange uri version changes
  | "textDocument/didClose" => (report? closeParams? j).map .didClose
  | "textDocument/prepareRename" =>
    (request? positionParams? j).map fun (id, uri, position) => .prepareRename id uri position
  | "textDocument/rename" =>
    (request? renameParams? j).map fun (id, (uri, position), newName) =>
      .rename id uri position newName
  | method => some (.unknown envelope.id method)

/-- The message of a text. -/
def decode? (s : String) : Option Message := do
  let j ← Json.parse s
  let envelope ← Envelope.ofJson? j
  ofJson? envelope j

end Message

end SymbolRename
