import SymbolRename.Proofs.Offsets
import SymbolRename.Server

/-! # The server mirrors the editor

An editor edits its own text by character boundaries and reports every edit as a span
of rows and UTF-16 columns.  `Editor.Session` relates the states of a server to the
document as the editor has it: the editor opens the document, sends its edits in
groups of any size, and any other message may come in between.  In every session the
server holds exactly the editor's document (`Editor.Session.get?_eq`), because reading
a report back gives the edit that was made (`Editor.Edit.apply_report`).
-/
namespace SymbolRename

namespace Editor

/-- An edit that can be made in a text: a new text, or a new part between two character
boundaries, which are numbered by the characters before them. -/
inductive Edit (text : String) where
  | replaceAll (new : String)
  | replace (i j : Nat) (hij : i ≤ j) (hj : j ≤ text.toList.length) (new : String)

namespace Edit

/-- The text after an edit. -/
def result {text : String} : Edit text → String
  | .replaceAll new => new
  | .replace i j _ _ new => String.ofList (text.toList.take i ++ new.toList ++ text.toList.drop j)

/-- What the editor tells of an edit: the positions of both boundaries in the text before it. -/
def report {text : String} : Edit text → Change
  | .replaceAll new => ⟨none, new⟩
  | .replace i j _ _ new =>
    ⟨some ⟨Position.measure (text.toList.take i), Position.measure (text.toList.take j)⟩, new⟩

/-- **A report describes the edit that was made.** -/
theorem apply_report {text : String} (e : Edit text) : e.report.apply text = e.result := by
  cases e with
  | replaceAll new => rfl
  | replace i j hij hj new => exact congrArg String.ofList (Text.replace_measure hij hj new.toList)

end Edit

/-- Edits that lead from one text to another, each made in the text that the one before it left. -/
inductive Edits : String → String → Type where
  | done (text : String) : Edits text text
  | next {text final : String} (e : Edit text) (rest : Edits e.result final) : Edits text final

namespace Edits

def reports {text final : String} : Edits text final → List Change
  | .done _ => []
  | .next e rest => e.report :: rest.reports

theorem applyAll_reports {text final : String} (edits : Edits text final) :
    Change.applyAll edits.reports text = final := by
  induction edits with
  | done text => rfl
  | next e rest ih =>
    show Change.applyAll rest.reports (e.report.apply _) = _
    rw [e.apply_report, ih]

end Edits

end Editor

/-- A message that opens, changes or closes a document. -/
def Message.touches (uri : Uri) : Message → Prop
  | .didOpen u _ | .didChange u _ _ | .didClose u => u = uri
  | _ => False

/-- A message leaves the documents that it does not touch as they are. -/
theorem Server.get?_handle_of_not_touches {uri : Uri} {m : Message} (h : ¬m.touches uri)
    (s : Server) (disk : Disk) :
    (s.handle disk m).server.documents.get? uri = s.documents.get? uri := by
  cases m with
  | didOpen u doc =>
    exact (s.documents.get?_put u uri doc).trans (if_neg fun he => h he.symm)
  | didChange u version changes =>
    exact (s.documents.get?_change u uri version changes).trans (if_neg fun he => h he.symm)
  | didClose u =>
    exact (s.documents.get?_close u uri).trans (if_neg fun he => h he.symm)
  | unknown id method => cases id <;> rfl
  | _ => rfl

namespace Editor

/-- The states that a server can be in while an editor has a document open, each with the
document as the editor has it.  The disk may differ from message to message. -/
inductive Session (uri : Uri) : Server → Document → Prop where
  /-- The editor opens the document, whatever the server knew before. -/
  | opened (s : Server) (disk : Disk) (version : Int) (text : String) :
      Session uri (s.handle disk (.didOpen uri ⟨version, text⟩)).server ⟨version, text⟩
  /-- The editor sends its next edits, as many as it likes, under a new version. -/
  | changed {s : Server} {doc : Document} (h : Session uri s doc) (disk : Disk) (version : Int)
      {text : String} (edits : Edits doc.text text) :
      Session uri (s.handle disk (.didChange uri version edits.reports)).server ⟨version, text⟩
  /-- Another document is reported, or a request is answered. -/
  | other {s : Server} {doc : Document} (h : Session uri s doc) (disk : Disk) (m : Message)
      (hm : ¬m.touches uri) : Session uri (s.handle disk m).server doc

variable {uri : Uri} {s : Server} {doc : Document}

/-- In every session the open document is the editor's. -/
theorem Session.get?_eq (h : Session uri s doc) : s.documents.get? uri = some doc := by
  induction h with
  | opened s disk version text =>
    exact (s.documents.get?_put uri uri _).trans (if_pos rfl)
  | @changed s doc h disk version text edits ih =>
    -- The reports are read against the text that the server has, which is the editor's.
    show (s.documents.change uri version edits.reports).get? uri = _
    rw [Documents.get?_change, if_pos rfl, ih]
    show some (Document.mk version (Change.applyAll edits.reports doc.text)) = _
    rw [edits.applyAll_reports]
  | other h disk m hm ih => rw [Server.get?_handle_of_not_touches hm, ih]

/-- **The server mirrors the editor.**  At every moment of a session, and for every disk, the
text of the document is the editor's text, and its version the last one that the editor sent. -/
theorem server_mirrors_editor (h : Session uri s doc) (disk : Disk) :
    s.texts disk uri = .ok doc.text ∧ s.documents.version? uri = some doc.version := by
  have hget := h.get?_eq
  constructor
  · rw [Server.texts, Documents.texts, hget]
  · rw [Documents.version?, hget]
    rfl

/-- A document that is on no disk. -/
def unsaved : Uri := ⟨"untitled", none, false, .rootless "1", none, none⟩

/-- A character of two columns is replaced by a line end, a request comes in between, and two
more edits are sent together. -/
theorem server_mirrors_unsaved :
    ∃ s : Server, Session unsaved s ⟨3, "_x\n!b"⟩ ∧
      s.texts .empty unsaved = .ok "_x\n!b" ∧ s.documents.version? unsaved = some 3 := by
  have hopened : Session unsaved _ _ := .opened (.start .empty) .empty 1 "a😀b"
  have hchanged := hopened.changed .empty 2
    (.next (.replace 1 2 (by decide) (by decide) "x\n") (.done _))
  have hasked := hchanged.other .empty (.rename 7 unsaved ⟨0, 0⟩ "new") id
  have hlast := hasked.changed .empty 3
    (.next (.replace 3 3 (by decide) (by decide) "!")
      (.next (.replace 0 1 (by decide) (by decide) "_") (.done _)))
  exact ⟨_, hlast, server_mirrors_editor hlast .empty⟩

end Editor

end SymbolRename
