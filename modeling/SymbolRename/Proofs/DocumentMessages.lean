import Mathlib.Data.List.Induction
import SymbolRename.Proofs.EditorMirror
import SymbolRename.Proofs.MessageRuns
import SymbolRename.Proofs.PreparedRename

/-! # Messages about a document

Documents are opened, changed and closed by messages about them (`Message.isAbout`).
What a server knows of a document comes from these messages alone, whatever else it
is told in between (`Server.get?_after_filter`).  A response in turn depends on nothing
but the documents that its request looks at (`Server.response_congr`), so it depends on
no message but those about these documents.  A rename looks at every document with a
reference to its symbol, not only at the one that it names, and messages about such a
document do change the response (`Shapes.rename_sees_other_document`).
-/
namespace SymbolRename

namespace Message

instance (uri : Uri) (m : Message) : Decidable (m.touches uri) :=
  match m with
  | .didOpen u _ | .didChange u _ _ | .didClose u => inferInstanceAs (Decidable (u = uri))
  | .beginSession _ | .sessionBegun | .shutdown _ | .exit | .prepareRename _ _ _
  | .rename _ _ _ _ | .unknown _ _ => inferInstanceAs (Decidable False)

/-- The text is a message that opens, changes or closes the document. -/
def isAbout (uri : Uri) (text : String) : Bool :=
  (decode? text).any fun m => decide (m.touches uri)

/-- The documents whose texts a message looks at: the one that it names, or all those with a
reference to the symbol that is renamed. -/
def looksAt (index : SyntaxIndex) (uri : Uri) : Message → Prop
  | .prepareRename _ home _ => uri = home
  | .rename _ home p _ => ∃ node ∈ index.referencesAt home p, index.documentOf home node = uri
  | _ => False

end Message

/-! ## What a response depends on -/

/-- The text of a document depends on what is known of this document. -/
theorem Documents.texts_congr {docs₁ docs₂ : Documents} {uri : Uri}
    (h : docs₁.get? uri = docs₂.get? uri) (disk : Disk) :
    docs₁.texts disk uri = docs₂.texts disk uri := by
  rw [texts, texts, h]

namespace Rename

variable {index : SyntaxIndex} {texts₁ texts₂ : TextSource} {uri : Uri} {p : Position}

/-- A prepared rename depends on the text of its own document. -/
theorem prepare_congr_texts (h : texts₁ uri = texts₂ uri) :
    prepare index texts₁ uri p = prepare index texts₂ uri p := by
  refine Option.bind_congr fun n hn => ?_
  obtain ⟨node, hnode, huri⟩ := SyntaxIndex.exists_node_of_nodeAt hn
  have hdoc : index.documentOf uri n = uri := by
    rw [SyntaxIndex.documentOf, SyntaxIndex.uri?, hnode]
    exact congrArg (Option.getD · uri) huri
  rw [locate_toOption_congr rfl fun text => by rw [hdoc, h]]

/-- A rename depends on the texts of the documents with a reference. -/
theorem rename_congr_texts
    (h : ∀ node ∈ index.referencesAt uri p,
      texts₁ (index.documentOf uri node) = texts₂ (index.documentOf uri node))
    (newName : String) :
    rename index texts₁ uri p newName = rename index texts₂ uri p newName := by
  have hsites : sitesAt index texts₁ uri p = sitesAt index texts₂ uri p := by
    refine List.filterMap_congr fun node hnode => ?_
    exact locate_toOption_congr rfl fun text => by rw [h node hnode]
  rw [rename_eq_ofEdits, rename_eq_ofEdits, hsites]

end Rename

namespace Server

variable {disk : Disk} {s s₁ s₂ : Server} {uri : Uri} {m : Message} {text : String}

/-- **A response depends on the documents that its request looks at.** -/
theorem response_congr (hindex : s₁.index = s₂.index)
    (h : ∀ uri, m.looksAt s₁.index uri → s₁.documents.get? uri = s₂.documents.get? uri) :
    (s₁.handle disk m).response = (s₂.handle disk m).response := by
  cases m with
  | prepareRename id home p =>
    have htext : s₁.texts disk home = s₂.texts disk home := Documents.texts_congr (h home rfl) disk
    show some (Response.mk id (.span _)) = some (Response.mk id (.span _))
    rw [Rename.prepare_congr_texts htext, hindex]
  | rename id home p newName =>
    have htexts : ∀ node ∈ s₁.index.referencesAt home p,
        s₁.texts disk (s₁.index.documentOf home node) =
          s₂.texts disk (s₁.index.documentOf home node) :=
      fun node hnode => Documents.texts_congr (h _ ⟨node, hnode, rfl⟩) disk
    show some (Response.mk id (.edit _)) = some (Response.mk id (.edit _))
    rw [Rename.rename_congr_texts htexts, hindex]
  | unknown id method => cases id <;> rfl
  | _ => rfl

/-! ## What a message does -/

theorem index_receive (s : Server) (text : String) :
    (s.receive disk text).server.index = s.index := by
  rw [receive]
  cases Message.decode? text with
  | none => rfl
  | some m =>
    cases m with
    | unknown id method => cases id <;> rfl
    | _ => rfl

theorem get?_receive_of_not_about (h : Message.isAbout uri text = false) (s : Server) :
    (s.receive disk text).server.documents.get? uri = s.documents.get? uri := by
  rw [receive]
  rw [Message.isAbout] at h
  cases hm : Message.decode? text with
  | none => rfl
  | some m =>
    rw [hm, Option.any_some] at h
    exact get?_handle_of_not_touches (of_decide_eq_false h) s disk

/-- What a message makes of a document depends on what was known of this document. -/
theorem get?_handle_congr (h : s₁.documents.get? uri = s₂.documents.get? uri) (m : Message) :
    (s₁.handle disk m).server.documents.get? uri =
      (s₂.handle disk m).server.documents.get? uri := by
  by_cases htouches : m.touches uri
  · cases m with
    | didOpen u doc =>
      show (s₁.documents.put u doc).get? uri = (s₂.documents.put u doc).get? uri
      rw [Documents.get?_put, Documents.get?_put, h]
    | didChange u version changes =>
      obtain rfl : u = uri := htouches
      show (s₁.documents.change u version changes).get? u =
        (s₂.documents.change u version changes).get? u
      rw [Documents.get?_change, Documents.get?_change, h]
    | didClose u =>
      show (s₁.documents.close u).get? uri = (s₂.documents.close u).get? uri
      rw [Documents.get?_close, Documents.get?_close, h]
    | _ => exact htouches.elim
  · rw [get?_handle_of_not_touches htouches, get?_handle_of_not_touches htouches, h]

theorem get?_receive_congr (h : s₁.documents.get? uri = s₂.documents.get? uri) (text : String) :
    (s₁.receive disk text).server.documents.get? uri =
      (s₂.receive disk text).server.documents.get? uri := by
  rw [receive, receive]
  cases Message.decode? text with
  | none => exact h
  | some m => exact get?_handle_congr h m

/-! ## What a run does -/

theorem index_after (s : Server) (texts : List String) : (s.after disk texts).index = s.index := by
  induction texts generalizing s with
  | nil => rfl
  | cons text texts ih => exact (ih _).trans (index_receive s text)

/-- Servers that know the same of a document still do so when one of them has missed all that is
not about it. -/
theorem get?_after_congr (h : s₁.documents.get? uri = s₂.documents.get? uri)
    (texts : List String) :
    (s₁.after disk texts).documents.get? uri =
      (s₂.after disk (texts.filter (Message.isAbout uri))).documents.get? uri := by
  induction texts generalizing s₁ s₂ with
  | nil => exact h
  | cons text texts ih =>
    cases habout : Message.isAbout uri text with
    | true =>
      rw [List.filter_cons_of_pos habout]
      exact ih (get?_receive_congr h text)
    | false =>
      rw [List.filter_cons_of_neg (by rw [habout]; exact Bool.false_ne_true)]
      exact ih ((get?_receive_of_not_about habout s₁).trans h)

/-- **What is known of a document comes from the messages about it.** -/
theorem get?_after_filter (s : Server) (texts : List String) (uri : Uri) :
    (s.after disk texts).documents.get? uri =
      (s.after disk (texts.filter (Message.isAbout uri))).documents.get? uri :=
  get?_after_congr rfl texts

/-- A response is the same behind two runs that say the same of every document that the request
looks at. -/
theorem response_after_congr {texts₁ texts₂ : List String}
    (h : ∀ uri, (∃ m, Message.decode? text = some m ∧ m.looksAt s.index uri) →
      texts₁.filter (Message.isAbout uri) = texts₂.filter (Message.isAbout uri)) :
    ((s.after disk texts₁).receive disk text).response =
      ((s.after disk texts₂).receive disk text).response := by
  rw [receive, receive]
  cases hm : Message.decode? text with
  | none => rfl
  | some m =>
    refine response_congr (by rw [index_after, index_after]) fun uri hlooks => ?_
    rw [index_after] at hlooks
    rw [get?_after_filter s texts₁, get?_after_filter s texts₂, h uri ⟨m, hm, hlooks⟩]

/-- Texts that are about no document can be taken out of a run; all other responses stay. -/
theorem transcript_filter {keep : String → Bool} (s : Server) {texts : List String}
    (h : ∀ text ∈ texts, keep text = false → ∀ uri, Message.isAbout uri text = false) :
    (s.transcript disk texts).filter (fun entry => keep entry.1) =
      s.transcript disk (texts.filter keep) := by
  induction texts using List.reverseRecOn with
  | nil => rfl
  | append_singleton texts text ih =>
    have hbefore := ih fun t ht => h t (List.mem_append_left _ ht)
    rw [transcript_append, List.filter_append, List.filter_append, transcript_append, hbefore]
    refine congrArg (_ ++ ·) ?_
    show List.filter _ [(text, _)] = transcript disk _ (List.filter keep [text])
    cases hkeep : keep text with
    | false => rw [List.filter_singleton, List.filter_singleton, hkeep]; rfl
    | true =>
      -- What was taken out before says nothing of any document.
      have hsame : ∀ uri, texts.filter (Message.isAbout uri) =
          (texts.filter keep).filter (Message.isAbout uri) := by
        intro uri
        rw [List.filter_filter]
        refine List.filter_congr fun t ht => ?_
        cases hkept : keep t with
        | true => rw [Bool.and_true]
        | false => rw [Bool.and_false, h t (List.mem_append_left _ ht) hkept uri]
      have hresponse : ((s.after disk texts).receive disk text).response =
          ((s.after disk (texts.filter keep)).receive disk text).response :=
        response_after_congr fun uri _ => hsame uri
      rw [List.filter_singleton, List.filter_singleton, hkeep, hresponse]
      rfl

/-- A server keeps documents apart: what it knows of a document, and what it answers, depends on
the messages about the documents in question and on nothing else. -/
structure KeepsDocumentsApart (disk : Disk) (s : Server) : Prop where
  /-- What is known of a document comes from the messages about it. -/
  entry : ∀ (texts : List String) (uri : Uri),
    (s.after disk texts).documents.get? uri =
      (s.after disk (texts.filter (Message.isAbout uri))).documents.get? uri
  /-- A text that is not about a document leaves it as it is. -/
  unchanged : ∀ (text : String) (uri : Uri), Message.isAbout uri text = false →
    (s.receive disk text).server.documents.get? uri = s.documents.get? uri
  /-- Texts that are about no document can be taken out of a run; all other responses stay. -/
  removal : ∀ (texts : List String) (keep : String → Bool),
    (∀ text ∈ texts, keep text = false → ∀ uri, Message.isAbout uri text = false) →
    (s.transcript disk texts).filter (fun entry => keep entry.1) =
      s.transcript disk (texts.filter keep)
  /-- A response is the same behind two runs with the same messages about every document that the
  request looks at. -/
  response : ∀ (texts₁ texts₂ : List String) (text : String),
    (∀ uri, (∃ m, Message.decode? text = some m ∧ m.looksAt s.index uri) →
      texts₁.filter (Message.isAbout uri) = texts₂.filter (Message.isAbout uri)) →
    ((s.after disk texts₁).receive disk text).response =
      ((s.after disk texts₂).receive disk text).response

/-- **Documents are kept apart.**  For every state of the server and every run, the entry of a
document comes from the messages about it; texts that are no messages, requests and messages about
other documents leave it alone.  Taking the first two out of a run changes no other response, and
taking out messages about other documents changes at most responses to requests that look at one
of these. -/
theorem documents_are_kept_apart (disk : Disk) (s : Server) : s.KeepsDocumentsApart disk where
  entry := s.get?_after_filter
  unchanged _ _ h := get?_receive_of_not_about h s
  removal _ _ h := s.transcript_filter h
  response _ _ _ h := response_after_congr h

end Server

namespace Shapes

/-- A server that has been told of the class only. -/
def server : Server :=
  ⟨Documents.empty.put classUri ⟨1, "class Shape:\n  Shape () = 1\nend\n"⟩, index, false⟩

/-- The document that uses the class is opened. -/
def useOpened : String := Json.render <| .record [
  ("jsonrpc", .text "2.0"),
  ("method", .text "textDocument/didOpen"),
  ("params", .record [("textDocument", .record [
    ("uri", .text "untitled:Main"), ("languageId", .text "groovy"), ("version", .int 1),
    ("text", .text "def 😀 = new Shape()\n")])])]

/-- The class is renamed from its own document. -/
def classRenamed : String := Json.render <| .record [
  ("jsonrpc", .text "2.0"),
  ("id", .int 1),
  ("method", .text "textDocument/rename"),
  ("params", .record [
    ("textDocument", .record [("uri", .text "untitled:Shape")]),
    ("position", .record [("line", .int 0), ("character", .int 8)]),
    ("newName", .text "Polygon")])]

theorem decode_useOpened :
    Message.decode? useOpened = some (.didOpen useUri ⟨1, "def 😀 = new Shape()\n"⟩) := by
  refine Message.decode?_render ?_ rfl ?_
  · simp
  · decide +kernel

theorem decode_classRenamed :
    Message.decode? classRenamed = some (.rename 1 classUri ⟨0, 8⟩ "Polygon") := by
  refine Message.decode?_render ?_ rfl ?_
  · simp
  · decide +kernel

/-- The response to the rename, from a server that knows of the documents `docs`. -/
theorem response_classRenamed (docs : Documents) :
    ((Server.mk docs index false).receive .empty classRenamed).response =
      some ⟨1, .edit (Rename.rename index (docs.texts .empty) classUri ⟨0, 8⟩ "Polygon")⟩ := by
  rw [Server.receive, decode_classRenamed]
  rfl

/-- **A message about another document can change a response.**  Without the message that opens
the document with the use, a rename of the class does not edit the use. -/
theorem rename_sees_other_document :
    (∀ text ∈ [useOpened, classRenamed], (!Message.isAbout useUri text) = false →
      Message.isAbout classUri text = false) ∧
    (server.transcript .empty [useOpened, classRenamed]).filter
        (fun entry => !Message.isAbout useUri entry.1) ≠
      server.transcript .empty ([useOpened, classRenamed].filter fun text =>
        !Message.isAbout useUri text) := by
  have habout : Message.isAbout useUri useOpened = true ∧
      Message.isAbout classUri useOpened = false ∧ Message.isAbout useUri classRenamed = false := by
    simp only [Message.isAbout, decode_useOpened, decode_classRenamed]
    decide
  have hopened : (server.receive .empty useOpened).server =
      ⟨server.documents.put useUri ⟨1, "def 😀 = new Shape()\n"⟩, index, false⟩ := by
    rw [Server.receive, decode_useOpened]
    rfl
  constructor
  · intro text htext
    rcases List.mem_pair.mp htext with rfl | rfl
    · exact fun _ => habout.2.1
    · rw [habout.2.2]
      exact fun h => absurd h.symm Bool.false_ne_true
  · intro h
    have hresponse :
        ((server.receive .empty useOpened).server.receive .empty classRenamed).response =
          (server.receive .empty classRenamed).response := by
      simp only [Server.transcript, List.filter_cons, List.filter_nil, habout, Bool.not_true,
        Bool.not_false, Bool.false_eq_true, if_true, if_false] at h
      exact congrArg Prod.snd (List.cons.inj h).1
    -- The responses edit different documents: both of them, and the one with the class.
    rw [hopened, response_classRenamed, server, response_classRenamed] at hresponse
    injection hresponse with hresponse
    injection hresponse with _ hedit
    injection hedit with hedit
    have huris := congrArg (fun w : WorkspaceEdit => w.documents.map (·.uri)) hedit
    dsimp only at huris
    rw [Rename.documentUris_eq, Rename.documentUris_eq] at huris
    exact absurd huris (by decide +kernel)

end Shapes

end SymbolRename
