import SymbolRename.Proofs.MessageRuns

/-! # Responses and requests

`Message.Awaits` lists the texts that wait for an answer, with the number of the answer
and the method: a request that can be read as a whole, a request to shut down, and any
request with a method that nobody knows.  Each of these gets one frame, and every other
text gets none.  The frame tells the size of its body, and the body holds the number of
the request and either a result or an error (`Frame.Answers`); it holds an error exactly
if the method is unknown.  So the frames of a run answer the texts that wait, in their
order (`Server.frames_answer_requests`).
-/
namespace SymbolRename

/-! ## Texts that wait for an answer -/

namespace Message

/-- A JSON value is a request with all that its method needs. -/
inductive IsRequest (j : Json) : (id : Int) → (method : String) → Prop where
  | beginSession {id : Int} (h : request? sessionParams? j = some (id, ())) :
      IsRequest j id "initialize"
  | prepareRename {id : Int} {params : Uri × Position}
      (h : request? positionParams? j = some (id, params)) :
      IsRequest j id "textDocument/prepareRename"
  | rename {id : Int} {params : (Uri × Position) × String}
      (h : request? renameParams? j = some (id, params)) : IsRequest j id "textDocument/rename"

/-- A text waits for an answer: it is a whole request, or its envelope has a number and it is
answered whatever else it says. -/
inductive Awaits (text : String) (id : Int) (method : String) : Prop where
  | request {j : Json} {e : Envelope} (hj : Json.parse text = some j)
      (he : Envelope.ofJson? j = some e) (hmethod : e.method = method) (h : IsRequest j id method)
  | envelope (he : Envelope.decode? text = some ⟨some id, method⟩)
      (hmethod : method = "shutdown" ∨ method ∉ methods)

variable {text : String} {id : Int} {method : String} {m : Message}

/-- **A text waits for an answer exactly if its message does.** -/
theorem awaits_iff :
    Awaits text id method ↔ ∃ m, decode? text = some m ∧ m.id? = some id ∧ m.method = method := by
  constructor
  · intro h
    cases h with
    | @request j e hj he hmethod h =>
      cases h with
      | beginSession h =>
        exact ⟨_, decode?_eq_some_iff.mpr ⟨j, e, hj, he, .beginSession hmethod h⟩, rfl, rfl⟩
      | prepareRename h =>
        exact ⟨_, decode?_eq_some_iff.mpr ⟨j, e, hj, he, .prepareRename hmethod h⟩, rfl, rfl⟩
      | rename h =>
        exact ⟨_, decode?_eq_some_iff.mpr ⟨j, e, hj, he, .rename hmethod h⟩, rfl, rfl⟩
    | envelope he hmethod =>
      obtain ⟨j, hj, he⟩ := Option.bind_eq_some_iff.mp he
      rcases hmethod with rfl | hmethod
      · exact ⟨_, decode?_eq_some_iff.mpr ⟨j, _, hj, he, .shutdown rfl⟩, rfl, rfl⟩
      · exact ⟨_, decode?_eq_some_iff.mpr ⟨j, _, hj, he, .unknown hmethod⟩, rfl, rfl⟩
  · rintro ⟨m, hm, hid, rfl⟩
    obtain ⟨j, e, hj, he, hspelled⟩ := decode?_eq_some_iff.mp hm
    have henvelope : Envelope.decode? text = some e := Option.bind_eq_some_iff.mpr ⟨j, hj, he⟩
    -- The number in the envelope is that of the whole request, although each is read on its own.
    have heid := hspelled.id_eq he hid
    cases hspelled with
    | beginSession hmethod h =>
      cases hid
      exact .request hj he hmethod (.beginSession h)
    | prepareRename hmethod h =>
      cases hid
      exact .request hj he hmethod (.prepareRename h)
    | rename hmethod h =>
      cases hid
      exact .request hj he hmethod (.rename h)
    | shutdown hmethod =>
      refine .envelope ?_ (Or.inl rfl)
      rw [henvelope, ← heid, method, ← hmethod]
    | unknown hmethod =>
      refine .envelope ?_ (Or.inr hmethod)
      rw [henvelope, ← heid, method]
    | _ => cases hid

/-- Whoever waits for an answer has an envelope with its number. -/
theorem Awaits.decode?_envelope (h : Awaits text id method) :
    Envelope.decode? text = some ⟨some id, method⟩ := by
  obtain ⟨m, hm, hid, hmethod⟩ := awaits_iff.mp h
  obtain ⟨j, e, hj, he, hspelled⟩ := decode?_eq_some_iff.mp hm
  have heid := hspelled.id_eq he hid
  have hemethod := hspelled.method_eq
  rw [hmethod] at hemethod
  rw [Envelope.decode?, hj, ← heid, hemethod]
  exact he

/-- The methods of reports. -/
def reports : List String := [
  "initialized", "exit",
  "textDocument/didOpen", "textDocument/didChange", "textDocument/didClose"]

/-- No report waits for an answer, even if it has a number. -/
theorem not_awaits_of_report {e : Envelope} (he : Envelope.decode? text = some e)
    (hmethod : e.method ∈ reports) : ¬Awaits text id method := by
  intro h
  cases he.symm.trans h.decode?_envelope
  dsimp only at hmethod
  cases h with
  | request _ _ _ h => cases h <;> exact absurd hmethod (by decide)
  | envelope _ hknown =>
    have hreport : ∀ name ∈ reports, name ≠ "shutdown" ∧ name ∈ methods := by decide
    obtain ⟨hshutdown, hmem⟩ := hreport method hmethod
    exact hknown.elim hshutdown fun hunknown => hunknown hmem

end Message

/-! ## Frames that answer -/

namespace Frame

/-- A frame holds values in the fields of a response: its header tells the size of its body, and
its body is a JSON object with these values. -/
def Holds (frame : Bytes) (values : List (Option Json)) : Prop :=
  ∃ body j,
    frame =
      Utf8.encode ("Content-Length: " ++ toString (Utf8.encode body).length ++ "\r\n\r\n") ++
        Utf8.encode body ∧
    Json.parse body = some j ∧
    Record.fields? ["jsonrpc", "id", "result", "error"] j = some values

/-- A frame answers a request: with a result if its method is known, else with an error that says
so, and never with both. -/
inductive Answers (frame : Bytes) (id : Int) (method : String) : Prop where
  | result {value : Json} (hmethod : method ∈ Message.methods)
      (h : Holds frame [some (.text "2.0"), some (.int id), some value, none])
  | error {value : Json} (hmethod : method ∉ Message.methods)
      (h : Holds frame [some (.text "2.0"), some (.int id), none, some value])
      (hvalue : Record.fields? ["code", "message"] value =
        some [some (.int (-32601)), some (.text ("method not found: " ++ method))])

end Frame

namespace Response

theorem written_span (s : Span) : s.toJson.Written := by
  simp [Span.toJson, Position.toJson]

theorem written_documentEdits (d : DocumentEdits) : d.toJson.Written := by
  simp [DocumentEdits.toJson, TextEdit.toJson, written_span]

theorem written_fileRename (r : FileRename) : r.toJson.Written := by
  simp [FileRename.toJson]

theorem written_edit (w : WorkspaceEdit) : w.toJson.Written := by
  have hsteps : ∀ step ∈ w.steps, step.toJson.Written := by
    intro step _
    cases step with
    | edit document => exact written_documentEdits document
    | rename file => exact written_fileRename file
  simpa [WorkspaceEdit.toJson] using hsteps

/-- The value in an answer is made of integers, strings, lists and records. -/
theorem written_answerField (a : Answer) : (answerField a).2.Written := by
  cases a with
  | session => simp [answerField, sessionResult]
  | done => exact .null
  | span span =>
    cases span with
    | none => exact .null
    | some span => exact written_span span
  | edit edit => exact written_edit edit
  | methodNotFound method => simp [answerField]

/-- What stands in the body of a response is read back from its frame. -/
theorem holds_frame (r : Response) {values : List (Option Json)}
    (h : Record.fields? ["jsonrpc", "id", "result", "error"] r.toJson = some values) :
    Frame.Holds r.frame values := by
  have hwritten : r.toJson.Written := by simp [toJson, written_answerField]
  exact ⟨r.body, r.toJson, rfl, hwritten.parse_render, h⟩

theorem exists_answerField_eq {a : Answer} (h : ∀ method, a ≠ .methodNotFound method) :
    ∃ value, answerField a = ("result", value) := by
  cases a with
  | methodNotFound method => exact absurd rfl (h method)
  | span span => cases span <;> exact ⟨_, rfl⟩
  | _ => exact ⟨_, rfl⟩

/-- All answers but one are results. -/
theorem answers_result {r : Response} {method : String} (hmethod : method ∈ Message.methods)
    (h : ∀ name, r.answer ≠ .methodNotFound name) : Frame.Answers r.frame r.id method := by
  obtain ⟨value, hvalue⟩ := exists_answerField_eq h
  have hholds : Frame.Holds r.frame [some (.text "2.0"), some (.int r.id), some value, none] := by
    refine r.holds_frame ?_
    rw [toJson, hvalue]
    rfl
  exact .result hmethod hholds

/-- An unknown method is answered with an error that names it. -/
theorem answers_error {method : String} (hmethod : method ∉ Message.methods) (id : Int) :
    Frame.Answers (Response.mk id (.methodNotFound method)).frame id method :=
  .error hmethod (holds_frame _ rfl) rfl

end Response

/-! ## Messages and runs -/

namespace Server

variable {disk : Disk} {s : Server} {text : String} {m : Message}

/-- A message gets a response exactly if it waits for one, and with its number. -/
theorem id_response_handle (s : Server) (m : Message) :
    (s.handle disk m).response.map (·.id) = m.id? := by
  cases m with
  | shutdown id => cases id <;> rfl
  | unknown id method => cases id <;> rfl
  | _ => rfl

/-- The response to a message answers it. -/
theorem answers_of_handle {e : Envelope} {j : Json} (hspelled : Message.Spelled e j m)
    {r : Response} (h : (s.handle disk m).response = some r) :
    Frame.Answers r.frame r.id e.method := by
  cases hspelled with
  | beginSession hmethod | prepareRename hmethod | rename hmethod =>
    cases h
    refine Response.answers_result ?_ nofun
    rw [hmethod]
    decide
  | shutdown hmethod =>
    obtain ⟨id, -, rfl⟩ := Option.map_eq_some_iff.mp h
    refine Response.answers_result ?_ nofun
    rw [hmethod]
    decide
  | unknown hmethod =>
    cases hid : e.id with
    | none =>
      rw [hid] at h
      cases h
    | some id =>
      rw [hid] at h
      cases h
      exact Response.answers_error hmethod id
  -- Reports have no response.
  | _ => cases h

/-- **One text.**  A text that waits for an answer gets one, and any other text gets none. -/
theorem response_cases (s : Server) (text : String) :
    ((s.receive disk text).response = none ∧ ∀ id method, ¬Message.Awaits text id method) ∨
      ∃ r method, (s.receive disk text).response = some r ∧ Message.Awaits text r.id method ∧
        Frame.Answers r.frame r.id method := by
  rw [receive]
  cases hm : Message.decode? text with
  | none =>
    refine Or.inl ⟨rfl, fun id method hawaits => ?_⟩
    obtain ⟨m, hm', -, -⟩ := Message.awaits_iff.mp hawaits
    cases hm.symm.trans hm'
  | some m =>
    have hid : (s.handle disk m).response.map (·.id) = m.id? := s.id_response_handle m
    dsimp only
    cases hr : (s.handle disk m).response with
    | none =>
      rw [hr, Option.map_none] at hid
      refine Or.inl ⟨rfl, fun id method hawaits => ?_⟩
      obtain ⟨m', hm', hid', -⟩ := Message.awaits_iff.mp hawaits
      cases hm.symm.trans hm'
      cases hid.trans hid'
    | some r =>
      rw [hr, Option.map_some] at hid
      obtain ⟨j, e, -, -, hspelled⟩ := Message.decode?_eq_some_iff.mp hm
      have hawaits := Message.awaits_iff.mpr ⟨m, hm, hid.symm, hspelled.method_eq⟩
      exact Or.inr ⟨r, e.method, rfl, hawaits, answers_of_handle hspelled hr⟩

/-- The frames that are written for a run of texts. -/
def frames (disk : Disk) (s : Server) (texts : List String) : List Bytes :=
  (s.transcript disk texts).filterMap fun entry => entry.2.map Response.frame

theorem frames_cons (s : Server) (text : String) (texts : List String) :
    s.frames disk (text :: texts) =
      ((s.receive disk text).response.map Response.frame).toList ++
        (s.receive disk text).server.frames disk texts := by
  rw [frames, transcript]
  cases (s.receive disk text).response with
  | none => exact List.filterMap_cons_none rfl
  | some r => exact List.filterMap_cons_some rfl

/-- Frames answer texts: one frame for each text that waits for an answer, in the order of the
texts, and no other frames. -/
inductive AnsweredBy : List String → List Bytes → Prop where
  | nil : AnsweredBy [] []
  | answer {text : String} {texts : List String} {frame : Bytes} {frames : List Bytes} {id : Int}
      {method : String} (hawaits : Message.Awaits text id method)
      (hframe : Frame.Answers frame id method) (h : AnsweredBy texts frames) :
      AnsweredBy (text :: texts) (frame :: frames)
  | silence {text : String} {texts : List String} {frames : List Bytes}
      (hsilent : ∀ id method, ¬Message.Awaits text id method) (h : AnsweredBy texts frames) :
      AnsweredBy (text :: texts) frames

theorem answeredBy_frames (s : Server) (texts : List String) :
    AnsweredBy texts (s.frames disk texts) := by
  induction texts generalizing s with
  | nil => exact .nil
  | cons text texts ih =>
    rw [frames_cons]
    rcases s.response_cases text with ⟨hr, hsilent⟩ | ⟨r, method, hr, hawaits, hframe⟩
    · rw [hr]
      exact .silence hsilent (ih _)
    · rw [hr]
      exact .answer hawaits hframe (ih _)

/-- **Responses answer requests.**  For every state of the server and every run of texts, the frames
that are written answer the texts that wait for an answer, one each and in their order, and
nothing else.  A text that waits has an envelope with the number that its frame carries, and
reports never wait. -/
theorem frames_answer_requests (disk : Disk) (s : Server) (texts : List String) :
    AnsweredBy texts (s.frames disk texts) ∧
      ∀ text ∈ texts,
        (∀ id method, Message.Awaits text id method →
          Envelope.decode? text = some ⟨some id, method⟩) ∧
        (∀ e, Envelope.decode? text = some e → e.method ∈ Message.reports →
          ∀ id method, ¬Message.Awaits text id method) := by
  refine ⟨s.answeredBy_frames texts, fun text _ => ⟨?_, ?_⟩⟩
  · intro id method hawaits
    exact hawaits.decode?_envelope
  · intro e he hreport id method
    exact Message.not_awaits_of_report he hreport

end Server

end SymbolRename
