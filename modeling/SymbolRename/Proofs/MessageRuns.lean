import SymbolRename.Proofs.JsonText
import SymbolRename.Server

/-! # Runs of messages

`Message.Spelled` lists what a JSON value can mean as a message, one rule for each kind
of message, and `decode?_eq_some_iff` says that reading a text follows these rules and
no others.  A server takes the texts of messages one after the other: `Server.after` is
the server behind a run, and `Server.transcript` is the run with the response to each
of its texts.
-/
namespace SymbolRename

namespace Record

/-- A record is an object that is searched for the fields, or an array that lists them. -/
theorem fields?_cases {names : List String} {j : Json} {values : List (Option Json)}
    (h : fields? names j = some values) :
    (∃ fields, j = .object fields ∧ values = names.map (lookup fields)) ∨
      ∃ items : List Json, j = .array items ∧ items.length = names.length := by
  unfold fields? at h
  split at h
  · obtain ⟨-, h⟩ := Option.ite_none_right_eq_some.mp h
    exact Or.inl ⟨_, rfl, (Option.some.inj h).symm⟩
  · exact Or.inr ⟨_, rfl, (Option.ite_none_right_eq_some.mp h).1⟩
  · cases h

/-- What can be read where a field has to be there can be read where it may be missing. -/
theorem optional_of_required {α : Type} {read : Json → Option α} {field : Option Json} {a : α}
    (hnull : read .null = none) (h : required read field = some a) :
    optional read field = some (some a) := by
  obtain ⟨value, rfl, hvalue⟩ := Option.bind_eq_some_iff.mp h
  unfold optional
  split
  case h_1 hfield => cases hfield
  case h_2 hfield =>
    obtain rfl := Option.some.inj hfield
    exact absurd (hnull.symm.trans hvalue) (Option.some_ne_none a).symm
  case h_3 hfield =>
    obtain rfl := Option.some.inj hfield
    rw [hvalue, Option.map_some]

end Record

namespace Message

/-- The methods that have a meaning. -/
def methods : List String := [
  "initialize", "initialized", "shutdown", "exit",
  "textDocument/didOpen", "textDocument/didChange", "textDocument/didClose",
  "textDocument/prepareRename", "textDocument/rename"]

/-- A JSON value with an envelope means a message. -/
inductive Spelled (e : Envelope) (j : Json) : Message → Prop where
  | beginSession {id : Int} (hmethod : e.method = "initialize")
      (h : request? sessionParams? j = some (id, ())) : Spelled e j (.beginSession id)
  | sessionBegun (hmethod : e.method = "initialized") : Spelled e j .sessionBegun
  | shutdown (hmethod : e.method = "shutdown") : Spelled e j (.shutdown e.id)
  | exit (hmethod : e.method = "exit") : Spelled e j .exit
  | didOpen {uri : Uri} {doc : Document} (hmethod : e.method = "textDocument/didOpen")
      (h : report? openParams? j = some (uri, doc)) : Spelled e j (.didOpen uri doc)
  | didChange {uri : Uri} {version : Int} {changes : List Change}
      (hmethod : e.method = "textDocument/didChange")
      (h : report? changeParams? j = some ((uri, version), changes)) :
      Spelled e j (.didChange uri version changes)
  | didClose {uri : Uri} (hmethod : e.method = "textDocument/didClose")
      (h : report? closeParams? j = some uri) : Spelled e j (.didClose uri)
  | prepareRename {id : Int} {uri : Uri} {p : Position}
      (hmethod : e.method = "textDocument/prepareRename")
      (h : request? positionParams? j = some (id, uri, p)) : Spelled e j (.prepareRename id uri p)
  | rename {id : Int} {uri : Uri} {p : Position} {newName : String}
      (hmethod : e.method = "textDocument/rename")
      (h : request? renameParams? j = some (id, (uri, p), newName)) :
      Spelled e j (.rename id uri p newName)
  | unknown (hmethod : e.method ∉ methods) : Spelled e j (.unknown e.id e.method)

variable {e : Envelope} {j : Json} {m : Message} {text : String}

theorem spelled_of_ofJson? (h : ofJson? e j = some m) : Spelled e j m := by
  unfold ofJson? at h
  split at h
  case h_1 hmethod =>
    obtain ⟨⟨id, params⟩, hrequest, rfl⟩ := Option.map_eq_some_iff.mp h
    exact .beginSession hmethod hrequest
  case h_2 hmethod => cases h; exact .sessionBegun hmethod
  case h_3 hmethod => cases h; exact .shutdown hmethod
  case h_4 hmethod => cases h; exact .exit hmethod
  case h_5 hmethod =>
    obtain ⟨⟨uri, doc⟩, hreport, rfl⟩ := Option.map_eq_some_iff.mp h
    exact .didOpen hmethod hreport
  case h_6 hmethod =>
    obtain ⟨⟨⟨uri, version⟩, changes⟩, hreport, rfl⟩ := Option.map_eq_some_iff.mp h
    exact .didChange hmethod hreport
  case h_7 hmethod =>
    obtain ⟨uri, hreport, rfl⟩ := Option.map_eq_some_iff.mp h
    exact .didClose hmethod hreport
  case h_8 hmethod =>
    obtain ⟨⟨id, uri, p⟩, hrequest, rfl⟩ := Option.map_eq_some_iff.mp h
    exact .prepareRename hmethod hrequest
  case h_9 hmethod =>
    obtain ⟨⟨id, ⟨uri, p⟩, newName⟩, hrequest, rfl⟩ := Option.map_eq_some_iff.mp h
    exact .rename hmethod hrequest
  case h_10 h₁ h₂ h₃ h₄ h₅ h₆ h₇ h₈ h₉ =>
    cases h
    refine .unknown ?_
    simp only [methods, List.mem_cons, List.not_mem_nil, or_false, not_or]
    exact ⟨h₁, h₂, h₃, h₄, h₅, h₆, h₇, h₈, h₉⟩

theorem Spelled.ofJson?_eq (h : Spelled e j m) : ofJson? e j = some m := by
  unfold ofJson?
  cases h with
  | unknown hmethod =>
    simp only [methods, List.mem_cons, List.not_mem_nil, or_false, not_or] at hmethod
    obtain ⟨h₁, h₂, h₃, h₄, h₅, h₆, h₇, h₈, h₉⟩ := hmethod
    split
    case h_10 => rfl
    all_goals contradiction
  | _ => simp only [*, Option.map_some]

/-- **Reading a text follows the rules of `Spelled`.** -/
theorem decode?_eq_some_iff :
    decode? text = some m ↔
      ∃ j e, Json.parse text = some j ∧ Envelope.ofJson? j = some e ∧ Spelled e j m := by
  constructor
  · intro h
    obtain ⟨j, hj, h⟩ := Option.bind_eq_some_iff.mp h
    obtain ⟨e, he, h⟩ := Option.bind_eq_some_iff.mp h
    exact ⟨j, e, hj, he, spelled_of_ofJson? h⟩
  · rintro ⟨j, e, hj, he, h⟩
    exact Option.bind_eq_some_iff.mpr ⟨j, hj, Option.bind_eq_some_iff.mpr ⟨e, he, h.ofJson?_eq⟩⟩

/-- A message is read from the text of its JSON value. -/
theorem decode?_render (hj : j.Written) (he : Envelope.ofJson? j = some e)
    (h : ofJson? e j = some m) : decode? j.render = some m :=
  decode?_eq_some_iff.mpr ⟨j, e, hj.parse_render, he, spelled_of_ofJson? h⟩

/-! ## Envelopes -/

/-- The method of a message. -/
def method : Message → String
  | .beginSession _ => "initialize"
  | .sessionBegun => "initialized"
  | .shutdown _ => "shutdown"
  | .exit => "exit"
  | .didOpen _ _ => "textDocument/didOpen"
  | .didChange _ _ _ => "textDocument/didChange"
  | .didClose _ => "textDocument/didClose"
  | .prepareRename _ _ _ => "textDocument/prepareRename"
  | .rename _ _ _ _ => "textDocument/rename"
  | .unknown _ method => method

/-- The number of the answer that a message waits for. -/
def id? : Message → Option Int
  | .beginSession id | .prepareRename id _ _ | .rename id _ _ _ => some id
  | .shutdown id | .unknown id _ => id
  | .sessionBegun | .exit | .didOpen _ _ | .didChange _ _ _ | .didClose _ => none

theorem Spelled.method_eq (h : Spelled e j m) : m.method = e.method := by
  cases h with
  | unknown hmethod => rfl
  | _ => exact Eq.symm ‹_›

/-- The number of a request stands in its envelope too. -/
theorem id_eq_of_request? {α : Type} {params? : Json → Option α} {id : Int} {params : α}
    (he : Envelope.ofJson? j = some e) (h : request? params? j = some (id, params)) :
    e.id = some id := by
  unfold request? at h
  split at h
  case h_2 => cases h
  case h_1 hrequest =>
  unfold Envelope.ofJson? at he
  split at he
  case h_2 => cases he
  case h_1 henvelope =>
  obtain ⟨_, _, h⟩ := Option.bind_eq_some_iff.mp h
  obtain ⟨id', hid, h⟩ := Option.bind_eq_some_iff.mp h
  obtain ⟨_, _, h⟩ := Option.bind_eq_some_iff.mp h
  obtain ⟨_, _, h⟩ := Option.bind_eq_some_iff.mp h
  cases h
  obtain ⟨id'', hid', he⟩ := Option.bind_eq_some_iff.mp he
  obtain ⟨_, _, he⟩ := Option.bind_eq_some_iff.mp he
  cases he
  -- Both readings find the number in the same field: an array has not room for both.
  rcases Record.fields?_cases hrequest with ⟨fields, rfl, hvalues⟩ | ⟨items, rfl, hlength⟩
  · rcases Record.fields?_cases henvelope with ⟨_, hfields, hvalues'⟩ | ⟨_, hitems, _⟩
    · cases hfields
      cases hvalues
      cases hvalues'
      rw [Record.optional_of_required rfl hid] at hid'
      exact (Option.some.inj hid').symm
    · cases hitems
  · rcases Record.fields?_cases henvelope with ⟨_, hfields, _⟩ | ⟨_, hitems, hlength'⟩
    · cases hfields
    · cases hitems
      cases hlength.symm.trans hlength'

/-- Whoever waits for an answer has a number, and it stands in the envelope. -/
theorem Spelled.id_eq (he : Envelope.ofJson? j = some e) (h : Spelled e j m) {id : Int}
    (hid : m.id? = some id) : e.id = some id := by
  cases h with
  | beginSession _ h | prepareRename _ h | rename _ h =>
    cases hid
    exact id_eq_of_request? he h
  | shutdown | unknown => exact hid
  | _ => cases hid

end Message

namespace Server

variable (disk : Disk)

/-- The server behind a run of texts. -/
def after (s : Server) (texts : List String) : Server :=
  texts.foldl (fun s text => (s.receive disk text).server) s

/-- The texts of a run, each with the response to it. -/
def transcript (s : Server) : List String → List (String × Option Response)
  | [] => []
  | text :: texts =>
    (text, (s.receive disk text).response) :: (s.receive disk text).server.transcript texts

theorem transcript_append (s : Server) (texts more : List String) :
    s.transcript disk (texts ++ more) =
      s.transcript disk texts ++ (s.after disk texts).transcript disk more := by
  induction texts generalizing s with
  | nil => rfl
  | cons text texts ih => exact congrArg (_ :: ·) (ih _)

end Server

end SymbolRename
