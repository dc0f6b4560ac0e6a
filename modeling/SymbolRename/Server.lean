import SymbolRename.Protocol.Message
import SymbolRename.Protocol.Response
import SymbolRename.Rename

/-! # The server

The server takes one message at a time.  `Server.handle` says what a message does
to its state and which response it gets, and `Server.receive` does the same for the
text of a message.  A running server reads a line or a body at a time, as it demands:
`Server.step` says what comes of it, and `Server.run` goes on until the editor says
`exit` or falls silent.
-/
namespace SymbolRename

/-- How a process ends: with a status, or by an abort, which leaves none. -/
inductive Ending where
  | exit (code : Nat)
  | abort
deriving DecidableEq, Repr

/-- The memory that a process can have. -/
structure Memory where
  /-- The size of the largest body that there is room for. -/
  room : Nat
deriving DecidableEq, Repr

namespace Memory

/-- No memory has room for a body of so many bytes: sizes are signed numbers of 64 bits. -/
def bodyLimit : Nat := 9223372036854775808

/-- All the memory that one can ask for. -/
def ample : Memory := ⟨bodyLimit⟩

/-- How a process ends that asks for room for a body of `n` bytes and does not get it.  To ask for
more than there can be is a fault of the process itself. -/
def failure? (memory : Memory) (n : Nat) : Option Ending :=
  if bodyLimit ≤ n then some (.exit 101) else if n ≤ memory.room then none else some .abort

end Memory

/-- What a running server reads next: a line of a header, in which the last length told so far is
`length`, or a body. -/
inductive Demand where
  | line (length : Option Nat)
  | body (length : Nat)

namespace Demand

/-- Cuts what is demanded off an input. -/
def cut : Demand → Bytes → Bytes × Bytes
  | .line _, input => Frame.splitLine input
  | .body n, input => (input.take n, input.drop n)

/-- Gets less with every step: a line is never empty, and behind a body there is a line. -/
def weight : Demand → Bytes → Nat
  | .line _, input => 2 * input.length
  | .body _, input => 2 * input.length + 1

end Demand

/-- What the server knows. -/
structure Server where
  documents : Documents
  index : SyntaxIndex
  shutdownRequested : Bool
deriving DecidableEq, Repr

/-- What a message does: the next state, the response, and whether the server stops. -/
structure Reaction where
  server : Server
  response : Option Response
  exits : Bool
deriving DecidableEq, Repr

namespace Server

/-- A server at its start. -/
def start (index : SyntaxIndex) : Server := ⟨.empty, index, false⟩

/-- The status with which the server stops: zero if it has been asked to shut down. -/
def exitCode (s : Server) : Nat := if s.shutdownRequested then 0 else 1

/-- Nothing happens. -/
def ignore (s : Server) : Reaction := ⟨s, none, false⟩

/-- A response, and nothing else. -/
def reply (s : Server) (id : Int) (answer : Answer) : Reaction := ⟨s, some ⟨id, answer⟩, false⟩

/-- Other documents, and nothing else. -/
def update (s : Server) (documents : Documents) : Reaction :=
  ⟨{ s with documents := documents }, none, false⟩

variable (disk : Disk)

/-- The texts that the server works on. -/
def texts (s : Server) : TextSource := s.documents.texts disk

/-- Takes a message. -/
def handle (s : Server) : Message → Reaction
  | .beginSession id => s.reply id .session
  | .sessionBegun => s.ignore
  | .shutdown id =>
    ⟨{ s with shutdownRequested := true }, id.map fun id => ⟨id, .done⟩, false⟩
  | .exit => ⟨s, none, true⟩
  | .didOpen uri doc => s.update (s.documents.put uri doc)
  | .didChange uri version changes => s.update (s.documents.change uri version changes)
  | .didClose uri => s.update (s.documents.close uri)
  | .prepareRename id uri p => s.reply id (.span (Rename.prepare s.index (s.texts disk) uri p))
  | .rename id uri p newName =>
    s.reply id (.edit (Rename.rename s.index (s.texts disk) uri p newName))
  | .unknown (some id) method => s.reply id (.methodNotFound method)
  | .unknown none _ => s.ignore

/-- Takes the text of a message; a text that is no message is dropped. -/
def receive (s : Server) (text : String) : Reaction :=
  match Message.decode? text with
  | some message => s.handle disk message
  | none => s.ignore

/-- Takes the body of a frame; a body that is no text is dropped. -/
def receiveBody (s : Server) (body : Bytes) : Reaction :=
  match Utf8.decode? body with
  | some text => s.receive disk text
  | none => s.ignore

/-! ## Runs -/

/-- Reads on behind something that was read, or ends. -/
inductive Turn where
  | goesOn (server : Server) (response : Option Response) (demand : Demand)
  | ends (ending : Ending)

variable (memory : Memory)

/-- Takes what was read on a demand.  An input that ends inside a header ends the server, too.
Room for a body is made before any of it is read. -/
def step (s : Server) : Demand → Bytes → Turn
  | .line length, line =>
    if line = [] then .ends (.exit s.exitCode)
    else
      match Frame.headerLine length line with
      | .failed _ => .ends (.exit 1)
      | .more length => .goesOn s none (.line length)
      | .body n =>
        match memory.failure? n with
        | some ending => .ends ending
        | none => .goesOn s none (.body n)
  | .body n, body =>
    if body.length < n then .ends (.exit 1)
    else
      let reaction := s.receiveBody disk body
      if reaction.exits then .ends (.exit reaction.server.exitCode)
      else .goesOn reaction.server reaction.response (.line none)

theorem step_goesOn_weight {s server : Server} {demand next : Demand} {input : Bytes}
    {response : Option Response}
    (h : s.step disk memory demand (demand.cut input).1 = .goesOn server response next) :
    next.weight (demand.cut input).2 < demand.weight input := by
  cases demand with
  | line length =>
    cases input with
    | nil => simp [step, Demand.cut, Frame.splitLine] at h
    | cons b bytes =>
      have hshort := Frame.splitLine_length b bytes
      cases next <;> simp only [Demand.weight, Demand.cut] <;> omega
  | body n =>
    rw [step] at h
    split at h
    · cases h
    · dsimp only at h
      split at h
      · cases h
      · cases h
        simp only [Demand.weight, Demand.cut, List.length_drop]
        omega

/-- The responses to what came in, and how the server ended. -/
structure Outcome where
  responses : List Response
  ending : Ending

/-- Reads an input until the server ends, beginning with a demand. -/
def run (s : Server) (demand : Demand) (input : Bytes) : Outcome :=
  match h : s.step disk memory demand (demand.cut input).1 with
  | .ends ending => ⟨[], ending⟩
  | .goesOn server response next =>
    have := step_goesOn_weight disk memory h
    let outcome := server.run next (demand.cut input).2
    ⟨response.toList ++ outcome.responses, outcome.ending⟩
termination_by demand.weight input

end Server

end SymbolRename
