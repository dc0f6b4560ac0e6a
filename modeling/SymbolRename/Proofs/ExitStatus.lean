import SymbolRename.CommandLine
import SymbolRename.Proofs.FrameSteps
import SymbolRename.Proofs.ResponseDiscipline

/-! # How the server ends

A server takes the messages that are handed on to it up to the first `exit`, or all of
them if there is none.  Only two things about a message matter for the end of a run:
whether it says `exit` and whether it says `shutdown`, and its envelope alone decides
both (`Server.exits_receive`, `Server.shutdownRequested_receive`).

A frame is taken only if memory has room for the body that its header tells; a length for
which there is none ends the process on the spot (`Memory.refusal?`).  By induction over the
frames of the input, a run that is not ended so has status zero exactly if a `shutdown` came
before its end and the end is an `exit` or the end of the input (`Server.endsAs_run`).
-/
namespace SymbolRename

/-! ## What a message says -/

namespace Message

/-- The text has an envelope with this method, whatever else it says. -/
def hasMethod (method : String) (text : String) : Bool :=
  (Envelope.decode? text).any fun e => e.method = method

/-- One of the texts says `exit`. -/
def SaysExit (texts : List String) : Prop := ∃ text ∈ texts, hasMethod "exit" text = true

/-- The texts in front of the first one that says `exit`. -/
def beforeExit (texts : List String) : List String :=
  texts.takeWhile fun text => !hasMethod "exit" text

variable {text : String} {m : Message}

theorem saysExit_cons (h : hasMethod "exit" text = false) {texts : List String} :
    SaysExit (text :: texts) ↔ SaysExit texts := by
  simp [SaysExit, h]

theorem not_saysExit_nil : ¬SaysExit [] := by
  simp [SaysExit]

theorem beforeExit_exit (h : hasMethod "exit" text = true) (texts : List String) :
    beforeExit (text :: texts) = [] := by
  refine List.takeWhile_cons_of_neg ?_
  rw [h]
  decide

theorem beforeExit_cons (h : hasMethod "exit" text = false) (texts : List String) :
    beforeExit (text :: texts) = text :: beforeExit texts := by
  refine List.takeWhile_cons_of_pos ?_
  rw [h]
  rfl

/-- What comes behind an `exit` is of no account. -/
theorem beforeExit_append {texts : List String} (h : SaysExit texts) (later : List String) :
    beforeExit (texts ++ later) = beforeExit texts := by
  induction texts with
  | nil =>
    obtain ⟨text, hmem, -⟩ := h
    cases hmem
  | cons text texts ih =>
    rw [List.cons_append]
    cases hexit : hasMethod "exit" text with
    | true => rw [beforeExit_exit hexit, beforeExit_exit hexit]
    | false =>
      rw [beforeExit_cons hexit, beforeExit_cons hexit, ih (saysExit_cons hexit |>.mp h)]

theorem beforeExit_of_not_saysExit {texts : List String} (h : ¬SaysExit texts) :
    beforeExit texts = texts := by
  refine List.takeWhile_eq_self_iff.mpr fun text hmem => ?_
  rw [Bool.not_eq_true']
  exact Bool.eq_false_iff.mpr fun htext => h ⟨text, hmem, htext⟩

theorem hasMethod_eq_true_iff {method : String} :
    hasMethod method text = true ↔
      ∃ j e, Json.parse text = some j ∧ Envelope.ofJson? j = some e ∧ e.method = method := by
  rw [hasMethod, Option.any_eq_true]
  constructor
  · rintro ⟨e, he, hmethod⟩
    obtain ⟨j, hj, he⟩ := Option.bind_eq_some_iff.mp he
    exact ⟨j, e, hj, he, of_decide_eq_true hmethod⟩
  · rintro ⟨j, e, hj, he, hmethod⟩
    exact ⟨e, Option.bind_eq_some_iff.mpr ⟨j, hj, he⟩, decide_eq_true hmethod⟩

/-- A text that says `exit` is a message, whatever else it says. -/
theorem decode?_eq_exit_iff : decode? text = some .exit ↔ hasMethod "exit" text = true := by
  rw [decode?_eq_some_iff, hasMethod_eq_true_iff]
  constructor
  · rintro ⟨j, e, hj, he, hspelled⟩
    exact ⟨j, e, hj, he, hspelled.method_eq.symm⟩
  · rintro ⟨j, e, hj, he, hmethod⟩
    exact ⟨j, e, hj, he, .exit hmethod⟩

/-- A text that says `shutdown` is a message, whatever else it says. -/
theorem exists_decode?_eq_shutdown_iff :
    (∃ id, decode? text = some (.shutdown id)) ↔ hasMethod "shutdown" text = true := by
  rw [hasMethod_eq_true_iff]
  constructor
  · rintro ⟨id, h⟩
    obtain ⟨j, e, hj, he, hspelled⟩ := decode?_eq_some_iff.mp h
    exact ⟨j, e, hj, he, hspelled.method_eq.symm⟩
  · rintro ⟨j, e, hj, he, hmethod⟩
    exact ⟨e.id, decode?_eq_some_iff.mpr ⟨j, e, hj, he, .shutdown hmethod⟩⟩

end Message

/-! ## Memory -/

namespace Frame

/-- All lengths of bodies that were told, in their order. -/
def Delivery.lengths (d : Delivery) : List Nat :=
  d.bodies.map List.length ++
    match d.stop with
    | .ok _ => []
    | .error error => error.length?.toList

end Frame

namespace Memory

variable {memory : Memory} {d : Frame.Delivery}

/-- How a process ends at the first length that memory has no room for. -/
def refusal? (memory : Memory) (d : Frame.Delivery) : Option Ending :=
  d.lengths.findSome? memory.failure?

/-- Memory has room for a body. -/
def holds (memory : Memory) (body : Bytes) : Bool := (memory.failure? body.length).isNone

/-- The messages that come in: those in front of the first body that memory has no room for. -/
def messages (memory : Memory) (d : Frame.Delivery) : List String :=
  (d.bodies.takeWhile memory.holds).filterMap Utf8.decode?

/-- Memory has room for all that is read before a server stops. -/
def Suffices (memory : Memory) (d : Frame.Delivery) : Prop :=
  memory.refusal? d = none ∨ Message.SaysExit (memory.messages d)

theorem failure?_eq_some {n : Nat} {ending : Ending} (h : memory.failure? n = some ending) :
    ending = .exit 101 ∨ ending = .abort := by
  unfold failure? at h
  split at h
  · cases h
    exact Or.inl rfl
  · split at h
    · cases h
    · cases h
      exact Or.inr rfl

theorem refusal?_eq_some {ending : Ending} (h : memory.refusal? d = some ending) :
    ending = .exit 101 ∨ ending = .abort := by
  obtain ⟨n, -, hn⟩ := List.exists_of_findSome?_eq_some h
  exact failure?_eq_some hn

theorem refusal?_error (memory : Memory) (error : Frame.Error) :
    memory.refusal? ⟨[], .error error⟩ = error.length?.bind memory.failure? := by
  cases error with
  | bodyCutShort n => exact List.findSome?_singleton
  | headerNotUtf8 => rfl

variable {body : Bytes} {bodies : List Bytes} {stop : Except Frame.Error Unit}

theorem refusal?_cons_none (h : memory.failure? body.length = none) :
    memory.refusal? ⟨body :: bodies, stop⟩ = memory.refusal? ⟨bodies, stop⟩ := by
  show List.findSome? memory.failure? (body.length :: _) = _
  rw [List.findSome?_cons_of_isNone (Option.isNone_iff_eq_none.mpr h)]
  rfl

theorem refusal?_cons_some {ending : Ending} (h : memory.failure? body.length = some ending) :
    memory.refusal? ⟨body :: bodies, stop⟩ = some ending := by
  show List.findSome? memory.failure? (body.length :: _) = _
  rw [List.findSome?_cons_of_isSome (Option.isSome_of_eq_some h), h]

theorem messages_cons_none (h : memory.failure? body.length = none) :
    memory.messages ⟨body :: bodies, stop⟩ =
      (Utf8.decode? body).toList ++ memory.messages ⟨bodies, stop⟩ := by
  have hholds : memory.holds body = true := Option.isNone_iff_eq_none.mpr h
  rw [messages, List.takeWhile_cons_of_pos hholds, List.filterMap_cons]
  cases Utf8.decode? body <;> rfl

theorem messages_cons_some {ending : Ending} (h : memory.failure? body.length = some ending) :
    memory.messages ⟨body :: bodies, stop⟩ = [] := by
  have hrefused : ¬memory.holds body = true := by simp [holds, h]
  rw [messages, List.takeWhile_cons_of_neg hrefused]
  rfl

/-- Messages come in from the front. -/
theorem messages_isPrefix (memory : Memory) (d : Frame.Delivery) :
    memory.messages d <+: d.messages :=
  (List.takeWhile_prefix _).filterMap _

theorem messages_of_refusal?_eq_none (h : memory.refusal? d = none) :
    memory.messages d = d.messages := by
  have hroom : ∀ body ∈ d.bodies, memory.holds body = true := by
    intro body hbody
    refine Option.isNone_iff_eq_none.mpr (List.findSome?_eq_none_iff.mp h body.length ?_)
    exact List.mem_append_left _ (List.mem_map_of_mem hbody)
  rw [messages, List.takeWhile_eq_self_iff.mpr hroom]
  rfl

/-- Where memory suffices, a server stops as if there were no bound to it. -/
theorem Suffices.beforeExit_eq (h : memory.Suffices d) :
    Message.beforeExit (memory.messages d) = Message.beforeExit d.messages := by
  rcases h with hroom | hexit
  · rw [messages_of_refusal?_eq_none hroom]
  · obtain ⟨texts, htexts⟩ := memory.messages_isPrefix d
    rw [← htexts, Message.beforeExit_append hexit]

theorem Suffices.saysExit_iff (h : memory.Suffices d) :
    Message.SaysExit (memory.messages d) ↔ Message.SaysExit d.messages := by
  rcases h with hroom | hexit
  · rw [messages_of_refusal?_eq_none hroom]
  · refine iff_of_true hexit ?_
    obtain ⟨text, hmem, htext⟩ := hexit
    exact ⟨text, (memory.messages_isPrefix d).subset hmem, htext⟩

end Memory

namespace Server

variable {disk : Disk} {s : Server} {text : String}

/-! ## One message -/

/-- A message stops the server exactly if it says `exit`. -/
theorem exits_receive (s : Server) (text : String) :
    (s.receive disk text).exits = Message.hasMethod "exit" text := by
  rw [Bool.eq_iff_iff, ← Message.decode?_eq_exit_iff, receive]
  cases Message.decode? text with
  | none => simp [ignore]
  | some m =>
    cases m with
    | unknown id method => cases id <;> simp [handle, ignore, reply]
    | _ => simp [handle, ignore, reply, update]

/-- The server remembers whether a message said `shutdown`. -/
theorem shutdownRequested_receive (s : Server) (text : String) :
    (s.receive disk text).server.shutdownRequested =
      (s.shutdownRequested || Message.hasMethod "shutdown" text) := by
  rw [Bool.eq_iff_iff, Bool.or_eq_true, ← Message.exists_decode?_eq_shutdown_iff, receive]
  cases Message.decode? text with
  | none => simp [ignore]
  | some m =>
    cases m with
    | unknown id method => cases id <;> simp [handle, ignore, reply]
    | _ => simp [handle, ignore, reply, update]

/-! ## A run -/

variable {memory : Memory} {stop : Except Frame.Error Unit} {refusal : Option Ending}
  {texts : List String}

/-- How a server ends that is handed texts before its input stops or memory is refused.  It answers
the texts in front of the first `exit` and no others.  If memory is refused in front of that, it
ends there.  If not, its status is zero exactly if it has been asked to shut down by then and the
end is an `exit` or the end of the input, and it is one in all other cases. -/
structure EndsAs (disk : Disk) (s : Server) (stop : Except Frame.Error Unit)
    (refusal : Option Ending) (texts : List String) (outcome : Outcome) : Prop where
  frames_eq : outcome.responses.map Response.frame = s.frames disk (Message.beforeExit texts)
  ending_of_refusal : ¬Message.SaysExit texts → ∀ ending ∈ refusal, outcome.ending = ending
  ending_eq_zero_iff : refusal = none ∨ Message.SaysExit texts →
    (outcome.ending = .exit 0 ↔
      (s.shutdownRequested = true ∨
        ∃ text ∈ Message.beforeExit texts, Message.hasMethod "shutdown" text = true) ∧
      (Message.SaysExit texts ∨ stop = .ok ()))
  ending_eq : refusal = none ∨ Message.SaysExit texts →
    outcome.ending = .exit 0 ∨ outcome.ending = .exit 1

theorem exitCode_eq_zero_iff (s : Server) :
    Ending.exit s.exitCode = .exit 0 ↔ s.shutdownRequested = true := by
  rw [exitCode]
  split <;> simp_all

theorem exitCode_eq (s : Server) :
    Ending.exit s.exitCode = .exit 0 ∨ Ending.exit s.exitCode = .exit 1 := by
  rw [exitCode]
  split
  · exact Or.inl rfl
  · exact Or.inr rfl

/-- The input ends where a frame could begin, or in a header. -/
theorem endsAs_closed (disk : Disk) (s : Server) :
    EndsAs disk s (.ok ()) none [] ⟨[], .exit s.exitCode⟩ := by
  refine ⟨rfl, nofun, fun _ => ?_, fun _ => s.exitCode_eq⟩
  rw [exitCode_eq_zero_iff]
  simp [Message.beforeExit]

/-- There is no room for the next body, whether it would have come or not. -/
theorem endsAs_refused (disk : Disk) (s : Server) (stop : Except Frame.Error Unit)
    (ending : Ending) : EndsAs disk s stop (some ending) [] ⟨[], ending⟩ := by
  have hnot : ¬(some ending = none ∨ Message.SaysExit []) := by simp [Message.not_saysExit_nil]
  exact ⟨rfl, fun _ _ h => Option.some.inj h, fun h => absurd h hnot, fun h => absurd h hnot⟩

/-- The input breaks off; there may have been no room for what should have come. -/
theorem endsAs_error (disk : Disk) (s : Server) (error : Frame.Error) (refusal : Option Ending) :
    EndsAs disk s (.error error) refusal [] ⟨[], refusal.getD (.exit 1)⟩ := by
  cases refusal with
  | none =>
    refine ⟨rfl, nofun, fun _ => ?_, fun _ => Or.inr rfl⟩
    simp [Message.not_saysExit_nil]
  | some ending => exact endsAs_refused disk s _ ending

/-- A text says `exit`; whatever follows it is not looked at. -/
theorem endsAs_exit (hexit : Message.hasMethod "exit" text = true) (disk : Disk) (s : Server)
    (stop : Except Frame.Error Unit) (refusal : Option Ending) (texts : List String) :
    EndsAs disk s stop refusal (text :: texts) ⟨[], .exit s.exitCode⟩ := by
  have hfirst : Message.SaysExit (text :: texts) := ⟨text, List.mem_cons_self, hexit⟩
  have hbefore := Message.beforeExit_exit hexit texts
  refine ⟨?_, fun h => absurd hfirst h, fun _ => ?_, fun _ => s.exitCode_eq⟩
  · rw [hbefore]
    rfl
  · rw [hbefore, exitCode_eq_zero_iff]
    simp [hfirst]

/-- A text is answered, and the run goes on behind it. -/
theorem EndsAs.cons {outcome : Outcome} (hexit : Message.hasMethod "exit" text = false)
    (h : EndsAs disk (s.receive disk text).server stop refusal texts outcome) :
    EndsAs disk s stop refusal (text :: texts)
      ⟨(s.receive disk text).response.toList ++ outcome.responses, outcome.ending⟩ := by
  have hbefore := Message.beforeExit_cons hexit texts
  have hlater : Message.SaysExit (text :: texts) ↔ Message.SaysExit texts :=
    Message.saysExit_cons hexit
  -- The server behind the text remembers a `shutdown`, so it counts for the rest of the run.
  refine ⟨?_, ?_, ?_, ?_⟩
  · rw [hbefore, frames_cons, List.map_append, h.frames_eq]
    cases (s.receive disk text).response <;> rfl
  · rw [hlater]
    exact h.ending_of_refusal
  · rw [hlater, hbefore]
    intro hroom
    rw [h.ending_eq_zero_iff hroom, shutdownRequested_receive, Bool.or_eq_true, or_assoc]
    simp
  · rw [hlater]
    exact h.ending_eq

/-- A body is taken, and the run goes on behind it unless it says `exit`. -/
theorem endsAs_afterBody {rest : Bytes} (s : Server) (body : Bytes)
    (h : ∀ s : Server, EndsAs disk s stop refusal texts (s.run disk memory (.line none) rest)) :
    EndsAs disk s stop refusal ((Utf8.decode? body).toList ++ texts)
      (s.afterBody disk memory body rest) := by
  cases htext : Utf8.decode? body with
  | none =>
    have hreceive : s.receiveBody disk body = s.ignore := by rw [receiveBody, htext]
    rw [afterBody, hreceive]
    exact h s
  | some text =>
    have hreceive : s.receiveBody disk body = s.receive disk text := by rw [receiveBody, htext]
    rw [afterBody, hreceive, exits_receive]
    cases hexit : Message.hasMethod "exit" text with
    | true =>
      have hserver : (s.receive disk text).server = s := by
        rw [receive, Message.decode?_eq_exit_iff.mpr hexit]
        rfl
      rw [hserver]
      exact endsAs_exit hexit disk s stop refusal texts
    | false => exact .cons hexit (h _)

/-- **Every run ends so**, by induction over the frames of its input. -/
theorem endsAs_run (disk : Disk) (memory : Memory) (s : Server) (input : Bytes) :
    EndsAs disk s (Frame.readAll input).stop (memory.refusal? (Frame.readAll input))
      (memory.messages (Frame.readAll input)) (s.run disk memory (.line none) input) := by
  rw [run_line]
  fun_induction Frame.readAll input generalizing s with
  | case1 input hnext =>
    rw [← Frame.next, hnext]
    exact endsAs_closed disk s
  | case2 input error hnext =>
    rw [← Frame.next, hnext, Memory.refusal?_error]
    exact endsAs_error disk s error _
  | case3 input body rest hnext _ delivery =>
    rename_i ih
    rw [← Frame.next, hnext, afterReading]
    cases hroom : memory.failure? body.length with
    | some ending =>
      rw [Memory.refusal?_cons_some hroom, Memory.messages_cons_some hroom]
      exact endsAs_refused disk s _ ending
    | none =>
      rw [Memory.refusal?_cons_none hroom, Memory.messages_cons_none hroom]
      refine endsAs_afterBody s body fun s => ?_
      rw [run_line]
      exact ih s

end Server

namespace Command

theorem parse_start (arguments : List Bytes) :
    parse (Utf8.encode "start" :: arguments) = .ok .start := by
  have hstart : Utf8.decodeLossy (Utf8.encode "start") = "start" := by decide +kernel
  rw [parse, hstart]
  rfl

end Command

namespace CommandLine

/-- What the program comes to that has been started as a server. -/
theorem run_start (disk : Disk) (memory : Memory) (arguments : List Bytes) (input : Bytes) :
    run disk memory (Utf8.encode "start" :: arguments) input =
      let outcome := (Server.start .empty).run disk memory (.line none) input
      ⟨outcome.ending, outcome.responses.flatMap Response.frame, []⟩ := by
  rw [run, Command.parse_start]

/-- **The status of the program.**  Started as a server, the program takes the messages of its
input in order up to the first `exit`, and writes the frames that answer those in front of it and
nothing else, as long as memory has room for the bodies that are told.  Then it ends with status
zero exactly if one of these messages says `shutdown` and the end is an `exit` or the end of the
input, and with status one in all other cases; so it does behind any frame that is cut short and
any header that is no text.  A body for which there is no room ends it before it is read, with
status 101 or by an abort, even if it is cut short. -/
theorem start_ends_with_status (disk : Disk) (memory : Memory) (arguments : List Bytes)
    (input : Bytes) :
    let result := run disk memory (Utf8.encode "start" :: arguments) input
    let delivery := Frame.readAll input
    let taken := Message.beforeExit delivery.messages
    (memory.Suffices delivery →
      result.stdout = ((Server.start .empty).frames disk taken).flatten ∧
      (result.ending = .exit 0 ↔
        (∃ text ∈ taken, Message.hasMethod "shutdown" text = true) ∧
        (Message.SaysExit delivery.messages ∨ delivery.stop = .ok ())) ∧
      (result.ending ≠ .exit 0 → result.ending = .exit 1) ∧
      (∀ error, delivery.stop = .error error → ¬Message.SaysExit delivery.messages →
        result.ending = .exit 1)) ∧
    (¬memory.Suffices delivery →
      result.stdout = ((Server.start .empty).frames disk (memory.messages delivery)).flatten ∧
      memory.refusal? delivery = some result.ending ∧
      (result.ending = .exit 101 ∨ result.ending = .abort)) ∧
    ∀ bodies error, delivery = ⟨bodies, .error error⟩ ↔
      ∃ rest, Frame.Carries input bodies rest ∧ Frame.BreaksOff rest error := by
  intro result delivery taken
  have hrun : result = _ := run_start disk memory arguments input
  have hends := (Server.start .empty).endsAs_run disk memory input
  have hstdout : result.stdout =
      ((Server.start .empty).frames disk (Message.beforeExit (memory.messages delivery))).flatten := by
    rw [hrun, ← hends.frames_eq, ← List.flatMap_def]
  refine ⟨fun hroom => ?_, fun hrefused => ?_, fun bodies error => ?_⟩
  · have hfresh : (Server.start .empty).shutdownRequested ≠ true := Bool.false_ne_true
    have hzero := hends.ending_eq_zero_iff hroom
    rw [or_iff_right hfresh, hroom.beforeExit_eq, hroom.saysExit_iff] at hzero
    have hone := (hends.ending_eq hroom).resolve_left
    rw [hstdout, hroom.beforeExit_eq, hrun]
    refine ⟨rfl, hzero, hone, fun error hstop hstays => hone fun h => ?_⟩
    rcases (hzero.mp h).2 with hexit | hclosed
    · exact hstays hexit
    · cases hstop.symm.trans hclosed
  · obtain ⟨hrefused, hstays⟩ := not_or.mp hrefused
    obtain ⟨ending, hending⟩ := Option.ne_none_iff_exists'.mp hrefused
    have hresult : result.ending = ending := by
      rw [hrun]
      exact hends.ending_of_refusal hstays ending hending
    rw [hstdout, Message.beforeExit_of_not_saysExit hstays, hresult]
    exact ⟨rfl, hending, Memory.refusal?_eq_some hending⟩
  · exact Frame.readAll_eq_error_iff

/-- The message with which an editor says farewell. -/
def farewell : String := "\x7b\"jsonrpc\":\"2.0\",\"id\":1,\"method\":\"shutdown\"\x7d"

/-- The farewell, and then a header that is no text. -/
theorem farewell_in_vain :
    Frame.BreaksOff [0xff, 0x0a] .headerNotUtf8 ∧
      let input := Frame.render (Utf8.encode farewell) ++ [0xff, 0x0a]
      Memory.ample.Suffices (Frame.readAll input) ∧
        (∃ text ∈ (Frame.readAll input).messages, Message.hasMethod "shutdown" text = true) ∧
        (run .empty .ample [Utf8.encode "start"] input).ending = .exit 1 := by
  have hline : Frame.IsLine [0xff, 0x0a] [] := ⟨[0xff], by decide, Or.inl rfl⟩
  have htext : ∀ text, Utf8.encode text ≠ [0xff, 0x0a] := by
    intro text hencode
    cases (Utf8.decode?_eq_some_iff.mpr hencode).symm.trans (by decide +kernel : _ = none)
  have hheader := Frame.BreaksOff.header Frame.isOpen_nil hline htext
  have hbreaks : Frame.BreaksOff [0xff, 0x0a] .headerNotUtf8 := hheader
  have hread : Frame.readAll (Frame.render (Utf8.encode farewell) ++ [0xff, 0x0a]) =
      ⟨[Utf8.encode farewell], .error .headerNotUtf8⟩ := by
    rw [Frame.readAll_render_append (by decide +kernel),
      Frame.readAll_eq_error_iff.mpr ⟨_, .done _, hbreaks⟩]
  have hmessages : Frame.Delivery.messages ⟨[Utf8.encode farewell], .error .headerNotUtf8⟩ =
      [farewell] := List.filterMap_cons_some (Utf8.decode?_eq_some_iff.mpr rfl)
  have hroom : Memory.ample.Suffices ⟨[Utf8.encode farewell], .error .headerNotUtf8⟩ :=
    Or.inl (by decide +kernel)
  have hstatus := start_ends_with_status .empty .ample []
    (Frame.render (Utf8.encode farewell) ++ [0xff, 0x0a])
  dsimp only at hstatus ⊢
  rw [hread, hmessages] at hstatus
  rw [hread, hmessages]
  have hstays : ¬Message.SaysExit [farewell] := by
    rintro ⟨text, hmem, hexit⟩
    rw [List.mem_singleton.mp hmem] at hexit
    exact absurd hexit (by decide +kernel)
  refine ⟨hbreaks, hroom, ⟨farewell, List.mem_singleton.mpr rfl, by decide +kernel⟩, ?_⟩
  exact (hstatus.1 hroom).2.2.2 _ rfl hstays

/-- **A body that is cut short can end the process with another status.**  There is never room for
a body of this length, so the end of the input behind the header is not even noticed. -/
theorem huge_body_ends_process :
    let input := Utf8.encode "Content-Length: 18446744073709551615\r\n\r\n"
    Frame.readAll input = ⟨[], .error (.bodyCutShort 18446744073709551615)⟩ ∧
      (run .empty .ample [Utf8.encode "start"] input).ending = .exit 101 := by
  have hbytes : Utf8.encode "Content-Length: 18446744073709551615\r\n\r\n" =
      Frame.lengthLine 18446744073709551615 ++ 0x0a :: 0x0d :: 0x0a :: [] := by
    decide +kernel
  have hnext : Frame.next (Frame.lengthLine 18446744073709551615 ++ 0x0a :: 0x0d :: 0x0a :: []) =
      .failed (.bodyCutShort 18446744073709551615) := by
    rw [Frame.next_lengthLine (by decide), Frame.readHeader_blank]
    rfl
  dsimp only
  rw [hbytes]
  constructor
  · rw [Frame.readAll_eq, hnext]
  · rw [run_start]
    dsimp only
    rw [Server.run_line, ← Frame.next, hnext]
    rfl

end CommandLine

end SymbolRename
