import SymbolRename.Quoted
import SymbolRename.Rename

/-! # Log events

What happened during a request, as data.  `Event.level` grades an event and
`Event.message` words it; each request's events are listed by a function beside
the one that answers the request.
-/
namespace SymbolRename

namespace Log

inductive Level where
  | trace
  | debug
  | warn
deriving DecidableEq, Repr

def Level.name : Level → String
  | .trace => "TRACE"
  | .debug => "DEBUG"
  | .warn => "WARN"

inductive Event where
  | opened (uri : Uri) (version : Int)
  | closed (uri : Uri)
  | ignoredChange (uri : Uri)
  | noText (cause : TextError)
  | renameRequested (uri : Uri) (p : Position) (newName : String)
  | noSymbol (uri : Uri) (p : Position)
  | foundReferences (node : NodeId) (count : Nat)
  | renaming (node : NodeId) (uri : Uri) (span : Span)
  | skipped (node : NodeId) (reason : SkipReason)
  | droppedEdit (uri : Uri) (dropped kept : Span)

namespace Event

def level : Event → Level
  | .opened .. | .closed .. | .renameRequested .. | .foundReferences .. | .renaming .. => .trace
  | .noText (.notAFile _) | .noSymbol .. | .skipped .. => .debug
  | .ignoredChange .. | .noText (.unreadable ..) | .droppedEdit .. => .warn

end Event

/-- An error of the operating system. -/
def systemError (code : Nat) (kind text : String) : String :=
  s!"Os \x7b code: {code}, kind: {kind}, message: {Quoted.text text} \x7d"

/-- An error that is found without asking the operating system. -/
def plainError (kind text : String) : String :=
  s!"Error \x7b kind: {kind}, message: {Quoted.text text} \x7d"

def readErrorText : ReadError → String
  | .notFound => systemError 2 "NotFound" "No such file or directory"
  | .notDirectory => systemError 20 "NotADirectory" "Not a directory"
  | .isDirectory => systemError 21 "IsADirectory" "Is a directory"
  | .nameTooLong => systemError 36 "InvalidFilename" "File name too long"
  | .nulInName => plainError "InvalidInput" "file name contained an unexpected NUL byte"
  | .notUtf8 => plainError "InvalidData" "stream did not contain valid UTF-8"

def skipReasonText : SkipReason → String
  | .notRenameable => "not renameable"
  | .noRange => "no range"
  | .noText _ => "no text"
  | .rangeOutOfText => "range out of text"
  | .nameNotFound => "name not found"

def nodeText (node : NodeId) : String := s!"node#{node}"

namespace Event

def message : Event → String
  | .opened uri version => s!"did_open {uri.render} v{version}"
  | .closed uri => s!"did_close {uri.render}"
  | .ignoredChange uri => s!"ignored incremental change to unopened {uri.render}"
  | .noText (.notAFile uri) => s!"no text for {uri.render} (not open, not a file)"
  | .noText (.unreadable path cause) =>
    s!"couldn't read {Quoted.path path} ({readErrorText cause})"
  | .renameRequested uri p newName => s!"rename {uri.render} {p.render} -> {Quoted.text newName}"
  | .noSymbol uri p => s!"rename: no symbol at {uri.render} {p.render}"
  | .foundReferences node count => s!"rename: {nodeText node} has {count} references"
  | .renaming node uri span => s!"rename {nodeText node} at {uri.render} {span.render}"
  | .skipped node reason => s!"rename skipped {nodeText node} ({skipReasonText reason})"
  | .droppedEdit uri dropped kept =>
    s!"dropped overlapping edit in {uri.render} at {dropped.render} ({kept.render})"

/-- One line of a log. -/
def render (e : Event) : String := e.level.name ++ " " ++ e.message

end Event

/-- The lines of a log that keeps the given level and all above it. -/
def render (events : List Event) (keep : Level) : List String :=
  (events.filter fun e =>
    match keep, e.level with
    | .trace, _ => true
    | .debug, .trace => false
    | .debug, _ => true
    | .warn, level => level = .warn).map Event.render

/-! ## Events of requests -/

def openEvents (uri : Uri) (version : Int) : List Event := [.opened uri version]

def closeEvents (uri : Uri) : List Event := [.closed uri]

/-- A change is worth a line only if the document was not open. -/
def changeEvents (docs : Documents) (uri : Uri) (version : Int) (changes : List Change) :
    List Event :=
  match docs.get? uri, Documents.changed? none version changes with
  | some _, _ => []
  | none, some _ => [.opened uri version]
  | none, none => [.ignoredChange uri]

/-- Reading a text is worth a line only if there is none. -/
def textEvents (text : Except TextError String) : List Event :=
  match text with
  | .ok _ => []
  | .error cause => [.noText cause]

/-- What looking for the text of a reference reported. -/
def siteTextEvents (site : Except SkipReason Site) : List Event :=
  match site with
  | .error (.noText cause) => [.noText cause]
  | _ => []

def attemptEvents (node : NodeId) (site : Except SkipReason Site) : List Event :=
  siteTextEvents site ++
    match site with
    | .ok site => [.renaming node site.uri site.span]
    | .error reason => [.skipped node reason]

def renameEvents (index : SyntaxIndex) (texts : TextSource) (uri : Uri) (p : Position)
    (newName : String) : List Event :=
  .renameRequested uri p newName ::
    match index.nodeAt uri p with
    | none => [.noSymbol uri p]
    | some node =>
      let attempts := Rename.attempts index texts uri node
      let edits := Rename.siteEdits (Rename.sites index texts uri node) newName
      .foundReferences node attempts.length ::
        attempts.flatMap (fun (node, site) => attemptEvents node site) ++
        (WorkspaceEdit.droppedEdits edits).map fun (uri, dropped, kept) =>
          .droppedEdit uri dropped.span kept.span

def prepareEvents (index : SyntaxIndex) (texts : TextSource) (uri : Uri) (p : Position) :
    List Event :=
  match index.nodeAt uri p with
  | none => []
  | some node => siteTextEvents (Rename.locate index texts uri node)

end Log

end SymbolRename
