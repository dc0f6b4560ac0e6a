import SymbolRename.Uri.PercentEncoding

/-! # URIs

A URI is its scheme, an optional authority, a path, an optional query and an
optional fragment, each in the normalized and percent-encoded form in which it is
written.  Two URIs name the same document when they are equal.
-/
namespace SymbolRename

namespace Uri

/-- The part behind `//`; an empty `userinfo` or `host` is not there. -/
structure Authority where
  userinfo : String
  host : String
  portNumber : Option Nat
deriving DecidableEq, Repr

/-- A path without a leading slash is plain text; any other is a list of segments,
empty if there is no path at all. -/
inductive Path where
  | rootless (text : String)
  | rooted (segments : List String)
deriving DecidableEq, Repr

end Uri

/-- The identity of a document.  `dotted` says that `/.` is written in front of the path, which
keeps a path that begins with an empty segment apart from an authority. -/
structure Uri where
  scheme : String
  authority : Option Uri.Authority
  dotted : Bool
  path : Uri.Path
  query : Option String
  fragment : Option String
deriving DecidableEq, Repr

namespace Uri

def Authority.render (a : Authority) : String :=
  (if a.userinfo = "" then "" else a.userinfo ++ "@") ++ a.host ++
    match a.portNumber with
    | some n => ":" ++ toString n
    | none => ""

/-- Segments with a slash before each. -/
def renderSegments (segments : List String) : String :=
  String.join (segments.map ("/" ++ ·))

def Path.render : Path → String
  | .rootless text => text
  | .rooted segments => renderSegments segments

/-- The text of a URI. -/
def render (u : Uri) : String :=
  u.scheme ++ ":" ++
    (match u.authority with
    | some a => "//" ++ a.render
    | none => "") ++
    (if u.dotted then "/." else "") ++ u.path.render ++
    (match u.query with
    | some q => "?" ++ q
    | none => "") ++
    match u.fragment with
    | some f => "#" ++ f
    | none => ""

end Uri

end SymbolRename
