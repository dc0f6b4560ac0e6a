import SymbolRename.Uri.Path

/-! # Reading URIs

`Uri.parse` reads the text of a URI and gives its normalized form.  Blanks around
the text do not count, nor do tabs and line ends inside it, except that the path of
a `file` URI is still to be read with them.  A text without a scheme is no URI.
-/
namespace SymbolRename

namespace Uri

/-- Control characters and the blank. -/
def isBlank (c : Char) : Bool := c.toNat ≤ 0x20

/-- The text without the blanks around it. -/
def strip (cs : List Char) : List Char :=
  ((cs.dropWhile isBlank).reverse.dropWhile isBlank).reverse

def isSchemeChar (c : Char) : Bool := c.isAlphanum || ['+', '-', '.'].contains c

/-- The scheme in lower case, and what follows its colon. -/
def splitScheme (cs : List Char) : Option (String × List Char) :=
  let (text, rest) := cs.span (· ≠ ':')
  let scheme := dropLayout text
  if rest ≠ [] ∧ scheme.head?.any Char.isAlpha ∧ scheme.all isSchemeChar then
    some (String.ofList (scheme.map Char.toLower), rest.tail)
  else none

/-- Splits behind the last `@`, which is dropped. -/
def splitUserinfo (cs : List Char) : Option (List Char × List Char) :=
  if cs.contains '@' then
    let (host, userinfo) := cs.reverse.span (· ≠ '@')
    some (userinfo.tail.reverse, host.reverse)
  else none

/-- User name and password; an empty password is not written. -/
def encodeUserinfo (cs : List Char) : String :=
  let (user, password) := cs.span (· ≠ ':')
  let user := encodeText userinfoSet user
  match password.tail with
  | [] => String.ofList user
  | password => String.ofList (user ++ ':' :: encodeText userinfoSet password)

/-- Splits in front of the first colon outside brackets. -/
def splitHost (inside : Bool) : List Char → List Char × List Char
  | [] => ([], [])
  | c :: cs =>
    if c = ':' ∧ !inside then ([], c :: cs)
    else
      let (host, rest) := splitHost (if c = '[' then true else if c = ']' then false else inside) cs
      (c :: host, rest)

/-- The number behind the colon of an authority, if it has to be written, and what follows its
digits: nothing, or a path behind a backslash. -/
def readPortNumber? (scheme : String) (cs : List Char) : Option (Option Nat × List Char) :=
  let digits := cs.takeWhile Char.isDigit
  let rest := cs.dropWhile Char.isDigit
  match Digits.number? 10 digits with
  | none => none
  | some n =>
    if 65535 < n ∨ (rest ≠ [] ∧ rest.head? ≠ some '\\') then none
    else if digits = [] ∨ defaultPortNumber? scheme = some n then some (none, rest)
    else some (some n, rest)

/-- An authority and the path behind it. -/
structure AuthorityAndPath where
  authority : Authority
  path : List Char

/-- Reads an authority that is not of a `file` URI; `isEnd` says that nothing follows `cs`. -/
def readAuthority? (scheme : String) (cs : List Char) (isEnd : Bool) : Option AuthorityAndPath := do
  let (text, path) := cs.span fun c => c ≠ '/' ∧ ¬(isSpecial scheme ∧ c = '\\')
  let (userinfo, text) ←
    match splitUserinfo text with
    | none => some ("", text)
    | some ([], host) => if host = [] ∧ ¬(path = [] ∧ isEnd) then none else some ("", host)
    | some (userinfo, host) => some (encodeUserinfo userinfo, host)
  let (host, colon) := splitHost false text
  let host ←
    if isSpecial scheme then (if host = [] then none else Host.ofSpecial? host)
    else Host.ofOther? host
  if host = "" ∧ (userinfo ≠ "" ∨ colon ≠ []) then none
  else
    let (portNumber, rest) ←
      if colon = [] then some (none, []) else readPortNumber? scheme colon.tail
    return ⟨⟨userinfo, host, portNumber⟩, rest ++ path⟩

/-- Drops the slash, or in special schemes the backslash, in front. -/
def dropSlash (special : Bool) : List Char → List Char
  | [] => []
  | c :: cs => if c = '/' ∨ (special ∧ c = '\\') then cs else c :: cs

def isSlash (c : Char) : Bool := c = '/' || c = '\\'

/-- The host and the segments of a `file` URI, from what stands between scheme and query.
A path that begins with a drive letter has no host. -/
def readFile? (cs : List Char) : Option (String × List String) :=
  let plain (path : List Char) := some ("", readPath "file" path)
  match cs.dropWhile isLayout with
  | [] => plain []
  | a :: rest =>
    let second := rest.dropWhile isLayout
    if isSlash a && second.head?.any isSlash then
      let (text, path) := second.tail.span (!isSlash ·)
      let text := dropLayout text
      if isDriveLetter text then plain second.tail
      else if text = [] then plain path
      else
        match Host.ofSpecial? text with
        | none => none
        | some "localhost" => plain path
        | some host =>
          let trail := readTrail true true (dropSlash true path)
          some (if trail.onDrive then "" else host, dropEmptyFront trail.segments)
    else plain (dropSlash true (a :: rest))

/-- The path would look like an authority: it begins with an empty segment and goes on. -/
def Path.looksLikeAuthority : Path → Bool
  | .rooted ("" :: _ :: _) => true
  | _ => false

/-- Authority and path of a URI whose scheme is not `file`, from what stands between scheme and
query; `isEnd` says that nothing else follows. -/
def readHierarchy? (scheme : String) (main : List Char) (isEnd : Bool) :
    Option (Option Authority × Path) :=
  if isSpecial scheme then do
    let a ← readAuthority? scheme (main.dropWhile isSlash) isEnd
    return (a.authority, .rooted (readPath scheme (dropSlash true a.path)))
  else
    match main with
    | '/' :: '/' :: main => do
      let a ← readAuthority? scheme main isEnd
      return (a.authority,
        .rooted (if a.path = [] then [] else readPath scheme (dropSlash false a.path)))
    | '/' :: main => some (none, .rooted (readPath scheme main))
    | main => some (none, .rootless (String.ofList (encodeText controlSet main)))

/-- Query or fragment behind its mark. -/
def encodeTail (set : CharSet) : List Char → Option String
  | [] => none
  | _ :: cs => some (String.ofList (encodeText set (dropLayout cs)))

/-- The URI that a text denotes.  URIs with internationalized hosts (`Host.isInternational`) are
out of scope, as if their texts denoted none. -/
def parse (s : String) : Option Uri := do
  let (scheme, rest) ← splitScheme (strip s.toList)
  let (rest, fragment) := rest.span (· ≠ '#')
  let (main, query) := rest.span (· ≠ '?')
  let (authority, path) ←
    if scheme = "file" then
      (readFile? main).map fun (host, segments) =>
        (some ⟨"", host, none⟩, Path.rooted segments)
    else readHierarchy? scheme (dropLayout main) (fragment.isEmpty && query.isEmpty)
  return {
    scheme
    authority
    dotted := authority.isNone && path.looksLikeAuthority
    path
    query := encodeTail (if isSpecial scheme then specialQuerySet else querySet) query
    fragment := encodeTail fragmentSet fragment }

end Uri

end SymbolRename
