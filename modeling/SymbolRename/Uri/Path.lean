import SymbolRename.Uri.Host
import SymbolRename.Uri.Basic

/-! # Segments of a path

A written path is cut into segments (`cutSegments`), and the segments are put
together one by one (`Trail.add`): `.` stands for no segment and `..` takes the
one before it away.  A drive letter such as `C:` is never taken away, and in
`file` URIs a drive letter in front is written with a colon.  Tabs and line ends
do not count, but one behind the colon of such a drive letter ends its segment.
-/
namespace SymbolRename

namespace Uri

/-- The schemes whose hosts are domains and whose paths may be written with backslashes. -/
def isSpecial (scheme : String) : Bool :=
  ["http", "https", "ws", "wss", "ftp", "file"].contains scheme

/-- The `portNumber` that need not be written. -/
def defaultPortNumber? (scheme : String) : Option Nat :=
  match scheme with
  | "http" | "ws" => some 80
  | "https" | "wss" => some 443
  | "ftp" => some 21
  | _ => none

/-- A letter and a colon or a bar. -/
def isDriveLetter : List Char → Bool
  | [a, b] => a.isAlpha && (b = ':' || b = '|')
  | _ => false

/-- A segment that is a drive letter, or goes on behind one with a separator. -/
def beginsWithDrive : List Char → Bool
  | a :: b :: rest =>
    isDriveLetter [a, b] && (rest.head?.all fun c => ['/', '\\', '?', '#'].contains c)
  | _ => false

/-- Tabs and line ends, which do not count anywhere in a URI. -/
def isLayout (c : Char) : Bool := c = '\t' || c = '\n' || c = '\r'

/-- What counts of a text. -/
def dropLayout (cs : List Char) : List Char := cs.filter (!isLayout ·)

/-- A drive letter and what follows it in its segment, if a tab or line end stands between them. -/
def splitDrive (segment : List Char) : Option (List Char × List Char) :=
  match segment.dropWhile isLayout with
  | [] => none
  | a :: rest =>
    match rest.dropWhile isLayout with
    | ':' :: c :: rest =>
      if a.isAlpha && isLayout c && rest.any (!isLayout ·) then some ([a, ':'], dropLayout rest)
      else none
    | _ => none

/-- `.`, also written `%2e`. -/
def isSingleDot (segment : String) : Bool :=
  [".", "%2e"].any fun dot => segment.toList.map Char.toLower = dot.toList

/-- `..`, also with any of its dots written `%2e`. -/
def isDoubleDot (segment : String) : Bool :=
  ["..", ".%2e", "%2e.", "%2e%2e"].any fun dots => segment.toList.map Char.toLower = dots.toList

/-- Takes the last segment away, unless it is a drive letter. -/
def dropParent (done : List String) : List String :=
  if done.getLast?.any (fun s => beginsWithDrive s.toList) then done else done.dropLast

/-- The segments of a path that has been read so far.  `onDrive` says that the first of them was
a drive letter, so that the path is one of this machine. -/
structure Trail where
  segments : List String
  onDrive : Bool

namespace Trail

/-- The trail in front of a path. -/
def root : Trail := ⟨[], false⟩

/-- Adds a segment that is written in full; behind the last segment no slash follows. -/
def addText (isFile : Bool) (trail : Trail) (segment : String) (isLast : Bool) : Trail :=
  let done := trail.segments
  if isDoubleDot segment then
    { trail with segments := if isLast then dropParent done ++ [""] else dropParent done }
  else if isSingleDot segment then
    { trail with segments := if isLast then done ++ [""] else done }
  else if isFile && done.isEmpty && isDriveLetter segment.toList then
    ⟨[String.ofList [segment.toList.headD ' ', ':']], true⟩
  else { trail with segments := done ++ [segment] }

/-- Adds a segment whose characters of `set` have to be encoded. -/
def add (isFile : Bool) (set : CharSet) (trail : Trail) (segment : List Char) (isLast : Bool) :
    Trail :=
  match if isFile && trail.segments.isEmpty then splitDrive segment else none with
  | some (drive, rest) =>
    { trail with segments := [String.ofList drive, String.ofList (encodeText set rest)] }
  | none => trail.addText isFile (String.ofList (encodeText set (dropLayout segment))) isLast

/-- Adds segments one by one; the last of them ends the path. -/
def addAll (isFile : Bool) (trail : Trail) : List (List Char) → Trail
  | [] => trail
  | [segment] => trail.add isFile pathSet segment true
  | segment :: rest => (trail.add isFile pathSet segment false).addAll isFile rest

end Trail

/-- In `file` URIs the path does not begin with empty segments, unless nothing else is left. -/
def dropEmptyFront : List String → List String
  | "" :: segment :: rest => dropEmptyFront (segment :: rest)
  | segments => segments

/-- Cuts a path at its slashes, in special schemes also at its backslashes. -/
def cutSegments (special : Bool) (cs : List Char) : List (List Char) :=
  (if special then cs.map fun c => if c = '\\' then '/' else c else cs).splitOn '/'

/-- The trail of a path whose leading slash has been read. -/
def readTrail (special isFile : Bool) (cs : List Char) : Trail :=
  Trail.root.addAll isFile (cutSegments special cs)

/-- The segments of the path of a URI with the given scheme. -/
def readPath (scheme : String) (cs : List Char) : List String :=
  let segments := (readTrail (isSpecial scheme) (scheme == "file") cs).segments
  if scheme = "file" then dropEmptyFront segments else segments

end Uri

end SymbolRename
