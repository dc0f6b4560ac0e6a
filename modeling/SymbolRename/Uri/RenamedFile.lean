import SymbolRename.Uri.Parser

/-! # Renaming the file of a URI

`Uri.renamedFile` puts a new name in the place of the last segment of a path and
keeps what follows the last dot of the old one.
-/
namespace SymbolRename

namespace Uri

/-- The part of a segment from its last dot on; empty if it has none. -/
def fileExtension (segment : String) : String :=
  let (tail, front) := segment.toList.reverse.span (· ≠ '.')
  if front = [] then "" else String.ofList ('.' :: tail.reverse)

/-- The segments before the last; a single empty one is the bare root. -/
def parentSegments (segments : List String) : List String :=
  if segments.dropLast = [""] then [] else segments.dropLast

/-- Puts a name behind the segments of a directory.  The names `.` and `..` are passed over. -/
def pushSegment (scheme : String) (directory : List String) (name : String) : List String :=
  if name = "." ∨ name = ".." then
    if directory = [] then [""] else directory
  else
    let set := if isSpecial scheme then specialSegmentSet else segmentSet
    let trail := Trail.add (scheme == "file") set ⟨directory, false⟩ name.toList true
    if scheme = "file" then dropEmptyFront trail.segments else trail.segments

/-- Writes `ending` behind the last segment. -/
def appendToLast (segments : List String) (ending : String) : List String :=
  segments.dropLast ++ [segments.getLastD "" ++ ending]

/-- The URI with another file name and the old extension, if its path has segments. -/
def renamedFile (u : Uri) (name : String) : Option Uri :=
  match u.path with
  | .rootless _ => none
  | .rooted [] => none
  | .rooted segments =>
    let named := pushSegment u.scheme (parentSegments segments) name
    let text := renderSegments (appendToLast named (fileExtension (segments.getLastD "")))
    some { u with path := .rooted (readPath u.scheme text.toList.tail) }

end Uri

end SymbolRename
