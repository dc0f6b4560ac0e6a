import SymbolRename.Uri.Parser

/-! # URIs of files

The path of the file that a URI names, and the URI that names a file.  A path is
a string of bytes with slashes between its components.
-/
namespace SymbolRename

/-- The path of a file. -/
abbrev FilePath := Bytes

namespace FilePath

/-- The components of a path; empty ones and `.` do not count. -/
def components (path : FilePath) : List Bytes :=
  (path.splitOn 0x2f).filter fun c => c ≠ [] ∧ c ≠ [0x2e]

/-- A path that begins with a slash stands for itself, any other one is looked up in `directory`. -/
def resolve (directory path : FilePath) : FilePath :=
  if path.head? = some 0x2f then path else directory ++ 0x2f :: path

end FilePath

namespace Uri

/-- A path that ends with a drive letter names a directory. -/
def closeDrive (path : FilePath) : FilePath :=
  match path.reverse with
  | b :: a :: _ :: _ =>
    if isDriveLetter [Char.ofNat a.toNat, Char.ofNat b.toNat] then path ++ [0x2f] else path
  | _ => path

/-- The file that a URI names: it has segments and no host other than this machine. -/
def filePath? (u : Uri) : Option FilePath :=
  match u.path with
  | .rootless _ => none
  | .rooted [] => none
  | .rooted segments =>
    if u.authority.all fun a => a.host = "" || a.host = "localhost" then
      some (closeDrive (segments.flatMap fun s => 0x2f :: decodeText s.toList))
    else none

/-- The URI of a file; a relative path is looked up in `directory`. -/
def ofFilePath (directory path : FilePath) : Uri :=
  let segments := (FilePath.resolve directory path).components.map fun c =>
    String.ofList (encodeBytes specialSegmentSet c)
  ⟨"file", some ⟨"", "", none⟩, false, .rooted (if segments = [] then [""] else segments), none, none⟩

end Uri

end SymbolRename
