import SymbolRename.Uri.FilePath

/-! # Files on disk

A disk is what a program sees of it at one moment: directories and files with
their contents, named by the components of their paths.  `Disk.read` follows a path
from the root and says why it leads to no file.
-/
namespace SymbolRename

/-- Why a file could not be read. -/
inductive ReadError where
  | notFound
  | notDirectory
  | isDirectory
  | nameTooLong
  | nulInName
  | notUtf8
deriving DecidableEq, Repr

/-- Directories and files by the components of their paths. -/
structure Disk where
  directories : List (List Bytes)
  files : List (List Bytes × Bytes)
deriving DecidableEq, Repr

namespace Disk

/-- A disk with a root directory and nothing in it. -/
def empty : Disk := ⟨[[]], []⟩

def file? (d : Disk) (path : List Bytes) : Option Bytes := (d.files.find? (·.1 = path)).map (·.2)

/-- Every path from the root to the directory of a file. -/
def ancestors (path : List Bytes) : List (List Bytes) :=
  (List.range path.length).map path.take

/-- Where the components of a path lead; `..` goes one step back. -/
def destination (path : List Bytes) : List Bytes :=
  path.foldl (fun here name => if name = [0x2e, 0x2e] then here.dropLast else here ++ [name]) []

/-- Writes a file and makes the directories on the way to it. -/
def write (d : Disk) (path : FilePath) (content : Bytes) : Disk :=
  let file := destination path.components
  ⟨(d.directories ++ (ancestors path.components).map destination).eraseDups,
    (file, content) :: d.files.filter (·.1 ≠ file)⟩

/-- Removes a file; its directory stays. -/
def remove (d : Disk) (path : FilePath) : Disk :=
  { d with files := d.files.filter (·.1 ≠ destination path.components) }

/-- Follows the components of a path from a directory. -/
def follow (d : Disk) (here : List Bytes) : List Bytes → Except ReadError Bytes
  | [] => .error .isDirectory
  | name :: rest =>
    if name = [] ∨ name = [0x2e] then d.follow here rest
    else if name = [0x2e, 0x2e] then d.follow here.dropLast rest
    else if 255 < name.length then .error .nameTooLong
    else
      match d.file? (here ++ [name]) with
      | some content => if rest = [] then .ok content else .error .notDirectory
      | none =>
        if d.directories.contains (here ++ [name]) then d.follow (here ++ [name]) rest
        else .error .notFound

/-- The content of the file at an absolute path. -/
def read (d : Disk) (path : FilePath) : Except ReadError Bytes :=
  if path.contains 0 then .error .nulInName
  else if 4096 ≤ path.length then .error .nameTooLong
  else d.follow [] (path.splitOn 0x2f)

/-- The text of the file at an absolute path. -/
def readText (d : Disk) (path : FilePath) : Except ReadError String := do
  let bytes ← d.read path
  match Utf8.decode? bytes with
  | some text => .ok text
  | none => .error .notUtf8

end Disk

end SymbolRename
