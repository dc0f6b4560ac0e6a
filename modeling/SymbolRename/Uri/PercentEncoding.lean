import SymbolRename.Unicode.Classes
import SymbolRename.Utf8

/-! # Percent encoding

A component of a URI is ASCII text in which a byte may be written as `%` and two
hexadecimal digits.  Every component has a set of ASCII characters that have to
be written so; bytes beyond ASCII always are.
-/
namespace SymbolRename

namespace Uri

/-- A set of ASCII characters. -/
abbrev CharSet := Char → Bool

/-- Control characters. -/
def controlSet : CharSet := fun c => c.toNat < 0x20 || c.toNat = 0x7f

def fragmentSet : CharSet := fun c => controlSet c || [' ', '"', '<', '>', '\x60'].contains c

def querySet : CharSet := fun c => controlSet c || [' ', '"', '#', '<', '>'].contains c

/-- Queries of special schemes also encode the apostrophe. -/
def specialQuerySet : CharSet := fun c => querySet c || c = '\''

def pathSet : CharSet := fun c => fragmentSet c || ['#', '?', '\x7b', '\x7d'].contains c

/-- A name that becomes one segment of a path must not bring separators or escapes of its own. -/
def segmentSet : CharSet := fun c => pathSet c || ['/', '%'].contains c

/-- In special schemes a backslash separates segments, too. -/
def specialSegmentSet : CharSet := fun c => segmentSet c || c = '\\'

def userinfoSet : CharSet := fun c =>
  pathSet c || ['/', ':', ';', '=', '@', '[', '\\', ']', '^', '|'].contains c

/-- A byte as it stands in a component whose encoded characters are `set`. -/
def encodeByte (set : CharSet) (b : UInt8) : List Char :=
  if b < 0x80 && !set (Char.ofNat b.toNat) then [Char.ofNat b.toNat]
  else ['%', Digits.hexUpper (b.toNat / 16), Digits.hexUpper (b.toNat % 16)]

def encodeBytes (set : CharSet) (bytes : Bytes) : List Char := bytes.flatMap (encodeByte set)

/-- Writes a text as a component. -/
def encodeText (set : CharSet) (cs : List Char) : List Char :=
  encodeBytes set (cs.flatMap String.utf8EncodeChar)

/-- The bytes that a component stands for; a `%` without two digits stands for itself. -/
def decodeText : List Char → Bytes
  | [] => []
  | '%' :: a :: b :: cs =>
    match Digits.value? a, Digits.value? b with
    | some x, some y => UInt8.ofNat (16 * x + y) :: decodeText cs
    | _, _ => 0x25 :: decodeText (a :: b :: cs)
  | c :: cs => String.utf8EncodeChar c ++ decodeText cs

end Uri

end SymbolRename
