import SymbolRename.Unicode.Printable
import SymbolRename.Uri.FilePath

/-! # Quoted text

Text and paths in log messages stand in quotes, with everything escaped that would
not be seen.
-/
namespace SymbolRename

namespace Quoted

/-- A character by its number. -/
def byNumber (c : Char) : List Char :=
  '\\' :: 'u' :: '\x7b' :: Nat.toDigits 16 c.toNat ++ ['\x7d']

/-- A character between quotes. -/
def escapeChar (c : Char) : List Char :=
  match c with
  | '\x00' => ['\\', '0']
  | '\t' => ['\\', 't']
  | '\r' => ['\\', 'r']
  | '\n' => ['\\', 'n']
  | '\\' => ['\\', '\\']
  | '"' => ['\\', '"']
  | c => if Unicode.extendsGrapheme c || !Unicode.isPrintable c then byNumber c else [c]

/-- A byte that belongs to no character. -/
def escapeByte (b : UInt8) : List Char :=
  ['\\', 'x', Digits.hexUpper (b.toNat / 16), Digits.hexUpper (b.toNat % 16)]

/-- A text in quotes. -/
def text (s : String) : String := String.ofList ('"' :: s.toList.flatMap escapeChar ++ ['"'])

/-- A path in quotes. -/
def path (p : FilePath) : String :=
  String.ofList ('"' :: (Utf8.chunks p).flatMap escapeChunk ++ ['"'])
where
  escapeChunk : Utf8.Chunk → List Char
    | .char c => escapeChar c
    | .broken bytes => bytes.flatMap escapeByte

end Quoted

end SymbolRename
