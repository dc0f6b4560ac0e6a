import SymbolRename.Span

/-! # Finding positions in a text

A text is a list of characters.  `offset?` finds the number of characters before
a position and fails where no character boundary has that position;
`clampedOffset` always answers, moving a position behind the end of its line, or
behind the text, back to that end.  `byteIndex?` and `clampedByteIndex` count the
UTF-8 bytes instead of the characters.  `slice?` cuts out the first lines of a span,
and `replace` puts a text in the place of a span.
-/
namespace SymbolRename

namespace Text

/-- The number of bytes that a text takes in UTF-8. -/
def byteSize : List Char → Nat
  | [] => 0
  | c :: cs => c.utf8Size + byteSize cs

/-- The number of bytes before the character with number `i`. -/
def byteOffset (cs : List Char) (i : Nat) : Nat := byteSize (cs.take i)

/-- The number of characters to read, starting at `here` after `i` characters, to reach `target`. -/
def offsetFrom? (target : Position) (here : Position) (i : Nat) : List Char → Option Nat
  | [] => if here = target then some i else none
  | c :: cs =>
    if here = target then some i
    else if c = '\n' ∧ here.row = target.row then none
    else if target < here + Position.ofChar c then none
    else offsetFrom? target (here + Position.ofChar c) (i + 1) cs

/-- The number of characters before `p`, if `p` is the position of a character
boundary: not behind the end of a line, behind the text or inside a surrogate pair. -/
def offset? (cs : List Char) (p : Position) : Option Nat := offsetFrom? p .origin 0 cs

/-- The number of characters to read, starting at `here` after `i` characters, before
`target` is reached or the line of `target` ends. -/
def clampedFrom (target : Position) (here : Position) (i : Nat) : List Char → Nat
  | [] => i
  | c :: cs =>
    if target ≤ here ∨ (c = '\n' ∧ here.row = target.row) then i
    else clampedFrom target (here + Position.ofChar c) (i + 1) cs

/-- The number of characters before `p`, with `p` moved back to the end of its
line or of the text where it lies behind it. -/
def clampedOffset (cs : List Char) (p : Position) : Nat := clampedFrom p .origin 0 cs

/-- The number of bytes before `p`, if `p` is the position of a character boundary. -/
def byteIndex? (cs : List Char) (p : Position) : Option Nat := (offset? cs p).map (byteOffset cs)

/-- The number of bytes before `p`, with `p` moved back where it lies behind its line. -/
def clampedByteIndex (cs : List Char) (p : Position) : Nat := byteOffset cs (clampedOffset cs p)

/-- The text up to its `n`-th line feed; the first line is always there. -/
def firstLines (n : Nat) : List Char → List Char
  | [] => []
  | c :: cs =>
    if c = '\n' then
      if n ≤ 1 then [] else c :: firstLines (n - 1) cs
    else c :: firstLines n cs

/-- At most `lines` lines of the text that a span covers, if the text has the span's start. -/
def slice? (cs : List Char) (s : Span) (lines : Nat) : Option (List Char) :=
  (offset? cs s.start).map fun i =>
    firstLines lines ((cs.drop i).take (clampedOffset cs s.stop - i))

/-- Puts `new` in the place of what a span covers; a reversed span covers nothing. -/
def replace (cs : List Char) (s : Span) (new : List Char) : List Char :=
  let i := clampedOffset cs s.start
  cs.take i ++ new ++ cs.drop (max (clampedOffset cs s.stop) i)

end Text

end SymbolRename
