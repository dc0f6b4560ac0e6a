import SymbolRename.Text

/-! # How a node writes its symbol down

The span of a declaration covers the whole declaration, so a declaration also
knows its name.  Any other reference covers its name and nothing else.
-/
namespace SymbolRename

/-- What a renameable node is; declarations carry the name they declare. -/
inductive Category where
  | type (name : String)
  | method (name : String)
  | property (name : String)
  | literal
deriving DecidableEq, Repr

namespace Category

def isType : Category → Bool
  | .type _ => true
  | _ => false

end Category

/-- The part of a name behind its last dot. -/
def unqualified (name : List Char) : List Char :=
  (name.reverse.takeWhile (· ≠ '.')).reverse

/-- The name by which a type is declared: without its package, and without the type
around it, which a `$` separates.  A `$` behind a single byte belongs to the name. -/
def simpleName (name : List Char) : List Char :=
  let name := unqualified name
  let (front, rest) := name.span (· ≠ '$')
  if rest = [] ∨ Text.byteSize front = 1 then name else rest.tail

end SymbolRename
