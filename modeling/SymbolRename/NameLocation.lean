import SymbolRename.Category
import SymbolRename.Unicode.Classes

/-! # Where a declaration has its name

The name is looked for in the text of the declaration, as a whole word, from the
left.  A type's name stands behind one of the keywords, a method's in front of its
parameters, and a property's anywhere.  A literal is nothing but its name.
-/
namespace SymbolRename

namespace NameLocation

open Unicode

/-- Where a test first succeeds, plus the number of characters that it answers.  The test
sees the character before the place, if there is one, and the text from there on. -/
def leftmost (test : Option Char → List Char → Option Nat) (before : Option Char) :
    List Char → Option Nat
  | [] => test before []
  | c :: cs =>
    match test before (c :: cs) with
    | some n => some n
    | none => (leftmost test (some c) cs).map (· + 1)

/-- The text begins with the name, and the name ends at a word boundary. -/
def nameAhead (name rest : List Char) : Bool :=
  name.isPrefixOf rest && isBoundary name.getLast? (rest.drop name.length).head?

/-- The text begins with the name, between word boundaries. -/
def wordAhead (name : List Char) (before : Option Char) (rest : List Char) : Bool :=
  isBoundary before rest.head? && nameAhead name rest

/-- The name as a word. -/
def propertyTest (name : List Char) (before : Option Char) (rest : List Char) : Option Nat :=
  if wordAhead name before rest then some 0 else none

/-- The name as a word in front of an opening parenthesis, with white space between them or not. -/
def methodTest (name : List Char) (before : Option Char) (rest : List Char) : Option Nat :=
  if wordAhead name before rest ∧
      ((rest.drop name.length).dropWhile isSpace).head? = some '(' then some 0
  else none

/-- The words behind which a type has its name. -/
def typeKeywords : List (List Char) :=
  ["class".toList, "interface".toList, "trait".toList, "enum".toList]

/-- How much white space, one character or more, stands before the name; as much as possible. -/
def gapBefore (name rest : List Char) : Option Nat :=
  let gaps := (List.range (rest.takeWhile isSpace).length).reverse.map (· + 1)
  gaps.find? fun n => nameAhead name (rest.drop n)

/-- A keyword, white space and the name. -/
def typeTest (name : List Char) (before : Option Char) (rest : List Char) : Option Nat :=
  if isBoundary before rest.head? then
    typeKeywords.findSome? fun keyword =>
      if keyword.isPrefixOf rest then
        (gapBefore name (rest.drop keyword.length)).map (keyword.length + ·)
      else none
  else none

/-- The first place where a test for a name succeeds, and the length of the name.  The empty
name is nowhere. -/
def search (test : List Char → Option Char → List Char → Option Nat) (name text : List Char) :
    Option (Nat × Nat) :=
  if name = [] then none else (leftmost (test name) none text).map fun i => (i, name.length)

/-- The number of characters before the name and the length of the name. -/
def find (category : Category) (text : List Char) : Option (Nat × Nat) :=
  match category with
  | .type name => search typeTest (simpleName name.toList) text
  | .method name => search methodTest name.toList text
  | .property name => search propertyTest name.toList text
  | .literal => if text = [] then none else some (0, text.length)

/-- The span of the name, measured from the start of the text. -/
def locate (category : Category) (text : List Char) : Option Span :=
  (find category text).map fun (i, n) =>
    ⟨Position.measure (text.take i), Position.measure (text.take (i + n))⟩

end NameLocation

end SymbolRename
