import SymbolRename.Json.Token

/-! # Reading JSON text

Tokens are read one at a time, with the arrays and objects that are not closed yet
on a stack.  So a text may nest as deeply as it likes.
-/
namespace SymbolRename

namespace Json

/-- An array or object that is not closed yet; its members stand in reverse order. -/
inductive Open where
  | items (done : List Json)
  | fields (done : List (Option String × Json))
  | value (done : List (Option String × Json)) (key : Option String)

/-- What has been read, and what may follow. -/
inductive Reading where
  /-- A value has to follow. -/
  | needsValue (stack : List Open)
  /-- An array has just been opened: a value or its end follows. -/
  | begunArray (stack : List Open)
  /-- An object has just been opened: a key or its end follows. -/
  | begunObject (stack : List Open)
  /-- A key has to follow. -/
  | needsKey (stack : List Open) (done : List (Option String × Json))
  /-- The colon behind a key has to follow. -/
  | needsColon (stack : List Open)
  /-- A comma or the end of the innermost array or object follows. -/
  | member (stack : List Open)
  /-- Nothing follows. -/
  | finished (value : Json)

namespace Reading

/-- A value has been read: it goes to the innermost array or object. -/
def close (value : Json) : List Open → Option Reading
  | [] => some (.finished value)
  | .items done :: stack => some (.member (.items (value :: done) :: stack))
  | .value done key :: stack => some (.member (.fields ((key, value) :: done) :: stack))
  | .fields _ :: _ => none

/-- A token where a value has to stand. -/
def beginValue (stack : List Open) : Token → Option Reading
  | .openBrace => some (.begunObject stack)
  | .openBracket => some (.begunArray stack)
  | .text value => close (.string value) stack
  | .scalar value => close value stack
  | _ => none

/-- Reads one token. -/
def step : Reading → Token → Option Reading
  | .needsValue stack, t => beginValue stack t
  | .begunArray stack, .closeBracket => close (.array []) stack
  | .begunArray stack, t => beginValue (.items [] :: stack) t
  | .begunObject stack, .closeBrace => close (.object []) stack
  | .begunObject stack, .text key => some (.needsColon (.value [] key :: stack))
  | .needsKey stack done, .text key => some (.needsColon (.value done key :: stack))
  | .needsColon stack, .colon => some (.needsValue stack)
  | .member (.items done :: stack), .comma => some (.needsValue (.items done :: stack))
  | .member (.items done :: stack), .closeBracket => close (.array done.reverse) stack
  | .member (.fields done :: stack), .comma => some (.needsKey stack done)
  | .member (.fields done :: stack), .closeBrace => close (.object done.reverse) stack
  | _, _ => none

end Reading

/-- The value that tokens spell. -/
def ofTokens? (tokens : List Token) : Option Json :=
  match tokens.foldlM Reading.step (.needsValue []) with
  | some (.finished value) => some value
  | _ => none

/-- The value that a text spells. -/
def parse (s : String) : Option Json := Token.scan s.toList >>= ofTokens?

end Json

end SymbolRename
