import SymbolRename.Protocol.Record

/-! # Shapes of values

What an editor tells about itself is checked and then set aside.  A shape says what
such a value may look like.
-/
namespace SymbolRename

/-- What a value may look like; `optional` fields of records may be missing or `null`, but an
array that stands for a record has all of them. -/
inductive Shape where
  | flag
  | count
  | text
  | uri
  /-- Any value whose strings and numbers can be kept. -/
  | any
  /-- One of some names, as a string or as the only field of an object, with the value `null`. -/
  | oneOf (names : List String)
  /-- One of some numbers. -/
  | code (codes : List Nat)
  /-- Support for tags with some numbers, or just whether there is any; kept whole like `any`. -/
  | tags (codes : List Nat)
  | list (item : Shape)
  | optional (shape : Shape)
  /-- An optional field that may also be left out at the end of an array. -/
  | trailing (shape : Shape)
  | record (fields : List (String × Shape))

namespace Shape

/-- A value that names one of the names. -/
def isOneOf (names : List String) : Json → Bool
  | .string (some name) => names.contains name
  | .object [(some name, .null)] => names.contains name
  | _ => false

def isCode (codes : List Nat) (j : Json) : Bool := (Record.unsigned? j).any codes.contains

def isCodeList (codes : List Nat) : Json → Bool
  | .array items => items.all (isCode codes)
  | _ => false

/-- A truth value, or a record with the tags, of which the last mention counts. -/
def isTagSupport (codes : List Nat) : Json → Bool
  | .bool _ => true
  | .object fields => (Record.lookup fields.reverse "valueSet").any (isCodeList codes)
  | .array [value] => isCodeList codes value
  | _ => false

/-- A field that need not be in an object. -/
def mayBeMissing : Shape → Bool
  | .optional _ | .trailing _ => true
  | _ => false

/-- A field that an array may end before. -/
def mayBeLeftOut : Shape → Bool
  | .trailing _ => true
  | _ => false

def fieldNames (fields : List (String × Shape)) : List String := fields.map (·.1)

mutual

/-- The value has the shape; `room` bounds how deeply it is nested where anything is allowed. -/
def accepts (room : Nat) : Shape → Json → Bool
  | .flag, .bool _ => true
  | .count, j => (Record.unsigned? j).isSome
  | .text, j => (Record.text? j).isSome
  | .uri, j => (Record.uri? j).isSome
  | .any, j => j.depth ≤ room && j.isPlain
  | .oneOf names, j => isOneOf names j
  | .code codes, j => isCode codes j
  | .tags codes, j => j.depth ≤ room && j.isPlain && isTagSupport codes j
  | .list item, .array items => items.all (item.accepts (room - 1))
  | .optional _, .null => true
  | .optional shape, j => shape.accepts room j
  | .trailing _, .null => true
  | .trailing shape, j => shape.accepts room j
  | .record fields, .object values =>
    Record.isProper values (fieldNames fields) && acceptsFields (room - 1) values fields
  | .record fields, .array items => acceptsItems (room - 1) fields items
  | _, _ => false

/-- Each field of an object has its shape, or is missing and need not be there. -/
def acceptsFields (room : Nat) (values : List (Option String × Json)) :
    List (String × Shape) → Bool
  | [] => true
  | (name, shape) :: fields =>
    (match Record.lookup values name with
      | none => shape.mayBeMissing
      | some value => shape.accepts room value) && acceptsFields room values fields

/-- The items of an array are the fields in order. -/
def acceptsItems (room : Nat) : List (String × Shape) → List Json → Bool
  | [], [] => true
  | [], _ :: _ => false
  | (_, shape) :: fields, [] => shape.mayBeLeftOut && acceptsItems room fields []
  | (_, shape) :: fields, item :: items =>
    shape.accepts room item && acceptsItems room fields items

end

end Shape

end SymbolRename
