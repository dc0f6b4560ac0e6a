import SymbolRename.Json.Basic
import SymbolRename.Span
import SymbolRename.Uri.Parser

/-! # Reading records

A record is a JSON object with some fields that are read and others that do not
matter, or an array with the values of the former in order.  A field that is read
stands in an object at most once.
-/
namespace SymbolRename

namespace Record

/-- The value of a field. -/
def lookup (fields : List (Option String × Json)) (name : String) : Option Json :=
  (fields.find? (·.1 = some name)).map (·.2)

/-- Each of the names occurs at most once, and all keys have characters. -/
def isProper (fields : List (Option String × Json)) (names : List String) : Bool :=
  fields.all (·.1.isSome) && names.all fun name => fields.countP (·.1 = some name) ≤ 1

/-- The values of the named fields of a record, where it has them. -/
def fields? (names : List String) : Json → Option (List (Option Json))
  | .object fields => if isProper fields names then some (names.map (lookup fields)) else none
  | .array items => if items.length = names.length then some (items.map some) else none
  | _ => none

/-- A field that has to be there. -/
def required {α : Type} (read : Json → Option α) (field : Option Json) : Option α := field >>= read

/-- A field that may be missing or `null`. -/
def optional {α : Type} (read : Json → Option α) : Option Json → Option (Option α)
  | none => some none
  | some .null => some none
  | some value => (read value).map some

def text? : Json → Option String
  | .string text => text
  | _ => none

/-- An integer in a range. -/
def integerIn? (low high : Int) : Json → Option Int
  | .number n => n.integer?.filter fun i => low ≤ i ∧ i < high
  | _ => none

/-- A signed integer of 64 bits. -/
def signed? : Json → Option Int :=
  integerIn? (-9223372036854775808) 9223372036854775808

/-- An unsigned integer of 64 bits. -/
def unsigned? (j : Json) : Option Nat :=
  (integerIn? 0 18446744073709551616 j).map Int.toNat

def uri? (j : Json) : Option Uri := text? j >>= Uri.parse

def position? (j : Json) : Option Position :=
  match fields? ["line", "character"] j with
  | some [line, character] => do
    return .ofEditor (← required unsigned? line) (← required unsigned? character)
  | _ => none

def span? (j : Json) : Option Span :=
  match fields? ["start", "end"] j with
  | some [start, stop] => do
    return ⟨← required position? start, ← required position? stop⟩
  | _ => none

def list? {α : Type} (read : Json → Option α) : Json → Option (List α)
  | .array items => items.mapM read
  | _ => none

end Record

end SymbolRename
