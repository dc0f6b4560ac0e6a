/-! # JSON values

A value keeps its fields in the order of the text, repeated ones included.
A number keeps what its text says, so that nobody has to round it before knowing
what it is for.  A string of a text may name half of a surrogate pair; then it has
no characters, and its `text` is `none`.
-/
namespace SymbolRename

/-! ## Double precision

Natural numbers as double precision keeps them: with 53 binary digits, and below `limit`.  A
product of two of them is finite when it lies below `limit` before it is rounded itself. -/

namespace Double

/-- The quotient nearest to `n / unit`; of two that are equally near, the even one. -/
def nearest (n unit : Nat) : Nat :=
  let q := n / unit
  let r := n % unit
  if unit < 2 * r ∨ (2 * r = unit ∧ q % 2 = 1) then q + 1 else q

/-- The nearest number with at most 53 binary digits in front of its zeros. -/
def round (n : Nat) : Nat :=
  let unit := Nat.pow 2 (n.log2 + 1 - 53)
  nearest n unit * unit

/-- The least number that rounds to no finite one. -/
def limit : Nat := Nat.pow 2 1024 - Nat.pow 2 970

end Double

/-! ## Values -/

/-- A number as it is written: sign, digits, fraction and power of ten. -/
structure Numeral where
  negative : Bool
  whole : Nat
  fraction : List Char
  exponent : Option Int
deriving DecidableEq, Repr

namespace Numeral

/-- The numeral of an integer. -/
def ofInt (n : Int) : Numeral := ⟨n < 0, n.natAbs, [], none⟩

/-- The integer that is written, if one is: without fraction, without power of ten, and not `-0`. -/
def integer? (n : Numeral) : Option Int :=
  if n.fraction ≠ [] ∨ n.exponent.isSome ∨ (n.negative ∧ n.whole = 0) then none
  else some (if n.negative then -(n.whole : Int) else n.whole)

/-- The digits of a number that count have to fit into 64 bits. -/
def wordLimit : Nat := 18446744073709551616

def appendDigit (n : Nat) (c : Char) : Nat := 10 * n + (c.toNat - 48)

/-- Reads a digit of the whole part.  From the first one on that does not fit, digits are only
counted. -/
def keepWhole (kept : Nat × Nat) (c : Char) : Nat × Nat :=
  let n := appendDigit kept.1 c
  if kept.2 = 0 ∧ n < wordLimit then (n, 0) else (kept.1, kept.2 + 1)

/-- Reads the digits of the fraction up to the first one that does not fit, and counts them. -/
def keepFraction (kept : Nat) : List Char → Nat × Nat
  | [] => (kept, 0)
  | c :: cs =>
    let n := appendDigit kept c
    if n < wordLimit then
      let (m, places) := keepFraction n cs
      (m, places + 1)
    else (kept, 0)

/-- The digits that count as one natural number, and the power of ten to multiply it with. -/
def scientific (n : Numeral) : Nat × Int :=
  let (kept, skipped) := (Nat.toDigits 10 n.whole).foldl keepWhole (0, 0)
  let (kept, places) := keepFraction kept n.fraction
  (kept, n.exponent.getD 0 + skipped - places)

/-- The numeral has a value in double precision: its digits and the power of ten are rounded, and
so is their product.  Powers beyond 308 are out of reach for any digits but zero. -/
def isFinite (n : Numeral) : Bool :=
  let (digits, power) := n.scientific
  digits = 0 || power < 0 ||
    (power ≤ 308 &&
      Double.round digits * Double.round (Nat.pow 10 power.toNat) < Double.limit)

def render (n : Numeral) : String :=
  (if n.negative then "-" else "") ++ toString n.whole ++
    (if n.fraction = [] then "" else "." ++ String.ofList n.fraction) ++
    match n.exponent with
    | some e => "e" ++ toString e
    | none => ""

end Numeral

/-- A JSON value. -/
inductive Json where
  | null
  | bool (value : Bool)
  | number (value : Numeral)
  | string (text : Option String)
  | array (items : List Json)
  | object (fields : List (Option String × Json))
deriving Repr

namespace Json

/-- A string. -/
def text (s : String) : Json := .string (some s)

/-- An integer. -/
def int (n : Int) : Json := .number (.ofInt n)

/-- An object with the given fields. -/
def record (fields : List (String × Json)) : Json :=
  .object (fields.map fun (key, value) => (some key, value))

mutual

/-- How deeply arrays and objects are nested in a value. -/
def depth : Json → Nat
  | .array items => depthItems items + 1
  | .object fields => depthFields fields + 1
  | _ => 0

def depthItems : List Json → Nat
  | [] => 0
  | item :: items => max (depth item) (depthItems items)

def depthFields : List (Option String × Json) → Nat
  | [] => 0
  | (_, value) :: fields => max (depth value) (depthFields fields)

end

mutual

/-- Every string in the value has characters, and every number is finite. -/
def isPlain : Json → Bool
  | .null | .bool _ => true
  | .number n => n.isFinite
  | .string text => text.isSome
  | .array items => isPlainItems items
  | .object fields => isPlainFields fields

def isPlainItems : List Json → Bool
  | [] => true
  | item :: items => isPlain item && isPlainItems items

def isPlainFields : List (Option String × Json) → Bool
  | [] => true
  | (key, value) :: fields => key.isSome && isPlain value && isPlainFields fields

end

end Json

end SymbolRename
