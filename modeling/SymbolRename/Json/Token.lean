import SymbolRename.Unicode.Classes
import SymbolRename.Json.Basic

/-! # Tokens of JSON text

`Token.scan` cuts a text into tokens.  Blanks stand between tokens only; a text
with anything else between them has no tokens.
-/
namespace SymbolRename

namespace Json

inductive Token where
  | openBrace
  | closeBrace
  | openBracket
  | closeBracket
  | colon
  | comma
  | text (value : Option String)
  | scalar (value : Json)

namespace Token

/-- A character of a string, or a UTF-16 unit written as an escape. -/
inductive Part where
  | char (c : Char)
  | unit (n : Nat)

/-- The characters that parts spell; units have to form whole surrogate pairs. -/
def joinParts : List Part → Option (List Char)
  | [] => some []
  | .char c :: parts => (joinParts parts).map (c :: ·)
  | .unit n :: parts =>
    if n < 0xd800 ∨ 0xe000 ≤ n then (joinParts parts).map (Char.ofNat n :: ·)
    else
      match parts with
      | .unit m :: parts =>
        if n < 0xdc00 ∧ 0xdc00 ≤ m ∧ m < 0xe000 then
          (joinParts parts).map (Char.ofNat (0x10000 + (n - 0xd800) * 0x400 + (m - 0xdc00)) :: ·)
        else none
      | _ => none

/-- The character behind a backslash. -/
def escape? : Char → Option Char
  | '"' => some '"'
  | '\\' => some '\\'
  | '/' => some '/'
  | 'b' => some '\x08'
  | 'f' => some '\x0c'
  | 'n' => some '\n'
  | 'r' => some '\r'
  | 't' => some '\t'
  | _ => none

/-- The parts of a string whose opening quote has been read, and what follows the closing one. -/
def readString : List Char → Option (List Part × List Char)
  | [] => none
  | '"' :: cs => some ([], cs)
  | '\\' :: 'u' :: a :: b :: c :: d :: cs => do
    let n ← Digits.number? 16 [a, b, c, d]
    let (parts, rest) ← readString cs
    return (.unit n :: parts, rest)
  | '\\' :: c :: cs => do
    let c ← escape? c
    let (parts, rest) ← readString cs
    return (.char c :: parts, rest)
  | c :: cs =>
    if c.toNat < 0x20 ∨ c = '\\' then none
    else do
      let (parts, rest) ← readString cs
      return (.char c :: parts, rest)

/-- Digits in front, and what follows them. -/
def splitDigits (cs : List Char) : List Char × List Char :=
  (cs.takeWhile Char.isDigit, cs.dropWhile Char.isDigit)

def digitsValue (cs : List Char) : Nat := cs.foldl (fun n c => 10 * n + (c.toNat - 48)) 0

/-- The digits behind a decimal point, if there is one. -/
def readFraction : List Char → Option (List Char × List Char)
  | '.' :: cs => if (splitDigits cs).1 = [] then none else some (splitDigits cs)
  | cs => some ([], cs)

/-- A signed number behind an `e`. -/
def readPower (cs : List Char) : Option (Option Int × List Char) :=
  let (negative, cs) :=
    match cs with
    | '-' :: cs => (true, cs)
    | '+' :: cs => (false, cs)
    | cs => (false, cs)
  let (digits, rest) := splitDigits cs
  if digits = [] then none
  else some (some (if negative then -(digitsValue digits : Int) else digitsValue digits), rest)

/-- The power of ten, if there is one. -/
def readExponent : List Char → Option (Option Int × List Char)
  | 'e' :: cs => readPower cs
  | 'E' :: cs => readPower cs
  | cs => some (none, cs)

/-- A numeral without its sign. -/
def readUnsigned (negative : Bool) (cs : List Char) : Option (Numeral × List Char) := do
  let (digits, cs) := splitDigits cs
  if digits = [] ∨ (1 < digits.length ∧ digits.head? = some '0') then none
  else
    let (fraction, cs) ← readFraction cs
    let (exponent, cs) ← readExponent cs
    return (⟨negative, digitsValue digits, fraction, exponent⟩, cs)

def readNumeral : List Char → Option (Numeral × List Char)
  | '-' :: cs => readUnsigned true cs
  | cs => readUnsigned false cs

/-- The token in front of a text that does not begin with a blank, and what follows it. -/
def next? : List Char → Option (Token × List Char)
  | '\x7b' :: cs => some (.openBrace, cs)
  | '\x7d' :: cs => some (.closeBrace, cs)
  | '[' :: cs => some (.openBracket, cs)
  | ']' :: cs => some (.closeBracket, cs)
  | ':' :: cs => some (.colon, cs)
  | ',' :: cs => some (.comma, cs)
  | '"' :: cs => (readString cs).map fun (parts, rest) => (.text ((joinParts parts).map String.ofList), rest)
  | 'n' :: 'u' :: 'l' :: 'l' :: cs => some (.scalar .null, cs)
  | 't' :: 'r' :: 'u' :: 'e' :: cs => some (.scalar (.bool true), cs)
  | 'f' :: 'a' :: 'l' :: 's' :: 'e' :: cs => some (.scalar (.bool false), cs)
  | cs => (readNumeral cs).map fun (n, rest) => (.scalar (.number n), rest)

def isBlank (c : Char) : Bool := [' ', '\t', '\n', '\r'].contains c

theorem readString_length {cs rest : List Char} {parts : List Part}
    (h : readString cs = some (parts, rest)) : rest.length < cs.length := by
  fun_induction readString cs generalizing parts with
  | case1 => simp at h
  | case2 => simp at h; simp [← h.2]
  | case3 a b c d cs ih =>
    simp only [Option.bind_eq_bind, Option.bind_eq_some_iff, Option.pure_def, Option.some.injEq,
      Prod.mk.injEq, Prod.exists] at h
    obtain ⟨n, -, p, r, hr, -, rfl⟩ := h
    have := ih hr
    simp only [List.length_cons]
    omega
  | case4 c cs _ ih =>
    simp only [Option.bind_eq_bind, Option.bind_eq_some_iff, Option.pure_def, Option.some.injEq,
      Prod.mk.injEq, Prod.exists] at h
    obtain ⟨n, -, p, r, hr, -, rfl⟩ := h
    have := ih hr
    simp only [List.length_cons]
    omega
  | case5 => simp at h
  | case6 c cs _ _ _ _ ih =>
    simp only [Option.bind_eq_bind, Option.bind_eq_some_iff, Option.pure_def, Option.some.injEq,
      Prod.mk.injEq, Prod.exists] at h
    obtain ⟨p, r, hr, -, rfl⟩ := h
    have := ih hr
    simp only [List.length_cons]
    omega

theorem splitDigits_length (cs : List Char) :
    (splitDigits cs).1.length + (splitDigits cs).2.length = cs.length := by
  rw [splitDigits, ← List.length_append, List.takeWhile_append_dropWhile]

theorem readFraction_length {cs rest fraction : List Char}
    (h : readFraction cs = some (fraction, rest)) : rest.length ≤ cs.length := by
  unfold readFraction at h
  split at h
  · rename_i cs
    split at h
    · simp at h
    · have := splitDigits_length cs
      simp only [Option.some.injEq] at h
      rw [h] at this
      simp only [List.length_cons] at this ⊢
      omega
  · simp at h; simp [h.2]

theorem readPower_length {cs rest : List Char} {e : Option Int}
    (h : readPower cs = some (e, rest)) : rest.length ≤ cs.length := by
  unfold readPower at h
  split at h
  rename_i negative body hb
  have hle : body.length ≤ cs.length := by
    split at hb <;> simp only [Prod.mk.injEq] at hb <;> simp [← hb.2]
  have := splitDigits_length body
  split at h
  rename_i digits r hd
  rw [hd] at this
  dsimp only at this
  split at h
  · simp at h
  · simp only [Option.some.injEq, Prod.mk.injEq] at h
    rw [← h.2]; omega

theorem readExponent_length {cs rest : List Char} {e : Option Int}
    (h : readExponent cs = some (e, rest)) : rest.length ≤ cs.length := by
  unfold readExponent at h
  split at h
  · have := readPower_length h
    simp only [List.length_cons]
    omega
  · have := readPower_length h
    simp only [List.length_cons]
    omega
  · simp at h; simp [h.2]

theorem readUnsigned_length {negative : Bool} {cs rest : List Char} {n : Numeral}
    (h : readUnsigned negative cs = some (n, rest)) : rest.length < cs.length := by
  unfold readUnsigned at h
  have hd := splitDigits_length cs
  split at h
  rename_i digits body hb
  rw [hb] at hd
  dsimp only at hd
  split at h
  · simp at h
  · rename_i hne
    have hpos : 0 < digits.length := by
      cases digits with
      | nil => simp at hne
      | cons => simp
    simp only [Option.bind_eq_bind, Option.bind_eq_some_iff, Option.pure_def, Option.some.injEq,
      Prod.mk.injEq, Prod.exists] at h
    obtain ⟨f, r, hf, e, r', he, -, rfl⟩ := h
    have := readFraction_length hf
    have := readExponent_length he
    omega

theorem readNumeral_length {cs rest : List Char} {n : Numeral}
    (h : readNumeral cs = some (n, rest)) : rest.length < cs.length := by
  unfold readNumeral at h
  split at h
  · have := readUnsigned_length h
    simp only [List.length_cons]
    omega
  · exact readUnsigned_length h

theorem next?_length {cs rest : List Char} {t : Token}
    (h : next? cs = some (t, rest)) : rest.length < cs.length := by
  unfold next? at h
  split at h
  case h_7 =>
    obtain ⟨⟨p, r⟩, hr, he⟩ := Option.map_eq_some_iff.1 h
    simp only [Prod.mk.injEq] at he
    have := readString_length (he.2 ▸ hr)
    simp only [List.length_cons]
    omega
  case h_11 =>
    obtain ⟨⟨p, r⟩, hr, he⟩ := Option.map_eq_some_iff.1 h
    simp only [Prod.mk.injEq] at he
    exact readNumeral_length (he.2 ▸ hr)
  all_goals
    simp only [Option.some.injEq, Prod.mk.injEq] at h
    simp only [← h.2, List.length_cons]
    omega

/-- The tokens of a text. -/
def scan (cs : List Char) : Option (List Token) :=
  match cs with
  | [] => some []
  | c :: cs =>
    if isBlank c then scan cs
    else
      match h : next? (c :: cs) with
      | none => none
      | some (t, rest) =>
        have := next?_length h
        (scan rest).map (t :: ·)
termination_by cs.length
decreasing_by
  · exact Nat.lt_succ_self _
  · assumption

end Token

end Json

end SymbolRename
