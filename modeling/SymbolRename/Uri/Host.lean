import SymbolRename.Uri.PercentEncoding

/-! # Hosts

A host of a special scheme is a domain in lower case, an IPv4 address in dotted
decimal form or a bracketed IPv6 address in its shortest form.  Other schemes
keep their host as it is written, IPv6 addresses apart.

Internationalized domains (`Host.isInternational`) are out of scope: to write one in
ASCII takes the mapping tables of domain names, and a URI with such a host is not read
at all.  A domain that is written in ASCII already is taken as it is.
-/
namespace SymbolRename

namespace Uri

namespace Host

open Digits

/-! ## IPv4 -/

/-- One part of an IPv4 address: decimal, octal after `0`, hexadecimal after `0x`. -/
def ipv4Number? : List Char → Option Nat
  | [] => none
  | '0' :: 'x' :: cs => number? 16 cs
  | '0' :: 'X' :: cs => number? 16 cs
  | '0' :: c :: cs => number? 8 (c :: cs)
  | cs => number? 10 cs

/-- The parts between dots; one dot may stand at the end. -/
def dottedParts (cs : List Char) : List (List Char) :=
  let parts := cs.splitOn '.'
  if parts.length > 1 ∧ parts.getLast? = some [] then parts.dropLast else parts

/-- A host whose last part is a number has to be an IPv4 address. -/
def endsInNumber (cs : List Char) : Bool :=
  match (dottedParts cs).getLast? with
  | none => false
  | some part => (part ≠ [] ∧ part.all Char.isDigit) ∨ (ipv4Number? part).isSome

/-- The address that up to four numbers denote; the last one fills the bytes that are left. -/
def ipv4OfNumbers? (numbers : List Nat) : Option Nat :=
  match numbers.reverse with
  | [] => none
  | last :: front =>
    if 3 < front.length ∨ front.any (255 < ·) ∨ Nat.pow 256 (4 - front.length) ≤ last then none
    else some (front.reverse.zipIdx.foldl (fun sum (n, i) => sum + n * Nat.pow 256 (3 - i)) last)

def ipv4? (cs : List Char) : Option Nat := (dottedParts cs).mapM ipv4Number? >>= ipv4OfNumbers?

def renderIpv4 (address : Nat) : String :=
  ".".intercalate ([3, 2, 1, 0].map fun i => toString (address / Nat.pow 256 i % 256))

/-! ## IPv6 -/

/-- A decimal byte without leading zeros. -/
def decimalByte? (cs : List Char) : Option Nat :=
  if cs = [] ∨ 3 < cs.length ∨ (1 < cs.length ∧ cs.head? = some '0') then none
  else (number? 10 cs).filter (· < 256)

/-- The two groups that a dotted address at the end of an IPv6 address stands for. -/
def dottedGroups? (cs : List Char) : Option (List Nat) :=
  match (cs.splitOn '.').mapM decimalByte? with
  | some [a, b, c, d] => some [256 * a + b, 256 * c + d]
  | _ => none

/-- A group of up to four hexadecimal digits. -/
def group? (cs : List Char) : Option Nat :=
  if cs = [] ∨ 4 < cs.length then none else number? 16 cs

/-- Groups between colons, the last of which may be a dotted address. -/
def groups? (mayEndDotted : Bool) (parts : List (List Char)) : Option (List Nat) :=
  match parts with
  | [] => some []
  | [part] =>
    if mayEndDotted && part.contains '.' then dottedGroups? part
    else (group? part).map fun g => [g]
  | part :: rest => do
    let g ← group? part
    let gs ← groups? mayEndDotted rest
    return g :: gs

/-- Splits at the first `::`. -/
def splitAtDoubleColon : List Char → Option (List Char × List Char)
  | [] => none
  | ':' :: ':' :: rest => some ([], rest)
  | c :: cs => (splitAtDoubleColon cs).map fun (front, rest) => (c :: front, rest)

/-- The groups of a text between colons; the empty text has none. -/
def groupsOfText? (mayEndDotted : Bool) (cs : List Char) : Option (List Nat) :=
  if cs = [] then some [] else groups? mayEndDotted (cs.splitOn ':')

/-- The eight groups of an address; `::` stands for one or more groups of zeros. -/
def ipv6? (cs : List Char) : Option (List Nat) :=
  match splitAtDoubleColon cs with
  | none => (groupsOfText? true cs).filter (·.length = 8)
  | some (front, rest) => do
    let a ← groupsOfText? false front
    let b ← groupsOfText? true rest
    if a.length + b.length < 8 then
      return a ++ List.replicate (8 - a.length - b.length) 0 ++ b
    else none

/-- Where the first of the longest runs of two or more zeros begins, and how long it is. -/
def longestZeros (groups : List Nat) : Nat × Nat :=
  (List.range 8).foldl
    (fun (best : Nat × Nat) i =>
      let n := ((groups.drop i).takeWhile (· = 0)).length
      if max 1 best.2 < n then (i, n) else best)
    (0, 0)

def renderGroups (groups : List Nat) : String :=
  ":".intercalate (groups.map fun g => String.ofList (Nat.toDigits 16 g))

/-- The shortest text of an address. -/
def renderIpv6 (groups : List Nat) : String :=
  match longestZeros groups with
  | (_, 0) => renderGroups groups
  | (i, n) => renderGroups (groups.take i) ++ "::" ++ renderGroups (groups.drop (i + n))

/-- A bracketed IPv6 address, of which the opening bracket has been read. -/
def bracketed? (cs : List Char) : Option String :=
  if cs.getLast? = some ']' then
    (ipv6? cs.dropLast).map fun groups => "[" ++ renderIpv6 groups ++ "]"
  else none

/-! ## Domains -/

/-- Characters that no host may contain. -/
def forbidden (c : Char) : Bool :=
  ['\x00', '\t', '\n', '\r', ' ', '#', '/', ':', '<', '>', '?', '@', '[', '\\', ']', '^', '|'].contains c

/-- A domain that has no spelling of its own in ASCII. -/
def isInternational (domain : List Char) : Bool := domain.any (0x80 ≤ ·.toNat)

/-- The host of a special scheme that a non-empty text denotes, internationalized domains apart. -/
def ofSpecial? : List Char → Option String
  | '[' :: cs => bracketed? cs
  | cs => do
    let text ← Utf8.decode? (decodeText cs)
    let domain := text.toList.map Char.toLower
    if isInternational domain then none
    else if domain = [] ∨ domain.any (fun c => controlSet c || forbidden c || c = '%') then none
    else if endsInNumber domain then (ipv4? domain).map renderIpv4
    else return String.ofList domain

/-- The host of any other scheme that a text denotes. -/
def ofOther? : List Char → Option String
  | '[' :: cs => bracketed? cs
  | cs => if cs.any forbidden then none else some (String.ofList (encodeText controlSet cs))

end Host

end Uri

end SymbolRename
