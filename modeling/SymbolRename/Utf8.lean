/-! # Bytes and UTF-8

`encode` and `decode?` go between texts and byte strings.  Bytes that are no
UTF-8 still consist of characters and of broken pieces: `chunks` cuts them up,
and `decodeLossy` puts one replacement character in the place of each broken
piece.  A broken piece is the longest beginning of a character that the bytes
hold, or a single byte that begins no character.
-/
namespace SymbolRename

/-- A string of bytes. -/
abbrev Bytes := List UInt8

namespace Utf8

/-- The bytes of a text. -/
def encode (s : String) : Bytes := s.toUTF8.toList

/-- The text that the bytes spell, if they are UTF-8. -/
def decode? (bytes : Bytes) : Option String := String.fromUTF8? bytes.toByteArray

/-- A character, or bytes that belong to none. -/
inductive Chunk where
  | char (c : Char)
  | broken (bytes : Bytes)

/-- What a first byte announces: how many bytes follow, and the range of the next one. -/
def following (first : UInt8) : Option (Nat × UInt8 × UInt8) :=
  if first < 0x80 then some (0, 0, 0)
  else if first < 0xc2 then none
  else if first < 0xe0 then some (1, 0x80, 0xbf)
  else if first = 0xe0 then some (2, 0xa0, 0xbf)
  else if first = 0xed then some (2, 0x80, 0x9f)
  else if first < 0xf0 then some (2, 0x80, 0xbf)
  else if first = 0xf0 then some (3, 0x90, 0xbf)
  else if first < 0xf4 then some (3, 0x80, 0xbf)
  else if first = 0xf4 then some (3, 0x80, 0x8f)
  else none

/-- Takes up to `n` bytes, the first in the given range and the others continuation bytes. -/
def takeFollowing (n : Nat) (low high : UInt8) : Bytes → Bytes
  | [] => []
  | b :: bs =>
    match n with
    | 0 => []
    | n + 1 => if low ≤ b ∧ b ≤ high then b :: takeFollowing n 0x80 0xbf bs else []

/-- The chunk that begins with the byte `first`. -/
def firstChunk (first : UInt8) (rest : Bytes) : Chunk × Bytes :=
  match following first with
  | none => (.broken [first], rest)
  | some (n, low, high) =>
    let more := takeFollowing n low high rest
    match decode? (first :: more) with
    | some s => (.char (s.toList.headD ' '), rest.drop more.length)
    | none => (.broken (first :: more), rest.drop more.length)

theorem firstChunk_length (first : UInt8) (rest : Bytes) :
    (firstChunk first rest).2.length ≤ rest.length := by
  unfold firstChunk
  split
  · simp
  · dsimp only
    split <;> simp

/-- Cuts bytes into characters and broken pieces. -/
def chunks : Bytes → List Chunk
  | [] => []
  | b :: bs =>
    have := firstChunk_length b bs
    (firstChunk b bs).1 :: chunks (firstChunk b bs).2
termination_by bytes => bytes.length

/-- The text that the bytes spell, with U+FFFD for every broken piece. -/
def decodeLossy (bytes : Bytes) : String :=
  String.ofList ((chunks bytes).map fun
    | .char c => c
    | .broken _ => '\ufffd')

end Utf8

end SymbolRename
