import SymbolRename.Unicode.Classes
import SymbolRename.Utf8

/-! # Frames

Messages travel in frames: header lines, an empty line, and a body whose size in
bytes one of the header lines tells.  `Frame.render` writes a frame, `Frame.next`
reads the first frame of an input and `Frame.readAll` all of them.
-/
namespace SymbolRename

namespace Frame

/-- Why an input holds no further frame although it goes on: there is less than a body of the
length that its header tells, or a header line that is no text. -/
inductive Error where
  | bodyCutShort (length : Nat)
  | headerNotUtf8
deriving DecidableEq, Repr

/-- The frame that carries a body. -/
def render (body : Bytes) : Bytes :=
  Utf8.encode ("Content-Length: " ++ toString body.length ++ "\r\n\r\n") ++ body

/-- Lengths have to be smaller: they are numbers of 64 bits. -/
def lengthLimit : Nat := 18446744073709551616

/-- A length: decimal digits, and a plus sign in front or not. -/
def length? (cs : List Char) : Option Nat :=
  let digits := if cs.head? = some '+' then cs.tail else cs
  if digits = [] then none else (Digits.number? 10 digits).filter (· < lengthLimit)

/-- The length that a header line tells, if it is the line that tells one. -/
def contentLength? (line : List Char) : Option Nat :=
  match line.span (· ≠ ':') with
  | (_, []) => none
  | (name, _ :: value) =>
    if (Unicode.trim name).map Char.toLower = "content-length".toList then
      length? (Unicode.trim value)
    else none

/-- The bytes up to the first line feed, and what follows it. -/
def splitLine : Bytes → Bytes × Bytes
  | [] => ([], [])
  | b :: bytes =>
    if b = 0x0a then ([b], bytes)
    else
      let (line, rest) := splitLine bytes
      (b :: line, rest)

/-- What stands in front of an input. -/
inductive Reading where
  | frame (body rest : Bytes)
  | closed
  | failed (error : Error)

/-- Takes a body of `n` bytes.  Whether memory has room for it is up to the one who reads. -/
def takeBody (n : Nat) (input : Bytes) : Reading :=
  if input.length < n then .failed (.bodyCutShort n) else .frame (input.take n) (input.drop n)

theorem splitLine_length (b : UInt8) (bytes : Bytes) :
    (splitLine (b :: bytes)).2.length < (b :: bytes).length := by
  induction bytes generalizing b with
  | nil => by_cases h : b = 0x0a <;> simp [splitLine, h]
  | cons c bytes ih =>
    have := ih c
    unfold splitLine
    split
    · simp
    · simp only [List.length_cons] at *
      omega

/-- What a header line leads to: the body, or further lines. -/
inductive HeaderStep where
  | body (length : Nat)
  | more (length : Option Nat)
  | failed (error : Error)

/-- Takes a header line; the last line before it that told a length told `length`.  An empty
line ends a header in which a length has been told. -/
def headerLine (length : Option Nat) (line : Bytes) : HeaderStep :=
  match Utf8.decode? line with
  | none => .failed .headerNotUtf8
  | some text =>
    if Unicode.trimEnd text.toList = [] then
      match length with
      | some n => .body n
      | none => .more none
    else .more (contentLength? (Unicode.trimEnd text.toList) <|> length)

/-- Reads header lines and the body behind them. -/
def readHeader (length : Option Nat) (input : Bytes) : Reading :=
  match input with
  | [] => .closed
  | b :: bytes =>
    have := splitLine_length b bytes
    match headerLine length (splitLine (b :: bytes)).1 with
    | .body n => takeBody n (splitLine (b :: bytes)).2
    | .more length => readHeader length (splitLine (b :: bytes)).2
    | .failed error => .failed error
termination_by input.length
decreasing_by assumption

/-- Reads the first frame of an input. -/
def next (input : Bytes) : Reading := readHeader none input

theorem takeBody_length {n : Nat} {input body rest : Bytes}
    (h : takeBody n input = .frame body rest) : rest.length ≤ input.length := by
  unfold takeBody at h
  split at h
  · simp at h
  · simp only [Reading.frame.injEq] at h
    simp [← h.2]

theorem readHeader_length {length : Option Nat} {input body rest : Bytes}
    (h : readHeader length input = .frame body rest) : rest.length < input.length := by
  fun_induction readHeader length input with
  | case1 => simp at h
  | case2 =>
    have := takeBody_length h
    omega
  | case3 _ _ _ _ _ _ ih =>
    have := ih h
    omega
  | case4 => simp at h

/-- The bodies of an input, and whether it ends where a frame could begin. -/
structure Delivery where
  bodies : List Bytes
  stop : Except Error Unit

/-- Reads all frames of an input. -/
def readAll (input : Bytes) : Delivery :=
  match h : next input with
  | .closed => ⟨[], .ok ()⟩
  | .failed error => ⟨[], .error error⟩
  | .frame body rest =>
    have := readHeader_length h
    let delivery := readAll rest
    ⟨body :: delivery.bodies, delivery.stop⟩
termination_by input.length

end Frame

end SymbolRename
