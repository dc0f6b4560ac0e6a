import SymbolRename.Proofs.Utf8Bytes
import SymbolRename.Protocol.Frame

/-! # Streams of frames

A sender writes one frame after the other, and a receiver sees what has arrived so far.
It reads a header by lines and a body by its length, and what stands in a body may look
like a header.  The two ways of reading stay in step all the same: a frame is read back
whatever follows it (`next_render_append`), and a frame that is cut off is not taken for
another one (`next_of_cut_frame`).  By induction over the frames, a stream that is cut
off anywhere gives the first of its bodies and nothing else (`exists_readsFirst`).
-/
namespace SymbolRename

/-! ## Decimal numbers -/

namespace Digits

theorem valueBelow?_of_isDigit {c : Char} (h : c.isDigit = true) :
    valueBelow? 10 c = some (c.toNat - '0'.toNat) := by
  obtain ⟨hlow, hhigh⟩ := Char.isDigit_iff_toNat.mp h
  have hvalue : value? c = some (c.toNat - '0'.toNat) := if_pos ⟨hlow, hhigh⟩
  have hlt : c.toNat - '0'.toNat < 10 := by
    have hnine : '9'.toNat = '0'.toNat + 9 := rfl
    omega
  rw [valueBelow?, hvalue, Option.filter_some, if_pos (decide_eq_true hlt)]

/-- Decimal digits spell the number that the library reads from them. -/
theorem foldlM_valueBelow? {cs : List Char} (h : ∀ c ∈ cs, c.isDigit = true) (n : Nat) :
    cs.foldlM (fun n c => (valueBelow? 10 c).map (10 * n + ·)) n =
      some (Nat.ofDigitChars 10 cs n) := by
  induction cs generalizing n with
  | nil => rfl
  | cons c cs ih =>
    have hc := valueBelow?_of_isDigit (h c List.mem_cons_self)
    rw [List.foldlM_cons, hc, Nat.ofDigitChars_cons]
    exact ih (fun c' hc' => h c' (List.mem_cons_of_mem c hc')) _

theorem isDigit_of_mem_toDigits {n : Nat} {c : Char} (h : c ∈ Nat.toDigits 10 n) :
    c.isDigit = true :=
  Nat.isDigit_of_mem_toDigits (by decide) (by decide) h

/-- A number is read back from its decimal digits. -/
theorem number?_toDigits (n : Nat) : number? 10 (Nat.toDigits 10 n) = some n := by
  rw [number?, foldlM_valueBelow? fun c hc => isDigit_of_mem_toDigits hc,
    Nat.ofDigitChars_ten_toDigits]

end Digits

/-! ## White space -/

namespace Unicode

theorem isSpace_of_isDigit {c : Char} (h : c.isDigit = true) : isSpace c = false := by
  obtain ⟨hlow, hhigh⟩ := Char.isDigit_iff_toNat.mp h
  have hzero : '0'.toNat = 48 := rfl
  have hnine : '9'.toNat = 57 := rfl
  simp only [isSpace, inRanges, spaceRanges, List.any_cons, List.any_nil, Bool.or_eq_false_iff,
    Bool.and_eq_false_iff, decide_eq_false_iff_not, and_true]
  omega

/-- White space is cut off behind a text that does not end with any. -/
theorem trimEnd_append {cs gap : List Char} (hcs : ∀ c ∈ cs.getLast?, isSpace c = false)
    (hgap : ∀ c ∈ gap, isSpace c = true) : trimEnd (cs ++ gap) = cs := by
  rw [trimEnd, List.reverse_append,
    List.dropWhile_append_of_pos fun c hc => hgap c (List.mem_reverse.mp hc)]
  refine List.reverse_eq_iff.mpr ?_
  cases hrev : cs.reverse with
  | nil => rfl
  | cons c front =>
    have hlast : cs.getLast? = some c := by
      rw [← List.head?_reverse, hrev, List.head?_cons]
    refine List.dropWhile_cons_of_neg ?_
    rw [hcs c hlast]
    exact Bool.false_ne_true

end Unicode

namespace Frame

open Unicode

/-! ## The line that tells the length -/

/-- The line of a header that tells a length, without its end. -/
def lengthField (n : Nat) : String := "Content-Length: " ++ toString n

theorem toList_lengthField (n : Nat) :
    (lengthField n).toList = "Content-Length: ".toList ++ Nat.toDigits 10 n := by
  show ("Content-Length: " ++ toString n).toList = _
  rw [String.toList_append, Nat.toString_eq_ofList_toDigits]
  exact congrArg _ String.toList_ofList

theorem length?_toDigits {n : Nat} (h : n < lengthLimit) : length? (Nat.toDigits 10 n) = some n := by
  have hplus : (Nat.toDigits 10 n).head? ≠ some '+' := by
    intro hhead
    exact absurd (Digits.isDigit_of_mem_toDigits (List.mem_of_mem_head? hhead)) (by decide)
  rw [length?, if_neg hplus, if_neg Nat.toDigits_ne_nil, Digits.number?_toDigits,
    Option.filter_some, if_pos (decide_eq_true h)]

theorem trim_digits (n : Nat) : trim (' ' :: Nat.toDigits 10 n) = Nat.toDigits 10 n := by
  have hspace : ∀ c ∈ Nat.toDigits 10 n, isSpace c = false :=
    fun c hc => isSpace_of_isDigit (Digits.isDigit_of_mem_toDigits hc)
  have hfront : (' ' :: Nat.toDigits 10 n).dropWhile isSpace = Nat.toDigits 10 n := by
    rw [List.dropWhile_cons_of_pos (by decide)]
    cases hdigits : Nat.toDigits 10 n with
    | nil => rfl
    | cons c cs =>
      refine List.dropWhile_cons_of_neg ?_
      rw [hspace c (hdigits ▸ List.mem_cons_self)]
      exact Bool.false_ne_true
  have hback : trimEnd (Nat.toDigits 10 n ++ []) = Nat.toDigits 10 n :=
    trimEnd_append (fun c hc => hspace c (List.mem_of_getLast? hc))
      fun c hc => absurd hc List.not_mem_nil
  rw [List.append_nil] at hback
  rw [trim, hfront, hback]

/-- The length is read back from the line that tells it. -/
theorem contentLength?_lengthField {n : Nat} (h : n < lengthLimit) :
    contentLength? (lengthField n).toList = some n := by
  -- The name holds no colon, so the line is split at the one behind the name.
  have hsplit : (lengthField n).toList.span (· ≠ ':') =
      ("Content-Length".toList, ':' :: ' ' :: Nat.toDigits 10 n) := by
    rw [toList_lengthField]
    rfl
  have hname : (trim "Content-Length".toList).map Char.toLower = "content-length".toList := by
    decide
  rw [contentLength?, hsplit]
  dsimp only
  rw [if_pos hname, trim_digits, length?_toDigits h]

/-- The bytes of the line that tells a length, without the line feed at its end. -/
def lengthLine (n : Nat) : Bytes := Utf8.encode (lengthField n ++ "\r")

theorem encode_newline : Utf8.encode "\n" = [0x0a] := by
  rw [Utf8.encode_eq_flatMap]
  rfl

theorem encode_return : Utf8.encode "\r" = [0x0d] := by
  rw [Utf8.encode_eq_flatMap]
  rfl

theorem render_eq (body : Bytes) :
    render body = lengthLine body.length ++ 0x0a :: 0x0d :: 0x0a :: body := by
  have hheader : "Content-Length: " ++ toString body.length ++ "\r\n\r\n" =
      lengthField body.length ++ "\r" ++ "\n" ++ "\r" ++ "\n" := by
    show _ = "Content-Length: " ++ toString body.length ++ "\r" ++ "\n" ++ "\r" ++ "\n"
    simp only [String.append_assoc]
    rfl
  rw [render, hheader]
  simp only [Utf8.encode_append, encode_newline, encode_return, lengthLine, List.append_assoc]
  rfl

/-- A character of one byte that does not end a line. -/
def isPlain (c : Char) : Bool := c.toNat < 0x80 ∧ c.toNat ≠ 0x0a

theorem isPlain_of_isDigit {c : Char} (h : c.isDigit = true) : isPlain c = true := by
  obtain ⟨hlow, hhigh⟩ := Char.isDigit_iff_toNat.mp h
  have hzero : '0'.toNat = 48 := rfl
  have hnine : '9'.toNat = 57 := rfl
  exact decide_eq_true ⟨by omega, by omega⟩

theorem isPlain_of_mem_lengthField {n : Nat} {c : Char}
    (h : c ∈ (lengthField n ++ "\r").toList) : isPlain c = true := by
  have hname : "Content-Length: ".toList.all isPlain = true := by decide
  have hreturn : "\r".toList.all isPlain = true := by decide
  rw [String.toList_append, toList_lengthField] at h
  rcases List.mem_append.mp h with h | h
  · rcases List.mem_append.mp h with h | h
    · exact List.all_eq_true.mp hname c h
    · exact isPlain_of_isDigit (Digits.isDigit_of_mem_toDigits h)
  · exact List.all_eq_true.mp hreturn c h

/-- The line holds nothing but plain characters, and no line feed. -/
theorem plain_of_mem_lengthLine {n : Nat} {b : UInt8} (h : b ∈ lengthLine n) :
    b < 0x80 ∧ b ≠ 0x0a := by
  have hplain : ∀ c ∈ (lengthField n ++ "\r").toList, c.toNat < 0x80 ∧ c.toNat ≠ 0x0a :=
    fun c hc => of_decide_eq_true (isPlain_of_mem_lengthField hc)
  obtain ⟨c, hc, rfl⟩ := Utf8.mem_encode_of_ascii (fun c hc => (hplain c hc).1) h
  obtain ⟨hlt, hne⟩ := hplain c hc
  have hnumber : (UInt8.ofNat c.toNat).toNat = c.toNat :=
    UInt8.toNat_ofNat_of_lt (Nat.lt_trans hlt (by decide))
  refine ⟨UInt8.lt_iff_toNat_lt.mpr (hnumber.symm ▸ hlt), ?_⟩
  intro hnewline
  exact hne (hnumber.symm.trans (congrArg UInt8.toNat hnewline))

/-! ## Header lines -/

theorem splitLine_append {line : Bytes} (h : 0x0a ∉ line) (rest : Bytes) :
    splitLine (line ++ 0x0a :: rest) = (line ++ [0x0a], rest) := by
  induction line with
  | nil => exact if_pos rfl
  | cons b line ih =>
    have hb : b ≠ 0x0a := fun he => h (he ▸ List.mem_cons_self)
    have hline : 0x0a ∉ line := fun hmem => h (List.mem_cons_of_mem b hmem)
    rw [List.cons_append, splitLine, if_neg hb, ih hline]
    rfl

theorem splitLine_of_notMem {line : Bytes} (h : 0x0a ∉ line) : splitLine line = (line, []) := by
  induction line with
  | nil => rfl
  | cons b line ih =>
    have hb : b ≠ 0x0a := fun he => h (he ▸ List.mem_cons_self)
    have hline : 0x0a ∉ line := fun hmem => h (List.mem_cons_of_mem b hmem)
    rw [splitLine, if_neg hb, ih hline]

/-- What is read behind a header line. -/
def HeaderStep.resume (rest : Bytes) : HeaderStep → Reading
  | .body n => takeBody n rest
  | .more length => readHeader length rest
  | .failed error => .failed error

theorem readHeader_of_ne_nil {input : Bytes} (h : input ≠ []) (length : Option Nat) :
    readHeader length input = (headerLine length (splitLine input).1).resume (splitLine input).2 := by
  obtain ⟨b, bytes, rfl⟩ := List.exists_cons_of_ne_nil h
  rw [readHeader]
  cases headerLine length (splitLine (b :: bytes)).1 <;> rfl

/-- A whole line is taken, and reading goes on behind it. -/
theorem readHeader_line {line : Bytes} (h : 0x0a ∉ line) (length : Option Nat) (rest : Bytes) :
    readHeader length (line ++ 0x0a :: rest) =
      (headerLine length (line ++ [0x0a])).resume rest := by
  rw [readHeader_of_ne_nil (List.append_ne_nil_of_right_ne_nil _ (List.cons_ne_nil _ _)),
    splitLine_append h]

/-- Where the input ends inside a line, the line is taken as it is. -/
theorem readHeader_last_line {line : Bytes} (hne : line ≠ []) (h : 0x0a ∉ line)
    (length : Option Nat) : readHeader length line = (headerLine length line).resume [] := by
  rw [readHeader_of_ne_nil hne, splitLine_of_notMem h]

theorem headerLine_lengthLine {n : Nat} (h : n < lengthLimit) :
    headerLine none (lengthLine n ++ [0x0a]) = .more (some n) := by
  have hdecode : Utf8.decode? (lengthLine n ++ [0x0a]) = some (lengthField n ++ "\r" ++ "\n") := by
    rw [Utf8.decode?_eq_some_iff, Utf8.encode_append, encode_newline]
    rfl
  have htrim : trimEnd (lengthField n ++ "\r" ++ "\n").toList = (lengthField n).toList := by
    rw [String.toList_append, String.toList_append, List.append_assoc]
    -- The field ends with a digit, so nothing but the end of the line is cut off.
    refine trimEnd_append ?_ (List.all_eq_true.mp (by decide))
    intro c hc
    rw [toList_lengthField, List.getLast?_append,
      Option.or_of_isSome (List.getLast?_isSome.mpr Nat.toDigits_ne_nil)] at hc
    exact isSpace_of_isDigit (Digits.isDigit_of_mem_toDigits (List.mem_of_getLast? hc))
  have hne : (lengthField n).toList ≠ [] := by
    rw [toList_lengthField]
    exact List.append_ne_nil_of_right_ne_nil _ Nat.toDigits_ne_nil
  rw [headerLine, hdecode]
  dsimp only
  rw [htrim, if_neg hne, contentLength?_lengthField h]
  rfl

/-- A blank line behind the length ends the header, with or without its line feed. -/
theorem headerLine_blank {text : String} (h : ∀ c ∈ text.toList, isSpace c = true) (n : Nat) :
    headerLine (some n) (Utf8.encode text) = .body n := by
  have htrim : trimEnd ([] ++ text.toList) = [] := trimEnd_append (fun c hc => nomatch hc) h
  rw [headerLine, Utf8.decode?_eq_some_iff.mpr rfl]
  exact if_pos htrim

/-! ## One frame -/

@[simp] theorem readHeader_nil (length : Option Nat) : readHeader length [] = .closed := by
  rw [readHeader]

/-- A line without a length does not end the header. -/
theorem exists_more_of_encode (text : String) :
    ∃ length, headerLine none (Utf8.encode text) = .more length := by
  rw [headerLine, Utf8.decode?_eq_some_iff.mpr rfl]
  dsimp only
  split
  · exact ⟨none, rfl⟩
  · exact ⟨_, rfl⟩

/-- An input that ends inside its first line holds no frame, but nothing is wrong with it either. -/
theorem next_of_plain {input : Bytes} (h : ∀ b ∈ input, b < 0x80 ∧ b ≠ 0x0a) :
    next input = .closed := by
  by_cases hnil : input = []
  · rw [hnil, next, readHeader_nil]
  · have hline : 0x0a ∉ input := fun hmem => (h _ hmem).2 rfl
    -- Bytes below 0x80 can always be decoded, wherever the line has been cut off.
    obtain ⟨text, rfl⟩ := Utf8.exists_encode_of_ascii fun b hb => (h b hb).1
    obtain ⟨length, hmore⟩ := exists_more_of_encode text
    rw [next, readHeader_last_line hnil hline, hmore]
    exact readHeader_nil length

theorem next_lengthLine {n : Nat} (h : n < lengthLimit) (rest : Bytes) :
    next (lengthLine n ++ 0x0a :: rest) = readHeader (some n) rest := by
  have hline : 0x0a ∉ lengthLine n := fun hmem => (plain_of_mem_lengthLine hmem).2 rfl
  rw [next, readHeader_line hline, headerLine_lengthLine h]
  rfl

theorem readHeader_blank (n : Nat) (rest : Bytes) :
    readHeader (some n) (0x0d :: 0x0a :: rest) = takeBody n rest := by
  have hblank : headerLine (some n) ([0x0d] ++ [0x0a]) = .body n := by
    rw [← encode_return, ← encode_newline, ← Utf8.encode_append]
    exact headerLine_blank (List.all_eq_true.mp (by decide)) n
  show readHeader (some n) ([0x0d] ++ 0x0a :: rest) = _
  rw [readHeader_line (by decide), hblank]
  rfl

theorem readHeader_return (n : Nat) : readHeader (some n) [0x0d] = takeBody n [] := by
  have hblank : headerLine (some n) [0x0d] = .body n := by
    rw [← encode_return]
    exact headerLine_blank (List.all_eq_true.mp (by decide)) n
  rw [readHeader_last_line (by decide) (by decide), hblank]
  rfl

/-- **A frame is read back**, whatever follows it. -/
theorem next_render_append {body : Bytes} (h : body.length < lengthLimit) (rest : Bytes) :
    next (render body ++ rest) = .frame body rest := by
  have hinput : render body ++ rest =
      lengthLine body.length ++ 0x0a :: 0x0d :: 0x0a :: (body ++ rest) := by
    rw [render_eq, List.append_assoc]
    rfl
  have hsize : ¬(body ++ rest).length < body.length := by
    rw [List.length_append]
    omega
  rw [hinput, next_lengthLine h, readHeader_blank, takeBody, if_neg hsize, List.take_left,
    List.drop_left]

/-- A prefix of two parts ends inside the first of them, or it holds the first and a prefix of
the second. -/
theorem prefix_append_cases {α : Type} {l a b : List α} (h : l <+: a ++ b) :
    (l <+: a ∧ l ≠ a) ∨ ∃ r, l = a ++ r ∧ r <+: b := by
  rcases List.prefix_or_prefix_of_prefix h (List.prefix_append a b) with hl | ⟨r, rfl⟩
  · by_cases heq : l = a
    · exact Or.inr ⟨[], by rw [heq, List.append_nil], List.nil_prefix⟩
    · exact Or.inl ⟨hl, heq⟩
  · exact Or.inr ⟨r, rfl, (List.prefix_append_right_inj a).mp h⟩

theorem length_lt_of_prefix {α : Type} {l a : List α} (h : l <+: a) (hne : l ≠ a) :
    l.length < a.length :=
  Nat.lt_of_le_of_ne h.length_le fun heq => hne (h.eq_of_length heq)

/-- **A frame that is cut off is never read as another one.**  Only the frame of an empty body
is read without its last byte, and then as what it is. -/
theorem next_of_cut_frame {body input : Bytes} (h : body.length < lengthLimit)
    (hcut : input <+: render body) (hne : input ≠ render body) :
    next input = .closed ∨ next input = .failed (.bodyCutShort body.length) ∨
      body = [] ∧ next input = .frame [] [] := by
  rw [render_eq] at hcut hne
  rcases prefix_append_cases hcut with ⟨hline, -⟩ | ⟨rest, rfl, hrest⟩
  · -- The cut falls into the line that tells the length.
    exact Or.inl (next_of_plain fun b hb => plain_of_mem_lengthLine (hline.subset hb))
  rcases List.prefix_cons_iff.mp hrest with rfl | ⟨rest, rfl, hblank⟩
  · rw [List.append_nil]
    exact Or.inl (next_of_plain fun b hb => plain_of_mem_lengthLine hb)
  rw [next_lengthLine h]
  rcases List.prefix_cons_iff.mp hblank with rfl | ⟨rest, rfl, hfeed⟩
  · exact Or.inl (readHeader_nil _)
  rcases List.prefix_cons_iff.mp hfeed with rfl | ⟨rest, rfl, hbody⟩
  · -- Half of the blank line is left, and it ends the header as the whole line would.
    rw [readHeader_return]
    cases body with
    | nil => exact Or.inr (Or.inr ⟨rfl, rfl⟩)
    | cons b body => exact Or.inr (Or.inl rfl)
  · have hshort : rest.length < body.length :=
      length_lt_of_prefix hbody fun heq => hne (by rw [heq])
    rw [readHeader_blank, takeBody, if_pos hshort]
    exact Or.inr (Or.inl rfl)

/-! ## The whole stream -/

theorem readAll_eq (input : Bytes) :
    readAll input =
      match next input with
      | .closed => ⟨[], .ok ()⟩
      | .failed error => ⟨[], .error error⟩
      | .frame body rest => ⟨body :: (readAll rest).bodies, (readAll rest).stop⟩ := by
  rw [readAll]
  split <;> rename_i h <;> simp only [h]

/-- The first frame of a stream is read, and then all that follows it. -/
theorem readAll_render_append {body : Bytes} (h : body.length < lengthLimit) (rest : Bytes) :
    readAll (render body ++ rest) = ⟨body :: (readAll rest).bodies, (readAll rest).stop⟩ := by
  rw [readAll_eq, next_render_append h]

theorem readAll_nil : readAll [] = ⟨[], .ok ()⟩ := by
  rw [readAll_eq, next, readHeader_nil]

/-- **All frames of a stream are read back.** -/
theorem readAll_stream {bodies : List Bytes} (h : ∀ body ∈ bodies, body.length < lengthLimit) :
    readAll (bodies.flatMap render) = ⟨bodies, .ok ()⟩ := by
  induction bodies with
  | nil => exact readAll_nil
  | cons body bodies ih =>
    rw [List.flatMap_cons, readAll_render_append (h body List.mem_cons_self),
      ih fun b hb => h b (List.mem_cons_of_mem body hb)]

/-- Of a stream of bodies, cut off somewhere, exactly the first `k` bodies are read. -/
structure ReadsFirst (bodies : List Bytes) (input : Bytes) (k : Nat) : Prop where
  le_length : k ≤ bodies.length
  bodies_eq : (readAll input).bodies = bodies.take k
  /-- Frames that lie wholly in front of the cut are read. -/
  whole_le : ∀ j ≤ bodies.length, (bodies.take j).flatMap render <+: input → j ≤ k
  /-- The stream ends where a frame could begin or inside a header, or a body is short. -/
  stop_eq : (readAll input).stop = .ok () ∨
    ∃ body ∈ bodies, (readAll input).stop = .error (.bodyCutShort body.length)

/-- No frame is left whole by a cut in the first one. -/
theorem eq_zero_of_cut_frame {body : Bytes} {bodies : List Bytes} {input : Bytes} {j : Nat}
    (hcut : input <+: render body) (hne : input ≠ render body)
    (hwhole : ((body :: bodies).take j).flatMap render <+: input) : j = 0 := by
  cases j with
  | zero => rfl
  | succ j =>
    rw [List.take_succ_cons, List.flatMap_cons] at hwhole
    have hlong := ((List.prefix_append _ _).trans hwhole).length_le
    have hshort := length_lt_of_prefix hcut hne
    omega

/-- A stream that is cut off in its first frame ends without a frame, or with an empty one that
was only short of its last byte. -/
theorem exists_readsFirst_of_cut_frame {body : Bytes} {bodies : List Bytes} {input : Bytes}
    (h : body.length < lengthLimit) (hcut : input <+: render body) (hne : input ≠ render body) :
    ∃ k, ReadsFirst (body :: bodies) input k := by
  have hzero {j : Nat} (k : Nat) (hwhole : ((body :: bodies).take j).flatMap render <+: input) :
      j ≤ k := by
    rw [eq_zero_of_cut_frame hcut hne hwhole]
    exact Nat.zero_le k
  have hread := readAll_eq input
  rcases next_of_cut_frame h hcut hne with hnext | hnext | ⟨rfl, hnext⟩
  · rw [hnext] at hread
    exact ⟨0, Nat.zero_le _, by rw [hread, List.take_zero], fun _ _ => hzero 0,
      Or.inl (by rw [hread])⟩
  · rw [hnext] at hread
    exact ⟨0, Nat.zero_le _, by rw [hread, List.take_zero], fun _ _ => hzero 0,
      Or.inr ⟨body, List.mem_cons_self, by rw [hread]⟩⟩
  · -- The frame has been read before its last byte came, so one more than the whole ones counts.
    rw [hnext] at hread
    dsimp only at hread
    rw [readAll_nil] at hread
    exact ⟨1, Nat.succ_le_succ (Nat.zero_le _), by rw [hread]; rfl, fun _ _ => hzero 1,
      Or.inl (by rw [hread])⟩

/-- Wherever a stream is cut off, its first bodies are read. -/
theorem exists_readsFirst {bodies : List Bytes} (h : ∀ body ∈ bodies, body.length < lengthLimit)
    {input : Bytes} (hcut : input <+: bodies.flatMap render) : ∃ k, ReadsFirst bodies input k := by
  induction bodies generalizing input with
  | nil =>
    obtain rfl := List.prefix_nil.mp hcut
    exact ⟨0, Nat.zero_le _, by rw [readAll_nil]; rfl, fun _ hj _ => hj, Or.inl (by rw [readAll_nil])⟩
  | cons body bodies ih =>
    have hbody := h body List.mem_cons_self
    rcases prefix_append_cases hcut with ⟨hfirst, hne⟩ | ⟨rest, rfl, hrest⟩
    · exact exists_readsFirst_of_cut_frame hbody hfirst hne
    · -- The first frame is whole, and the rest of the stream is cut off at the same place.
      obtain ⟨k, hk⟩ := ih (fun b hb => h b (List.mem_cons_of_mem body hb)) hrest
      have hread := readAll_render_append hbody rest
      refine ⟨k + 1, Nat.succ_le_succ hk.le_length, ?_, ?_, ?_⟩
      · rw [hread, hk.bodies_eq, List.take_succ_cons]
      · intro j hj hwhole
        cases j with
        | zero => exact Nat.zero_le _
        | succ j =>
          rw [List.take_succ_cons, List.flatMap_cons, List.prefix_append_right_inj] at hwhole
          exact Nat.succ_le_succ (hk.whole_le j (Nat.le_of_succ_le_succ hj) hwhole)
      · rw [hread]
        refine hk.stop_eq.imp_right ?_
        rintro ⟨short, hshort, hstop⟩
        exact ⟨short, List.mem_cons_of_mem body hshort, hstop⟩

/-! ## Messages -/

/-- The messages that are handed on; a body that is no text is dropped. -/
def Delivery.messages (d : Delivery) : List String := d.bodies.filterMap Utf8.decode?

/-- What is handed on of bodies, in order: the bytes of a text as that text, and nothing else. -/
inductive HandsOn : List Bytes → List String → Prop where
  | nil : HandsOn [] []
  | text (text : String) {bodies : List Bytes} {texts : List String} (h : HandsOn bodies texts) :
      HandsOn (Utf8.encode text :: bodies) (text :: texts)
  | dropped {body : Bytes} (hbody : ∀ text, Utf8.encode text ≠ body) {bodies : List Bytes}
      {texts : List String} (h : HandsOn bodies texts) : HandsOn (body :: bodies) texts

theorem handsOn_filterMap (bodies : List Bytes) : HandsOn bodies (bodies.filterMap Utf8.decode?) := by
  induction bodies with
  | nil => exact .nil
  | cons body bodies ih =>
    cases hdecode : Utf8.decode? body with
    | none =>
      rw [List.filterMap_cons_none hdecode]
      refine .dropped ?_ ih
      intro text htext
      exact Option.some_ne_none text ((Utf8.decode?_eq_some_iff.mpr htext).symm.trans hdecode)
    | some text =>
      rw [List.filterMap_cons_some hdecode, ← Utf8.decode?_eq_some_iff.mp hdecode]
      exact .text text ih

/-- **A stream is read back, and a cut never makes a wrong message.**  Wherever a stream of frames
is cut off, its first bodies are read, among them all whose frames are whole, and the texts among
them are handed on as they were sent.  Then the stream ends, or a body is short; no header is ever
bad.  A stream that is not cut off is read to its end.  (No byte string in memory is as long as
`lengthLimit`.) -/
theorem cut_stream_is_read_back {bodies : List Bytes} {input : Bytes}
    (hsize : ∀ body ∈ bodies, body.length < lengthLimit)
    (hcut : input <+: bodies.flatMap render) :
    ∃ k, ReadsFirst bodies input k ∧ HandsOn (bodies.take k) (readAll input).messages ∧
      (input = bodies.flatMap render →
        k = bodies.length ∧ (readAll input).stop = .ok ()) := by
  obtain ⟨k, hk⟩ := exists_readsFirst hsize hcut
  refine ⟨k, hk, ?_, ?_⟩
  · rw [← hk.bodies_eq]
    exact handsOn_filterMap _
  · rintro rfl
    have hall := hk.whole_le bodies.length (Nat.le_refl _)
    rw [List.take_length] at hall
    exact ⟨Nat.le_antisymm hk.le_length (hall hcut), by rw [readAll_stream hsize]⟩

/-- A message, a body that is no text, and an empty body. -/
def mixedBodies : List Bytes := [[0x7b, 0x7d], [0xff, 0x0a], []]

/-- The stream of these bodies lacks its last byte. -/
theorem mixed_stream_is_read_back :
    (∀ body ∈ mixedBodies, body.length < lengthLimit) ∧
      (mixedBodies.flatMap render).dropLast <+: mixedBodies.flatMap render ∧
      ∃ k, ReadsFirst mixedBodies (mixedBodies.flatMap render).dropLast k ∧
        HandsOn (mixedBodies.take k) (readAll (mixedBodies.flatMap render).dropLast).messages := by
  have hsize : ∀ body ∈ mixedBodies, body.length < lengthLimit := by decide
  have hcut := List.dropLast_prefix (mixedBodies.flatMap render)
  obtain ⟨k, hk, hmessages, -⟩ := cut_stream_is_read_back hsize hcut
  exact ⟨hsize, hcut, k, hk, hmessages⟩

end Frame

end SymbolRename
