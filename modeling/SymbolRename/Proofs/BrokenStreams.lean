import SymbolRename.Proofs.HeaderBlocks

/-! # Streams that break off

A stream of frames ends well, or it breaks off behind some whole frames: at a header line that
is no text, or in a body that is shorter than its header tells.  `BreaksOff` says what such an
end looks like in bytes, and `Carries` what the frames in front of it look like.  Every input is
header lines up to a line that decides (`exists_open`); so the reader fails exactly at the ends
that are broken (`next_eq_failed_iff`), and it stops with an error exactly on the streams that
have one (`readAll_eq_error_iff`).
-/
namespace SymbolRename

namespace Frame

open Unicode

/-! ## Lines of bytes -/

/-- `line` is a line in front of `rest`: it ends with its line feed, or where the input ends. -/
def IsLine (line rest : Bytes) : Prop :=
  ∃ front, 0x0a ∉ front ∧ (line = front ++ [0x0a] ∨ line = front ∧ front ≠ [] ∧ rest = [])

theorem isLine_splitLine {input : Bytes} (h : input ≠ []) :
    IsLine (splitLine input).1 (splitLine input).2 ∧
      input = (splitLine input).1 ++ (splitLine input).2 := by
  by_cases hfeed : 0x0a ∈ input
  · obtain ⟨front, rest, rfl, hfront⟩ := List.eq_append_cons_of_mem hfeed
    rw [splitLine_append hfront]
    exact ⟨⟨front, hfront, Or.inl rfl⟩, by rw [List.append_assoc]; rfl⟩
  · rw [splitLine_of_notMem hfeed]
    exact ⟨⟨input, hfeed, Or.inr ⟨rfl, h, rfl⟩⟩, (List.append_nil input).symm⟩

/-- A line is taken, and reading goes on behind it. -/
theorem IsLine.readHeader_eq {line rest : Bytes} (h : IsLine line rest) (length : Option Nat) :
    readHeader length (line ++ rest) = (headerLine length line).resume rest := by
  obtain ⟨front, hfront, rfl | ⟨rfl, hne, rfl⟩⟩ := h
  · rw [List.append_assoc]
    exact readHeader_line hfront length rest
  · rw [List.append_nil]
    exact readHeader_last_line hne hfront length

/-! ## What a line decides -/

variable {length : Option Nat}

theorem headerLine_eq_failed_iff {line : Bytes} {error : Error} :
    headerLine length line = .failed error ↔
      error = .headerNotUtf8 ∧ ∀ text, Utf8.encode text ≠ line := by
  unfold headerLine
  cases htext : Utf8.decode? line with
  | none =>
    have hnone : ∀ text, Utf8.encode text ≠ line := by
      intro text hencode
      rw [Utf8.decode?_eq_some_iff.mpr hencode] at htext
      cases htext
    simp [hnone, eq_comm]
  | some text =>
    have hsome : ¬∀ text, Utf8.encode text ≠ line :=
      fun hnone => hnone text (Utf8.decode?_eq_some_iff.mp htext)
    dsimp only
    split
    · cases length <;> simp [hsome]
    · simp [hsome]

theorem headerLine_eq_body_iff {line : Bytes} {n : Nat} :
    headerLine length line = .body n ↔
      length = some n ∧ ∃ blank, Utf8.encode blank = line ∧ ∀ c ∈ blank.toList, isSpace c = true := by
  constructor
  · intro h
    unfold headerLine at h
    cases htext : Utf8.decode? line with
    | none => simp [htext] at h
    | some text =>
      rw [htext] at h
      dsimp only at h
      split at h
      · rename_i hblank
        cases length with
        | none => cases h
        | some m =>
          cases h
          exact ⟨rfl, text, Utf8.decode?_eq_some_iff.mp htext, trimEnd_eq_nil_iff.mp hblank⟩
      · cases h
  · rintro ⟨rfl, blank, rfl, hblank⟩
    exact headerLine_blank hblank n

/-- A line that decides nothing is a line of a header that goes on. -/
theorem exists_headerLine_of_more {front : Bytes} {length' : Option Nat} (hfront : 0x0a ∉ front)
    (h : headerLine length (front ++ [0x0a]) = .more length') :
    ∃ line : HeaderLine, line.bytes = front ++ [0x0a] ∧ '\n' ∉ line.text.toList ∧
      (length.isSome = true → ¬line.IsBlank) ∧ length' = line.length?.or length := by
  obtain ⟨text, htext⟩ : ∃ text, Utf8.encode text = front ++ [0x0a] := by
    apply Classical.byContradiction
    intro hnone
    rw [headerLine_eq_failed_iff.mpr ⟨rfl, not_exists.mp hnone⟩] at h
    cases h
  obtain ⟨text, rfl⟩ := Utf8.exists_encode_of_newline htext
  have hbytes : HeaderLine.bytes ⟨text, .feed⟩ = Utf8.encode text ++ [0x0a] := by
    rw [HeaderLine.bytes, LineEnd.text, String.append_empty]
  have hopen : length.isSome = true → ¬HeaderLine.IsBlank ⟨text, .feed⟩ := by
    intro hsome hblank
    obtain ⟨n, rfl⟩ := Option.isSome_iff_exists.mp hsome
    rw [← hbytes, headerLine_eq, if_pos hblank] at h
    cases h
  refine ⟨⟨text, .feed⟩, hbytes, fun hmem => hfront (Utf8.newline_mem_encode hmem), hopen, ?_⟩
  rw [← hbytes, headerLine_bytes hopen] at h
  exact (HeaderStep.more.inj h).symm

/-! ## Headers that go on -/

/-- Lines that do not end a header in which `length` has been told. -/
structure IsOpen (length : Option Nat) (lines : List HeaderLine) : Prop where
  whole : ∀ line ∈ lines, '\n' ∉ line.text.toList
  told : length.isSome = true → ∀ line ∈ lines, ¬line.IsBlank
  unbroken : lines.Pairwise fun line later => line.length?.isSome = true → ¬later.IsBlank

variable {line : HeaderLine} {lines : List HeaderLine}

theorem isOpen_nil : IsOpen length [] := ⟨nofun, nofun, .nil⟩

theorem IsOpen.cons (hline : '\n' ∉ line.text.toList) (hopen : length.isSome = true → ¬line.IsBlank)
    (h : IsOpen (line.length?.or length) lines) : IsOpen length (line :: lines) where
  whole := List.forall_mem_cons.mpr ⟨hline, h.whole⟩
  told := fun hsome => List.forall_mem_cons.mpr
    ⟨hopen hsome, h.told (by rw [Option.isSome_or, hsome, Bool.or_true])⟩
  unbroken := List.pairwise_cons.mpr
    ⟨fun later hmem htold => h.told (by rw [Option.isSome_or, htold, Bool.true_or]) later hmem,
      h.unbroken⟩

theorem IsOpen.readHeader_eq (h : IsOpen length lines) (rest : Bytes) :
    readHeader length (lines.flatMap HeaderLine.bytes ++ rest) =
      readHeader (lastLength length lines) rest :=
  readHeader_lines h.whole h.told h.unbroken rest

theorem IsOpen.isHeader {n : Nat} (h : IsOpen none lines) (hlast : lastLength none lines = some n) :
    IsHeader lines n := ⟨h.whole, by rwa [lastLength, Option.or_none] at hlast, h.unbroken⟩

theorem IsHeader.isOpen {n : Nat} (h : IsHeader lines n) : IsOpen none lines :=
  ⟨h.whole, fun hsome => absurd hsome Bool.false_ne_true, h.unbroken⟩

theorem IsHeader.lastLength_eq {n : Nat} (h : IsHeader lines n) :
    lastLength none lines = some n := by
  rw [lastLength, h.told, Option.some_or]

theorem exists_deciding_line {input : Bytes} (hne : input ≠ [])
    (h : ∀ length', headerLine length (splitLine input).1 ≠ .more length') :
    ∃ line tail, IsLine line tail ∧ input = line ++ tail ∧
      ∀ length', headerLine length line ≠ .more length' := by
  obtain ⟨hline, hinput⟩ := isLine_splitLine hne
  exact ⟨_, _, hline, hinput, h⟩

/-- **Every input is lines that decide nothing, and then it ends or a line decides.**  The induction
follows the reader; a last line without a line feed can only decide. -/
theorem exists_open (length : Option Nat) (input : Bytes) :
    ∃ lines rest, IsOpen length lines ∧ input = lines.flatMap HeaderLine.bytes ++ rest ∧
      (readHeader (lastLength length lines) rest = .closed ∨
        ∃ line tail, IsLine line tail ∧ rest = line ++ tail ∧
          ∀ length', headerLine (lastLength length lines) line ≠ .more length') := by
  fun_induction readHeader length input with
  | case1 length => exact ⟨[], [], isOpen_nil, rfl, Or.inl (readHeader_nil _)⟩
  | case2 length b bytes _ n hstep =>
    have hdecides := exists_deciding_line (List.cons_ne_nil b bytes)
      fun length' hmore => HeaderStep.noConfusion (hstep.symm.trans hmore)
    exact ⟨[], _, isOpen_nil, rfl, Or.inr hdecides⟩
  | case3 length b bytes _ length' hstep ih =>
    obtain ⟨hline, hinput⟩ := isLine_splitLine (List.cons_ne_nil b bytes)
    obtain ⟨front, hfront, hfeed | ⟨hlast, -, hrest⟩⟩ := hline
    · rw [hfeed] at hstep hinput
      obtain ⟨line, hbytes, hwhole, hopen, rfl⟩ := exists_headerLine_of_more hfront hstep
      obtain ⟨lines, rest, hlines, hsplit, hend⟩ := ih
      refine ⟨line :: lines, rest, .cons hwhole hopen hlines, ?_, ?_⟩
      · rw [hinput, hsplit, List.flatMap_cons, hbytes]
        simp only [List.append_assoc]
      · rw [lastLength_cons]
        exact hend
    · refine ⟨[], _, isOpen_nil, rfl, Or.inl ?_⟩
      show readHeader length (b :: bytes) = .closed
      rw [readHeader_of_ne_nil (List.cons_ne_nil b bytes), hstep, hrest]
      exact readHeader_nil _
  | case4 length b bytes _ error hstep =>
    have hdecides := exists_deciding_line (List.cons_ne_nil b bytes)
      fun length' hmore => HeaderStep.noConfusion (hstep.symm.trans hmore)
    exact ⟨[], _, isOpen_nil, rfl, Or.inr hdecides⟩

/-! ## Broken ends -/

/-- A whole header that tells the length `n`, with the blank line that ends it, in front of
`rest`. -/
def IsFront (front : Bytes) (n : Nat) (rest : Bytes) : Prop :=
  ∃ lines blank, IsHeader lines n ∧ (∀ c ∈ blank.toList, isSpace c = true) ∧
    IsLine (Utf8.encode blank) rest ∧ front = lines.flatMap HeaderLine.bytes ++ Utf8.encode blank

/-- How a stream can break off where a frame could begin. -/
inductive BreaksOff : Bytes → Error → Prop where
  /-- Behind lines of a header there is a line that is no text. -/
  | header {lines : List HeaderLine} {line rest : Bytes} (hlines : IsOpen none lines)
      (hline : IsLine line rest) (htext : ∀ text, Utf8.encode text ≠ line) :
      BreaksOff (lines.flatMap HeaderLine.bytes ++ (line ++ rest)) .headerNotUtf8
  /-- Behind a whole header there are fewer bytes than it tells. -/
  | body {front part : Bytes} {n : Nat} (hfront : IsFront front n part) (hshort : part.length < n) :
      BreaksOff (front ++ part) (.bodyCutShort n)

theorem IsFront.next_eq {front rest : Bytes} {n : Nat} (h : IsFront front n rest) :
    next (front ++ rest) = takeBody n rest := by
  obtain ⟨lines, blank, hheader, hblank, hline, rfl⟩ := h
  rw [next, List.append_assoc, hheader.isOpen.readHeader_eq, hheader.lastLength_eq,
    hline.readHeader_eq, headerLine_blank hblank]
  rfl

theorem BreaksOff.next_eq {input : Bytes} {error : Error} (h : BreaksOff input error) :
    next input = .failed error := by
  cases h with
  | header hlines hline htext =>
    rw [next, hlines.readHeader_eq, hline.readHeader_eq, headerLine_eq_failed_iff.mpr ⟨rfl, htext⟩]
    rfl
  | body hfront hshort => rw [hfront.next_eq, takeBody, if_pos hshort]

/-- An input ends before its first header does, or it breaks off there, or a body is due. -/
theorem next_cases (input : Bytes) :
    next input = .closed ∨ BreaksOff input .headerNotUtf8 ∨
      ∃ front n rest, IsFront front n rest ∧ input = front ++ rest := by
  obtain ⟨lines, rest, hlines, rfl, hclosed | ⟨line, tail, hline, rfl, hdecides⟩⟩ :=
    exists_open none input
  · exact Or.inl (by rw [next, hlines.readHeader_eq, hclosed])
  · cases hstep : headerLine (lastLength none lines) line with
    | more length' => exact absurd hstep (hdecides length')
    | failed error =>
      exact Or.inr (Or.inl (.header hlines hline (headerLine_eq_failed_iff.mp hstep).2))
    | body n =>
      obtain ⟨hlast, blank, rfl, hblank⟩ := headerLine_eq_body_iff.mp hstep
      refine Or.inr (Or.inr ⟨lines.flatMap HeaderLine.bytes ++ Utf8.encode blank, n, tail, ?_, ?_⟩)
      · exact ⟨lines, blank, hlines.isHeader hlast, hblank, hline, rfl⟩
      · rw [List.append_assoc]

/-- **The reader fails exactly where a stream breaks off.** -/
theorem next_eq_failed_iff {input : Bytes} {error : Error} :
    next input = .failed error ↔ BreaksOff input error := by
  refine ⟨fun h => ?_, BreaksOff.next_eq⟩
  rcases next_cases input with hclosed | hbreaks | ⟨front, n, rest, hfront, rfl⟩
  · cases hclosed.symm.trans h
  · cases hbreaks.next_eq.symm.trans h
    exact hbreaks
  · rw [hfront.next_eq, takeBody] at h
    split at h
    · rename_i hshort
      cases h
      exact .body hfront hshort
    · cases h

/-- A frame that is read stands in front of the rest, behind a header that tells its length. -/
theorem exists_front_of_frame {input body rest : Bytes} (h : next input = .frame body rest) :
    ∃ front, IsFront front body.length (body ++ rest) ∧ input = front ++ (body ++ rest) := by
  rcases next_cases input with hclosed | hbreaks | ⟨front, n, tail, hfront, rfl⟩
  · cases hclosed.symm.trans h
  · cases hbreaks.next_eq.symm.trans h
  · rw [hfront.next_eq, takeBody] at h
    split at h
    · cases h
    · rename_i hsize
      cases h
      rw [List.take_append_drop, List.length_take_of_le (Nat.le_of_not_lt hsize)]
      exact ⟨front, hfront, rfl⟩

/-! ## Broken streams -/

/-- An input begins with whole frames that carry these bodies, and then there is the rest. -/
inductive Carries : Bytes → List Bytes → Bytes → Prop where
  | done (rest : Bytes) : Carries rest [] rest
  | frame {front body input rest : Bytes} {bodies : List Bytes}
      (hfront : IsFront front body.length (body ++ input)) (h : Carries input bodies rest) :
      Carries (front ++ (body ++ input)) (body :: bodies) rest

/-- Whole frames are read, and then the rest. -/
theorem Carries.readAll_eq {input rest : Bytes} {bodies : List Bytes} (h : Carries input bodies rest) :
    readAll input = ⟨bodies ++ (readAll rest).bodies, (readAll rest).stop⟩ := by
  induction h with
  | done rest => rfl
  | @frame front body input rest bodies hfront h ih =>
    rw [Frame.readAll_eq, hfront.next_eq, takeBody_append]
    dsimp only
    rw [ih]
    rfl

/-- **A stream is read to an error exactly if it breaks off there**, behind the frames that are read. -/
theorem readAll_eq_error_iff {input : Bytes} {bodies : List Bytes} {error : Error} :
    readAll input = ⟨bodies, .error error⟩ ↔
      ∃ rest, Carries input bodies rest ∧ BreaksOff rest error := by
  constructor
  · intro h
    fun_induction readAll input generalizing bodies with
    | case1 input hnext => cases h
    | case2 input error' hnext =>
      cases h
      exact ⟨input, .done input, next_eq_failed_iff.mp hnext⟩
    | case3 input body rest hnext _ delivery =>
      rename_i ih
      obtain ⟨front, hfront, rfl⟩ := exists_front_of_frame hnext
      obtain ⟨rfl, hstop⟩ := Delivery.mk.inj h
      have hread : readAll rest = ⟨(readAll rest).bodies, .error error⟩ := by rw [← hstop]
      obtain ⟨tail, hcarries, hbreaks⟩ := ih hread
      exact ⟨tail, .frame hfront hcarries, hbreaks⟩
  · rintro ⟨rest, hcarries, hbreaks⟩
    rw [hcarries.readAll_eq, Frame.readAll_eq rest, hbreaks.next_eq, List.append_nil]

end Frame

end SymbolRename
