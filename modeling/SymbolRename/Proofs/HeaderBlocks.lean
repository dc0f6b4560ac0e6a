import Mathlib.Data.Bool.AllAny
import Mathlib.Data.List.Forall2
import Mathlib.Data.List.TakeWhile
import SymbolRename.Proofs.FirstOccurrences
import SymbolRename.Proofs.FrameStream

/-! # Headers of any shape

The header of a frame is written by somebody else, so that only one of its lines is known: the one
that tells the length.  `TellsLength` says what such a line looks like, and `contentLength?` finds
exactly these lines (`contentLength?_eq_some_iff`).  All other lines are passed over, and so are
blank lines while no length has been told (`headerLine_bytes`).  By induction over the lines, a
header is read as the last length that it tells (`readHeader_lines`); the blank line behind it
ends it, and the body is taken off the input and nothing else.
-/
namespace SymbolRename

/-! ## Decimal numbers -/

namespace Digits

theorem isDigit_of_valueBelow? {c : Char} {n : Nat} (h : valueBelow? 10 c = some n) :
    c.isDigit = true := by
  obtain ⟨hvalue, hlt⟩ := Option.filter_eq_some_iff.mp h
  have hlt := of_decide_eq_true hlt
  unfold value? at hvalue
  split at hvalue
  · rename_i hdigit
    exact Char.isDigit_iff_toNat.mpr hdigit
  · split at hvalue
    · rename_i hletter
      have hlow : 97 ≤ c.toNat := hletter.1
      have hn := Option.some.inj hvalue
      omega
    · obtain ⟨hletter, hvalue⟩ := Option.ite_none_right_eq_some.mp hvalue
      have hlow : 65 ≤ c.toNat := hletter.1
      have hn := Option.some.inj hvalue
      omega

theorem isDigit_of_foldlM {cs : List Char} {m n : Nat}
    (h : cs.foldlM (fun n c => (valueBelow? 10 c).map (10 * n + ·)) m = some n) :
    ∀ c ∈ cs, c.isDigit = true := by
  induction cs generalizing m with
  | nil => exact fun c hc => absurd hc List.not_mem_nil
  | cons d cs ih =>
    rw [List.foldlM_cons] at h
    obtain ⟨k, hk, hrest⟩ := Option.bind_eq_some_iff.mp h
    obtain ⟨v, hv, -⟩ := Option.map_eq_some_iff.mp hk
    intro c hc
    rcases List.mem_cons.mp hc with rfl | hc
    · exact isDigit_of_valueBelow? hv
    · exact ih hrest c hc

/-- **Decimal digits, and nothing else, spell a decimal number.** -/
theorem number?_eq_some_iff {cs : List Char} {n : Nat} :
    number? 10 cs = some n ↔ (∀ c ∈ cs, c.isDigit = true) ∧ Nat.ofDigitChars 10 cs 0 = n := by
  constructor
  · intro h
    have hdigits := isDigit_of_foldlM h
    rw [number?, foldlM_valueBelow? hdigits] at h
    exact ⟨hdigits, Option.some.inj h⟩
  · rintro ⟨hdigits, rfl⟩
    rw [number?, foldlM_valueBelow? hdigits]

end Digits

/-! ## White space around a text -/

namespace Unicode

/-- A text with white space in front of it and behind it, or without. -/
def Padded (core cs : List Char) : Prop :=
  ∃ front back, cs = front ++ core ++ back ∧ (∀ c ∈ front, isSpace c = true) ∧
    ∀ c ∈ back, isSpace c = true

/-- White space at the end makes no difference. -/
theorem trimEnd_append_space {gap : List Char} (hgap : ∀ c ∈ gap, isSpace c = true)
    (cs : List Char) : trimEnd (cs ++ gap) = trimEnd cs := by
  rw [trimEnd, List.reverse_append,
    List.dropWhile_append_of_pos fun c hc => hgap c (List.mem_reverse.mp hc)]
  rfl

theorem exists_trimEnd_append (cs : List Char) :
    ∃ gap, cs = trimEnd cs ++ gap ∧ ∀ c ∈ gap, isSpace c = true := by
  refine ⟨(cs.reverse.takeWhile isSpace).reverse, ?_, ?_⟩
  · rw [trimEnd, ← List.reverse_append, List.takeWhile_append_dropWhile, List.reverse_reverse]
  · intro c hc
    exact List.mem_takeWhile_imp (List.mem_reverse.mp hc)

theorem trimEnd_eq_nil_iff {cs : List Char} : trimEnd cs = [] ↔ ∀ c ∈ cs, isSpace c = true := by
  rw [trimEnd, List.reverse_eq_nil_iff, List.dropWhile_eq_nil_iff]
  simp only [List.mem_reverse]

/-- **Trimming gives what the white space stands around.** -/
theorem trim_eq_iff {core cs : List Char} (hcore : ∀ c ∈ core, isSpace c = false) :
    trim cs = core ↔ Padded core cs := by
  constructor
  · rintro rfl
    obtain ⟨back, hback, hspace⟩ := exists_trimEnd_append (cs.dropWhile isSpace)
    refine ⟨cs.takeWhile isSpace, back, ?_, fun c hc => List.mem_takeWhile_imp hc, hspace⟩
    rw [trim, List.append_assoc, ← hback, List.takeWhile_append_dropWhile]
  · rintro ⟨front, back, rfl, hfront, hback⟩
    rw [trim, List.append_assoc, List.dropWhile_append_of_pos hfront]
    cases core with
    | nil =>
      rw [List.nil_append, List.dropWhile_eq_nil_iff.mpr hback]
      rfl
    | cons c core =>
      have hc : ¬isSpace c = true := by
        rw [hcore c List.mem_cons_self]
        exact Bool.false_ne_true
      rw [List.cons_append, List.dropWhile_cons_of_neg hc, ← List.cons_append]
      exact trimEnd_append (fun d hd => hcore d (List.mem_of_getLast? hd)) hback

end Unicode

namespace Frame

open Unicode

/-! ## Lines that tell a length -/

/-- The character is the given small letter or the capital letter of it. -/
def InEitherCase (c letter : Char) : Prop := c = letter ∨ c = letter.toUpper

/-- `content-length` in any mixture of small and capital letters, with white space around it. -/
def NamesLength (name : List Char) : Prop :=
  ∃ field, Padded field name ∧ List.Forall₂ InEitherCase field "content-length".toList

/-- Decimal digits of a number, a plus sign in front of them or not, with white space around
them. -/
def SpellsNumber (value : List Char) (n : Nat) : Prop :=
  ∃ sign digits, Padded (sign ++ digits) value ∧ (sign = [] ∨ sign = ['+']) ∧ digits ≠ [] ∧
    (∀ c ∈ digits, c.isDigit = true) ∧ Nat.ofDigitChars 10 digits 0 = n

/-- A line that tells a length: its first colon stands between the name of the field and a number of
64 bits. -/
def TellsLength (line : List Char) (n : Nat) : Prop :=
  ∃ name value, line = name ++ ':' :: value ∧ ':' ∉ name ∧ NamesLength name ∧
    SpellsNumber value n ∧ n < UInt64.size

/-- A character is the small letter that it is mapped to, or the capital letter of that. -/
theorem inEitherCase_toLower (c : Char) : InEitherCase c c.toLower := by
  by_cases hc : c.toNat < 0x80
  · have hall : ∀ n < 0x80, Char.ofNat n = (Char.ofNat n).toLower ∨
        Char.ofNat n = (Char.ofNat n).toLower.toUpper := by decide
    have h := hall c.toNat hc
    rwa [Char.ofNat_toNat] at h
  · refine Or.inl (Eq.symm (dif_neg ?_))
    rintro ⟨-, hhigh⟩
    have hhigh : c.toNat ≤ 90 := hhigh
    omega

/-- Mapping to small letters takes a letter in either case to the letter. -/
theorem map_toLower_eq_iff {cs word : List Char}
    (hword : ∀ d ∈ word, d.toLower = d ∧ d.toUpper.toLower = d) :
    cs.map Char.toLower = word ↔ List.Forall₂ InEitherCase cs word := by
  constructor
  · rintro rfl
    rw [List.forall₂_map_right_iff, List.forall₂_same]
    exact fun c _ => inEitherCase_toLower c
  · intro h
    induction h with
    | nil => rfl
    | cons hc _ ih =>
      rw [List.forall_mem_cons] at hword
      rw [List.map_cons, ih hword.2]
      rcases hc with rfl | rfl
      · rw [hword.1.1]
      · rw [hword.1.2]

/-- The name of the field holds no white space, in whichever case it is written. -/
theorem isSpace_of_mem_field {field : List Char}
    (h : field.map Char.toLower = "content-length".toList) : ∀ c ∈ field, isSpace c = false := by
  have hall : ∀ d ∈ "content-length".toList, isSpace d = false ∧ isSpace d.toUpper = false :=
    List.all_iff_forall_prop.mp (by decide)
  intro c hc
  have hletter := hall c.toLower (h ▸ List.mem_map_of_mem hc)
  rcases inEitherCase_toLower c with hcase | hcase
  · rw [hcase]
    exact hletter.1
  · rw [hcase]
    exact hletter.2

theorem namesLength_iff {name : List Char} :
    (trim name).map Char.toLower = "content-length".toList ↔ NamesLength name := by
  have hcase {field : List Char} : field.map Char.toLower = "content-length".toList ↔
      List.Forall₂ InEitherCase field "content-length".toList :=
    map_toLower_eq_iff (List.all_iff_forall_prop.mp (by decide))
  constructor
  · intro h
    exact ⟨trim name, (trim_eq_iff (isSpace_of_mem_field h)).mp rfl, hcase.mp h⟩
  · rintro ⟨field, hpadded, hfield⟩
    have hlower := hcase.mpr hfield
    rwa [(trim_eq_iff (isSpace_of_mem_field hlower)).mpr hpadded]

/-- A length is a sign or none, and digits. -/
theorem length?_eq_some_iff {cs : List Char} {n : Nat} :
    length? cs = some n ↔ n < lengthLimit ∧ ∃ sign digits, cs = sign ++ digits ∧
      (sign = [] ∨ sign = ['+']) ∧ digits ≠ [] ∧ (∀ c ∈ digits, c.isDigit = true) ∧
      Nat.ofDigitChars 10 digits 0 = n := by
  rw [length?]
  constructor
  · intro h
    obtain ⟨hne, h⟩ := Option.ite_none_left_eq_some.mp h
    obtain ⟨hnumber, hlimit⟩ := Option.filter_eq_some_iff.mp h
    obtain ⟨hdigits, hn⟩ := Digits.number?_eq_some_iff.mp hnumber
    refine ⟨of_decide_eq_true hlimit, ?_⟩
    by_cases hplus : cs.head? = some '+'
    · rw [if_pos hplus] at hne hdigits hn
      obtain ⟨digits, rfl⟩ := List.head?_eq_some_iff.mp hplus
      exact ⟨['+'], digits, rfl, Or.inr rfl, hne, hdigits, hn⟩
    · rw [if_neg hplus] at hne hdigits hn
      exact ⟨[], cs, rfl, Or.inl rfl, hne, hdigits, hn⟩
  · rintro ⟨hlimit, sign, digits, rfl, hsign, hne, hdigits, rfl⟩
    have hcore : (if (sign ++ digits).head? = some '+' then (sign ++ digits).tail
        else sign ++ digits) = digits := by
      rcases hsign with rfl | rfl
      · refine if_neg fun hplus => ?_
        exact absurd (hdigits '+' (List.mem_of_mem_head? hplus)) (by decide)
      · rfl
    rw [hcore, if_neg hne, Digits.number?_eq_some_iff.mpr ⟨hdigits, rfl⟩, Option.filter_some,
      if_pos (decide_eq_true hlimit)]

theorem spellsNumber_iff {value : List Char} {n : Nat} :
    length? (trim value) = some n ↔ SpellsNumber value n ∧ n < UInt64.size := by
  have hspace {sign digits : List Char} (hsign : sign = [] ∨ sign = ['+'])
      (hdigits : ∀ c ∈ digits, c.isDigit = true) : ∀ c ∈ sign ++ digits, isSpace c = false := by
    intro c hc
    rcases List.mem_append.mp hc with hc | hc
    · rcases hsign with rfl | rfl
      · exact absurd hc List.not_mem_nil
      · rw [List.mem_singleton.mp hc]
        decide
    · exact isSpace_of_isDigit (hdigits c hc)
  rw [length?_eq_some_iff]
  constructor
  · rintro ⟨hlimit, sign, digits, htrim, hsign, hne, hdigits, hn⟩
    have hpadded := (trim_eq_iff (hspace hsign hdigits)).mp htrim
    exact ⟨⟨sign, digits, hpadded, hsign, hne, hdigits, hn⟩, hlimit⟩
  · rintro ⟨⟨sign, digits, hpadded, hsign, hne, hdigits, hn⟩, hlimit⟩
    have htrim := (trim_eq_iff (hspace hsign hdigits)).mpr hpadded
    exact ⟨hlimit, sign, digits, htrim, hsign, hne, hdigits, hn⟩

theorem contentLength?_of_notMem {line : List Char} (h : ':' ∉ line) :
    contentLength? line = none := by
  rw [contentLength?, span_ne_of_notMem h]

/-- The first colon of a line divides it. -/
theorem contentLength?_append {name : List Char} (h : ':' ∉ name) (value : List Char) :
    contentLength? (name ++ ':' :: value) =
      if (trim name).map Char.toLower = "content-length".toList then length? (trim value)
      else none := by
  rw [contentLength?, span_ne_append h]

/-- **A length is found exactly in the lines that tell one.** -/
theorem contentLength?_eq_some_iff {line : List Char} {n : Nat} :
    contentLength? line = some n ↔ TellsLength line n := by
  constructor
  · intro h
    by_cases hcolon : ':' ∈ line
    · obtain ⟨name, value, rfl, hname⟩ := List.eq_append_cons_of_mem hcolon
      rw [contentLength?_append hname] at h
      obtain ⟨hfield, hlength⟩ := Option.ite_none_right_eq_some.mp h
      obtain ⟨hnumber, hlimit⟩ := spellsNumber_iff.mp hlength
      exact ⟨name, value, rfl, hname, namesLength_iff.mp hfield, hnumber, hlimit⟩
    · rw [contentLength?_of_notMem hcolon] at h
      exact absurd h nofun
  · rintro ⟨name, value, rfl, hname, hfield, hnumber, hlimit⟩
    rw [contentLength?_append hname, if_pos (namesLength_iff.mpr hfield)]
    exact spellsNumber_iff.mpr ⟨hnumber, hlimit⟩

/-! ## One line -/

/-- How a line ends. -/
inductive LineEnd where
  | feed
  | returnFeed
deriving DecidableEq, Repr

/-- What stands in front of the line feed of a line end. -/
def LineEnd.text : LineEnd → String
  | .feed => ""
  | .returnFeed => "\r"

/-- A line of a header, as somebody sends it. -/
structure HeaderLine where
  text : String
  ending : LineEnd
deriving DecidableEq, Repr

namespace HeaderLine

/-- The bytes of a line, with its end. -/
def bytes (line : HeaderLine) : Bytes := Utf8.encode (line.text ++ line.ending.text) ++ [0x0a]

/-- The length that a line tells. -/
def length? (line : HeaderLine) : Option Nat := contentLength? (trimEnd line.text.toList)

/-- A line of white space. -/
def IsBlank (line : HeaderLine) : Prop := ∀ c ∈ line.text.toList, isSpace c = true

instance (line : HeaderLine) : Decidable line.IsBlank :=
  decidable_of_iff (line.text.toList.all isSpace = true) List.all_eq_true

end HeaderLine

/-- The end of a line is trimmed off together with its white space. -/
theorem headerLine_eq (length : Option Nat) (line : HeaderLine) :
    headerLine length line.bytes =
      if line.IsBlank then
        match length with
        | some n => .body n
        | none => .more none
      else .more (line.length? <|> length) := by
  have hdecode : Utf8.decode? line.bytes = some (line.text ++ line.ending.text ++ "\n") := by
    rw [Utf8.decode?_eq_some_iff, Utf8.encode_append, encode_newline]
    rfl
  have hgap : ∀ c ∈ line.ending.text.toList ++ "\n".toList, isSpace c = true := by
    refine List.all_eq_true.mp ?_
    cases line.ending <;> decide
  have htrim : trimEnd (line.text ++ line.ending.text ++ "\n").toList = trimEnd line.text.toList := by
    rw [String.toList_append, String.toList_append, List.append_assoc]
    exact trimEnd_append_space hgap _
  unfold headerLine
  rw [hdecode]
  dsimp only
  rw [htrim]
  exact if_congr trimEnd_eq_nil_iff rfl rfl

/-- A blank line tells no length. -/
theorem length?_of_isBlank {line : HeaderLine} (h : line.IsBlank) : line.length? = none := by
  rw [HeaderLine.length?, trimEnd_eq_nil_iff.mpr h]
  rfl

/-- **A line does not end the header unless it is blank and a length has been told**; if it tells a
length, that counts from now on, and if not, nothing changes. -/
theorem headerLine_bytes {length : Option Nat} {line : HeaderLine}
    (h : length.isSome = true → ¬line.IsBlank) :
    headerLine length line.bytes = .more (line.length?.or length) := by
  rw [headerLine_eq]
  by_cases hblank : line.IsBlank
  · cases length with
    | none =>
      rw [if_pos hblank, length?_of_isBlank hblank]
      rfl
    | some n => exact absurd hblank (h rfl)
  · rw [if_neg hblank]
    cases line.length? <;> rfl

theorem readHeader_bytes {length : Option Nat} {line : HeaderLine}
    (hline : '\n' ∉ line.text.toList) (rest : Bytes) :
    readHeader length (line.bytes ++ rest) = (headerLine length line.bytes).resume rest := by
  have hfeed : '\n' ∉ (line.text ++ line.ending.text).toList := by
    rw [String.toList_append, List.mem_append]
    rintro (h | h)
    · exact hline h
    · revert h
      cases line.ending <;> decide
  rw [HeaderLine.bytes, List.append_assoc]
  exact readHeader_line (Utf8.newline_notMem_encode hfeed) length rest

/-! ## The whole header -/

/-- The last length that is told: by the lines, or before them. -/
def lastLength (length : Option Nat) (lines : List HeaderLine) : Option Nat :=
  (lines.filterMap HeaderLine.length?).getLast?.or length

theorem lastLength_cons (length : Option Nat) (line : HeaderLine) (lines : List HeaderLine) :
    lastLength length (line :: lines) = lastLength (line.length?.or length) lines := by
  rw [lastLength, lastLength]
  cases htold : line.length? with
  | none => rw [List.filterMap_cons_none htold, Option.none_or]
  | some n =>
    rw [List.filterMap_cons_some htold, List.getLast?_cons, Option.some_or]
    cases (lines.filterMap HeaderLine.length?).getLast? <;> rfl

/-- **Lines are read as the last length that they tell**, as long as no blank line comes behind a
length.  The induction is on the lines; `length` is what has been told before them. -/
theorem readHeader_lines {lines : List HeaderLine} {length : Option Nat}
    (hlines : ∀ line ∈ lines, '\n' ∉ line.text.toList)
    (hopen : length.isSome = true → ∀ line ∈ lines, ¬line.IsBlank)
    (hlater : lines.Pairwise fun line later => line.length?.isSome = true → ¬later.IsBlank)
    (rest : Bytes) :
    readHeader length (lines.flatMap HeaderLine.bytes ++ rest) =
      readHeader (lastLength length lines) rest := by
  induction lines generalizing length with
  | nil => rfl
  | cons line lines ih =>
    rw [List.forall_mem_cons] at hlines
    rw [List.pairwise_cons] at hlater
    have hfirst : length.isSome = true → ¬line.IsBlank :=
      fun hsome => hopen hsome line List.mem_cons_self
    have hrest : (line.length?.or length).isSome = true → ∀ later ∈ lines, ¬later.IsBlank := by
      intro hsome later hmem
      rw [Option.isSome_or, Bool.or_eq_true] at hsome
      rcases hsome with htold | htold
      · exact hlater.1 later hmem htold
      · exact hopen htold later (List.mem_cons_of_mem line hmem)
    rw [List.flatMap_cons, List.append_assoc, readHeader_bytes hlines.1, headerLine_bytes hfirst,
      lastLength_cons]
    exact ih hlines.2 hrest hlater.2

/-- Lines that can stand in front of a body of `n` bytes. -/
structure IsHeader (lines : List HeaderLine) (n : Nat) : Prop where
  /-- No line holds a line feed. -/
  whole : ∀ line ∈ lines, '\n' ∉ line.text.toList
  /-- There is a line that tells a length, and the last of them tells `n`. -/
  told : (lines.filterMap HeaderLine.length?).getLast? = some n
  /-- Behind a line that tells a length there is no blank line. -/
  unbroken : lines.Pairwise fun line later => line.length?.isSome = true → ¬later.IsBlank

/-- The bytes of a header and of the blank line that ends it. -/
def headerBytes (lines : List HeaderLine) (blank : String) : Bytes :=
  lines.flatMap HeaderLine.bytes ++ HeaderLine.bytes ⟨blank, .feed⟩

theorem takeBody_append (body rest : Bytes) :
    takeBody body.length (body ++ rest) = .frame body rest := by
  have hsize : ¬(body ++ rest).length < body.length := by
    rw [List.length_append]
    omega
  rw [takeBody, if_neg hsize, List.take_left, List.drop_left]

/-- A header, the blank line behind it and the body are read, and exactly the rest is left. -/
theorem IsHeader.next_eq {lines : List HeaderLine} {body : Bytes} {blank : String}
    (hheader : IsHeader lines body.length) (hblank : ∀ c ∈ blank.toList, isSpace c = true)
    (hline : '\n' ∉ blank.toList) (rest : Bytes) :
    next (headerBytes lines blank ++ (body ++ rest)) = .frame body rest := by
  have hend : headerLine (some body.length) (HeaderLine.bytes ⟨blank, .feed⟩) = .body body.length := by
    rw [headerLine_eq]
    exact if_pos hblank
  have hstart : (none : Option Nat).isSome = true → ∀ line ∈ lines, ¬line.IsBlank :=
    fun h => absurd h Bool.false_ne_true
  rw [next, headerBytes, List.append_assoc,
    readHeader_lines hheader.whole hstart hheader.unbroken, lastLength, hheader.told,
    Option.some_or, readHeader_bytes hline, hend]
  exact takeBody_append body rest

/-- Lines that tell nothing can be left out. -/
theorem IsHeader.filter {lines : List HeaderLine} {n : Nat} (h : IsHeader lines n) :
    IsHeader (lines.filter fun line => line.length?.isSome) n where
  whole := fun line hmem => h.whole line (List.mem_filter.mp hmem).1
  told := by
    rw [← h.told, List.filterMap_filter]
    congr 2
    funext line
    cases line.length? <;> rfl
  unbroken := h.unbroken.sublist List.filter_sublist

/-- One frame is taken off an input. -/
structure TakesFrame (input body rest : Bytes) : Prop where
  /-- The body is read, and exactly the rest is left. -/
  next_eq : next input = .frame body rest
  /-- A body that is a text is handed on as that text. -/
  handed_on : ∀ text, Utf8.encode text = body →
    (readAll input).messages = text :: (readAll rest).messages
  /-- A body that is no text is dropped. -/
  dropped : (∀ text, Utf8.encode text ≠ body) → (readAll input).messages = (readAll rest).messages
  /-- All that comes behind is read as if nothing had stood in front of it. -/
  stop_eq : (readAll input).stop = (readAll rest).stop

theorem takesFrame_of_next {input body rest : Bytes} (h : next input = .frame body rest) :
    TakesFrame input body rest := by
  have hread : readAll input = ⟨body :: (readAll rest).bodies, (readAll rest).stop⟩ := by
    rw [readAll_eq, h]
  refine ⟨h, ?_, ?_, by rw [hread]⟩
  · intro text htext
    rw [hread, Delivery.messages, List.filterMap_cons_some (Utf8.decode?_eq_some_iff.mpr htext)]
    rfl
  · intro hnone
    have hdecode : Utf8.decode? body = none := by
      refine Option.eq_none_iff_forall_ne_some.mpr fun text htext => ?_
      exact hnone text (Utf8.decode?_eq_some_iff.mp htext)
    rw [hread, Delivery.messages, List.filterMap_cons_none hdecode]
    rfl

/-- **A header of any shape is read, and exactly one frame is taken off the input.**  A length is
found in a line exactly if the line tells it.  Behind lines of which the last one that tells a
length tells that of the body, and a blank line, the body is taken, handed on if it is a text, and
nothing of what follows is touched.  Lines that tell no length could as well be missing. -/
theorem header_takes_one_frame {lines : List HeaderLine} {body : Bytes} {blank : String}
    (hheader : IsHeader lines body.length)
    (hblank : ∀ c ∈ blank.toList, isSpace c = true ∧ c ≠ '\n') (rest : Bytes) :
    (∀ line n, contentLength? line = some n ↔ TellsLength line n) ∧
      TakesFrame (headerBytes lines blank ++ (body ++ rest)) body rest ∧
      next (headerBytes (lines.filter fun line => line.length?.isSome) blank ++ (body ++ rest)) =
        next (headerBytes lines blank ++ (body ++ rest)) := by
  have hspace : ∀ c ∈ blank.toList, isSpace c = true := fun c hc => (hblank c hc).1
  have hline : '\n' ∉ blank.toList := fun hmem => (hblank _ hmem).2 rfl
  have hnext := hheader.next_eq hspace hline rest
  refine ⟨fun _ _ => contentLength?_eq_some_iff, takesFrame_of_next hnext, ?_⟩
  rw [hnext, hheader.filter.next_eq hspace hline rest]

/-- A blank line, a field that is not known, a length that is none, a length that is overridden,
and the one that counts. -/
def foreignLines : List HeaderLine :=
  [⟨" ", .returnFeed⟩, ⟨"Content-Type: utf-8", .feed⟩, ⟨"Content-Length: -1", .returnFeed⟩,
    ⟨"content-length:7", .feed⟩, ⟨"CONTENT-length\t: +02 ", .returnFeed⟩]

/-- The body looks like a blank line, and what follows looks like a header. -/
theorem foreign_header_takes_one_frame :
    IsHeader foreignLines [0x0d, 0x0a].length ∧
      (∀ c ∈ " \r".toList, isSpace c = true ∧ c ≠ '\n') ∧
      TakesFrame (headerBytes foreignLines " \r" ++ ([0x0d, 0x0a] ++ Utf8.encode "a: b\n"))
        [0x0d, 0x0a] (Utf8.encode "a: b\n") := by
  have hheader : IsHeader foreignLines [0x0d, 0x0a].length :=
    ⟨by decide, by decide, by decide⟩
  have hblank : ∀ c ∈ " \r".toList, isSpace c = true ∧ c ≠ '\n' :=
    List.all_iff_forall_prop.mp (by decide)
  exact ⟨hheader, hblank, (header_takes_one_frame hheader hblank _).2.1⟩

end Frame

end SymbolRename
