import SymbolRename.Json.Reader
import SymbolRename.Json.Writer
import SymbolRename.Proofs.FrameStream

/-! # JSON text is read back

What the writer writes, the reader reads: `Written.parse_render` gives back every value
of integers, strings, lists and records.  A string is read back character by character
(`Token.readString_escaped`) and an integer digit by digit (`Token.readNumeral_ofInt`);
behind an integer only those characters matter that could prolong it.  Arrays and
objects are read by a machine with a stack.  Where a value is due, reading its text
puts it on the stack and does nothing else (`ReadsBack`), and this is what an array or
object hands on from its members to itself.
-/
namespace SymbolRename

namespace Digits

/-- Only the number zero is written with a zero in front. -/
theorem eq_zero_of_head?_toDigits (n : Nat) (h : (Nat.toDigits 10 n).head? = some '0') : n = 0 := by
  induction n using Nat.strongRecOn with
  | ind n ih =>
    by_cases hn : n < 10
    · rw [Nat.toDigits_of_lt_base hn] at h
      have hsmall : ∀ k < 10, [k.digitChar].head? = some '0' → k = 0 := by decide
      exact hsmall n hn h
    · have hle : 10 ≤ n := Nat.le_of_not_lt hn
      rw [Nat.toDigits_of_base_le (by decide) hle, List.head?_append,
        Option.or_of_isSome (List.isSome_head?.mpr Nat.toDigits_ne_nil)] at h
      have := ih (n / 10) (by omega) h
      omega

/-- A number begins with a digit. -/
theorem exists_toDigits_eq_cons (n : Nat) :
    ∃ d ds, Nat.toDigits 10 n = d :: ds ∧ d.isDigit = true := by
  obtain ⟨d, ds, h⟩ := List.exists_cons_of_ne_nil (Nat.toDigits_ne_nil (b := 10) (n := n))
  exact ⟨d, ds, h, isDigit_of_mem_toDigits (h ▸ List.mem_cons_self)⟩

/-- The escape of a control character names it. -/
theorem number?_control {n : Nat} (h : n < 0x20) :
    number? 16 ['0', '0', hexLower (n / 16), hexLower (n % 16)] = some n := by
  have hall : ∀ n < 0x20, number? 16 ['0', '0', hexLower (n / 16), hexLower (n % 16)] = some n := by
    decide
  exact hall n h

end Digits

namespace Json

namespace Token

/-! ## Strings -/

/-- A part that spells a character, whatever follows. -/
def Part.Spells (part : Part) (c : Char) : Prop :=
  ∀ parts, joinParts (part :: parts) = (joinParts parts).map (c :: ·)

theorem spells_char (c : Char) : (Part.char c).Spells c := by
  intro parts
  rw [joinParts]

theorem spells_unit {c : Char} (h : c.toNat < 0x20) : (Part.unit c.toNat).Spells c := by
  intro parts
  rw [joinParts.eq_def]
  dsimp only
  rw [if_pos (Or.inl (by omega)), Char.ofNat_toNat]

/-- A character that needs no escape is read as it stands. -/
theorem readString_plain {c : Char} (hquote : c ≠ '"') (hbackslash : c ≠ '\\')
    (hcontrol : ¬c.toNat < 0x20) (cs : List Char) :
    readString (c :: cs) =
      (readString cs).map fun (parts, rest) => (.char c :: parts, rest) := by
  rw [readString.eq_def]
  split
  case h_2 h => cases h; exact absurd rfl hquote
  case h_3 h => cases h; exact absurd rfl hbackslash
  case h_4 h => cases h; exact absurd rfl hbackslash
  case h_1 h => cases h
  case h_5 h =>
    cases h
    rw [if_neg (not_or.mpr ⟨hcontrol, hbackslash⟩)]
    cases readString cs <;> rfl

/-- A short escape is read as the character that it stands for. -/
theorem readString_escape {c d : Char} (hu : d ≠ 'u') (h : escape? d = some c)
    (cs : List Char) :
    readString ('\\' :: d :: cs) =
      (readString cs).map fun (parts, rest) => (.char c :: parts, rest) := by
  rw [readString.eq_def]
  split
  case h_3 heq => cases heq; exact absurd rfl hu
  case h_4 heq =>
    cases heq
    rw [h]
    cases readString cs <;> rfl
  case h_5 hshort heq => cases heq; exact absurd rfl (hshort d cs rfl)
  all_goals rename_i heq; cases heq

/-- A character is read back from what is written for it, as it stands or from an escape. -/
theorem readString_escapeChar (c : Char) (cs : List Char) :
    ∃ part : Part, part.Spells c ∧
      readString (escapeChar c ++ cs) =
        (readString cs).map fun (parts, rest) => (part :: parts, rest) := by
  unfold escapeChar
  split
  case h_8 hquote hbackslash _ _ _ _ _ =>
    by_cases hcontrol : c.toNat < 0x20
    · refine ⟨.unit c.toNat, spells_unit hcontrol, ?_⟩
      rw [if_pos hcontrol]
      simp only [List.cons_append, List.nil_append, readString, Digits.number?_control hcontrol]
      cases readString cs <;> rfl
    · rw [if_neg hcontrol]
      exact ⟨.char c, spells_char c, readString_plain hquote hbackslash hcontrol cs⟩
  all_goals exact ⟨.char _, spells_char _, readString_escape (by decide) rfl cs⟩

/-- A string is read back from what is written for it. -/
theorem readString_escaped (cs rest : List Char) :
    ∃ parts, joinParts parts = some cs ∧
      readString (cs.flatMap escapeChar ++ '"' :: rest) = some (parts, rest) := by
  induction cs with
  | nil => exact ⟨[], by rw [joinParts], by rw [List.flatMap_nil, List.nil_append, readString]⟩
  | cons c cs ih =>
    obtain ⟨parts, hparts, hread⟩ := ih
    obtain ⟨part, hpart, hchar⟩ := readString_escapeChar c (cs.flatMap escapeChar ++ '"' :: rest)
    refine ⟨part :: parts, ?_, ?_⟩
    · rw [hpart, hparts, Option.map_some]
    · rw [List.flatMap_cons, List.append_assoc, hchar, hread, Option.map_some]

/-- A quoted string is the token of its text. -/
theorem next?_quote (s : String) (rest : List Char) :
    next? ((quote s).toList ++ rest) = some (.text (some s), rest) := by
  obtain ⟨parts, hparts, hread⟩ := readString_escaped s.toList rest
  rw [quote, String.toList_ofList, List.cons_append, List.cons_append, List.append_assoc,
    List.singleton_append, next?, hread, Option.map_some]
  dsimp only
  rw [hparts, Option.map_some, String.ofList_toList]

/-! ## Integers -/

/-- Behind a number stands nothing that could belong to it. -/
def EndsNumber (rest : List Char) : Prop :=
  ∀ c ∈ rest.head?, c.isDigit = false ∧ c ≠ '.' ∧ c ≠ 'e' ∧ c ≠ 'E'

theorem endsNumber_nil : EndsNumber [] := by
  intro c hc
  cases hc

theorem splitDigits_append {digits rest : List Char} (hdigits : ∀ c ∈ digits, c.isDigit = true)
    (hrest : EndsNumber rest) : splitDigits (digits ++ rest) = (digits, rest) := by
  have htake : rest.takeWhile Char.isDigit = [] ∧ rest.dropWhile Char.isDigit = rest := by
    cases rest with
    | nil => exact ⟨rfl, rfl⟩
    | cons c rest =>
      have hc : ¬c.isDigit = true := by
        rw [(hrest c rfl).1]
        exact Bool.false_ne_true
      exact ⟨List.takeWhile_cons_of_neg hc, List.dropWhile_cons_of_neg hc⟩
  rw [splitDigits, List.takeWhile_append_of_pos hdigits, List.dropWhile_append_of_pos hdigits,
    htake.1, htake.2, List.append_nil]

theorem readFraction_of_endsNumber {rest : List Char} (h : EndsNumber rest) :
    readFraction rest = some ([], rest) := by
  unfold readFraction
  split
  · exact absurd rfl (h '.' rfl).2.1
  · rfl

theorem readExponent_of_endsNumber {rest : List Char} (h : EndsNumber rest) :
    readExponent rest = some (none, rest) := by
  unfold readExponent
  split
  · exact absurd rfl (h 'e' rfl).2.2.1
  · exact absurd rfl (h 'E' rfl).2.2.2
  · rfl

theorem digitsValue_toDigits (n : Nat) : digitsValue (Nat.toDigits 10 n) = n :=
  Nat.ofDigitChars_ten_toDigits

/-- A natural number is read back from its digits. -/
theorem readUnsigned_toDigits (negative : Bool) (n : Nat) {rest : List Char}
    (h : EndsNumber rest) :
    readUnsigned negative (Nat.toDigits 10 n ++ rest) = some (⟨negative, n, [], none⟩, rest) := by
  have hdigits : ∀ c ∈ Nat.toDigits 10 n, c.isDigit = true :=
    fun c hc => Digits.isDigit_of_mem_toDigits hc
  have hproper : ¬(Nat.toDigits 10 n = [] ∨
      (1 < (Nat.toDigits 10 n).length ∧ (Nat.toDigits 10 n).head? = some '0')) := by
    rintro (hnil | ⟨hlong, hhead⟩)
    · exact Nat.toDigits_ne_nil hnil
    · obtain rfl := Digits.eq_zero_of_head?_toDigits n hhead
      exact absurd hlong (by decide)
  rw [readUnsigned, splitDigits_append hdigits h]
  dsimp only
  rw [if_neg hproper, readFraction_of_endsNumber h]
  simp only [Option.bind_eq_bind, Option.bind_some, readExponent_of_endsNumber h,
    digitsValue_toDigits, Option.pure_def]

theorem toList_render_ofInt (n : Int) :
    (Numeral.ofInt n).render.toList =
      (if n < 0 then ['-'] else []) ++ Nat.toDigits 10 n.natAbs := by
  rw [Numeral.render, Numeral.ofInt]
  dsimp only
  rw [if_pos rfl, String.append_empty, String.append_empty, String.toList_append,
    Nat.toString_eq_ofList_toDigits, String.toList_ofList]
  by_cases h : n < 0
  · rw [if_pos h, if_pos (decide_eq_true h)]
    rfl
  · rw [if_neg h, if_neg (ne_true_of_eq_false (decide_eq_false h))]
    rfl

/-- An integer begins with a digit or a minus sign. -/
theorem exists_render_ofInt_eq_cons (n : Int) :
    ∃ c cs, (Numeral.ofInt n).render.toList = c :: cs ∧ (c.isDigit = true ∨ c = '-') := by
  rw [toList_render_ofInt]
  by_cases h : n < 0
  · rw [if_pos h]
    exact ⟨'-', _, rfl, Or.inr rfl⟩
  · obtain ⟨d, ds, hds, hd⟩ := Digits.exists_toDigits_eq_cons n.natAbs
    rw [if_neg h, hds]
    exact ⟨d, ds, rfl, Or.inl hd⟩

/-- An integer is read back from what is written for it. -/
theorem readNumeral_ofInt (n : Int) {rest : List Char} (h : EndsNumber rest) :
    readNumeral ((Numeral.ofInt n).render.toList ++ rest) = some (.ofInt n, rest) := by
  rw [toList_render_ofInt]
  by_cases hn : n < 0
  · rw [if_pos hn, List.append_assoc, List.singleton_append, readNumeral,
      readUnsigned_toDigits _ _ h, Numeral.ofInt, decide_eq_true hn]
  · rw [if_neg hn, List.nil_append]
    obtain ⟨d, ds, hds, hd⟩ := Digits.exists_toDigits_eq_cons n.natAbs
    have hminus : d ≠ '-' := by
      rintro rfl
      exact absurd hd (by decide)
    have hread := readUnsigned_toDigits false n.natAbs h
    rw [hds, List.cons_append] at hread
    rw [hds, List.cons_append, readNumeral.eq_def]
    split
    · rename_i heq
      cases heq
      exact absurd rfl hminus
    · rw [hread, Numeral.ofInt, decide_eq_false hn]

theorem next?_numeral {c : Char} (h : c.isDigit = true ∨ c = '-') (cs : List Char) :
    next? (c :: cs) = (readNumeral (c :: cs)).map fun (n, rest) => (.scalar (.number n), rest) := by
  rw [next?.eq_def]
  split
  case h_11 => rfl
  all_goals
    rename_i heq
    cases heq
    exact absurd h (by decide)

/-- An integer is the token of its value. -/
theorem next?_ofInt (n : Int) {rest : List Char} (h : EndsNumber rest) :
    next? ((Json.int n).render.toList ++ rest) = some (.scalar (.int n), rest) := by
  have hread := readNumeral_ofInt n h
  obtain ⟨c, cs, hcs, hc⟩ := exists_render_ofInt_eq_cons n
  rw [Json.int, render]
  rw [hcs, List.cons_append] at hread ⊢
  rw [next?_numeral hc, hread, Option.map_some]

/-! ## Tokens in a row -/

/-- The token that a single character stands for. -/
def symbol? : Char → Option Token
  | '\x7b' => some .openBrace
  | '\x7d' => some .closeBrace
  | '[' => some .openBracket
  | ']' => some .closeBracket
  | ':' => some .colon
  | ',' => some .comma
  | _ => none

theorem next?_symbol {c : Char} {t : Token} (h : symbol? c = some t) (cs : List Char) :
    next? (c :: cs) = some (t, cs) := by
  unfold symbol? at h
  split at h
  case h_7 => cases h
  all_goals
    cases h
    rw [next?]

theorem scan_nil : scan [] = some [] := by rw [scan]

/-- No token begins with a blank. -/
theorem next?_of_isBlank {c : Char} (h : isBlank c = true) (cs : List Char) :
    next? (c :: cs) = none := by
  have hmem : c ∈ [' ', '\t', '\n', '\r'] := List.contains_iff_mem.mp h
  simp only [List.mem_cons, List.not_mem_nil, or_false] at hmem
  rcases hmem with rfl | rfl | rfl | rfl <;> rfl

theorem scan_of_next? {cs rest : List Char} {t : Token} (h : next? cs = some (t, rest)) :
    scan cs = (scan rest).map (t :: ·) := by
  cases cs with
  | nil => cases h
  | cons c cs =>
    -- `scan` looks for a blank first, and a token begins with none.
    have hblank : ¬isBlank c = true := by
      intro hblank
      rw [next?_of_isBlank hblank] at h
      cases h
    rw [scan, if_neg hblank]
    split <;> rename_i heq
    · cases heq.symm.trans h
    · cases heq.symm.trans h
      rfl

end Token

/-! ## The machine -/

namespace Reading

/-- Reads a text from a state on. -/
def run (r : Reading) (cs : List Char) : Option Reading :=
  Token.scan cs >>= fun tokens => tokens.foldlM step r

theorem run_nil (r : Reading) : r.run [] = some r := by
  rw [run, Token.scan_nil]
  rfl

/-- The first token is taken, and then what follows it. -/
theorem run_of_next? (r : Reading) {cs rest : List Char} {t : Token}
    (h : Token.next? cs = some (t, rest)) : r.run cs = (r.step t).bind (run · rest) := by
  rw [run, Token.scan_of_next? h]
  unfold run
  cases Token.scan rest with
  | none => exact (Option.bind_fun_none _).symm
  | some tokens => rfl

/-- A value is due that goes on the stack.  Every token counts as its beginning, but for the end
of an array that may be empty. -/
def Expects (r : Reading) (stack : List Open) : Prop :=
  ∀ t : Token, t ≠ .closeBracket → r.step t = beginValue stack t

theorem expects_needsValue (stack : List Open) : (needsValue stack).Expects stack :=
  fun _ _ => by rw [step]

theorem expects_begunArray (stack : List Open) :
    (begunArray stack).Expects (.items [] :: stack) := by
  intro t ht
  cases t with
  | closeBracket => exact absurd rfl ht
  | _ =>
    rw [step]
    exact ht

/-- The first token of a value that is due. -/
theorem Expects.run_of_next? {r : Reading} {stack : List Open} (hr : r.Expects stack)
    {cs rest : List Char} {t : Token} (h : Token.next? cs = some (t, rest))
    (ht : t ≠ .closeBracket) : r.run cs = (beginValue stack t).bind (run · rest) := by
  rw [r.run_of_next? h, hr t ht]

end Reading

/-- Where a value is due, the text of this one is read as it, whatever follows that does not
prolong it. -/
def ReadsBack (j : Json) : Prop :=
  ∀ ⦃r : Reading⦄ ⦃stack : List Open⦄ ⦃rest : List Char⦄, r.Expects stack →
    Token.EndsNumber rest →
    r.run (j.render.toList ++ rest) = (Reading.close j stack).bind (·.run rest)

theorem readsBack_null : ReadsBack .null := by
  intro r stack rest hr hrest
  have hnext : Token.next? ("null".toList ++ rest) = some (.scalar .null, rest) := rfl
  rw [render, hr.run_of_next? hnext (by simp)]
  rfl

theorem readsBack_bool (b : Bool) : ReadsBack (.bool b) := by
  intro r stack rest hr hrest
  have hnext : Token.next? ((Json.bool b).render.toList ++ rest) =
      some (.scalar (.bool b), rest) := by
    cases b <;> rw [render] <;> rfl
  rw [hr.run_of_next? hnext (by simp)]
  rfl

theorem readsBack_int (n : Int) : ReadsBack (.int n) := by
  intro r stack rest hr hrest
  rw [hr.run_of_next? (Token.next?_ofInt n hrest) (by simp)]
  rfl

theorem readsBack_text (s : String) : ReadsBack (.text s) := by
  intro r stack rest hr hrest
  rw [text, render, Option.getD_some, hr.run_of_next? (Token.next?_quote s rest) (by simp)]
  rfl

/-! ## Arrays and objects -/

theorem toList_intercalate_comma (s : String) (ss : List String) :
    (",".intercalate (s :: ss)).toList = s.toList ++ ss.flatMap fun t => ',' :: t.toList := by
  induction ss generalizing s with
  | nil => rw [String.intercalate_singleton, List.flatMap_nil, List.append_nil]
  | cons t ss ih =>
    rw [String.intercalate_cons_cons, String.toList_append, String.toList_append, ih,
      List.flatMap_cons, List.append_assoc]
    rfl

/-- Behind a member of an array or object stands a comma or the end. -/
theorem endsNumber_members (ss : List String) {c : Char} (hc : c = ']' ∨ c = '\x7d')
    (rest : List Char) : Token.EndsNumber (ss.flatMap (fun t => ',' :: t.toList) ++ c :: rest) := by
  intro d hd
  cases ss with
  | nil =>
    obtain rfl := Option.some.inj hd
    rcases hc with rfl | rfl <;> decide
  | cons s ss =>
    obtain rfl := Option.some.inj hd
    decide

theorem renderItems_eq_map (items : List Json) : renderItems items = items.map render := by
  induction items with
  | nil => rw [renderItems, List.map_nil]
  | cons item items ih => rw [renderItems, List.map_cons, ih]

/-- The rest of an array, from behind one of its items on. -/
theorem run_items {items : List Json} (h : ∀ item ∈ items, ReadsBack item) (done : List Json)
    (stack : List Open) (rest : List Char) :
    (Reading.member (.items done :: stack)).run
        ((items.map render).flatMap (fun t => ',' :: t.toList) ++ ']' :: rest) =
      (Reading.close (.array (done.reverse ++ items)) stack).bind (·.run rest) := by
  induction items generalizing done with
  | nil =>
    rw [List.append_nil, List.map_nil, List.flatMap_nil, List.nil_append,
      Reading.run_of_next? _ (Token.next?_symbol (c := ']') rfl rest)]
    rfl
  | cons item items ih =>
    -- The comma makes a value due, and reading it puts it in front of `done`.
    rw [List.map_cons, List.flatMap_cons, List.append_assoc, List.cons_append,
      Reading.run_of_next? _ (Token.next?_symbol (c := ',') rfl _)]
    refine (h item List.mem_cons_self (Reading.expects_needsValue _)
      (endsNumber_members _ (Or.inl rfl) rest)).trans ?_
    have hitems := ih (fun i hi => h i (List.mem_cons_of_mem item hi)) (item :: done)
    rw [List.reverse_cons, List.append_assoc] at hitems
    exact hitems

theorem readsBack_array {items : List Json} (h : ∀ item ∈ items, ReadsBack item) :
    ReadsBack (.array items) := by
  intro r stack rest hr hrest
  have htext : (Json.array items).render.toList ++ rest =
      '[' :: ((",".intercalate (items.map render)).toList ++ ']' :: rest) := by
    rw [render, renderItems_eq_map, String.toList_append, String.toList_append, List.append_assoc,
      List.append_assoc]
    rfl
  rw [htext, hr.run_of_next? (Token.next?_symbol (c := '[') rfl _) (by simp)]
  cases items with
  | nil => exact Reading.run_of_next? _ (Token.next?_symbol (c := ']') rfl rest)
  | cons item items =>
    -- The first item has no comma before it, and an end could have come in its place.
    rw [List.map_cons, toList_intercalate_comma, List.append_assoc]
    refine (h item List.mem_cons_self (Reading.expects_begunArray stack)
      (endsNumber_members _ (Or.inl rfl) rest)).trans ?_
    exact run_items (fun i hi => h i (List.mem_cons_of_mem item hi)) [item] stack rest

/-- The text of a field. -/
def fieldText (field : String × Json) : String := quote field.1 ++ ":" ++ render field.2

theorem renderFields_eq_map (fields : List (String × Json)) :
    renderFields (fields.map fun (key, value) => (some key, value)) = fields.map fieldText := by
  induction fields with
  | nil => rw [List.map_nil, renderFields, List.map_nil]
  | cons field fields ih =>
    rw [List.map_cons, renderFields, List.map_cons, ih]
    rfl

/-- A field is read where a key is due. -/
theorem run_field {field : String × Json} (h : ReadsBack field.2) {r : Reading}
    {stack : List Open} {done : List (Option String × Json)}
    (hr : r.step (.text (some field.1)) = some (.needsColon (.value done (some field.1) :: stack)))
    {rest : List Char} (hrest : Token.EndsNumber rest) :
    r.run ((fieldText field).toList ++ rest) =
      (Reading.member (.fields ((some field.1, field.2) :: done) :: stack)).run rest := by
  rw [fieldText, String.toList_append, String.toList_append, List.append_assoc, List.append_assoc,
    r.run_of_next? (Token.next?_quote _ _), hr, Option.bind_some]
  refine (Reading.run_of_next? _ (Token.next?_symbol (c := ':') rfl _)).trans ?_
  exact h (Reading.expects_needsValue _) hrest

/-- The rest of an object, from behind one of its fields on. -/
theorem run_fields {fields : List (String × Json)} (h : ∀ field ∈ fields, ReadsBack field.2)
    (done : List (Option String × Json)) (stack : List Open) (rest : List Char) :
    (Reading.member (.fields done :: stack)).run
        ((fields.map fieldText).flatMap (fun t => ',' :: t.toList) ++ '\x7d' :: rest) =
      (Reading.close (.object (done.reverse ++ fields.map fun (key, value) => (some key, value)))
        stack).bind (·.run rest) := by
  induction fields generalizing done with
  | nil =>
    rw [List.map_nil, List.map_nil, List.append_nil, List.flatMap_nil, List.nil_append,
      Reading.run_of_next? _ (Token.next?_symbol (c := '\x7d') rfl rest)]
    rfl
  | cons field fields ih =>
    rw [List.map_cons, List.flatMap_cons, List.append_assoc, List.cons_append,
      Reading.run_of_next? _ (Token.next?_symbol (c := ',') rfl _)]
    refine (run_field (h field List.mem_cons_self) rfl
      (endsNumber_members _ (Or.inr rfl) rest)).trans ?_
    have hfields := ih (fun f hf => h f (List.mem_cons_of_mem field hf))
      ((some field.1, field.2) :: done)
    rw [List.reverse_cons, List.append_assoc] at hfields
    exact hfields

theorem readsBack_record {fields : List (String × Json)}
    (h : ∀ field ∈ fields, ReadsBack field.2) : ReadsBack (.record fields) := by
  intro r stack rest hr hrest
  have htext : (Json.record fields).render.toList ++ rest =
      '\x7b' :: ((",".intercalate (fields.map fieldText)).toList ++ '\x7d' :: rest) := by
    rw [record, render, renderFields_eq_map, String.toList_append, String.toList_append,
      List.append_assoc, List.append_assoc]
    rfl
  rw [htext, hr.run_of_next? (Token.next?_symbol (c := '\x7b') rfl _) (by simp)]
  cases fields with
  | nil => exact Reading.run_of_next? _ (Token.next?_symbol (c := '\x7d') rfl rest)
  | cons field fields =>
    rw [List.map_cons, toList_intercalate_comma, List.append_assoc]
    refine (run_field (h field List.mem_cons_self) rfl
      (endsNumber_members _ (Or.inr rfl) rest)).trans ?_
    exact run_fields (fun f hf => h f (List.mem_cons_of_mem field hf)) _ stack rest

/-! ## Whole values -/

/-- Values of integers, strings, lists and records: no other number is ever written. -/
inductive Written : Json → Prop where
  | null : Written .null
  | bool (b : Bool) : Written (.bool b)
  | int (n : Int) : Written (.int n)
  | text (s : String) : Written (.text s)
  | array {items : List Json} (h : ∀ item ∈ items, Written item) : Written (.array items)
  | record {fields : List (String × Json)} (h : ∀ field ∈ fields, Written field.2) :
      Written (.record fields)

attribute [simp] Written.null Written.bool Written.int Written.text

@[simp] theorem written_array_iff {items : List Json} :
    Written (.array items) ↔ ∀ item ∈ items, Written item := by
  refine ⟨fun h => ?_, .array⟩
  cases h with
  | array h => exact h

theorem record_injective {fields fields' : List (String × Json)}
    (h : record fields = record fields') : fields = fields' := by
  injection h with h
  refine (List.map_inj_right ?_).mp h
  rintro ⟨key, value⟩ ⟨key', value'⟩ heq
  injection heq with hkey hvalue
  rw [Option.some.inj hkey, hvalue]

@[simp] theorem written_record_iff {fields : List (String × Json)} :
    Written (.record fields) ↔ ∀ field ∈ fields, Written field.2 := by
  refine ⟨fun h => ?_, .record⟩
  generalize hj : record fields = j at h
  cases h with
  | record h =>
    obtain rfl := record_injective hj
    exact h
  | _ => cases hj

theorem Written.readsBack {j : Json} (h : Written j) : ReadsBack j := by
  induction h with
  | null => exact readsBack_null
  | bool b => exact readsBack_bool b
  | int n => exact readsBack_int n
  | text s => exact readsBack_text s
  | array _ ih => exact readsBack_array ih
  | record _ ih => exact readsBack_record ih

theorem parse_eq_run (s : String) :
    parse s =
      match (Reading.needsValue []).run s.toList with
      | some (.finished value) => some value
      | _ => none := by
  rw [parse, Reading.run]
  cases Token.scan s.toList with
  | none => rfl
  | some tokens => rfl

/-- **What is written is read back.** -/
theorem Written.parse_render {j : Json} (h : Written j) : parse j.render = some j := by
  have hread : (Reading.needsValue []).run (j.render.toList ++ []) = some (.finished j) := by
    rw [h.readsBack (Reading.expects_needsValue []) Token.endsNumber_nil, Reading.close,
      Option.bind_some, Reading.run_nil]
  rw [List.append_nil] at hread
  rw [parse_eq_run, hread]

end Json

end SymbolRename
