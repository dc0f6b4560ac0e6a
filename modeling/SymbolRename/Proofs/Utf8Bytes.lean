import SymbolRename.Utf8

/-! # Texts and their bytes

`Utf8.decode?` is the exact inverse of `Utf8.encode` (`decode?_eq_some_iff`): bytes spell
a text exactly if they are the bytes of that text.  Encoding goes character by
character (`encode_append`), and a character below 0x80 is a byte of its own.  So the
bytes of a plain text are easy to tell apart (`mem_encode_of_ascii`), bytes below 0x80
always spell a text (`exists_encode_of_ascii`), and the byte of a line feed stands for
nothing else (`newline_notMem_encode`).
-/
namespace SymbolRename

namespace Utf8

/-! ## Bytes as a list -/

theorem toList_loop_eq (bytes : ByteArray) (i : Nat) (front : Bytes) :
    ByteArray.toList.loop bytes i front = front.reverse ++ bytes.data.toList.drop i := by
  fun_induction ByteArray.toList.loop bytes i front with
  | case1 i front hi ih =>
    have hlt : i < bytes.data.toList.length := hi
    have hget : bytes.get! i = bytes.data.toList[i] := getElem!_pos bytes.data i hi
    rw [ih, List.drop_eq_getElem_cons hlt, List.reverse_cons, List.append_assoc, hget]
    rfl
  | case2 i front hi =>
    have hle : bytes.data.toList.length ≤ i := Nat.le_of_not_lt hi
    rw [List.drop_eq_nil_of_le hle, List.append_nil]

theorem toList_eq_data (bytes : ByteArray) : bytes.toList = bytes.data.toList :=
  toList_loop_eq bytes 0 []

theorem toList_toByteArray (bytes : Bytes) : bytes.toByteArray.toList = bytes := by
  rw [toList_eq_data, List.data_toByteArray]

theorem toByteArray_toList (bytes : ByteArray) : bytes.toList.toByteArray = bytes := by
  refine ByteArray.ext ?_
  rw [toList_eq_data, List.data_toByteArray, Array.toArray_toList]

/-! ## Encoding and decoding -/

/-- **Bytes spell a text exactly if they are its bytes.** -/
theorem decode?_eq_some_iff {bytes : Bytes} {text : String} :
    decode? bytes = some text ↔ encode text = bytes := by
  rw [decode?, String.fromUTF8?, encode, String.toUTF8_eq_toByteArray]
  constructor
  · intro h
    obtain ⟨hvalid, h⟩ := Option.dite_none_right_eq_some.mp h
    rw [← Option.some.inj h]
    exact toList_toByteArray bytes
  · rintro rfl
    rw [toByteArray_toList, dif_pos text.isValidUTF8]
    rfl

/-- The bytes of a text are those of its characters. -/
theorem encode_eq_flatMap (text : String) :
    encode text = text.toList.flatMap String.utf8EncodeChar := by
  obtain ⟨cs, rfl⟩ : ∃ cs, text = String.ofList cs := ⟨text.toList, String.ofList_toList.symm⟩
  rw [encode, String.toUTF8_eq_toByteArray, String.toByteArray_ofList, String.toList_ofList]
  exact toList_toByteArray _

theorem encode_append (a b : String) : encode (a ++ b) = encode a ++ encode b := by
  rw [encode_eq_flatMap, encode_eq_flatMap, encode_eq_flatMap, String.toList_append,
    List.flatMap_append]

/-! ## Plain characters -/

theorem utf8EncodeChar_of_ascii {c : Char} (h : c.toNat < 0x80) :
    String.utf8EncodeChar c = [UInt8.ofNat c.toNat] := by
  rw [String.utf8EncodeChar]
  exact if_pos (Nat.le_of_lt_succ h)

/-- Every byte of a plain text is one of its characters. -/
theorem mem_encode_of_ascii {text : String} (h : ∀ c ∈ text.toList, c.toNat < 0x80) {b : UInt8}
    (hb : b ∈ encode text) : ∃ c ∈ text.toList, b = UInt8.ofNat c.toNat := by
  rw [encode_eq_flatMap, List.mem_flatMap] at hb
  obtain ⟨c, hc, hb⟩ := hb
  rw [utf8EncodeChar_of_ascii (h c hc)] at hb
  exact ⟨c, hc, List.mem_singleton.mp hb⟩

/-- Characters beyond 0x80 consist of bytes beyond 0x80. -/
theorem high_of_mem_utf8EncodeChar {c : Char} (hc : 0x80 ≤ c.toNat) {b : UInt8}
    (hb : b ∈ String.utf8EncodeChar c) : 0x80 ≤ b.toNat := by
  have hplain : ¬c.val.toNat ≤ 127 := Nat.not_le.mpr hc
  rw [String.utf8EncodeChar] at hb
  simp only [hplain, if_false] at hb
  split at hb
  · simp only [List.mem_cons, List.not_mem_nil, or_false] at hb
    rcases hb with rfl | rfl <;> rw [UInt8.toNat_ofNat'] <;> omega
  · split at hb
    · simp only [List.mem_cons, List.not_mem_nil, or_false] at hb
      rcases hb with rfl | rfl | rfl <;> rw [UInt8.toNat_ofNat'] <;> omega
    · simp only [List.mem_cons, List.not_mem_nil, or_false] at hb
      rcases hb with rfl | rfl | rfl | rfl <;> rw [UInt8.toNat_ofNat'] <;> omega

theorem toNat_ofNat_of_ascii {c : Char} (hc : c.toNat < 0x80) :
    (UInt8.ofNat c.toNat).toNat = c.toNat := by
  rw [UInt8.toNat_ofNat']
  omega

/-- Only a line feed has the byte of a line feed. -/
theorem newline_notMem_encode {text : String} (h : '\n' ∉ text.toList) : 0x0a ∉ encode text := by
  rw [encode_eq_flatMap, List.mem_flatMap]
  rintro ⟨c, hc, hb⟩
  by_cases hascii : c.toNat < 0x80
  · rw [utf8EncodeChar_of_ascii hascii, List.mem_singleton] at hb
    have hfeed : c.toNat = '\n'.toNat := by
      rw [← toNat_ofNat_of_ascii hascii, ← hb]
      rfl
    exact h (Char.toNat_inj.mp hfeed ▸ hc)
  · have hhigh := high_of_mem_utf8EncodeChar (Nat.not_lt.mp hascii) hb
    exact absurd hhigh (by decide)

theorem newline_mem_encode {text : String} (h : '\n' ∈ text.toList) : 0x0a ∈ encode text := by
  rw [encode_eq_flatMap, List.mem_flatMap]
  exact ⟨'\n', h, List.mem_singleton.mpr rfl⟩

/-- Bytes of a text that end with a line feed spell a text in front of it. -/
theorem exists_encode_of_newline {front : Bytes} {text : String}
    (h : encode text = front ++ [0x0a]) : ∃ text', encode text' = front := by
  rcases List.eq_nil_or_concat text.toList with hnil | ⟨init, c, hc⟩
  · rw [encode_eq_flatMap, hnil] at h
    exact absurd h.symm (List.append_ne_nil_of_right_ne_nil _ (List.cons_ne_nil _ _))
  · have hsplit : encode text = encode (String.ofList init) ++ String.utf8EncodeChar c := by
      rw [encode_eq_flatMap, encode_eq_flatMap, hc, String.toList_ofList, List.concat_eq_append,
        List.flatMap_append, List.flatMap_singleton]
    rw [hsplit] at h
    -- The last byte is that of a plain character, which has no other.
    have hascii : c.toNat < 0x80 := by
      refine Nat.not_le.mp fun hhigh => ?_
      have hlast := congrArg List.getLast? h
      rw [List.getLast?_concat, List.getLast?_append,
        Option.or_of_isSome (List.getLast?_isSome.mpr String.utf8EncodeChar_ne_nil)] at hlast
      exact absurd (high_of_mem_utf8EncodeChar hhigh (List.mem_of_getLast? hlast)) (by decide)
    rw [utf8EncodeChar_of_ascii hascii] at h
    exact ⟨String.ofList init, List.append_inj_left' h rfl⟩

/-- Bytes below 0x80 spell a text. -/
theorem exists_encode_of_ascii {bytes : Bytes} (h : ∀ b ∈ bytes, b < 0x80) :
    ∃ text, encode text = bytes := by
  induction bytes with
  | nil => exact ⟨"", by rw [encode_eq_flatMap, String.toList_empty, List.flatMap_nil]⟩
  | cons b bytes ih =>
    obtain ⟨text, rfl⟩ := ih fun b' hb' => h b' (List.mem_cons_of_mem b hb')
    have hb : b.toNat < 0x80 := UInt8.lt_iff_toNat_lt.mp (h b List.mem_cons_self)
    have hvalid : b.toNat.isValidChar := Or.inl (by omega)
    have hchar : (Char.ofNat b.toNat).toNat = b.toNat := by
      rw [Char.ofNat, dif_pos hvalid]
      rfl
    refine ⟨String.singleton (Char.ofNat b.toNat) ++ text, ?_⟩
    rw [encode_append, encode_eq_flatMap, String.toList_singleton, List.flatMap_singleton,
      utf8EncodeChar_of_ascii (hchar.symm ▸ hb), hchar, UInt8.ofNat_toNat]
    rfl

end Utf8

end SymbolRename
