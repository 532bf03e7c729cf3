import DepAtlas.Text.Utf8

/-!
Decoding gives back what was encoded: the bytes of a text hold its characters and no gaps.
-/

namespace DepAtlas

theorem byteArray_loop_eq (bytes : ByteArray) (index : Nat) (read : List UInt8) :
    ByteArray.toList.loop bytes index read = read.reverse ++ bytes.data.toList.drop index := by
  fun_induction ByteArray.toList.loop bytes index read with
  | case1 index read bound ih =>
    have size : index < bytes.data.toList.length := bound
    rw [ih, List.drop_eq_getElem_cons size, List.reverse_cons, List.append_assoc,
      List.singleton_append]
    congr 2
    exact getElem!_pos bytes.data index bound
  | case2 index read above =>
    have size : bytes.data.toList.length ≤ index := Nat.le_of_not_lt above
    rw [List.drop_eq_nil_of_le size, List.append_nil]

namespace Text.Utf8

theorem toList_toUTF8 (text : String) : text.toUTF8.toList = encode text.toList := by
  have bytes : text.toUTF8 = (encode text.toList).toByteArray := by
    rw [String.toUTF8_eq_toByteArray, ← String.utf8Encode_toList]
    rfl
  rw [bytes, ByteArray.toList, byteArray_loop_eq, List.reverse_nil, List.nil_append, List.drop_zero,
    List.toList_data_toByteArray]

theorem decode_of_opening_char {byte : UInt8} {c : Char} (opens : opening byte.toNat = some (.inl c))
    (rest : Bytes) : decode none (byte :: rest) = some c :: decode none rest := by
  simp only [decode, readFirst, opens, List.singleton_append]

theorem decode_of_opening {byte : UInt8} {pending : Open}
    (opens : opening byte.toNat = some (.inr pending)) (rest : Bytes) :
    decode none (byte :: rest) = decode (some pending) rest := by
  simp only [decode, readFirst, opens, List.nil_append]

theorem decode_last {pending : Open} {byte : UInt8} (owed : pending.owed = 1)
    (low : pending.low ≤ byte.toNat) (high : byte.toNat ≤ pending.high) (rest : Bytes) :
    decode (some pending) (byte :: rest) =
      some (Char.ofNat (pending.code * 64 + (byte.toNat - 0x80))) :: decode none rest := by
  simp only [decode, readNext, low, high, owed, and_self, if_true, Nat.le_refl, List.singleton_append]

theorem decode_inner {pending : Open} {byte : UInt8} {owed : Nat} (more : pending.owed = owed + 2)
    (low : pending.low ≤ byte.toNat) (high : byte.toNat ≤ pending.high) (rest : Bytes) :
    decode (some pending) (byte :: rest) =
      decode (some ⟨owed + 1, 0x80, 0xBF, pending.code * 64 + (byte.toNat - 0x80)⟩) rest := by
  have several : ¬ owed + 2 ≤ 1 := by omega
  have less : owed + 2 - 1 = owed + 1 := by omega
  simp only [decode, readNext, low, high, more, and_self, if_true, several, if_false, less,
    List.nil_append]

theorem toNat_ofNat_of_lt (value : Nat) (small : value < 256) : (UInt8.ofNat value).toNat = value := by
  rw [UInt8.toNat_ofNat']
  exact Nat.mod_eq_of_lt small

theorem tail_bounds (bits : Nat) :
    0x80 ≤ (UInt8.ofNat (bits % 0x40 + 0x80)).toNat ∧
      (UInt8.ofNat (bits % 0x40 + 0x80)).toNat ≤ 0xBF := by
  rw [toNat_ofNat_of_lt _ (by omega)]
  omega

theorem decode_two {code : Nat} (low : 0x80 ≤ code) (high : code ≤ 0x7ff) (rest : Bytes) :
    decode none (UInt8.ofNat (code / 64 % 0x20 + 0xc0) :: UInt8.ofNat (code % 0x40 + 0x80) :: rest) =
      some (Char.ofNat code) :: decode none rest := by
  have first := toNat_ofNat_of_lt (code / 64 % 0x20 + 0xc0) (by omega)
  have second := toNat_ofNat_of_lt (code % 0x40 + 0x80) (by omega)
  have opens : opening (UInt8.ofNat (code / 64 % 0x20 + 0xc0)).toNat =
      some (.inr ⟨1, 0x80, 0xBF, code / 64⟩) := by
    have bits : code / 64 % 0x20 + 0xc0 - 0xC0 = code / 64 := by omega
    rw [first, opening, if_neg (by omega), if_neg (by omega), if_pos (by omega), bits]
  have whole : code / 64 * 64 + (code % 0x40 + 0x80 - 0x80) = code := by omega
  rw [decode_of_opening opens, decode_last rfl (tail_bounds code).1 (tail_bounds code).2, second, whole]

theorem opening_three {code : Nat} (low : 0x800 ≤ code) (high : code ≤ 0xffff)
    (scalar : code < 0xd800 ∨ 0xdfff < code) :
    ∃ least greatest, opening (code / 4096 % 0x10 + 0xe0) =
        some (.inr ⟨2, least, greatest, code / 4096⟩) ∧
      least ≤ code / 64 % 0x40 + 0x80 ∧ code / 64 % 0x40 + 0x80 ≤ greatest := by
  have bits : code / 4096 % 0x10 + 0xe0 - 0xE0 = code / 4096 := by omega
  rw [opening, if_neg (by omega), if_neg (by omega), if_neg (by omega)]
  by_cases least : code / 4096 % 0x10 + 0xe0 = 0xE0
  · rw [if_pos least]
    have zero : code / 4096 = 0 := by omega
    exact ⟨0xA0, 0xBF, by rw [zero], by omega, by omega⟩
  rw [if_neg least]
  by_cases surrogate : code / 4096 % 0x10 + 0xe0 = 0xED
  · rw [if_pos surrogate]
    have thirteen : code / 4096 = 0xD := by omega
    exact ⟨0x80, 0x9F, by rw [thirteen], by omega, by omega⟩
  rw [if_neg surrogate, if_pos (by omega), bits]
  exact ⟨0x80, 0xBF, rfl, by omega, by omega⟩

theorem decode_three {code : Nat} (low : 0x800 ≤ code) (high : code ≤ 0xffff)
    (scalar : code < 0xd800 ∨ 0xdfff < code) (rest : Bytes) :
    decode none (UInt8.ofNat (code / 4096 % 0x10 + 0xe0) :: UInt8.ofNat (code / 64 % 0x40 + 0x80) ::
        UInt8.ofNat (code % 0x40 + 0x80) :: rest) =
      some (Char.ofNat code) :: decode none rest := by
  have first := toNat_ofNat_of_lt (code / 4096 % 0x10 + 0xe0) (by omega)
  have second := toNat_ofNat_of_lt (code / 64 % 0x40 + 0x80) (by omega)
  have third := toNat_ofNat_of_lt (code % 0x40 + 0x80) (by omega)
  obtain ⟨least, greatest, opens, above, below⟩ := opening_three low high scalar
  have whole : (code / 4096 * 64 + (code / 64 % 0x40 + 0x80 - 0x80)) * 64 +
      (code % 0x40 + 0x80 - 0x80) = code := by omega
  rw [← first] at opens
  rw [← second] at above below
  rw [decode_of_opening opens, decode_inner rfl above below,
    decode_last rfl (tail_bounds code).1 (tail_bounds code).2, second, third, whole]

theorem opening_four {code : Nat} (low : 0x10000 ≤ code) (high : code < 0x110000) :
    ∃ least greatest, opening (code / 262144 % 0x08 + 0xf0) =
        some (.inr ⟨3, least, greatest, code / 262144⟩) ∧
      least ≤ code / 4096 % 0x40 + 0x80 ∧ code / 4096 % 0x40 + 0x80 ≤ greatest := by
  have bits : code / 262144 % 0x08 + 0xf0 - 0xF0 = code / 262144 := by omega
  rw [opening, if_neg (by omega), if_neg (by omega), if_neg (by omega), if_neg (by omega),
    if_neg (by omega), if_neg (by omega)]
  by_cases least : code / 262144 % 0x08 + 0xf0 = 0xF0
  · rw [if_pos least]
    have zero : code / 262144 = 0 := by omega
    exact ⟨0x90, 0xBF, by rw [zero], by omega, by omega⟩
  rw [if_neg least]
  by_cases inner : code / 262144 % 0x08 + 0xf0 < 0xF4
  · rw [if_pos inner, bits]
    exact ⟨0x80, 0xBF, rfl, by omega, by omega⟩
  have four : code / 262144 = 4 := by omega
  rw [if_neg inner, if_pos (by omega)]
  exact ⟨0x80, 0x8F, by rw [four], by omega, by omega⟩

theorem decode_four {code : Nat} (low : 0x10000 ≤ code) (high : code < 0x110000) (rest : Bytes) :
    decode none (UInt8.ofNat (code / 262144 % 0x08 + 0xf0) ::
        UInt8.ofNat (code / 4096 % 0x40 + 0x80) :: UInt8.ofNat (code / 64 % 0x40 + 0x80) ::
        UInt8.ofNat (code % 0x40 + 0x80) :: rest) =
      some (Char.ofNat code) :: decode none rest := by
  have first := toNat_ofNat_of_lt (code / 262144 % 0x08 + 0xf0) (by omega)
  have second := toNat_ofNat_of_lt (code / 4096 % 0x40 + 0x80) (by omega)
  have third := toNat_ofNat_of_lt (code / 64 % 0x40 + 0x80) (by omega)
  have fourth := toNat_ofNat_of_lt (code % 0x40 + 0x80) (by omega)
  obtain ⟨least, greatest, opens, above, below⟩ := opening_four low high
  have whole : ((code / 262144 * 64 + (code / 4096 % 0x40 + 0x80 - 0x80)) * 64 +
      (code / 64 % 0x40 + 0x80 - 0x80)) * 64 + (code % 0x40 + 0x80 - 0x80) = code := by omega
  rw [← first] at opens
  rw [← second] at above below
  rw [decode_of_opening opens, decode_inner rfl above below,
    decode_inner rfl (tail_bounds (code / 64)).1 (tail_bounds (code / 64)).2,
    decode_last rfl (tail_bounds code).1 (tail_bounds code).2, second, third, fourth, whole]

theorem decode_encodeChar (c : Char) (rest : Bytes) :
    decode none (String.utf8EncodeChar c ++ rest) = some c :: decode none rest := by
  have valid : c.val.toNat < 0xd800 ∨ 0xdfff < c.val.toNat ∧ c.val.toNat < 0x110000 := c.valid
  have same : Char.ofNat c.val.toNat = c := Char.ofNat_toNat c
  simp only [String.utf8EncodeChar]
  generalize c.val.toNat = code at valid same
  subst same
  by_cases one : code ≤ 0x7f
  · have byte := toNat_ofNat_of_lt code (by omega)
    rw [if_pos one]
    apply decode_of_opening_char
    rw [byte, opening, if_pos (by omega)]
  rw [if_neg one]
  by_cases two : code ≤ 0x7ff
  · rw [if_pos two]
    exact decode_two (by omega) two rest
  rw [if_neg two]
  by_cases three : code ≤ 0xffff
  · rw [if_pos three]
    exact decode_three (by omega) three (valid.imp_right And.left) rest
  rw [if_neg three]
  exact decode_four (by omega) (by omega) rest

theorem decode_encode (text : Text) : decode none (encode text) = text.map some := by
  induction text with
  | nil => rfl
  | cons c rest ih =>
    rw [encode, List.flatMap_cons, decode_encodeChar, List.map_cons]
    exact congrArg _ ih

/-- The bytes of a text are read back as its characters. -/
theorem decode_toUTF8 (text : String) :
    decode none text.toUTF8.toList = text.toList.map some := by
  rw [toList_toUTF8, decode_encode]

end Text.Utf8

end DepAtlas
