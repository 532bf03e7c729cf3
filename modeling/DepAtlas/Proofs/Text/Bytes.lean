import DepAtlas.Proofs.Text.Basic
import DepAtlas.Proofs.Text.Utf8

/-!
Where the characters of a text stand among its bytes. A character of one byte is never part of another
character, so that its byte is found exactly where the character is.
-/

namespace DepAtlas.Text

theorem dropBytes_append {start : Nat} {front : Text} (inside : start ≤ byteLength front) (back : Text) :
    dropBytes start (front ++ back) = dropBytes start front ++ back := by
  induction front generalizing start with
  | nil =>
    obtain rfl : start = 0 := Nat.le_zero.mp inside
    rw [dropBytes, dropBytes]
  | cons c rest ih =>
    cases start with
    | zero => rw [dropBytes, dropBytes]
    | succ start =>
      rw [byteLength] at inside
      rw [List.cons_append, dropBytes, dropBytes]
      exact ih (by omega)

theorem dropBytes_byteLength_add (front : Text) (count : Nat) (back : Text) :
    dropBytes (byteLength front + count) (front ++ back) = dropBytes count back := by
  induction front with
  | nil => rw [byteLength, Nat.zero_add, List.nil_append]
  | cons c rest ih =>
    have positive := c.utf8Size_pos
    obtain ⟨size, total⟩ : ∃ size, c.utf8Size + byteLength rest + count = size + 1 :=
      ⟨c.utf8Size + byteLength rest + count - 1, by omega⟩
    rw [byteLength, total, List.cons_append, dropBytes, ← total, Nat.add_assoc, Nat.add_sub_cancel_left,
      ih]

theorem dropBytes_byteLength_append (front back : Text) :
    dropBytes (byteLength front) (front ++ back) = back :=
  (dropBytes_byteLength_add front 0 back).trans (by rw [dropBytes])

theorem slice_append (front middle back : Text) :
    slice (front ++ (middle ++ back)) (byteLength front) (byteLength front + byteLength middle) =
      middle := by
  rw [slice, dropBytes_byteLength_append, Nat.add_sub_cancel_left, takeBytes_byteLength_append]

theorem exists_append_dropBytes (start : Nat) (text : Text) :
    ∃ front, text = front ++ dropBytes start text := by
  induction text generalizing start with
  | nil => exact ⟨[], by cases start <;> rfl⟩
  | cons c rest ih =>
    cases start with
    | zero => exact ⟨[], by rw [dropBytes, List.nil_append]⟩
    | succ start =>
      obtain ⟨front, parts⟩ := ih (start + 1 - c.utf8Size)
      refine ⟨c :: front, ?_⟩
      rw [dropBytes, List.cons_append, ← parts]

theorem byteLength_dropBytes_le (start : Nat) (text : Text) :
    byteLength (dropBytes start text) ≤ byteLength text - start := by
  induction text generalizing start with
  | nil => cases start <;> exact Nat.zero_le _
  | cons c rest ih =>
    cases start with
    | zero =>
      rw [dropBytes]
      exact Nat.le_refl _
    | succ start =>
      have less := ih (start + 1 - c.utf8Size)
      rw [dropBytes, byteLength]
      omega

namespace Utf8

/-- The byte of a character stands at a place among some bytes. -/
def Stands (bytes : Bytes) (c : Char) (place : Nat) : Prop :=
  bytes[place]? = some c.toUInt8

theorem Stands.lt {bytes : Bytes} {c : Char} {place : Nat} (stands : Stands bytes c place) :
    place < bytes.length :=
  (List.getElem?_eq_some_iff.mp stands).1

theorem encode_cons (c : Char) (rest : Text) :
    encode (c :: rest) = String.utf8EncodeChar c ++ encode rest :=
  List.flatMap_cons

theorem encode_append (front back : Text) : encode (front ++ back) = encode front ++ encode back :=
  List.flatMap_append

theorem length_encode (text : Text) : (encode text).length = byteLength text := by
  induction text with
  | nil => rfl
  | cons c rest ih =>
    rw [encode_cons, List.length_append, String.length_utf8EncodeChar, ih, byteLength]

theorem drop_encode_append (front back : Text) :
    (encode (front ++ back)).drop (byteLength front) = encode back := by
  rw [encode_append, ← length_encode, List.drop_left]

theorem toNat_le_of_narrow {c : Char} (narrow : c.utf8Size = 1) : c.val.toNat ≤ 0x7f :=
  UInt32.le_iff_toNat_le.mp (Char.utf8Size_eq_one_iff.mp narrow)

theorem bounds_of_mem_encodeChar {c : Char} (wide : c.utf8Size ≠ 1) :
    ∀ byte ∈ String.utf8EncodeChar c, 0x80 ≤ byte.toNat ∧ byte.toNat < 0xF8 := by
  have large : ¬ c.val.toNat ≤ 0x7f := fun small =>
    wide (Char.utf8Size_eq_one_iff.mpr (UInt32.le_iff_toNat_le.mpr small))
  have tail (bits : Nat) : 0x80 ≤ (UInt8.ofNat (bits % 0x40 + 0x80)).toNat ∧
      (UInt8.ofNat (bits % 0x40 + 0x80)).toNat < 0xF8 :=
    ⟨(tail_bounds bits).1, Nat.lt_of_le_of_lt (tail_bounds bits).2 (by decide)⟩
  have lead (value : Nat) (low : 0x80 ≤ value) (high : value < 0xF8) :
      0x80 ≤ (UInt8.ofNat value).toNat ∧ (UInt8.ofNat value).toNat < 0xF8 := by
    rw [toNat_ofNat_of_lt value (by omega)]
    exact ⟨low, high⟩
  intro byte member
  simp only [String.utf8EncodeChar, if_neg large] at member
  split at member
  · simp only [List.mem_cons, List.not_mem_nil, or_false] at member
    rcases member with rfl | rfl
    · exact lead _ (by omega) (by omega)
    · exact tail _
  split at member
  · simp only [List.mem_cons, List.not_mem_nil, or_false] at member
    rcases member with rfl | rfl | rfl
    · exact lead _ (by omega) (by omega)
    · exact tail _
    · exact tail _
  · simp only [List.mem_cons, List.not_mem_nil, or_false] at member
    rcases member with rfl | rfl | rfl | rfl
    · exact lead _ (by omega) (by omega)
    · exact tail _
    · exact tail _
    · exact tail _

/-- The bytes from 0xF8 on occur in no text. -/
theorem lt_of_mem_encode {text : Text} {byte : UInt8} (member : byte ∈ encode text) : byte.toNat < 0xF8 := by
  obtain ⟨c, -, member⟩ := List.mem_flatMap.mp member
  by_cases narrow : c.utf8Size = 1
  · have small := toNat_le_of_narrow narrow
    rw [String.utf8EncodeChar_eq_singleton narrow, List.mem_singleton] at member
    have value : byte.toNat = c.val.toNat := member ▸ toNat_ofNat_of_lt _ (by omega)
    omega
  · exact (bounds_of_mem_encodeChar narrow byte member).2

variable {c mark : Char} {place : Nat} {text : Text}

theorem eq_of_stands_encodeChar (narrow : mark.utf8Size = 1)
    (stands : Stands (String.utf8EncodeChar c) mark place) : c = mark ∧ place = 0 := by
  have small := toNat_le_of_narrow narrow
  have value : mark.toUInt8.toNat = mark.val.toNat := toNat_ofNat_of_lt _ (by omega)
  by_cases narrow' : c.utf8Size = 1
  · have small' := toNat_le_of_narrow narrow'
    rw [Stands, String.utf8EncodeChar_eq_singleton narrow', List.getElem?_singleton] at stands
    split at stands
    · rename_i first
      have value' : c.val.toUInt8.toNat = c.val.toNat := toNat_ofNat_of_lt _ (by omega)
      have same : c.val.toNat = mark.val.toNat := by
        rw [← value, ← value', Option.some.inj stands]
      exact ⟨Char.ext (UInt32.toNat_inj.mp same), first⟩
    · cases stands
  · have wide := (bounds_of_mem_encodeChar narrow' _ (List.mem_of_getElem? stands)).1
    omega

theorem stands_cons (narrow : mark.utf8Size = 1) {rest : Text} :
    Stands (encode (c :: rest)) mark place ↔
      (c = mark ∧ place = 0) ∨ ∃ later, Stands (encode rest) mark later ∧ place = c.utf8Size + later := by
  have width := String.length_utf8EncodeChar c
  rw [Stands, encode_cons]
  by_cases inside : place < (String.utf8EncodeChar c).length
  · rw [List.getElem?_append_left inside]
    constructor
    · exact fun stands => .inl (eq_of_stands_encodeChar narrow stands)
    · rintro (⟨rfl, rfl⟩ | ⟨later, -, rfl⟩)
      · rw [String.utf8EncodeChar_eq_singleton narrow]
        rfl
      · omega
  · rw [List.getElem?_append_right (Nat.le_of_not_lt inside)]
    constructor
    · exact fun stands => .inr ⟨_, stands, by omega⟩
    · rintro (⟨rfl, rfl⟩ | ⟨later, stands, rfl⟩)
      · omega
      · rwa [width, Nat.add_sub_cancel_left]

/-- Where the byte of a character of one byte stands, there the character begins. -/
theorem exists_of_stands (narrow : mark.utf8Size = 1) (stands : Stands (encode text) mark place) :
    ∃ front back, text = front ++ mark :: back ∧ byteLength front = place := by
  induction text generalizing place with
  | nil => cases stands
  | cons c rest ih =>
    rcases (stands_cons narrow).mp stands with ⟨rfl, rfl⟩ | ⟨later, there, rfl⟩
    · exact ⟨[], rest, rfl, rfl⟩
    · obtain ⟨front, back, rfl, rfl⟩ := ih there
      exact ⟨c :: front, back, rfl, rfl⟩

section Reading

variable {bytes : Bytes} {rest : Text} (here : bytes.drop place = encode (c :: rest))
include here

theorem getElem?_of_drop (other : Nat) (inside : other < c.utf8Size) :
    bytes[place + other]? = (String.utf8EncodeChar c)[other]? := by
  rw [← List.getElem?_drop, here, encode_cons, List.getElem?_append_left]
  rwa [String.length_utf8EncodeChar]

theorem drop_next : bytes.drop (place + c.utf8Size) = encode rest := by
  rw [← List.drop_drop, here, encode_cons, ← String.length_utf8EncodeChar, List.drop_left]

theorem stands_of_drop (narrow : c.utf8Size = 1) : Stands bytes c place := by
  have first := getElem?_of_drop here 0 (by omega)
  rw [Nat.add_zero, String.utf8EncodeChar_eq_singleton narrow] at first
  exact first

theorem not_stands_of_drop (narrow : mark.utf8Size = 1) (apart : c ≠ mark) {other : Nat}
    (after : place ≤ other) (before : other < place + c.utf8Size) : ¬ Stands bytes mark other := by
  intro stands
  obtain ⟨inner, rfl⟩ := Nat.exists_eq_add_of_le after
  rw [Stands, getElem?_of_drop here _ (by omega)] at stands
  exact apart (eq_of_stands_encodeChar narrow stands).1

end Reading

theorem dropBytes_after (narrow : mark.utf8Size = 1) (front back : Text) :
    dropBytes (byteLength front + 1) (front ++ mark :: back) = back := by
  rw [dropBytes_byteLength_add, dropBytes, narrow, Nat.sub_self, dropBytes]

/-- A cut inside a character moves to its end, and no character of one byte is passed over. -/
theorem le_of_stands (narrow : mark.utf8Size = 1) {start : Nat} (after : start ≤ place)
    (stands : Stands (encode text) mark place) :
    byteLength text - byteLength (dropBytes start text) ≤ place := by
  obtain ⟨front, back, rfl, rfl⟩ := exists_of_stands narrow stands
  rw [dropBytes_append after, byteLength_append, byteLength_append]
  omega

end Utf8

end DepAtlas.Text
