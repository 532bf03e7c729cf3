import DepAtlas.Proofs.Json.Scalars
import DepAtlas.Proofs.Toml.Strings
import DepAtlas.Toml.Scalars

/-!
A whole number that can be written is read as it was written: no other form of number, date or time fits its
text.
-/

namespace DepAtlas.Toml

theorem hexValue?_of_isDigit {c : Char} (digit : c.isDigit) :
    Json.hexValue? c = some (Json.digitValue c) := by
  have range : '0' ≤ c ∧ c ≤ '9' := by simpa [Char.isDigit, Char.le_def] using digit
  rw [Json.hexValue?, if_pos range, Json.digitValue]

theorem valueOf_of_digits {digits : Text} (isDigits : ∀ c ∈ digits, c.isDigit) :
    valueOf 10 digits = Json.digitsValue digits := by
  have from' (start : Nat) : digits.foldl (fun value c => value * 10 + (Json.hexValue? c).getD 0) start =
      digits.foldl (fun value c => value * 10 + Json.digitValue c) start := by
    induction digits generalizing start with
    | nil => rfl
    | cons c digits ih =>
      rw [List.foldl_cons, List.foldl_cons, hexValue?_of_isDigit (isDigits c List.mem_cons_self),
        Option.getD_some, ih fun other member => isDigits other (List.mem_cons_of_mem _ member)]
  exact from' 0

theorem exists_of_endsValue {rest : Text} (ends : endsValue rest) :
    ∃ c more, rest = c :: more ∧ (c = '\n' ∨ c = ',' ∨ c = ']') := by
  cases rest with
  | nil => cases ends
  | cons c more =>
    simp only [endsValue, Bool.or_eq_true, beq_iff_eq] at ends
    exact ⟨c, more, rfl, by simpa [or_assoc] using ends⟩

theorem takeGrouped_digits {digits rest : Text} (isDigits : ∀ c ∈ digits, c.isDigit) (ends : endsValue rest)
    {fuel : Nat} (enough : digits.length ≤ fuel) :
    takeGrouped Char.isDigit fuel (digits ++ rest) = (digits, rest) := by
  induction digits generalizing fuel with
  | nil =>
    obtain ⟨c, more, rfl, isEnd⟩ := exists_of_endsValue ends
    cases fuel with
    | zero => rfl
    | succ fuel => rcases isEnd with rfl | rfl | rfl <;> rfl
  | cons c digits ih =>
    obtain ⟨fuel, rfl⟩ := Nat.exists_eq_add_one.mpr (Nat.zero_lt_of_lt enough)
    have digit := isDigits c List.mem_cons_self
    have others := ih (fun other member => isDigits other (List.mem_cons_of_mem _ member))
      (Nat.le_of_succ_le_succ enough)
    rw [List.cons_append, takeGrouped]
    · simp [digit, others]
    · rintro d more rfl
      cases digit

theorem readDecimal?_toDigits (value : Nat) {rest : Text} (ends : endsValue rest) :
    readDecimal? (Nat.toDigits 10 value ++ rest) = some (Nat.toDigits 10 value, rest) := by
  have isDigits := Json.isDigit_toDigits value
  have leading := Json.toDigits_ne_zero_cons value
  cases written : Nat.toDigits 10 value with
  | nil => exact absurd written Nat.toDigits_ne_nil
  | cons c digits =>
    rw [written] at isDigits leading
    by_cases zero : c = '0'
    · subst zero
      cases digits with
      | nil => rfl
      | cons second digits => exact absurd rfl (leading second digits)
    · have rests := fun other member => isDigits other (List.mem_cons_of_mem _ member)
      have others := takeGrouped_digits rests ends (show digits.length ≤ (digits ++ rest).length by simp)
      rw [List.cons_append, readDecimal?, readDigits?, if_pos (isDigits c List.mem_cons_self), others]
      rintro more ⟨⟩
      exact zero rfl

theorem readFraction?_of_endsValue {rest : Text} (ends : endsValue rest) :
    readFraction? rest = some ([], rest) := by
  obtain ⟨c, more, rfl, isEnd⟩ := exists_of_endsValue ends
  rcases isEnd with rfl | rfl | rfl <;> rfl

theorem readExponent?_of_endsValue {rest : Text} (ends : endsValue rest) :
    readExponent? rest = some (none, rest) := by
  obtain ⟨c, more, rfl, isEnd⟩ := exists_of_endsValue ends
  rcases isEnd with rfl | rfl | rfl <;> rfl

/-- A whole number with its sign. -/
def signed (negative : Bool) (value : Nat) : Text :=
  if negative then '-' :: Nat.toDigits 10 value else Nat.toDigits 10 value

theorem toString_int (value : Int) :
    (toString value).toList = signed (decide (value < 0)) value.natAbs := by
  rw [Int.toString_eq_repr, Int.repr_eq_if, signed]
  by_cases positive : 0 ≤ value
  · have size : value.natAbs = value.toNat := by omega
    rw [if_pos positive, if_neg (by simpa using positive), Nat.toList_repr, size]
  · have size : value.natAbs = (-value).toNat := by omega
    rw [if_neg positive, if_pos (by simpa using positive), String.toList_append, Nat.toList_repr, size]
    rfl

theorem takeSign_signed (negative : Bool) (value : Nat) (rest : Text) :
    takeSign (signed negative value ++ rest) =
      (if negative then ['-'] else [], Nat.toDigits 10 value ++ rest) := by
  cases negative with
  | true => rfl
  | false =>
    obtain ⟨c, digits, written, digit⟩ := Json.head_toDigits value
    simp only [signed, Bool.false_eq_true, if_false, written, List.cons_append]
    rw [takeSign] <;>
      · rintro more ⟨⟩
        cases digit

/-- After digits at the front comes a digit or what stands after the number. -/
theorem head_drop_of_digits {digits rest : Text} {mark : Char} (isDigits : ∀ c ∈ digits, c.isDigit)
    (ends : endsValue rest) (isMark : mark = '-' ∨ mark = ':') {count : Nat}
    (front : ((digits ++ rest).take count).all Char.isDigit) :
    ((digits ++ rest).drop count).head? ≠ some mark := by
  obtain ⟨c, more, rfl, isEnd⟩ := exists_of_endsValue ends
  by_cases inside : count ≤ digits.length
  · rw [List.drop_append_of_le_length inside]
    cases others : digits.drop count with
    | nil =>
      simp only [List.nil_append, List.head?_cons, ne_eq, Option.some.injEq]
      rcases isEnd with rfl | rfl | rfl <;> rcases isMark with rfl | rfl <;> decide
    | cons d others' =>
      have digit := isDigits d (List.mem_of_mem_drop (others ▸ List.mem_cons_self))
      simp only [List.cons_append, List.head?_cons, ne_eq, Option.some.injEq]
      rintro rfl
      rcases isMark with rfl | rfl <;> cases digit
  · have member : c ∈ (digits ++ c :: more).take count := by
      rw [List.take_append, show count - digits.length = (count - digits.length - 1) + 1 by omega,
        List.take_succ_cons]
      simp
    have digit := List.all_eq_true.mp front c member
    rcases isEnd with rfl | rfl | rfl <;> cases digit

theorem head_drop_signed {negative : Bool} {value count : Nat} {rest : Text} {mark : Char}
    (ends : endsValue rest) (isMark : mark = '-' ∨ mark = ':')
    (front : ((signed negative value ++ rest).take (count + 1)).all Char.isDigit) :
    ((signed negative value ++ rest).drop (count + 1)).head? ≠ some mark := by
  cases negative with
  | true => cases front
  | false => exact head_drop_of_digits (Json.isDigit_toDigits value) ends isMark front

theorem startsTime_signed (negative : Bool) (value : Nat) {rest : Text} (ends : endsValue rest) :
    startsTime (signed negative value ++ rest) = false := by
  apply eq_false_of_ne_true
  intro starts
  obtain ⟨more, found⟩ := Option.isSome_iff_exists.mp starts
  obtain ⟨⟨hour, after⟩, isHour, isMark⟩ := Option.bind_eq_some_iff.mp found
  rw [readField?] at isHour
  simp only [Option.ite_none_right_eq_some, Bool.and_eq_true, Option.some.injEq, Prod.mk.injEq] at isHour
  obtain ⟨⟨⟨⟨-, digits⟩, -⟩, -⟩, -, rfl⟩ := isHour
  have head := head_drop_signed ends (Or.inr rfl) digits
  change readMark? ':' ((signed negative value ++ rest).drop 2) = some more at isMark
  cases after : (signed negative value ++ rest).drop 2 with
  | nil => rw [after] at isMark; cases isMark
  | cons c others =>
    rw [after, List.head?_cons] at head
    rw [after, readMark?, if_neg (by simpa using head)] at isMark
    cases isMark

theorem readFloat?_signed (negative : Bool) (value : Nat) {rest : Text} (ends : endsValue rest) :
    readFloat? (signed negative value ++ rest) = none := by
  obtain ⟨c, digits, written, digit⟩ := Json.head_toDigits value
  have whole := readDecimal?_toDigits value ends
  have noWord : (['i', 'n', 'f'].isPrefixOf (Nat.toDigits 10 value ++ rest) ||
      ['n', 'a', 'n'].isPrefixOf (Nat.toDigits 10 value ++ rest)) = false := by
    rw [written]
    simp only [List.cons_append, List.isPrefixOf, Bool.or_eq_false_iff, Bool.and_eq_false_iff,
      beq_eq_false_iff_ne]
    constructor <;> (left; rintro rfl; cases digit)
  rw [readFloat?, takeSign_signed]
  simp [noWord, whole, readFraction?_of_endsValue ends, readExponent?_of_endsValue ends]

/-- A decimal number does not look like one of another base. -/
theorem signed_ne_based (negative : Bool) (value : Nat) {rest : Text} (ends : endsValue rest) {base : Char}
    (isBase : base = 'x' ∨ base = 'o' ∨ base = 'b') (more : Text) :
    signed negative value ++ rest ≠ '0' :: base :: more := by
  intro same
  cases negative with
  | true => cases same
  | false =>
    obtain ⟨c, digits, written, -⟩ := Json.head_toDigits value
    obtain ⟨d, others, rfl, isEnd⟩ := exists_of_endsValue ends
    rw [signed, if_neg Bool.false_ne_true, written, List.cons_append, List.cons.injEq] at same
    obtain ⟨rfl, same⟩ := same
    cases digits with
    | nil =>
      cases same
      rcases isEnd with rfl | rfl | rfl <;> rcases isBase with base | base | base <;> cases base
    | cons second digits => exact Json.toDigits_ne_zero_cons value second digits written

theorem readInteger?_signed (negative : Bool) (value : Nat) {rest : Text} (ends : endsValue rest) :
    readInteger? (signed negative value ++ rest) =
      (integer? (if negative then -value else value)).map fun number => (number, rest) := by
  have isValue : valueOf 10 (Nat.toDigits 10 value) = value :=
    (valueOf_of_digits (Json.isDigit_toDigits value)).trans (Json.digitsValue_toDigits value)
  have whole := readDecimal?_toDigits value ends
  -- as one fact, so that the limits are not unfolded when numbers are compared
  have sign (number : Int) : (if (if negative then ['-'] else []) == ['-'] then -number else number) =
      if negative then -number else number := by
    cases negative <;> rfl
  rw [readInteger?]
  · rw [takeSign_signed]
    simp only [whole, Option.bind_eq_bind, Option.bind_some, Option.pure_def, isValue, sign]
    rw [Option.map_eq_bind]
    rfl
  · exact signed_ne_based negative value ends (by simp)
  · exact signed_ne_based negative value ends (by simp)
  · exact signed_ne_based negative value ends (by simp)

/-- A whole number is read as it was written. -/
theorem readNumeric?_toString {value : Int} (fits : fitsSigned64 value) {rest : Text}
    (ends : endsValue rest) : readNumeric? ((toString value).toList ++ rest) = some (.integer value, rest) := by
  rw [toString_int]
  have noDate : ((((signed (decide (value < 0)) value.natAbs ++ rest).drop 4).head? == some '-') &&
      ((signed (decide (value < 0)) value.natAbs ++ rest).take 4).all Char.isDigit) = false := by
    apply eq_false_of_ne_true
    intro date
    obtain ⟨mark, digits⟩ := Bool.and_eq_true_iff.mp date
    exact head_drop_signed ends (Or.inl rfl) digits (beq_iff_eq.mp mark)
  have isValue : (if decide (value < 0) then -(value.natAbs : Int) else value.natAbs) = value := by
    by_cases negative : value < 0
    · rw [if_pos (decide_eq_true negative)]
      omega
    · rw [if_neg (by simpa using negative)]
      omega
  rw [readNumeric?, noDate, startsTime_signed _ _ ends, readFloat?_signed _ _ ends,
    readInteger?_signed _ _ ends, isValue, integer?, if_pos fits]
  rfl

end DepAtlas.Toml
