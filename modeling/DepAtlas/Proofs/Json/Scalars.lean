import DepAtlas.Json.Parser
import DepAtlas.Json.Printer

/-!
Numbers and strings are read as they were written. A number that does not fit in 64 bits is read as one
that is no whole number, never as a different whole number.
-/

namespace DepAtlas.Json

/-- The input that a text is. -/
def inputOf (text : Text) : Input :=
  text.map some

@[simp] theorem inputOf_nil : inputOf [] = [] := rfl

@[simp] theorem inputOf_cons (c : Char) (text : Text) : inputOf (c :: text) = some c :: inputOf text :=
  rfl

@[simp] theorem inputOf_append (first second : Text) :
    inputOf (first ++ second) = inputOf first ++ inputOf second :=
  List.map_append

@[simp] theorem length_inputOf (text : Text) : (inputOf text).length = text.length :=
  List.length_map some

/-- Whether a text does not go on with what could belong to a number. -/
def endsNumber : Text → Bool
  | [] => true
  | c :: _ => !c.isDigit && c != '.' && c != 'e' && c != 'E'

theorem takeDigits_append {digits rest : Text} (isDigits : ∀ c ∈ digits, c.isDigit)
    (ends : endsNumber rest) : takeDigits (inputOf (digits ++ rest)) = (digits, inputOf rest) := by
  induction digits with
  | nil =>
    cases rest with
    | nil => rfl
    | cons c rest =>
      simp only [endsNumber, Bool.and_eq_true, Bool.not_eq_true'] at ends
      simp [takeDigits, ends.1.1.1]
  | cons c digits ih =>
    have first := isDigits c List.mem_cons_self
    have others := ih fun other member => isDigits other (List.mem_cons_of_mem c member)
    have split (input : Input) : takeDigits (some c :: input) =
        (c :: (takeDigits input).1, (takeDigits input).2) := by
      simp only [takeDigits, List.takeWhile_cons, List.dropWhile_cons, Option.any_some, first, if_true]
      rfl
    rw [List.cons_append, inputOf_cons, split, others]

theorem readFraction?_of_ends {rest : Text} (ends : endsNumber rest) :
    readFraction? (inputOf rest) = some ([], inputOf rest) := by
  cases rest with
  | nil => rfl
  | cons c rest =>
    simp only [endsNumber, Bool.and_eq_true, bne_iff_ne] at ends
    rw [inputOf_cons, readFraction?]
    intro _ point
    exact ends.1.1.2 (Option.some.inj (List.cons.inj point).1)

theorem readExponent?_of_ends {rest : Text} (ends : endsNumber rest) :
    readExponent? (inputOf rest) = some (none, inputOf rest) := by
  cases rest with
  | nil => rfl
  | cons c rest =>
    simp only [endsNumber, Bool.and_eq_true, bne_iff_ne] at ends
    rw [inputOf_cons, readExponent?, if_neg]
    simp [ends.1.2, ends.2]

theorem isDigit_toDigits (value : Nat) : ∀ c ∈ Nat.toDigits 10 value, c.isDigit :=
  fun _ member => Nat.isDigit_of_mem_toDigits (by decide) (by decide) member

theorem head_toDigits (value : Nat) : ∃ c digits, Nat.toDigits 10 value = c :: digits ∧ c.isDigit := by
  cases written : Nat.toDigits 10 value with
  | nil => exact absurd written Nat.toDigits_ne_nil
  | cons c digits =>
    exact ⟨c, digits, rfl, isDigit_toDigits value c (written ▸ List.mem_cons_self)⟩

theorem exists_digit_toString (value : Int) :
    ∃ c text, (toString value).toList = c :: text ∧ (c.isDigit ∨ c = '-') := by
  rw [Int.toString_eq_repr, Int.repr_eq_if]
  split
  · rw [Nat.toList_repr]
    obtain ⟨c, digits, written, digit⟩ := head_toDigits value.toNat
    exact ⟨c, digits, written, .inl digit⟩
  · rw [String.toList_append]
    exact ⟨'-', _, rfl, .inr rfl⟩

theorem digitsValue_toDigits (value : Nat) : digitsValue (Nat.toDigits 10 value) = value := by
  have value := Nat.ofDigitChars_ten_toDigits (n := value)
  rw [Nat.ofDigitChars_eq_foldl] at value
  simpa only [digitsValue, digitValue, Nat.mul_comm] using value

theorem head_toDigits_ne_zero {value : Nat} (positive : 0 < value) (rest : Text) :
    Nat.toDigits 10 value ≠ '0' :: rest := by
  induction value using Nat.strongRecOn generalizing rest with
  | ind value ih =>
    rw [Nat.toDigits_eq_if (by decide)]
    split
    case isTrue small =>
      have nonzero : ∀ digit < 10, 0 < digit → Nat.digitChar digit ≠ '0' := by decide
      intro equal
      exact nonzero value small positive (List.cons.inj equal).1
    case isFalse large =>
      intro equal
      cases digits : Nat.toDigits 10 (value / 10) with
      | nil => exact Nat.toDigits_ne_nil digits
      | cons first others =>
        rw [digits, List.cons_append] at equal
        rw [(List.cons.inj equal).1] at digits
        exact ih (value / 10) (by omega) (by omega) others digits

theorem toDigits_ne_zero_cons (value : Nat) (second : Char) (rest : Text) :
    Nat.toDigits 10 value ≠ '0' :: second :: rest := by
  cases value with
  | zero =>
    rw [Nat.toDigits_zero]
    simp
  | succ value => exact head_toDigits_ne_zero (Nat.succ_pos value) _

/-- What a whole number is read as. -/
def ofWritten (value : Int) : Json :=
  ofMagnitude (decide (value < 0)) { whole := Nat.toDigits 10 value.natAbs }

theorem readMagnitude?_toDigits (negative : Bool) (value : Nat) {rest : Text} (ends : endsNumber rest) :
    readMagnitude? negative (inputOf (Nat.toDigits 10 value ++ rest)) =
      some (ofMagnitude negative { whole := Nat.toDigits 10 value }, inputOf rest) := by
  rw [readMagnitude?, takeDigits_append (isDigit_toDigits value) ends]
  split
  case h_1 none => exact absurd (Prod.mk.inj none).1 Nat.toDigits_ne_nil
  case h_2 leading => exact absurd (Prod.mk.inj leading).1 (toDigits_ne_zero_cons value _ _)
  case h_3 whole rest' _ _ same =>
    obtain ⟨rfl, rfl⟩ := Prod.mk.inj same
    simp [readFraction?_of_ends ends, readExponent?_of_ends ends]

theorem readNumber?_toString (value : Int) {rest : Text} (ends : endsNumber rest) :
    readNumber? (inputOf ((toString value).toList ++ rest)) = some (ofWritten value, inputOf rest) := by
  rw [Int.toString_eq_repr, Int.repr_eq_if]
  by_cases positive : 0 ≤ value
  · rw [if_pos positive, Nat.toList_repr]
    have negative : decide (value < 0) = false := by simpa using positive
    have size : value.natAbs = value.toNat := by omega
    rw [readNumber?, readMagnitude?_toDigits false _ ends, ofWritten, negative, size]
    intro after minus
    obtain ⟨first, others, written, isDigit⟩ := head_toDigits value.toNat
    rw [written] at minus
    have first : first = '-' := Option.some.inj (List.cons.inj minus).1
    rw [first] at isDigit
    exact absurd isDigit (by decide)
  · rw [if_neg positive, String.toList_append, Nat.toList_repr]
    have negative : decide (value < 0) = true := by simpa using positive
    have size : value.natAbs = (-value).toNat := by omega
    rw [ofWritten, negative, size]
    exact readMagnitude?_toDigits true _ ends

theorem ofWritten_of_fits {value : Int} (low : -(signLimit64 : Int) ≤ value)
    (high : value < (limit64 : Int)) : ofWritten value = .int value := by
  simp only [ofWritten, ofMagnitude, digitsValue_toDigits, Magnitude.isWhole, List.isEmpty_nil,
    Option.isNone_none, Bool.and_self, Bool.not_true, Bool.false_eq_true, if_false, decide_eq_true_eq]
  by_cases negative : value < 0
  · rw [if_pos negative, if_pos (by omega)]
    congr 1
    omega
  · rw [if_neg negative, if_pos (by omega)]
    congr 1
    omega

theorem int?_ofWritten {value read : Int} (found : (ofWritten value).int? = some read) :
    read = value := by
  by_cases fits : -(signLimit64 : Int) ≤ value ∧ value < (limit64 : Int)
  · rw [ofWritten_of_fits fits.1 fits.2] at found
    exact (Option.some.inj found).symm
  · simp only [ofWritten, ofMagnitude, digitsValue_toDigits, Magnitude.isWhole, List.isEmpty_nil,
      Option.isNone_none, Bool.and_self, Bool.not_true, Bool.false_eq_true, if_false,
      decide_eq_true_eq] at found
    by_cases negative : value < 0
    · have large : (limit64 : Int) = 18446744073709551616 := rfl
      rw [if_pos negative, if_neg (by omega)] at found
      split at found <;> cases found
    · have small : (signLimit64 : Int) = 9223372036854775808 := rfl
      rw [if_neg negative, if_neg (by omega)] at found
      split at found <;> cases found

theorem hexValue?_hexDigit : ∀ value < 16, hexValue? (hexDigit value) = some value := by
  decide

theorem readUnicode?_control {c : Char} (control : c.toNat < 0x20) (rest : Input) :
    readUnicode? (some '0' :: some '0' :: some (hexDigit (c.toNat / 16)) ::
      some (hexDigit (c.toNat % 16)) :: rest) = some (some c, rest) := by
  have high := hexValue?_hexDigit (c.toNat / 16) (by omega)
  have low := hexValue?_hexDigit (c.toNat % 16) (by omega)
  have zero : hexValue? '0' = some 0 := by decide
  have unit : ((0 * 16 + 0) * 16 + c.toNat / 16) * 16 + c.toNat % 16 = c.toNat := by omega
  have trailing : isTrailing c.toNat = false := by
    simp only [isTrailing, Bool.and_eq_false_iff, decide_eq_false_iff_not]
    omega
  have leading : isLeading c.toNat = false := by
    simp only [isLeading, Bool.and_eq_false_iff, decide_eq_false_iff_not]
    omega
  simp only [readUnicode?, readHex?, zero, high, low, Option.bind_eq_bind, Option.bind_some,
    Option.pure_def, unit, trailing, leading, Bool.false_eq_true, if_false, Char.ofNat_toNat]

theorem readString?_plain {c : Char} (quote : c ≠ '"') (backslash : c ≠ '\\')
    (visible : ¬ c.toNat < 0x20) (fuel : Nat) (read : Text) (rest : Input) :
    readString? (fuel + 1) (some read) (some c :: rest) = readString? fuel (some (c :: read)) rest := by
  rw [readString?]
  · simp [visible, backslash, extend]
  · exact quote
  all_goals
    intros
    exact backslash ‹_›

theorem readString?_escapeChar (c : Char) (fuel : Nat) (read : Text) (rest : Input) :
    readString? (fuel + 1) (some read) (inputOf (escapeChar c) ++ rest) =
      readString? fuel (some (c :: read)) rest := by
  by_cases special : c ∈ ['"', '\\', '\x08', '\x0c', '\n', '\r', '\t']
  · simp only [List.mem_cons, List.not_mem_nil, or_false] at special
    rcases special with rfl | rfl | rfl | rfl | rfl | rfl | rfl <;> rfl
  · simp only [List.mem_cons, List.not_mem_nil, or_false, not_or] at special
    obtain ⟨quote, backslash, backspace, formFeed, newline, return', tab⟩ := special
    simp only [escapeChar, quote, backslash, backspace, formFeed, newline, return', tab, if_false]
    by_cases control : c.toNat < 0x20
    · simp only [if_pos control, inputOf_cons, inputOf_nil, List.cons_append, List.nil_append]
      rw [readString?, readUnicode?_control control]
      rfl
    · rw [if_neg control]
      exact readString?_plain quote backslash control fuel read rest

theorem readString?_escaped (text : Text) (fuel : Nat) (read : Text) (rest : Input)
    (enough : text.length < fuel) :
    readString? fuel (some read) (inputOf (text.flatMap escapeChar) ++ some '"' :: rest) =
      some (some (String.ofList (read.reverse ++ text)), rest) := by
  induction text generalizing fuel read with
  | nil =>
    obtain ⟨fuel, rfl⟩ := Nat.exists_eq_succ_of_ne_zero (Nat.ne_of_gt enough)
    simp [readString?]
  | cons c text ih =>
    obtain ⟨fuel, rfl⟩ := Nat.exists_eq_succ_of_ne_zero (Nat.ne_of_gt (Nat.zero_lt_of_lt enough))
    rw [List.length_cons] at enough
    rw [List.flatMap_cons, inputOf_append, List.append_assoc, Nat.succ_eq_add_one,
      readString?_escapeChar, ih fuel (c :: read) (by omega)]
    simp

/-- A string is read as it was written. -/
theorem readString?_written (value : String) (fuel : Nat) (rest : Text)
    (enough : value.toList.length < fuel) :
    readString? fuel (some []) (inputOf (value.toList.flatMap escapeChar ++ '"' :: rest)) =
      some (some value, inputOf rest) := by
  rw [inputOf_append, inputOf_cons, readString?_escaped _ _ _ _ enough]
  simp

end DepAtlas.Json
