import DepAtlas.Proofs.Toml.Scalars
import DepAtlas.Toml.Parser

/-!
A value is read as it was written, where a line end, a comma or a closing bracket stands after it: strings,
whole numbers and truth values, and arrays of these over one line or several.
-/

namespace DepAtlas.Toml

/-- Whether a value without a value inside it can start with a character. -/
def startsScalar (c : Char) : Bool :=
  c == '"' || c == '\'' || c == '-' || c == 't' || c == 'f' || c.isDigit

/-- Whether something stands at the front of a text that is no blank, comment or line end. -/
def startsInk : Text → Bool
  | c :: _ => !Text.isIndent c && c != '#' && c != '\n' && c != '\r'
  | [] => false

theorem startsInk_of_startsScalar {c : Char} (starts : startsScalar c) (more : Text) :
    startsInk (c :: more) := by
  simp only [startsScalar, Bool.or_eq_true, beq_iff_eq] at starts
  rcases starts with ((((rfl | rfl) | rfl) | rfl) | rfl) | digit
  case inr =>
    simp only [startsInk, Text.isIndent, Bool.and_eq_true, Bool.not_eq_true', Bool.or_eq_false_iff,
      beq_eq_false_iff_ne, bne_iff_ne]
    refine ⟨⟨⟨⟨?_, ?_⟩, ?_⟩, ?_⟩, ?_⟩ <;> (rintro rfl; cases digit)
  all_goals rfl

/-! Blanks and line ends between values -/

theorem skipBlanks_of_ink {text : Text} (ink : startsInk text) : skipBlanks text = text := by
  cases text with
  | nil => cases ink
  | cons c more =>
    simp only [startsInk, Bool.and_eq_true, Bool.not_eq_true'] at ink
    exact skipBlanks_cons_of_ne more ink.1.1.1

theorem skipComment_of_ink {text : Text} (ink : startsInk text) : skipComment text = text := by
  cases text with
  | nil => cases ink
  | cons c more =>
    rw [skipComment]
    rintro more ⟨⟩
    cases ink

theorem lineEnd?_of_ink {text : Text} (ink : startsInk text) : lineEnd? text = none := by
  cases text with
  | nil => cases ink
  | cons c more =>
    apply lineEnd?_cons_of_ne <;> (rintro rfl; cases ink)

theorem skipLines_of_ink {text : Text} (ink : startsInk text) (fuel : Nat) :
    skipLines (fuel + 1) text = text := by
  rw [skipLines, skipBlanks_of_ink ink, skipComment_of_ink ink, lineEnd?_of_ink ink]

theorem skipLines_lineEnd (fuel : Nat) (rest : Text) :
    skipLines (fuel + 1) ('\n' :: rest) = skipLines fuel rest :=
  rfl

theorem skipLines_indented {text : Text} (ink : startsInk text) (fuel : Nat) :
    skipLines (fuel + 1) (' ' :: ' ' :: ' ' :: ' ' :: text) = text := by
  have blanks : skipBlanks (' ' :: ' ' :: ' ' :: ' ' :: text) = skipBlanks text := rfl
  rw [skipLines, blanks, skipBlanks_of_ink ink, skipComment_of_ink ink, lineEnd?_of_ink ink]

/-! Values without a value inside them -/

theorem exists_start_writeString (text : Text) :
    ∃ c more, writeString text = c :: more ∧ (c = '"' ∨ c = '\'') := by
  rw [writeString]
  cases StringForm.ofText text <;> exact ⟨_, _, rfl, by decide⟩

/-- What can be written without a value inside it. -/
theorem writeScalar?_cases {value : Toml} {written : Text} (isWritten : writeScalar? value = some written) :
    (∃ text, value = .string text ∧ written = writeString text.toList) ∨
      (∃ number, value = .integer number ∧ fitsSigned64 number ∧ written = (toString number).toList) ∨
      ∃ flag, value = .boolean flag ∧ written = (toString flag).toList := by
  cases value with
  | string text => exact .inl ⟨text, rfl, (Option.some.inj isWritten).symm⟩
  | integer number =>
    rw [writeScalar?, Option.ite_none_right_eq_some] at isWritten
    exact .inr (.inl ⟨number, rfl, isWritten.1, (Option.some.inj isWritten.2).symm⟩)
  | boolean flag => exact .inr (.inr ⟨flag, rfl, (Option.some.inj isWritten).symm⟩)
  | float => cases isWritten
  | datetime => cases isWritten
  | array => cases isWritten
  | table => cases isWritten
  | tables => cases isWritten

theorem exists_start_writeScalar {value : Toml} {written : Text}
    (isWritten : writeScalar? value = some written) :
    ∃ c more, written = c :: more ∧ startsScalar c := by
  rcases writeScalar?_cases isWritten with ⟨text, -, rfl⟩ | ⟨number, -, -, rfl⟩ | ⟨flag, -, rfl⟩
  · obtain ⟨c, more, same, quote⟩ := exists_start_writeString text.toList
    exact ⟨c, more, same, by rcases quote with rfl | rfl <;> rfl⟩
  · obtain ⟨c, more, same, digit⟩ := Json.exists_digit_toString number
    exact ⟨c, more, same, by rcases digit with digit | rfl <;> simp [startsScalar, *]⟩
  · cases flag <;> exact ⟨_, _, rfl, rfl⟩

theorem startsInk_of_writeScalar {value : Toml} {written : Text}
    (isWritten : writeScalar? value = some written) (after : Text) : startsInk (written ++ after) := by
  obtain ⟨c, more, rfl, starts⟩ := exists_start_writeScalar isWritten
  exact startsInk_of_startsScalar starts (more ++ after)

theorem readValue?_numeric {c : Char} (starts : c = '-' ∨ c.isDigit) (fuel depth : Nat) (more : Text) :
    readValue? (fuel + 1) depth (c :: more) = readNumeric? (c :: more) := by
  rcases starts with rfl | digit
  · rfl
  · have noQuote : (c == '"' || c == '\'') = false := by
      simp only [Bool.or_eq_false_iff, beq_eq_false_iff_ne]
      constructor <;> (rintro rfl; cases digit)
    rw [readValue?, noQuote]
    · simp [digit]
    all_goals
      rintro rfl
      cases digit

theorem readValue?_of_writeScalar {value : Toml} {written rest : Text}
    (isWritten : writeScalar? value = some written) (ends : endsValue rest) (fuel depth : Nat) :
    readValue? (fuel + 1) depth (written ++ rest) = some (value, rest) := by
  rcases writeScalar?_cases isWritten with ⟨text, rfl, rfl⟩ | ⟨number, rfl, fits, rfl⟩ | ⟨flag, rfl, rfl⟩
  · have read := readString?_writeString text.toList ends
    obtain ⟨c, more, same, quote⟩ := exists_start_writeString text.toList
    rw [same, List.cons_append] at read ⊢
    rcases quote with rfl | rfl <;> simp [readValue?, read]
  · have read := readNumeric?_toString fits ends
    obtain ⟨c, more, same, digit⟩ := Json.exists_digit_toString number
    rw [same, List.cons_append] at read ⊢
    rw [readValue?_numeric digit.symm, read]
  · cases flag <;> rfl

/-! Arrays -/

/-- The lines of the items of an array. -/
def itemLines (items : List Text) : Text :=
  items.flatMap fun item => "    ".toList ++ item ++ [',', '\n']

/-- What can be written: an empty array, one item on the line of the array, a line for each item, or a
value without a value inside it. -/
theorem writeValue?_cases {value : Toml} {written : Text} (isWritten : writeValue? value = some written) :
    (value = .array [] ∧ written = ['[', ']']) ∨
      (∃ item first, value = .array [item] ∧ writeScalar? item = some first ∧
        written = '[' :: (first ++ [']'])) ∨
      (∃ items lines, value = .array items ∧ items.mapM writeScalar? = some lines ∧
        written = '[' :: '\n' :: (itemLines lines ++ [']'])) ∨
      writeScalar? value = some written := by
  unfold writeValue? at isWritten
  split at isWritten
  case h_1 => exact .inl ⟨rfl, (Option.some.inj isWritten).symm⟩
  case h_2 item =>
    obtain ⟨first, isFirst, rfl⟩ := Option.map_eq_some_iff.mp isWritten
    exact .inr (.inl ⟨item, first, rfl, isFirst, rfl⟩)
  case h_3 items _ _ =>
    obtain ⟨lines, areLines, isWritten⟩ := Option.bind_eq_some_iff.mp isWritten
    exact .inr (.inr (.inl ⟨items, lines, rfl, areLines, (Option.some.inj isWritten).symm⟩))
  case h_4 => exact .inr (.inr (.inr isWritten))

theorem startsInk_of_writeValue {value : Toml} {written : Text}
    (isWritten : writeValue? value = some written) (after : Text) : startsInk (written ++ after) := by
  rcases writeValue?_cases isWritten with ⟨-, rfl⟩ | ⟨_, _, -, -, rfl⟩ | ⟨_, _, -, -, rfl⟩ | isScalar
  · rfl
  · rfl
  · rfl
  · exact startsInk_of_writeScalar isScalar after

theorem readItems?_item {item : Toml} {written after : Text} (isWritten : writeScalar? item = some written)
    (ends : endsValue after) (fuel depth : Nat) :
    readItems? (fuel + 2) depth (written ++ after) =
      (match skipLines (fuel + 2) after with
      | ',' :: rest => do
        let (items, rest) ← readItems? (fuel + 1) depth (skipLines (fuel + 2) rest)
        return (item :: items, rest)
      | ']' :: rest => return ([item], rest)
      | _ => none) := by
  obtain ⟨c, more, same, starts⟩ := exists_start_writeScalar isWritten
  have read := readValue?_of_writeScalar isWritten ends fuel depth
  rw [same, List.cons_append] at read ⊢
  rw [readItems?, read]
  · rfl
  · rintro more ⟨⟩
    cases starts

theorem readItems?_lines {items : List Toml} {written : List Text}
    (isWritten : items.mapM writeScalar? = some written) (rest : Text) (fuel depth bound : Nat)
    (enough : written.length + 1 < fuel) :
    readItems? fuel depth (skipLines (bound + 1) (itemLines written ++ ']' :: rest)) =
      some (items, rest) := by
  induction items generalizing written fuel bound with
  | nil =>
    cases isWritten
    obtain ⟨fuel, rfl⟩ := Nat.exists_eq_add_one.mpr (Nat.zero_lt_of_lt enough)
    rfl
  | cons item items ih =>
    rw [List.mapM_cons] at isWritten
    obtain ⟨first, isFirst, isWritten⟩ := Option.bind_eq_some_iff.mp isWritten
    obtain ⟨others, areOthers, isWritten⟩ := Option.bind_eq_some_iff.mp isWritten
    cases isWritten
    rw [List.length_cons] at enough
    obtain ⟨fuel, rfl⟩ : ∃ more, fuel = more + 2 := ⟨fuel - 2, by omega⟩
    let after := itemLines others ++ ']' :: rest
    have line : itemLines (first :: others) ++ ']' :: rest =
        ' ' :: ' ' :: ' ' :: ' ' :: (first ++ ',' :: '\n' :: after) := by
      simp [itemLines, after]
    have ink : startsInk (first ++ ',' :: '\n' :: after) := startsInk_of_writeScalar isFirst _
    have next := ih areOthers (fuel + 1) fuel (by omega)
    rw [line, skipLines_indented ink, readItems?_item isFirst rfl,
      skipLines_of_ink (show startsInk (',' :: '\n' :: after) from rfl)]
    simp only [skipLines_lineEnd, after, next]
    rfl

theorem readValue?_array {items : List Toml} {text rest : Text} {fuel depth : Nat}
    (read : readItems? fuel depth (skipLines (fuel + 1) text) = some (items, rest)) :
    readValue? (fuel + 1) (depth + 1) ('[' :: text) = some (.array items, rest) := by
  rw [readValue?]
  simp [read]

theorem length_le_length_itemLines (items : List Text) : items.length ≤ (itemLines items).length := by
  induction items with
  | nil => exact Nat.le_refl _
  | cons item items ih =>
    have line : itemLines (item :: items) = "    ".toList ++ item ++ [',', '\n'] ++ itemLines items := by
      simp [itemLines]
    rw [line, List.length_append, List.length_append, List.length_cons]
    simp only [List.length_cons]
    omega

/-- A value is read as it was written. -/
theorem readValue?_of_writeValue {value : Toml} {written rest : Text}
    (isWritten : writeValue? value = some written) (ends : endsValue rest) (fuel depth : Nat)
    (enough : written.length ≤ fuel) :
    readValue? (fuel + 1) (depth + 1) (written ++ rest) = some (value, rest) := by
  rcases writeValue?_cases isWritten with ⟨rfl, rfl⟩ | ⟨item, first, rfl, isFirst, rfl⟩ |
    ⟨items, lines, rfl, areLines, rfl⟩ | isScalar
  · obtain ⟨fuel, rfl⟩ := Nat.exists_eq_add_one.mpr (Nat.zero_lt_of_lt enough)
    rfl
  · simp only [List.length_cons, List.length_append, List.length_nil] at enough
    obtain ⟨fuel, rfl⟩ : ∃ more, fuel = more + 2 := ⟨fuel - 2, by omega⟩
    have ink : startsInk (first ++ ']' :: rest) := startsInk_of_writeScalar isFirst _
    have items : readItems? (fuel + 2) depth (skipLines (fuel + 3) (first ++ ']' :: rest)) =
        some ([item], rest) := by
      rw [skipLines_of_ink ink, readItems?_item isFirst rfl,
        skipLines_of_ink (show startsInk (']' :: rest) from rfl)]
      rfl
    simpa using readValue?_array items
  · have shorter := length_le_length_itemLines lines
    simp only [List.length_cons, List.length_append, List.length_nil] at enough
    obtain ⟨fuel, rfl⟩ : ∃ more, fuel = more + 1 := ⟨fuel - 1, by omega⟩
    have read : readItems? (fuel + 1) depth
        (skipLines (fuel + 2) ('\n' :: (itemLines lines ++ ']' :: rest))) = some (items, rest) := by
      rw [skipLines_lineEnd]
      exact readItems?_lines areLines rest (fuel + 1) depth fuel (by omega)
    simpa using readValue?_array read
  · exact readValue?_of_writeScalar isScalar ends fuel (depth + 1)

end DepAtlas.Toml
