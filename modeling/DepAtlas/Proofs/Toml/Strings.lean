import DepAtlas.Toml.Printer
import DepAtlas.Toml.Strings

/-!
A string is read as it was written, in each of the four forms. What may stand between the marks of a string,
and which text it stands for, is one relation for all forms: the writer keeps to it and the readers follow it.
-/

namespace DepAtlas.Toml

namespace StringForm

/-- The quotation mark of a form. -/
def mark : StringForm → Char
  | basic => '"'
  | literal => '\''
  | tripleBasic => '"'
  | tripleLiteral => '\''

/-- Whether a backslash starts an escape. -/
def hasEscapes : StringForm → Bool
  | basic => true
  | literal => false
  | tripleBasic => true
  | tripleLiteral => false

/-- Number of quotation marks that may stand side by side inside a string. -/
def marksInside (form : StringForm) : Nat :=
  if form.spansLines then 2 else 0

theorem marksInside_le (form : StringForm) : form.marksInside ≤ 2 := by
  rw [marksInside]
  split <;> decide

theorem mark_ne_lineEnd (form : StringForm) : form.mark ≠ '\n' := by cases form <;> decide

theorem mark_ne_return (form : StringForm) : form.mark ≠ '\r' := by cases form <;> decide

theorem mark_ne_backslash (form : StringForm) : form.mark ≠ '\\' := by cases form <;> decide

theorem isPlain_mark (form : StringForm) : isPlain form.mark := by cases form <;> decide

end StringForm

/-- `Spells form marks text written` says that `written` stands for `text` inside a string of a form, after
`marks` quotation marks that stand side by side. -/
inductive Spells (form : StringForm) : Nat → Text → Text → Prop
  | nil (marks : Nat) : Spells form marks [] []
  | mark {marks : Nat} {text written : Text} (fewer : marks < form.marksInside)
      (rest : Spells form (marks + 1) text written) :
      Spells form marks (form.mark :: text) (form.mark :: written)
  | lineEnd {marks : Nat} {text written : Text} (spans : form.spansLines)
      (rest : Spells form 0 text written) : Spells form marks ('\n' :: text) ('\n' :: written)
  | plain {marks : Nat} {c : Char} {text written : Text} (isPlain : isPlain c) (notMark : c ≠ form.mark)
      (notEscape : form.hasEscapes → c ≠ '\\') (rest : Spells form 0 text written) :
      Spells form marks (c :: text) (c :: written)
  | escape {marks : Nat} {c : Char} {code text written : Text} (escapes : form.hasEscapes)
      (reads : ∀ more, readEscape? (code ++ more) = some (c, more)) (rest : Spells form 0 text written) :
      Spells form marks (c :: text) ('\\' :: (code ++ written))

theorem lineEnd?_cons_of_ne {c : Char} (rest : Text) (feed : c ≠ '\n') (return' : c ≠ '\r') :
    lineEnd? (c :: rest) = none := by
  rw [lineEnd?]
  · rintro other ⟨⟩
    exact feed rfl
  · rintro other ⟨⟩
    exact return' rfl

theorem ne_of_isPlain {c : Char} (plain : isPlain c) : c ≠ '\n' ∧ c ≠ '\r' := by
  constructor <;> (rintro rfl; revert plain; decide)

theorem skipBlanks_cons_of_ne {c : Char} (rest : Text) (ink : Text.isIndent c = false) :
    skipBlanks (c :: rest) = c :: rest := by
  simp [skipBlanks, ink]

/-- Neither a blank nor a line end follows the backslash of an escape. -/
theorem lineEnd?_skipBlanks_of_escape {text rest : Text} {c : Char}
    (escape : readEscape? text = some (c, rest)) : lineEnd? (skipBlanks text) = none := by
  cases text with
  | nil => cases escape
  | cons d more =>
    have ink : Text.isIndent d = false := by
      simp only [Text.isIndent, Bool.or_eq_false_iff, beq_eq_false_iff_ne]
      constructor <;> (rintro rfl; cases escape)
    rw [skipBlanks_cons_of_ne more ink]
    apply lineEnd?_cons_of_ne <;> (rintro rfl; cases escape)

namespace Spells

variable {form : StringForm} {marks : Nat} {text written : Text}

theorem length_le (spells : Spells form marks text written) : text.length ≤ written.length := by
  induction spells with
  | nil => simp
  | mark _ _ ih => simpa using ih
  | lineEnd _ _ ih => simpa using ih
  | plain _ _ _ _ ih => simpa using ih
  | escape _ _ _ ih =>
    simp only [List.length_cons, List.length_append]
    omega

/-- A string that does not run over lines does not start with its quotation mark. -/
theorem head_ne_mark (spells : Spells form marks text written) (single : form.spansLines = false) :
    written.head? ≠ some form.mark := by
  have inside : form.marksInside = 0 := by rw [StringForm.marksInside, single]; rfl
  cases spells with
  | nil => simp
  | mark fewer => omega
  | lineEnd spans => rw [single] at spans; cases spans
  | plain _ notMark => simpa using notMark
  | escape => simpa using form.mark_ne_backslash.symm

/-- Only a line end is written as one. -/
theorem lineEnd?_eq_none (spells : Spells form marks text written) (unbroken : '\n' ∉ text) (rest : Text) :
    lineEnd? (written ++ form.mark :: rest) = none := by
  cases spells with
  | nil => exact lineEnd?_cons_of_ne _ form.mark_ne_lineEnd form.mark_ne_return
  | mark => exact lineEnd?_cons_of_ne _ form.mark_ne_lineEnd form.mark_ne_return
  | lineEnd => exact absurd List.mem_cons_self unbroken
  | plain plain => exact lineEnd?_cons_of_ne _ (ne_of_isPlain plain).1 (ne_of_isPlain plain).2
  | escape => exact lineEnd?_cons_of_ne _ (by decide) (by decide)

end Spells

/-! What is read -/

theorem readBasic?_of_spells {marks : Nat} {text written : Text} (spells : Spells .basic marks text written)
    (fuel : Nat) (read rest : Text) (enough : text.length < fuel) :
    readBasic? fuel read (written ++ '"' :: rest) = some (read.reverse ++ text, rest) := by
  induction spells generalizing fuel read with
  | nil =>
    obtain ⟨fuel, rfl⟩ := Nat.exists_eq_add_one.mpr (Nat.zero_lt_of_lt enough)
    simp [readBasic?]
  | mark fewer => exact absurd fewer (Nat.not_lt_zero _)
  | lineEnd spans => cases spans
  | plain plain notMark notEscape _ ih =>
    obtain ⟨fuel, rfl⟩ := Nat.exists_eq_add_one.mpr (Nat.zero_lt_of_lt enough)
    rw [List.cons_append, readBasic?, if_pos plain, ih fuel _ (by simpa using enough)]
    · simp
    · exact notMark
    · exact notEscape rfl
  | @escape _ c _ _ _ _ reads _ ih =>
    obtain ⟨fuel, rfl⟩ := Nat.exists_eq_add_one.mpr (Nat.zero_lt_of_lt enough)
    have others := ih fuel (c :: read) (by simpa using enough)
    rw [List.cons_append, List.append_assoc, readBasic?, reads]
    simp [others]

theorem readLiteral?_of_spells {marks : Nat} {text written : Text}
    (spells : Spells .literal marks text written) (rest : Text) :
    readLiteral? (written ++ '\'' :: rest) = some (text, rest) := by
  have same : written = text ∧ ∀ c ∈ text, (isPlain c && c != '\'') = true := by
    induction spells with
    | nil => exact ⟨rfl, nofun⟩
    | mark fewer => exact absurd fewer (Nat.not_lt_zero _)
    | lineEnd spans => cases spans
    | plain plain notMark _ _ ih =>
      refine ⟨by rw [ih.1], ?_⟩
      intro c member
      rcases List.mem_cons.mp member with rfl | member
      · simpa [plain] using show c ≠ '\'' from notMark
      · exact ih.2 c member
    | escape escapes => cases escapes
  rw [same.1, readLiteral?, List.takeWhile_append_of_pos same.2, List.takeWhile_cons_of_neg (by decide),
    List.append_nil]
  simp only [List.drop_left]

/-- Number of quotation marks at the front of a text. -/
def marksBefore (form : StringForm) (text : Text) : Nat :=
  (text.takeWhile (· == form.mark)).length

theorem marksBefore_mark (form : StringForm) (text : Text) :
    marksBefore form (form.mark :: text) = marksBefore form text + 1 := by
  simp [marksBefore]

theorem marksBefore_of_ne {form : StringForm} {c : Char} (text : Text) (other : c ≠ form.mark) :
    marksBefore form (c :: text) = 0 := by
  simp [marksBefore, other]

theorem marksBefore_of_head_ne {form : StringForm} {text : Text} (other : text.head? ≠ some form.mark) :
    marksBefore form text = 0 := by
  cases text with
  | nil => rfl
  | cons c text => exact marksBefore_of_ne text (by simpa using other)

/-- The closing marks of a string that may run over lines, and what stands after them. -/
def StringForm.closing (form : StringForm) (rest : Text) : Text :=
  form.mark :: form.mark :: form.mark :: rest

theorem marksBefore_closing {form : StringForm} {rest : Text} (other : rest.head? ≠ some form.mark) :
    marksBefore form (form.closing rest) = 3 := by
  simp only [StringForm.closing, marksBefore_mark, marksBefore_of_head_ne other]

/-- Quotation marks inside a string are at most two side by side, and at most five with the closing ones. -/
theorem Spells.marksBefore_le {form : StringForm} {marks : Nat} {text written rest : Text}
    (spells : Spells form marks text written) (few : marks ≤ 2) (other : rest.head? ≠ some form.mark) :
    marksBefore form (written ++ form.closing rest) + marks ≤ 2 ∨
      (3 ≤ marksBefore form (written ++ form.closing rest) ∧
        marksBefore form (written ++ form.closing rest) + marks ≤ 5) := by
  induction spells with
  | nil =>
    rw [List.nil_append, marksBefore_closing other]
    omega
  | mark fewer _ ih =>
    have inside := form.marksInside_le
    have runs := ih (by omega)
    rw [List.cons_append, marksBefore_mark]
    omega
  | lineEnd =>
    rw [List.cons_append, marksBefore_of_ne _ form.mark_ne_lineEnd.symm]
    omega
  | plain _ notMark =>
    rw [List.cons_append, marksBefore_of_ne _ notMark]
    omega
  | escape =>
    rw [List.cons_append, marksBefore_of_ne _ form.mark_ne_backslash.symm]
    omega

theorem readTriple?_of_marks {form : StringForm} {text : Text} (closes : 3 ≤ marksBefore form text)
    (fuel : Nat) (read : Text) :
    readTriple? form.mark form.hasEscapes (fuel + 1) read text =
      some ((List.replicate (min (marksBefore form text - 3) 2) form.mark ++ read).reverse,
        text.drop (min (marksBefore form text - 3) 2 + 3)) := by
  unfold readTriple?
  exact if_pos closes

theorem readTriple?_lineEnd (form : StringForm) (fuel : Nat) (read rest : Text) :
    readTriple? form.mark form.hasEscapes (fuel + 1) read ('\n' :: rest) =
      readTriple? form.mark form.hasEscapes fuel ('\n' :: read) rest := by
  have none := marksBefore_of_ne rest form.mark_ne_lineEnd.symm
  rw [readTriple?, if_neg (by rw [← marksBefore, none]; decide)]
  rfl

theorem readTriple?_plain {form : StringForm} {c : Char} {rest : Text} (plain : isPlain c)
    (notEscape : form.hasEscapes → c ≠ '\\') (open' : marksBefore form (c :: rest) < 3) (fuel : Nat)
    (read : Text) :
    readTriple? form.mark form.hasEscapes (fuel + 1) read (c :: rest) =
      readTriple? form.mark form.hasEscapes fuel (c :: read) rest := by
  have ends := lineEnd?_cons_of_ne rest (ne_of_isPlain plain).1 (ne_of_isPlain plain).2
  have unescaped : (form.hasEscapes && c == '\\') = false := by
    simpa using notEscape
  rw [readTriple?, if_neg (by rw [← marksBefore]; omega), ends]
  simp [unescaped, plain]

theorem readTriple?_escape {form : StringForm} {c : Char} {code rest : Text} (escapes : form.hasEscapes)
    (reads : ∀ more, readEscape? (code ++ more) = some (c, more)) (fuel : Nat) (read : Text) :
    readTriple? form.mark form.hasEscapes (fuel + 1) read ('\\' :: (code ++ rest)) =
      readTriple? form.mark form.hasEscapes fuel (c :: read) rest := by
  have none := marksBefore_of_ne (code ++ rest) form.mark_ne_backslash.symm
  have ends := lineEnd?_cons_of_ne (c := '\\') (code ++ rest) (by decide) (by decide)
  rw [readTriple?, if_neg (by rw [← marksBefore, none]; decide), ends]
  simp [escapes, lineEnd?_skipBlanks_of_escape (reads rest), reads]

/-- A quotation mark is read by itself or, where the string ends, with the closing marks. -/
theorem readTriple?_mark {form : StringForm} {rest : Text}
    (runs : marksBefore form rest ≤ 1 ∨ (3 ≤ marksBefore form rest ∧ marksBefore form rest ≤ 4))
    (fuel : Nat) (read : Text) :
    readTriple? form.mark form.hasEscapes (fuel + 2) read (form.mark :: rest) =
      readTriple? form.mark form.hasEscapes (fuel + 1) (form.mark :: read) rest := by
  have one := marksBefore_mark form rest
  rcases runs with inside | ⟨closes, few⟩
  · exact readTriple?_plain form.isPlain_mark (fun _ => form.mark_ne_backslash) (by omega) _ _
  · obtain ⟨inner, size⟩ : ∃ inner, marksBefore form rest = inner + 3 :=
      ⟨marksBefore form rest - 3, by omega⟩
    have shorter : min inner 2 = inner := by omega
    have longer : min (inner + 1) 2 = inner + 1 := by omega
    rw [readTriple?_of_marks (by omega), readTriple?_of_marks closes, one, size]
    simp only [Nat.add_sub_cancel, Nat.add_right_comm inner 3 1, shorter, longer, List.replicate_succ',
      List.append_assoc, List.singleton_append, List.drop_succ_cons]

theorem readTriple?_of_spells {form : StringForm} {marks : Nat} {text written rest : Text}
    (spells : Spells form marks text written) (few : marks ≤ 2) (other : rest.head? ≠ some form.mark)
    (fuel : Nat) (read : Text) (enough : text.length < fuel) :
    readTriple? form.mark form.hasEscapes fuel read (written ++ form.closing rest) =
      some (read.reverse ++ text, rest) := by
  induction spells generalizing fuel read with
  | nil =>
    obtain ⟨fuel, rfl⟩ := Nat.exists_eq_add_one.mpr (Nat.zero_lt_of_lt enough)
    have three := marksBefore_closing other
    rw [List.nil_append, readTriple?_of_marks (Nat.le_of_eq three.symm), three]
    simp [StringForm.closing]
  | mark fewer spelled ih =>
    rw [List.length_cons] at enough
    obtain ⟨fuel, rfl⟩ : ∃ more, fuel = more + 2 := ⟨fuel - 2, by omega⟩
    have inside := form.marksInside_le
    have runs := spelled.marksBefore_le (by omega) other
    rw [List.cons_append, readTriple?_mark (by omega), ih (by omega) _ _ (by omega)]
    simp
  | lineEnd _ _ ih =>
    obtain ⟨fuel, rfl⟩ := Nat.exists_eq_add_one.mpr (Nat.zero_lt_of_lt enough)
    rw [List.cons_append, readTriple?_lineEnd, ih (by decide) _ _ (by simpa using enough)]
    simp
  | @plain _ _ _ written plain notMark notEscape _ ih =>
    obtain ⟨fuel, rfl⟩ := Nat.exists_eq_add_one.mpr (Nat.zero_lt_of_lt enough)
    have none := marksBefore_of_ne (written ++ form.closing rest) notMark
    rw [List.cons_append, readTriple?_plain plain notEscape (by omega),
      ih (by decide) _ _ (by simpa using enough)]
    simp
  | escape escapes reads _ ih =>
    obtain ⟨fuel, rfl⟩ := Nat.exists_eq_add_one.mpr (Nat.zero_lt_of_lt enough)
    rw [List.cons_append, List.append_assoc, readTriple?_escape escapes reads,
      ih (by decide) _ _ (by simpa using enough)]
    simp

/-! What is written -/

theorem hexValue?_digit : ∀ digit < 16, Json.hexValue?
    (if digit < 10 then Char.ofNat (48 + digit) else Char.ofNat (55 + digit)) = some digit := by
  decide

theorem readHexDigits?_hexDigits4 {code : Nat} (small : code < 65536) (rest : Text) :
    readHexDigits? 4 0 (hexDigits4 code ++ rest) = some (code, rest) := by
  have digit (value : Nat) := hexValue?_digit (value % 16) (Nat.mod_lt _ (by decide))
  simp only [hexDigits4, List.map_cons, List.map_nil, List.cons_append, List.nil_append, readHexDigits?,
    digit, Option.bind_some, Option.some.injEq, Prod.mk.injEq, and_true]
  omega

theorem readEscape?_unicode {c : Char} (coded : needsEscape c) (rest : Text) :
    readEscape? ('u' :: hexDigits4 c.toNat ++ rest) = some (c, rest) := by
  have small : c.toNat < 128 := by
    simp only [needsEscape, Bool.and_eq_true, Bool.or_eq_true, decide_eq_true_eq, beq_iff_eq] at coded
    omega
  have char : charOf? c.toNat = some c := by
    rw [charOf?, if_pos (Or.inl (by omega)), Char.ofNat_toNat]
  simp [readEscape?, readHexDigits?_hexDigits4 (show c.toNat < 65536 by omega), char]

theorem escape?_reads {form : StringForm} {quotes : Nat} {c : Char} {escape : Text}
    (escaped : escape? form quotes c = some escape) :
    ∃ code, escape = '\\' :: code ∧ ∀ more, readEscape? (code ++ more) = some (c, more) := by
  by_cases special : c ∈ ['"', '\n', '\t', '\\', '\x08', '\x0c', '\r']
  · simp only [List.mem_cons, List.not_mem_nil, or_false] at special
    rcases special with rfl | rfl | rfl | rfl | rfl | rfl | rfl
    · obtain ⟨-, rfl⟩ : form.quotesAllowed ≤ quotes ∧ ['\\', '"'] = escape := by
        simpa [escape?] using escaped
      exact ⟨_, rfl, fun _ => rfl⟩
    · obtain ⟨-, rfl⟩ : form.spansLines = false ∧ ['\\', 'n'] = escape := by simpa [escape?] using escaped
      exact ⟨_, rfl, fun _ => rfl⟩
    all_goals
      cases escaped
      exact ⟨_, rfl, fun _ => rfl⟩
  · simp only [List.mem_cons, List.not_mem_nil, or_false, not_or] at special
    obtain ⟨quote, newline, tab, backslash, backspace, formFeed, return'⟩ := special
    simp only [escape?, beq_iff_eq, quote, newline, tab, backslash, backspace, formFeed, return', if_false,
      Option.ite_none_right_eq_some, Option.some.injEq] at escaped
    obtain ⟨coded, rfl⟩ := escaped
    exact ⟨_, rfl, readEscape?_unicode coded⟩

theorem isPlain_of_uncoded {c : Char} (uncoded : needsEscape c = false) (newline : c ≠ '\n') :
    isPlain c := by
  simp only [isPlain, Bool.or_eq_true, beq_iff_eq, Bool.and_eq_true, decide_eq_true_eq, bne_iff_ne]
  by_cases tab : c = '\t'
  · exact Or.inl tab
  · have visible : ¬(c.toNat < 32 ∨ c.toNat = 127) := by simpa [needsEscape, tab, newline] using uncoded
    omega

/-- What is not escaped may stand as it is. -/
theorem of_escape?_eq_none {form : StringForm} {quotes : Nat} {c : Char}
    (plain : escape? form quotes c = none) :
    (c = '"' ∧ quotes < form.quotesAllowed) ∨ (c = '\n' ∧ form.spansLines) ∨
      (isPlain c ∧ c ≠ '"' ∧ c ≠ '\\') := by
  by_cases quote : c = '"'
  · subst quote
    exact Or.inl ⟨rfl, by simpa [escape?] using plain⟩
  by_cases newline : c = '\n'
  · subst newline
    exact Or.inr (Or.inl ⟨rfl, by simpa [escape?] using plain⟩)
  have backslash : c ≠ '\\' := by
    rintro rfl
    cases plain
  have uncoded : needsEscape c = false := by
    apply eq_false_of_ne_true
    intro coded
    revert plain
    simp only [escape?, beq_iff_eq, quote, newline, if_false, coded, if_true]
    repeat' split
    all_goals nofun
  exact Or.inr (Or.inr ⟨isPlain_of_uncoded uncoded newline, quote, backslash⟩)

theorem spells_writeEscaped {form : StringForm} (escapes : form.hasEscapes) (quotes : Nat) (text : Text) :
    Spells form quotes text (writeEscaped form quotes text) := by
  have mark : form.mark = '"' := by cases form <;> first | rfl | cases escapes
  have inside : form.quotesAllowed = form.marksInside := by cases form <;> first | rfl | cases escapes
  induction text generalizing quotes with
  | nil => exact .nil quotes
  | cons c text ih =>
    rw [writeEscaped]
    split
    case h_1 escape escaped =>
      obtain ⟨code, rfl, reads⟩ := escape?_reads escaped
      exact .escape escapes reads (ih 0)
    case h_2 plain =>
      rcases of_escape?_eq_none plain with ⟨rfl, fewer⟩ | ⟨rfl, spans⟩ | ⟨plain, quote, backslash⟩
      · rw [← mark] at plain ⊢
        rw [inside] at fewer
        simpa using Spells.mark fewer (ih (quotes + 1))
      · exact .lineEnd spans (ih 0)
      · rw [if_neg (by simpa using quote)]
        exact .plain plain (mark ▸ quote) (fun _ => backslash) (ih 0)

/-! The form that is chosen -/

/-- The longest run and the run at the end, after one more character. -/
def runStep (c : Char) (runs : Nat × Nat) (d : Char) : Nat × Nat :=
  let current := if d == c then runs.2 + 1 else 0
  (max runs.1 current, current)

theorem longestRun_eq (c : Char) (text : Text) : longestRun c text = (text.foldl (runStep c) (0, 0)).1 :=
  rfl

theorem le_foldl_runStep (c : Char) (text : Text) (runs : Nat × Nat) :
    runs.1 ≤ (text.foldl (runStep c) runs).1 := by
  induction text generalizing runs with
  | nil => exact Nat.le_refl _
  | cons d text ih => exact Nat.le_trans (Nat.le_max_left _ _) (ih (runStep c runs d))

/-- A text without control characters and without longer runs of quotation marks may stand as it is. -/
theorem spells_self {form : StringForm} (raw : form.hasEscapes = false) {text : Text}
    (uncoded : text.any needsEscape = false) (broken : '\n' ∈ text → form.spansLines)
    (runs : Nat × Nat) (few : (text.foldl (runStep form.mark) runs).1 ≤ form.marksInside) :
    Spells form runs.2 text text := by
  induction text generalizing runs with
  | nil => exact .nil _
  | cons c text ih =>
    rw [List.any_cons, Bool.or_eq_false_iff] at uncoded
    have rest := ih uncoded.2 (fun member => broken (List.mem_cons_of_mem _ member))
      (runStep form.mark runs c) few
    have bound := Nat.le_trans (le_foldl_runStep form.mark text (runStep form.mark runs c)) few
    by_cases quote : c = form.mark
    · subst quote
      simp only [runStep, beq_self_eq_true, if_true] at rest bound
      exact .mark (by omega) rest
    · simp only [runStep, beq_iff_eq, quote, if_false] at rest
      by_cases newline : c = '\n'
      · subst newline
        exact .lineEnd (broken List.mem_cons_self) rest
      · exact .plain (isPlain_of_uncoded uncoded.1 newline) quote (by simp [raw]) rest

namespace StringForm

/-- A form without escapes is only chosen for a text that needs none. -/
theorem ofText_raw {text : Text} (raw : (ofText text).hasEscapes = false) :
    text.any needsEscape = false ∧ ('\n' ∈ text → (ofText text).spansLines) ∧
      longestRun (ofText text).mark text ≤ (ofText text).marksInside := by
  revert raw
  simp only [ofText]
  split
  case isTrue => nofun
  split
  case isTrue literal =>
    simp only [Bool.and_eq_true, Bool.not_eq_true', beq_iff_eq] at literal
    intro _
    refine ⟨literal.1.1, ?_, Nat.le_of_eq literal.1.2⟩
    intro newline
    rw [List.contains_eq_mem, decide_eq_false_iff_not] at literal
    exact absurd newline literal.2
  split
  case isTrue => nofun
  split
  case isTrue literal =>
    simp only [Bool.and_eq_true, Bool.not_eq_true', decide_eq_true_eq] at literal
    exact fun _ => ⟨literal.1, fun _ => rfl, literal.2⟩
  split <;> nofun

end StringForm

/-- A string without its marks. -/
def bodyIn (form : StringForm) (text : Text) : Text :=
  if form.hasEscapes then writeEscaped form 0 text else text

theorem spells_bodyIn (text : Text) :
    Spells (StringForm.ofText text) 0 text (bodyIn (StringForm.ofText text) text) := by
  rw [bodyIn]
  split
  case isTrue escapes => exact spells_writeEscaped escapes 0 text
  case isFalse raw =>
    obtain ⟨uncoded, broken, few⟩ := StringForm.ofText_raw (eq_false_of_ne_true raw)
    rw [longestRun_eq] at few
    exact spells_self (eq_false_of_ne_true raw) uncoded broken (0, 0) few

theorem writeIn_single {form : StringForm} (single : form.spansLines = false) (text rest : Text) :
    writeIn form text ++ rest = form.mark :: (bodyIn form text ++ form.mark :: rest) := by
  have plain (body : Text) (mark : Char) :
      [mark] ++ [] ++ body ++ [mark] ++ rest = mark :: (body ++ mark :: rest) := by
    simp
  cases form with
  | basic => exact plain (writeEscaped .basic 0 text) '"'
  | literal => exact plain text '\''
  | tripleBasic => cases single
  | tripleLiteral => cases single

theorem writeIn_triple {form : StringForm} (spans : form.spansLines) (text rest : Text) :
    writeIn form text ++ rest = form.mark :: form.mark :: form.mark ::
      ((if text.contains '\n' then ['\n'] else []) ++ bodyIn form text ++ form.closing rest) := by
  have plain (opening body : Text) (mark : Char) :
      [mark, mark, mark] ++ opening ++ body ++ [mark, mark, mark] ++ rest =
        mark :: mark :: mark :: (opening ++ body ++ mark :: mark :: mark :: rest) := by
    simp
  cases form with
  | basic => cases spans
  | literal => cases spans
  | tripleBasic => exact plain _ (writeEscaped .tripleBasic 0 text) '"'
  | tripleLiteral => exact plain _ text '\''

theorem readString?_single {form : StringForm} (single : form.spansLines = false) {text written rest : Text}
    (spells : Spells form 0 text written) (other : rest.head? ≠ some form.mark) :
    readString? (form.mark :: (written ++ form.mark :: rest)) = some (text, rest) := by
  have notTriple (more : Text) : written ++ form.mark :: rest ≠ form.mark :: form.mark :: more := by
    have head := spells.head_ne_mark single
    intro same
    cases written with
    | nil =>
      rw [List.nil_append, List.cons.injEq] at same
      exact other (by rw [same.2, List.head?_cons])
    | cons c written =>
      rw [List.cons_append, List.cons.injEq] at same
      exact head (by rw [same.1, List.head?_cons])
  have enough : text.length < (written ++ form.mark :: rest).length + 1 := by
    have shorter := spells.length_le
    rw [List.length_append]
    omega
  cases form with
  | basic =>
    have line : readString? ('"' :: (written ++ '"' :: rest)) =
        readBasic? ((written ++ '"' :: rest).length + 1) [] (written ++ '"' :: rest) := by
      rw [readString?]
      · rfl
      · intro more same
        exact notTriple more (List.cons.inj same).2
      · nofun
    exact line.trans (readBasic?_of_spells spells _ [] rest enough)
  | literal =>
    have line : readString? ('\'' :: (written ++ '\'' :: rest)) =
        readLiteral? (written ++ '\'' :: rest) := by
      rw [readString?]
      · rfl
      · nofun
      · intro more same
        exact notTriple more (List.cons.inj same).2
    exact line.trans (readLiteral?_of_spells spells rest)
  | tripleBasic => cases single
  | tripleLiteral => cases single

theorem readString?_triple {form : StringForm} (spans : form.spansLines) {text written rest : Text}
    (spells : Spells form 0 text written) (other : rest.head? ≠ some form.mark) (opening : Text)
    (opened : opening = if text.contains '\n' then ['\n'] else []) :
    readString? (form.mark :: form.mark :: form.mark :: (opening ++ written ++ form.closing rest)) =
      some (text, rest) := by
  have skipped :
      skipFirstLineEnd (opening ++ written ++ form.closing rest) = written ++ form.closing rest := by
    rw [opened]
    split
    case isTrue => rfl
    case isFalse unbroken =>
      have none := spells.lineEnd?_eq_none (by simpa using unbroken) (form.mark :: form.mark :: rest)
      rw [List.nil_append, skipFirstLineEnd, StringForm.closing, none, Option.getD_none]
  have read := readTriple?_of_spells spells (by decide) other
    ((opening ++ written ++ form.closing rest).length + 1) [] (by
      have shorter := spells.length_le
      simp only [List.length_append]
      omega)
  rw [← skipped] at read
  cases form with
  | basic => cases spans
  | literal => cases spans
  | tripleBasic => exact read
  | tripleLiteral => exact read

/-- What may stand after a value: a line end, a comma or a closing bracket. -/
def endsValue : Text → Bool
  | c :: _ => c == '\n' || c == ',' || c == ']'
  | [] => false

theorem head_ne_mark_of_endsValue {rest : Text} (ends : endsValue rest) (form : StringForm) :
    rest.head? ≠ some form.mark := by
  cases rest with
  | nil => simp
  | cons c rest =>
    rw [List.head?_cons, ne_eq, Option.some.injEq]
    rintro rfl
    cases form <;> cases ends

/-- A string is read as it was written. -/
theorem readString?_writeString (text : Text) {rest : Text} (ends : endsValue rest) :
    readString? (writeString text ++ rest) = some (text, rest) := by
  have spells := spells_bodyIn text
  have other := head_ne_mark_of_endsValue ends (StringForm.ofText text)
  rw [writeString]
  cases spans : (StringForm.ofText text).spansLines with
  | false => rw [writeIn_single spans, readString?_single spans spells other]
  | true => rw [writeIn_triple spans, readString?_triple spans spells other _ rfl]

end DepAtlas.Toml
