import Mathlib.Data.List.Count
import DepAtlas.Extract.Body
import DepAtlas.Proofs.Text.Bytes

/-!
Definitions whose body stands between braces. A candidate is accepted exactly when a brace follows that is
outside parentheses, after a parameter list and before any `;`; its body ends at the brace that balances
all braces since then.
-/

namespace DepAtlas.DefinitionSpan

open Text.Utf8 (Stands)

/-- How often a character stands from one place up to another. -/
def occurrences (bytes : Bytes) (c : Char) (start stop : Nat) : Nat :=
  ((bytes.drop start).take (stop - start)).count c.toUInt8

/-- Is the least number with a property, or nothing if no number has it. -/
def IsFirst (holds : Nat → Prop) : Option Nat → Prop
  | some place => holds place ∧ ∀ earlier < place, ¬ holds earlier
  | none => ∀ place, ¬ holds place

/-- A brace that opens a body: it stands outside parentheses, after a parameter list, and neither a `;` nor
a brace outside parentheses comes before it. -/
structure OpensBody (bytes : Bytes) (start place : Nat) : Prop where
  after : start ≤ place
  brace : Stands bytes '\x7b' place
  nested : ∀ stop, start ≤ stop → stop ≤ place →
    occurrences bytes ')' start stop ≤ occurrences bytes '(' start stop
  balanced : occurrences bytes '(' start place = occurrences bytes ')' start place
  params : 0 < occurrences bytes '(' start place
  bare : ∀ stop, start ≤ stop → stop < place → Stands bytes ';' stop ∨ Stands bytes '\x7b' stop →
    occurrences bytes '(' start stop ≠ occurrences bytes ')' start stop

/-- A parenthesis after the name that closes all that were opened. -/
def ClosesParams (bytes : Bytes) (start nameEnd stop place : Nat) : Prop :=
  nameEnd < place ∧ place < stop ∧ Stands bytes ')' place ∧
    occurrences bytes '(' start (place + 1) = occurrences bytes ')' start (place + 1)

/-- A brace that balances all braces since the one that opens a body. -/
def ClosesBody (bytes : Bytes) (opening place : Nat) : Prop :=
  opening < place ∧ Stands bytes '\x7d' place ∧
    occurrences bytes '\x7b' opening (place + 1) = occurrences bytes '\x7d' opening (place + 1)

variable {bytes : Bytes} {start nameEnd offset : Nat} {signature : Signature} {c other : Char}

theorem occurrences_self (bytes : Bytes) (c : Char) (start : Nat) :
    occurrences bytes c start start = 0 := by
  rw [occurrences, Nat.sub_self, List.take_zero, List.count_nil]

theorem occurrences_succ (after : start ≤ offset) :
    occurrences bytes c start (offset + 1) =
      occurrences bytes c start offset + bytes[offset]?.toList.count c.toUInt8 := by
  have step : offset + 1 - start = offset - start + 1 := by omega
  have place : start + (offset - start) = offset := by omega
  rw [occurrences, step, List.take_add_one, List.count_append, List.getElem?_drop, place, occurrences]

theorem occurrences_of_stands (after : start ≤ offset) (stands : Stands bytes c offset) :
    occurrences bytes c start (offset + 1) = occurrences bytes c start offset + 1 := by
  rw [occurrences_succ after, stands]
  simp

theorem occurrences_of_not_stands (after : start ≤ offset) (differs : ¬ Stands bytes c offset) :
    occurrences bytes c start (offset + 1) = occurrences bytes c start offset := by
  rw [occurrences_succ after]
  cases here : bytes[offset]? with
  | none => rfl
  | some byte =>
    have apart : byte ≠ c.toUInt8 := fun same => differs (by rw [Stands, here, same])
    simp [apart]

theorem Stands.ne (stands : Stands bytes c offset) (apart : c.toUInt8 ≠ other.toUInt8) :
    ¬ Stands bytes other offset := by
  intro stands'
  rw [Stands, stands] at stands'
  exact apart (Option.some.inj stands')

theorem IsFirst.congr {holds other : Nat → Prop} {found : Option Nat} (first : IsFirst holds found)
    (same : ∀ place, other place ↔ holds place) : IsFirst other found := by
  have equal : other = holds := funext fun place => propext (same place)
  rwa [equal]

/-- When one more place is looked at, the first one stays, or it is the new place. -/
theorem IsFirst.extend {holds wider : Nat → Prop} {found : Option Nat} {last : Nat}
    (first : IsFirst holds found) (below : ∀ place, holds place → place < last)
    (same : ∀ place, wider place ↔ holds place ∨ place = last ∧ wider last) :
    IsFirst wider found ∧ (found.isSome ∨ ¬ wider last) ∨ found = none ∧ IsFirst wider (some last) := by
  cases found with
  | some place =>
    left
    have before := below place first.1
    refine ⟨⟨(same place).mpr (.inl first.1), fun earlier less => ?_⟩, .inl rfl⟩
    rw [same]
    rintro (old | ⟨rfl, -⟩)
    · exact first.2 earlier less old
    · omega
  | none =>
    by_cases new : wider last
    · right
      refine ⟨rfl, new, fun earlier less => ?_⟩
      rw [same]
      rintro (old | ⟨rfl, -⟩)
      · exact first earlier old
      · omega
    · left
      refine ⟨fun place => ?_, .inr new⟩
      rw [same]
      rintro (old | ⟨-, here⟩)
      · exact first place old
      · exact new here

theorem closesParams_succ (place : Nat) :
    ClosesParams bytes start nameEnd (offset + 1) place ↔
      ClosesParams bytes start nameEnd offset place ∨
        place = offset ∧ ClosesParams bytes start nameEnd (offset + 1) offset := by
  constructor
  · intro closes
    obtain ⟨after, before, stands, balanced⟩ := closes
    by_cases last : place = offset
    · subst last
      exact .inr ⟨rfl, after, before, stands, balanced⟩
    · exact .inl ⟨after, by omega, stands, balanced⟩
  · rintro (⟨after, before, stands, balanced⟩ | ⟨rfl, closes⟩)
    · exact ⟨after, by omega, stands, balanced⟩
    · exact closes

/-- What is known at an offset, as long as neither a body nor a refusal was met before it. -/
structure Scanned (bytes : Bytes) (start nameEnd offset : Nat) (signature : Signature) : Prop where
  after : start ≤ offset
  nested : ∀ stop, start ≤ stop → stop ≤ offset →
    occurrences bytes ')' start stop ≤ occurrences bytes '(' start stop
  depth : occurrences bytes '(' start offset = occurrences bytes ')' start offset + signature.depth
  params : signature.sawParams = true ↔ 0 < occurrences bytes '(' start offset
  bare : ∀ stop, start ≤ stop → stop < offset → Stands bytes ';' stop ∨ Stands bytes '\x7b' stop →
    occurrences bytes '(' start stop ≠ occurrences bytes ')' start stop
  paramsEnd : IsFirst (ClosesParams bytes start nameEnd offset) signature.paramsEnd

theorem scanned_start (bytes : Bytes) (ordered : start ≤ nameEnd) :
    Scanned bytes start nameEnd start {} where
  after := Nat.le_refl start
  nested stop after before := by
    obtain rfl : stop = start := by omega
    exact Nat.le_of_eq (by rw [occurrences_self, occurrences_self])
  depth := by
    rw [occurrences_self, occurrences_self]
    rfl
  params := by simp [occurrences_self]
  bare stop after before := by omega
  paramsEnd := by
    rintro place ⟨after, before, -, -⟩
    omega

namespace Scanned

theorem next (scanned : Scanned bytes start nameEnd offset signature) {next : Signature}
    (depth : occurrences bytes '(' start (offset + 1) =
      occurrences bytes ')' start (offset + 1) + next.depth)
    (params : next.sawParams = true ↔ 0 < occurrences bytes '(' start (offset + 1))
    (bare : Stands bytes ';' offset ∨ Stands bytes '\x7b' offset → signature.depth ≠ 0)
    (paramsEnd : IsFirst (ClosesParams bytes start nameEnd (offset + 1)) next.paramsEnd) :
    Scanned bytes start nameEnd (offset + 1) next where
  after := Nat.le_succ_of_le scanned.after
  nested stop after before := by
    by_cases last : stop = offset + 1
    · rw [last]
      omega
    · exact scanned.nested stop after (by omega)
  depth := depth
  params := params
  bare stop after before stands := by
    by_cases last : stop = offset
    · subst last
      have deep := bare stands
      have known := scanned.depth
      omega
    · exact scanned.bare stop after (by omega) stands
  paramsEnd := paramsEnd

/-- A byte that is no parenthesis is passed over, unless it is a `;` or a brace outside parentheses. -/
theorem skip (scanned : Scanned bytes start nameEnd offset signature)
    (noOpening : ¬ Stands bytes '(' offset) (noClosing : ¬ Stands bytes ')' offset)
    (bare : Stands bytes ';' offset ∨ Stands bytes '\x7b' offset → signature.depth ≠ 0) :
    Scanned bytes start nameEnd (offset + 1) signature := by
  have opened := occurrences_of_not_stands scanned.after noOpening
  have closed := occurrences_of_not_stands scanned.after noClosing
  refine scanned.next ?_ ?_ bare ?_
  · rw [opened, closed, scanned.depth]
  · rw [opened, scanned.params]
  · apply scanned.paramsEnd.congr
    intro place
    rw [closesParams_succ]
    constructor
    · rintro (old | ⟨-, -, -, stands, -⟩)
      · exact old
      · exact absurd stands noClosing
    · exact .inl

theorem skipTo (scanned : Scanned bytes start nameEnd offset signature) {stop : Nat}
    (after : offset ≤ stop)
    (plain : ∀ place, offset ≤ place → place < stop → ¬ Stands bytes '(' place ∧
      ¬ Stands bytes ')' place ∧
      (Stands bytes ';' place ∨ Stands bytes '\x7b' place → signature.depth ≠ 0)) :
    Scanned bytes start nameEnd stop signature := by
  obtain ⟨size, rfl⟩ := Nat.exists_eq_add_of_le after
  induction size with
  | zero => exact scanned
  | succ size ih =>
    have earlier := ih (Nat.le_add_right _ _) fun place after before =>
      plain place after (Nat.lt_succ_of_lt before)
    obtain ⟨noOpening, noClosing, bare⟩ :=
      plain (offset + size) (Nat.le_add_right _ _) (Nat.lt_succ_self _)
    exact earlier.skip noOpening noClosing bare

theorem opening (scanned : Scanned bytes start nameEnd offset signature)
    (stands : Stands bytes '(' offset) :
    Scanned bytes start nameEnd (offset + 1)
      { signature with depth := signature.depth + 1, sawParams := true } := by
  have noClosing : ¬ Stands bytes ')' offset := Stands.ne stands (by decide)
  have opened := occurrences_of_stands scanned.after stands
  have closed := occurrences_of_not_stands scanned.after noClosing
  have depth := scanned.depth
  refine scanned.next ?_ ?_ ?_ ?_
  · rw [opened, closed]
    dsimp only
    omega
  · rw [opened]
    simp
  · rintro (semicolon | brace)
    · exact absurd semicolon (Stands.ne stands (by decide))
    · exact absurd brace (Stands.ne stands (by decide))
  · apply scanned.paramsEnd.congr
    intro place
    rw [closesParams_succ]
    constructor
    · rintro (old | ⟨-, -, -, closes, -⟩)
      · exact old
      · exact absurd closes noClosing
    · exact .inl

theorem closing (scanned : Scanned bytes start nameEnd offset signature)
    (stands : Stands bytes ')' offset) {depth : Nat} (deep : signature.depth = depth + 1) :
    Scanned bytes start nameEnd (offset + 1)
      { signature with
        depth := depth
        paramsEnd :=
          if depth == 0 && signature.paramsEnd.isNone && nameEnd < offset then some offset
          else signature.paramsEnd } := by
  have noOpening : ¬ Stands bytes '(' offset := Stands.ne stands (by decide)
  have opened := occurrences_of_not_stands scanned.after noOpening
  have closed := occurrences_of_stands scanned.after stands
  have known := scanned.depth
  have balances : ClosesParams bytes start nameEnd (offset + 1) offset ↔
      nameEnd < offset ∧ depth = 0 := by
    rw [ClosesParams, opened, closed]
    constructor
    · rintro ⟨after, -, -, balanced⟩
      exact ⟨after, by omega⟩
    · rintro ⟨after, outside⟩
      exact ⟨after, Nat.lt_succ_self offset, stands, by omega⟩
  refine scanned.next ?_ ?_ ?_ ?_
  · rw [opened, closed]
    dsimp only
    omega
  · rw [opened, ← scanned.params]
  · intro _
    omega
  · dsimp only
    have extended := scanned.paramsEnd.extend (fun place closes => closes.2.1) closesParams_succ
    split
    · rename_i closes
      simp only [Bool.and_eq_true, beq_iff_eq, Option.isNone_iff_eq_none, decide_eq_true_eq]
        at closes
      obtain ⟨⟨outside, none⟩, after⟩ := closes
      rcases extended with ⟨-, known | differs⟩ | ⟨-, first⟩
      · rw [none] at known
        cases known
      · exact absurd (balances.mpr ⟨after, outside⟩) differs
      · exact first
    · rename_i open'
      rcases extended with ⟨first, -⟩ | ⟨none, first⟩
      · exact first
      · obtain ⟨after, outside⟩ := balances.mp first.1
        simp [none, after, outside] at open'

theorem le_of_opensBody (scanned : Scanned bytes start nameEnd offset signature) {place : Nat}
    (opens : OpensBody bytes start place) : offset ≤ place := by
  by_contra above
  exact scanned.bare place opens.after (by omega) (.inr opens.brace) opens.balanced

theorem not_opensBody (scanned : Scanned bytes start nameEnd offset signature)
    (differs : ¬ OpensBody bytes start offset)
    (refuses : ∀ place, offset < place → ¬ OpensBody bytes start place) :
    ∀ place, ¬ OpensBody bytes start place := by
  intro place opens
  by_cases last : place = offset
  · exact differs (last ▸ opens)
  · have after := scanned.le_of_opensBody opens
    exact refuses place (by omega) opens

theorem unbalanced (scanned : Scanned bytes start nameEnd offset signature)
    (stands : Stands bytes ')' offset) (outside : signature.depth = 0) :
    ∀ place, ¬ OpensBody bytes start place := by
  have noOpening : ¬ Stands bytes '(' offset := Stands.ne stands (by decide)
  have opened := occurrences_of_not_stands scanned.after noOpening
  have closed := occurrences_of_stands scanned.after stands
  have known := scanned.depth
  apply scanned.not_opensBody
  · intro opens
    exact Stands.ne stands (by decide) opens.brace
  · intro place after opens
    have nested := opens.nested (offset + 1) (Nat.le_succ_of_le scanned.after) after
    omega

theorem prototype (scanned : Scanned bytes start nameEnd offset signature)
    (stands : Stands bytes ';' offset) (outside : signature.depth = 0) :
    ∀ place, ¬ OpensBody bytes start place := by
  have known := scanned.depth
  apply scanned.not_opensBody
  · intro opens
    exact Stands.ne stands (by decide) opens.brace
  · intro place after opens
    exact opens.bare offset scanned.after after (.inl stands) (by omega)

theorem paramless (scanned : Scanned bytes start nameEnd offset signature)
    (stands : Stands bytes '\x7b' offset) (outside : signature.depth = 0)
    (noParams : signature.sawParams ≠ true) : ∀ place, ¬ OpensBody bytes start place := by
  have known := scanned.depth
  apply scanned.not_opensBody
  · intro opens
    exact noParams (scanned.params.mpr opens.params)
  · intro place after opens
    exact opens.bare offset scanned.after after (.inr stands) (by omega)

theorem opensBody (scanned : Scanned bytes start nameEnd offset signature)
    (stands : Stands bytes '\x7b' offset) (outside : signature.depth = 0)
    (sawParams : signature.sawParams = true) : OpensBody bytes start offset where
  after := scanned.after
  brace := stands
  nested := scanned.nested
  balanced := by rw [scanned.depth, outside, Nat.add_zero]
  params := scanned.params.mp sawParams
  bare := scanned.bare

/-- A character that is not looked for is passed over with all its bytes. -/
theorem passOver (scanned : Scanned bytes start nameEnd offset signature) {rest : Text}
    (here : bytes.drop offset = Text.Utf8.encode (c :: rest)) (noOpening : c ≠ '(')
    (noClosing : c ≠ ')') (bare : c = ';' ∨ c = '\x7b' → signature.depth ≠ 0) :
    Scanned bytes start nameEnd (offset + c.utf8Size) signature := by
  have isIt {mark : Char} (narrow : mark.utf8Size = 1) {place : Nat} (after : offset ≤ place)
      (before : place < offset + c.utf8Size) (stands : Stands bytes mark place) : c = mark := by
    by_contra differs
    exact Text.Utf8.not_stands_of_drop here narrow differs after before stands
  refine scanned.skipTo (Nat.le_add_right _ _) fun place after before => ⟨?_, ?_, ?_⟩
  · exact mt (isIt (by decide) after before) noOpening
  · exact mt (isIt (by decide) after before) noClosing
  · rintro (semicolon | brace)
    · exact bare (.inl (isIt (by decide) after before semicolon))
    · exact bare (.inr (isIt (by decide) after before brace))

end Scanned

theorem openingBrace?_spec (text : Text) (here : bytes.drop offset = Text.Utf8.encode text)
    (scanned : Scanned bytes start nameEnd offset signature) :
    match openingBrace? nameEnd offset signature text with
    | some (place, last) =>
      OpensBody bytes start place ∧ Scanned bytes start nameEnd place last
    | none => ∀ place, ¬ OpensBody bytes start place := by
  induction text generalizing offset signature with
  | nil =>
    intro place opens
    have after := scanned.le_of_opensBody opens
    have inside := opens.brace.lt
    have short := List.drop_eq_nil_iff.mp here
    omega
  | cons c rest ih =>
    have next := Text.Utf8.drop_next here
    have stands (narrow : c.utf8Size = 1) : Stands bytes c offset :=
      Text.Utf8.stands_of_drop here narrow
    rw [openingBrace?]
    -- The cases are the tests of the search in their order.
    by_cases isOpening : c = '('
    · subst isOpening
      rw [if_pos rfl]
      exact ih next (scanned.opening (stands (by decide)))
    rw [if_neg isOpening]
    by_cases isClosing : c = ')'
    · subst isClosing
      rw [if_pos rfl]
      cases deep : signature.depth with
      | zero => exact scanned.unbalanced (stands (by decide)) deep
      | succ depth => exact ih next (scanned.closing (stands (by decide)) deep)
    rw [if_neg isClosing]
    by_cases isBrace : c = '\x7b' ∧ signature.depth = 0
    · obtain ⟨rfl, outside⟩ := isBrace
      rw [if_pos ⟨rfl, outside⟩]
      by_cases sawParams : signature.sawParams = true
      · rw [if_pos sawParams]
        exact ⟨scanned.opensBody (stands (by decide)) outside sawParams, scanned⟩
      · rw [if_neg sawParams]
        exact scanned.paramless (stands (by decide)) outside sawParams
    rw [if_neg isBrace]
    by_cases isSemicolon : c = ';' ∧ signature.depth = 0
    · obtain ⟨rfl, outside⟩ := isSemicolon
      rw [if_pos ⟨rfl, outside⟩]
      exact scanned.prototype (stands (by decide)) outside
    rw [if_neg isSemicolon]
    apply ih next (scanned.passOver here isOpening isClosing _)
    rintro (semicolon | brace) outside
    · exact isSemicolon ⟨semicolon, outside⟩
    · exact isBrace ⟨brace, outside⟩

theorem OpensBody.unique {place place' : Nat} (opens : OpensBody bytes start place)
    (opens' : OpensBody bytes start place') : place = place' := by
  by_contra differs
  rcases Nat.lt_or_gt_of_ne differs with before | after
  · exact opens'.bare place opens.after before (.inr opens.brace) opens.balanced
  · exact opens.bare place' opens'.after after (.inr opens'.brace) opens'.balanced

/-- What is known at an offset inside a body that is still open. -/
structure Inside (bytes : Bytes) (opening offset depth : Nat) : Prop where
  after : opening < offset
  counts : occurrences bytes '\x7b' opening offset = occurrences bytes '\x7d' opening offset + depth
  positive : 0 < depth
  unclosed : ∀ place < offset, ¬ ClosesBody bytes opening place

variable {opening depth : Nat}

theorem inside_of_stands (stands : Stands bytes '\x7b' opening) :
    Inside bytes opening (opening + 1) 1 where
  after := Nat.lt_succ_self opening
  counts := by
    rw [occurrences_of_stands (Nat.le_refl _) stands, occurrences_self,
      occurrences_of_not_stands (Nat.le_refl _) (Stands.ne stands (by decide)), occurrences_self]
  positive := Nat.one_pos
  unclosed place before := by
    rintro ⟨after, -, -⟩
    omega

namespace Inside

theorem next (inside : Inside bytes opening offset depth) {depth' : Nat}
    (counts : occurrences bytes '\x7b' opening (offset + 1) =
      occurrences bytes '\x7d' opening (offset + 1) + depth') (positive : 0 < depth') :
    Inside bytes opening (offset + 1) depth' where
  after := Nat.lt_succ_of_lt inside.after
  counts := counts
  positive := positive
  unclosed place before := by
    by_cases last : place = offset
    · subst last
      rintro ⟨-, -, balanced⟩
      omega
    · exact inside.unclosed place (by omega)

theorem skipTo (inside : Inside bytes opening offset depth) {stop : Nat} (after : offset ≤ stop)
    (plain : ∀ place, offset ≤ place → place < stop →
      ¬ Stands bytes '\x7b' place ∧ ¬ Stands bytes '\x7d' place) :
    Inside bytes opening stop depth := by
  obtain ⟨size, rfl⟩ := Nat.exists_eq_add_of_le after
  induction size with
  | zero => exact inside
  | succ size ih =>
    have earlier := ih (Nat.le_add_right _ _) fun place after before =>
      plain place after (Nat.lt_succ_of_lt before)
    obtain ⟨noOpening, noClosing⟩ :=
      plain (offset + size) (Nat.le_add_right _ _) (Nat.lt_succ_self _)
    have beyond := Nat.le_of_lt earlier.after
    apply earlier.next _ inside.positive
    rw [occurrences_of_not_stands beyond noOpening, occurrences_of_not_stands beyond noClosing]
    exact earlier.counts

end Inside

theorem closing?_spec (text : Text) (here : bytes.drop offset = Text.Utf8.encode text)
    (inside : Inside bytes opening offset depth) :
    IsFirst (ClosesBody bytes opening) (closing? '\x7b' '\x7d' depth offset text) := by
  induction text generalizing offset depth with
  | nil =>
    intro place closes
    have before := closes.2.1.lt
    have short := List.drop_eq_nil_iff.mp here
    exact inside.unclosed place (by omega) closes
  | cons c rest ih =>
    have next := Text.Utf8.drop_next here
    have beyond := Nat.le_of_lt inside.after
    have known := inside.counts
    rw [closing?]
    by_cases isOpening : c = '\x7b'
    · subst isOpening
      have stands : Stands bytes '\x7b' offset := Text.Utf8.stands_of_drop here (by decide)
      have opened := occurrences_of_stands beyond stands
      have closed := occurrences_of_not_stands (c := '\x7d') beyond (Stands.ne stands (by decide))
      rw [if_pos rfl]
      exact ih next (inside.next (by omega) (Nat.succ_pos depth))
    rw [if_neg isOpening]
    by_cases isClosing : c = '\x7d'
    · subst isClosing
      have stands : Stands bytes '\x7d' offset := Text.Utf8.stands_of_drop here (by decide)
      have opened := occurrences_of_not_stands (c := '\x7b') beyond (Stands.ne stands (by decide))
      have closed := occurrences_of_stands beyond stands
      have positive := inside.positive
      rw [if_pos rfl]
      by_cases last : depth ≤ 1
      · rw [if_pos last]
        exact ⟨⟨inside.after, stands, by omega⟩, inside.unclosed⟩
      · rw [if_neg last]
        exact ih next (inside.next (by omega) (by omega))
    rw [if_neg isClosing]
    refine ih next (inside.skipTo (Nat.le_add_right _ _) fun place after before => ⟨?_, ?_⟩)
    · exact Text.Utf8.not_stands_of_drop here (by decide) isOpening after before
    · exact Text.Utf8.not_stands_of_drop here (by decide) isClosing after before

/-- The search for the opening brace begins at the first character that begins at the start or after it;
the bytes before that one belong to a character that no signature is made of. -/
theorem openingBrace?_start (text : Text) (ordered : start ≤ nameEnd) :
    match openingBrace? nameEnd
        (Text.byteLength text - Text.byteLength (Text.dropBytes start text)) {}
        (Text.dropBytes start text) with
    | some (place, last) => OpensBody (Text.Utf8.encode text) start place ∧
        Scanned (Text.Utf8.encode text) start nameEnd place last
    | none => ∀ place, ¬ OpensBody (Text.Utf8.encode text) start place := by
  obtain ⟨front, parts⟩ := Text.exists_append_dropBytes start text
  have first : Text.byteLength text - Text.byteLength (Text.dropBytes start text) =
      Text.byteLength front := by
    have total := congrArg Text.byteLength parts
    rw [Text.byteLength_append] at total
    omega
  have here : (Text.Utf8.encode text).drop (Text.byteLength front) =
      Text.Utf8.encode (Text.dropBytes start text) := by
    have cut := Text.Utf8.drop_encode_append front (Text.dropBytes start text)
    rwa [← parts] at cut
  by_cases inside : start ≤ Text.byteLength text
  · have less := Text.byteLength_dropBytes_le start text
    have early (mark : Char) (narrow : mark.utf8Size = 1) (place : Nat) (after : start ≤ place)
        (before : place < Text.byteLength front) : ¬ Stands (Text.Utf8.encode text) mark place := by
      intro stands
      have late := Text.Utf8.le_of_stands narrow after stands
      omega
    rw [first]
    refine openingBrace?_spec _ here ?_
    apply (scanned_start (Text.Utf8.encode text) ordered).skipTo (by omega)
    intro place after before
    refine ⟨early '(' (by decide) place after before, early ')' (by decide) place after before, ?_⟩
    rintro (semicolon | brace)
    · exact absurd semicolon (early ';' (by decide) place after before)
    · exact absurd brace (early '\x7b' (by decide) place after before)
  · have empty : Text.dropBytes start text = [] := by
      have none := Text.byteLength_dropBytes_le start text
      by_contra filled
      have positive := Text.byteLength_pos filled
      omega
    rw [empty]
    intro place opens
    have before := opens.brace.lt
    have after := opens.after
    rw [Text.Utf8.length_encode] at before
    omega

/-- The places of a definition whose body opens at a brace. -/
structure Describes (bytes : Bytes) (start nameEnd opening : Nat) (span : DefinitionSpan) : Prop where
  signatureEnd : span.signatureEnd = opening
  bodyStart : span.bodyStart = opening + 1
  bodyEnd : ∃ closing, IsFirst (ClosesBody bytes opening) closing ∧
    span.bodyEnd = closing.getD bytes.length
  paramsEnd : IsFirst (ClosesParams bytes start nameEnd opening) span.paramsEnd

theorem bodyEnd_spec {text : Text} (stands : Stands (Text.Utf8.encode text) '\x7b' opening) :
    IsFirst (ClosesBody (Text.Utf8.encode text) opening)
      (closing? '\x7b' '\x7d' 1 (opening + 1) (Text.dropBytes (opening + 1) text)) := by
  obtain ⟨front, back, rfl, rfl⟩ := Text.Utf8.exists_of_stands (by decide) stands
  have inside := inside_of_stands stands
  rw [Text.Utf8.dropBytes_after (by decide)]
  have parts : front ++ '\x7b' :: back = (front ++ ['\x7b']) ++ back := by
    rw [List.append_assoc, List.singleton_append]
  have length : Text.byteLength (front ++ ['\x7b']) = Text.byteLength front + 1 := by
    rw [Text.byteLength_append]
    rfl
  refine closing?_spec back ?_ inside
  rw [parts, ← length, Text.Utf8.drop_encode_append]

theorem braces?_spec (text : Text) (ordered : start ≤ nameEnd) :
    match braces? text start nameEnd with
    | some span => ∃ opening, OpensBody (Text.Utf8.encode text) start opening ∧
        Describes (Text.Utf8.encode text) start nameEnd opening span
    | none => ∀ place, ¬ OpensBody (Text.Utf8.encode text) start place := by
  have spec := openingBrace?_start text ordered
  rw [braces?]
  cases found : openingBrace? nameEnd
      (Text.byteLength text - Text.byteLength (Text.dropBytes start text)) {}
      (Text.dropBytes start text) with
  | none =>
    rw [found] at spec
    exact spec
  | some result =>
    obtain ⟨opening, last⟩ := result
    rw [found] at spec
    obtain ⟨opens, scanned⟩ := spec
    refine ⟨opening, opens, rfl, rfl, ?_, scanned.paramsEnd⟩
    refine ⟨_, bodyEnd_spec opens.brace, ?_⟩
    rw [Text.Utf8.length_encode]

/-- A candidate in a brace language is accepted exactly if a brace opens a body after it, and its span
is then the one that this brace gives. -/
theorem definitionSpan?_of_braces {grammar : Grammar} (braces : grammar.bodyStyle = .braces)
    (content : String) {start nameEnd : Nat} (ordered : start ≤ nameEnd) :
    ((grammar.definitionSpan? content.toList start nameEnd).isSome ↔
        ∃ opening, OpensBody content.toUTF8.toList start opening) ∧
      ∀ span, grammar.definitionSpan? content.toList start nameEnd = some span →
        ∀ opening, OpensBody content.toUTF8.toList start opening →
          Describes content.toUTF8.toList start nameEnd opening span := by
  have spec := braces?_spec content.toList ordered
  rw [Grammar.definitionSpan?, braces, Text.Utf8.toList_toUTF8]
  dsimp only
  cases found : braces? content.toList start nameEnd with
  | none =>
    rw [found] at spec
    exact ⟨⟨nofun, fun ⟨opening, opens⟩ => absurd opens (spec opening)⟩, nofun⟩
  | some span =>
    rw [found] at spec
    obtain ⟨opening, opens, describes⟩ := spec
    refine ⟨⟨fun _ => ⟨opening, opens⟩, fun _ => rfl⟩, ?_⟩
    intro other same opening' opens'
    cases same
    rwa [← opens.unique opens']

/-- A parameter that is a function itself, and a block in the body. -/
def callback : String := "int f(int (*g)(void)) \x7b \x7b\x7d \x7d"

theorem definitionSpan?_of_braces_callback :
    Grammar.c.bodyStyle = .braces ∧ 0 ≤ 5 ∧
      Grammar.c.definitionSpan? callback.toList 0 5 = some ⟨some 20, 22, 23, 27⟩ ∧
      OpensBody callback.toUTF8.toList 0 22 ∧
      Describes callback.toUTF8.toList 0 5 22 ⟨some 20, 22, 23, 27⟩ := by
  have found : Grammar.c.definitionSpan? callback.toList 0 5 = some ⟨some 20, 22, 23, 27⟩ := by
    decide
  obtain ⟨accepted, described⟩ :=
    definitionSpan?_of_braces (rfl : Grammar.c.bodyStyle = .braces) callback (Nat.zero_le 5)
  obtain ⟨opening, opens⟩ := accepted.mp (by rw [found]; rfl)
  have describes := described _ found opening opens
  obtain rfl : 22 = opening := describes.signatureEnd
  exact ⟨rfl, Nat.zero_le 5, found, opens, describes⟩

end DepAtlas.DefinitionSpan
