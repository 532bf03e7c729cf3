import Mathlib.Data.List.Infix
import DepAtlas.Proofs.Extract.Indentation

/-!
The search for the brace with which the body of a definition opens. It passes over a text whose parentheses
are balanced unless a `;` stands outside of them, which ends it as that of a prototype would: also one in the
type of an array.
-/

namespace DepAtlas.DefinitionSpan

open Text (byteLength)

variable {nameEnd offset depth spare : Nat} {paramsEnd : Option Nat} {text back : Text}

/-- Every `;` stands within parentheses. -/
def Sheltered (text : Text) : Prop :=
  ∀ before after, text = before ++ ';' :: after → before.count ')' < before.count '('

theorem balanced_of_clean (clean : ∀ c ∈ text, c ∉ ['(', ')']) : Balanced text := by
  have closing {part : Text} (inside : part ⊆ text) : part.count ')' = 0 :=
    List.count_eq_zero_of_not_mem fun member => clean _ (inside member) (by decide)
  have opening : text.count '(' = 0 :=
    List.count_eq_zero_of_not_mem fun member => clean _ member (by decide)
  refine ⟨by rw [opening, closing (List.Subset.refl _)], fun front starts => ?_⟩
  rw [closing starts.subset]
  exact Nat.zero_le _

instance (text : Text) : Decidable (Balanced text) :=
  decidable_of_iff
    (text.count ')' = text.count '(' ∧ ∀ front ∈ text.inits, front.count ')' ≤ front.count '(')
    (by simp only [Balanced, List.mem_inits])

theorem Balanced.append (first : Balanced text) (second : Balanced back) : Balanced (text ++ back) := by
  refine ⟨by rw [List.count_append, List.count_append, first.1, second.1], fun front starts => ?_⟩
  rcases List.prefix_or_prefix_of_prefix starts (List.prefix_append text back) with inside | ⟨beyond, rfl⟩
  · exact first.2 front inside
  · rw [List.prefix_append_right_inj] at starts
    have more := second.2 beyond starts
    rw [List.count_append, List.count_append, first.1]
    omega

theorem count_cons (mark c : Char) (rest : Text) :
    (c :: rest).count mark = [c].count mark + rest.count mark := by
  rw [← List.singleton_append, List.count_append]

/-- The search for a brace passes over a text that closes no more parentheses than it may and holds neither
a `;` nor a brace outside parentheses. At most `spare` parentheses that were open before are closed; where
these are all, the end of the parameter list must be known. -/
theorem openingBrace?_append (within : spare ≤ depth) (params : spare < depth ∨ paramsEnd.isSome)
    (closed : ∀ front, front <+: text → front.count ')' ≤ front.count '(' + spare)
    (nested : ∀ before c after, text = before ++ c :: after → c = ';' ∨ c = '\x7b' →
      before.count ')' < before.count '(' + depth) (back : Text) :
    openingBrace? nameEnd offset ⟨depth, true, paramsEnd⟩ (text ++ back) =
      openingBrace? nameEnd (offset + byteLength text)
        ⟨depth + text.count '(' - text.count ')', true, paramsEnd⟩ back := by
  induction text generalizing offset depth spare with
  | nil => rfl
  | cons c rest ih =>
    -- A step after which both bounds have moved by what the character opens or closes.
    have further (spare' depth' : Nat) (within' : spare' ≤ depth')
        (params' : spare' < depth' ∨ paramsEnd.isSome)
        (spared : spare' + [c].count ')' = spare + [c].count '(')
        (deep : depth' + [c].count ')' = depth + [c].count '(') :
        openingBrace? nameEnd (offset + c.utf8Size) ⟨depth', true, paramsEnd⟩ (rest ++ back) =
          openingBrace? nameEnd (offset + byteLength (c :: rest))
            ⟨depth + (c :: rest).count '(' - (c :: rest).count ')', true, paramsEnd⟩ back := by
      rw [ih within' params' (fun front starts => ?_) (fun before other after parts special => ?_),
        byteLength, ← Nat.add_assoc, count_cons '(' c rest, count_cons ')' c rest]
      · congr 2
        omega
      · have known := closed (c :: front) (List.cons_prefix_cons.mpr ⟨rfl, starts⟩)
        rw [count_cons '(', count_cons ')'] at known
        omega
      · have known := nested (c :: before) other after (by rw [parts]; rfl) special
        rw [count_cons '(', count_cons ')'] at known
        omega
    have here := nested [] c rest rfl
    rw [List.count_nil, List.count_nil, Nat.zero_add] at here
    rw [List.cons_append, openingBrace?]
    split
    case isTrue isOpening =>
      subst isOpening
      exact further (spare + 1) (depth + 1) (by omega) (params.imp_left Nat.succ_lt_succ) rfl rfl
    case isFalse noOpening =>
      have noOpened : [c].count '(' = 0 := List.count_eq_zero_of_not_mem (by simpa using Ne.symm noOpening)
      split
      case isTrue isClosing =>
        subst isClosing
        have spared := closed [')'] (List.cons_prefix_cons.mpr ⟨rfl, List.nil_prefix⟩)
        have one : [')'].count ')' = 1 := rfl
        have none : [')'].count '(' = 0 := rfl
        obtain ⟨spare, rfl⟩ : ∃ less, spare = less + 1 := ⟨spare - 1, by omega⟩
        obtain ⟨depth, rfl⟩ : ∃ less, depth = less + 1 := ⟨depth - 1, by omega⟩
        have opened : (depth == 0 && paramsEnd.isNone && decide (nameEnd < offset)) = false := by
          rcases params with less | known
          · simp [show depth ≠ 0 by omega]
          · cases paramsEnd with
            | none => cases known
            | some => simp
        dsimp only
        rw [opened]
        exact further spare depth (by omega) (params.imp_left Nat.lt_of_succ_lt_succ) rfl rfl
      case isFalse noClosing =>
        have noClosed : [c].count ')' = 0 := List.count_eq_zero_of_not_mem (by simpa using Ne.symm noClosing)
        rw [if_neg fun brace => Nat.ne_of_gt (here (.inr brace.1)) brace.2,
          if_neg fun semicolon => Nat.ne_of_gt (here (.inl semicolon.1)) semicolon.2]
        exact further spare depth within params (by omega) (by omega)

/-- A `;` outside parentheses ends the search if no brace comes before it. -/
theorem openingBrace?_eq_none (braceless : '\x7b' ∉ text) {before after : Text}
    (parts : text = before ++ ';' :: after) (bare : before.count '(' + depth ≤ before.count ')')
    (sawParams : Bool) (back : Text) :
    openingBrace? nameEnd offset ⟨depth, sawParams, paramsEnd⟩ (text ++ back) = none := by
  induction before generalizing offset depth paramsEnd sawParams text with
  | nil =>
    obtain rfl : depth = 0 := by simpa using bare
    subst parts
    rfl
  | cons c before ih =>
    subst parts
    obtain ⟨noBrace, bracelessRest⟩ : '\x7b' ≠ c ∧ '\x7b' ∉ before ++ ';' :: after := by
      simpa using braceless
    rw [count_cons '(', count_cons ')'] at bare
    rw [List.cons_append, List.cons_append, openingBrace?]
    split
    case isTrue isOpening =>
      subst isOpening
      have deeper : before.count '(' + (depth + 1) ≤ before.count ')' := by
        have one : ['('].count '(' = 1 := rfl
        have none : ['('].count ')' = 0 := rfl
        omega
      exact ih bracelessRest rfl deeper _
    case isFalse noOpening =>
      have noOpened : [c].count '(' = 0 := List.count_eq_zero_of_not_mem (by simpa using Ne.symm noOpening)
      split
      case isTrue isClosing =>
        subst isClosing
        cases depth with
        | zero => rfl
        | succ depth =>
          have shallower : before.count '(' + depth ≤ before.count ')' := by
            have one : [')'].count ')' = 1 := rfl
            omega
          exact ih bracelessRest rfl shallower _
      case isFalse noClosing =>
        have noClosed : [c].count ')' = 0 := List.count_eq_zero_of_not_mem (by simpa using Ne.symm noClosing)
        rw [if_neg fun brace => noBrace brace.1.symm]
        split
        · rfl
        · exact ih bracelessRest rfl (by omega) _

theorem openingBrace?_clean {signature : Signature} (clean : ∀ c ∈ text, c ∉ ['(', ')', '\x7b', ';'])
    (back : Text) : openingBrace? nameEnd offset signature (text ++ back) =
      openingBrace? nameEnd (offset + byteLength text) signature back := by
  induction text generalizing offset with
  | nil => rfl
  | cons c rest ih =>
    obtain ⟨here, cleanRest⟩ := List.forall_mem_cons.mp clean
    obtain ⟨noOpening, noClosing, noBrace, noSemicolon⟩ :
        c ≠ '(' ∧ c ≠ ')' ∧ c ≠ '\x7b' ∧ c ≠ ';' := by simpa using here
    rw [List.cons_append, openingBrace?, if_neg noOpening, if_neg noClosing,
      if_neg fun brace => noBrace brace.1, if_neg fun semicolon => noSemicolon semicolon.1, ih cleanRest,
      byteLength, Nat.add_assoc]

/-- The search passes over the name and the parameters, and remembers where these end. -/
theorem openingBrace?_params {head params : Text} (clean : ∀ c ∈ head, c ∉ ['(', ')', '\x7b', ';'])
    (balanced : Balanced params) (back : Text) :
    openingBrace? (byteLength head) 0 {} (head ++ '(' :: (params ++ ')' :: back)) =
      openingBrace? (byteLength head) (byteLength head + 1 + byteLength params + 1)
        ⟨0, true, some (byteLength head + 1 + byteLength params)⟩ back := by
  have one : '('.utf8Size = 1 := rfl
  have more : ')'.utf8Size = 1 := rfl
  have after : byteLength head < byteLength head + 1 + byteLength params := by omega
  have inside := @openingBrace?_append (byteLength head) (byteLength head + 1) 1 0 none params
    (Nat.zero_le 1) (.inl Nat.one_pos) balanced.2
    (fun before c rest parts _ => Nat.lt_succ_of_le (balanced.2 before ⟨_, parts.symm⟩)) (')' :: back)
  rw [balanced.1, Nat.add_sub_cancel] at inside
  rw [openingBrace?_clean clean, Nat.zero_add, openingBrace?, if_pos rfl, one]
  refine inside.trans ?_
  rw [openingBrace?, if_neg (by decide), if_pos rfl, more]
  simp [after]

/-- Behind the parameters the search passes over what is balanced and shelters every `;`. -/
theorem openingBrace?_sheltered (balanced : Balanced text) (braceless : '\x7b' ∉ text)
    (sheltered : Sheltered text) (found : paramsEnd.isSome) (back : Text) :
    openingBrace? nameEnd offset ⟨0, true, paramsEnd⟩ (text ++ back) =
      openingBrace? nameEnd (offset + byteLength text) ⟨0, true, paramsEnd⟩ back := by
  have nested : ∀ before c after, text = before ++ c :: after → c = ';' ∨ c = '\x7b' →
      before.count ')' < before.count '(' + 0 := by
    rintro before c after parts (rfl | rfl)
    · exact sheltered before after parts
    · exact absurd (parts ▸ by simp) braceless
  rw [openingBrace?_append (Nat.le_refl 0) (.inr found) balanced.2 nested, balanced.1, Nat.add_sub_cancel]

theorem braces?_eq_bind (text : Text) (nameEnd : Nat) :
    braces? text 0 nameEnd = (openingBrace? nameEnd 0 {} text).bind fun opening => some {
      paramsEnd := opening.2.paramsEnd
      signatureEnd := opening.1
      bodyStart := opening.1 + 1
      bodyEnd := (closing? '\x7b' '\x7d' 1 (opening.1 + 1) (Text.dropBytes (opening.1 + 1) text)).getD
        (byteLength text) } := by
  simp only [braces?, Text.dropBytes, Nat.sub_self]
  rfl

/-- A definition with a parameter list, a return type and a body is accepted exactly if every `;` between
its parameters and its body stands within parentheses. -/
theorem braces?_function {head params tail : Text} (clean : ∀ c ∈ head, c ∉ ['(', ')', '\x7b', ';'])
    (balancedParams : Balanced params) (balancedTail : Balanced tail) (braceless : '\x7b' ∉ tail)
    (body : Text) :
    let found := braces? (head ++ '(' :: (params ++ ')' :: (tail ++ '\x7b' :: body))) 0 (byteLength head)
    (¬ Sheltered tail → found = none) ∧
      (Sheltered tail → ∃ bodyEnd, found = some {
        paramsEnd := some (byteLength head + 1 + byteLength params)
        signatureEnd := byteLength head + 1 + byteLength params + 1 + byteLength tail
        bodyStart := byteLength head + 1 + byteLength params + 1 + byteLength tail + 1
        bodyEnd }) := by
  intro found
  have isFound : found = _ := braces?_eq_bind _ _
  rw [isFound, openingBrace?_params clean balancedParams]
  constructor
  · intro exposed
    obtain ⟨before, after, parts, bare⟩ : ∃ before after, tail = before ++ ';' :: after ∧
        before.count '(' ≤ before.count ')' := by
      simpa [Sheltered] using exposed
    rw [openingBrace?_eq_none braceless parts bare true]
    rfl
  · intro sheltered
    rw [openingBrace?_sheltered balancedTail braceless sheltered rfl]
    exact ⟨_, rfl⟩

/-- What holds neither parentheses nor a `;` does not matter around a text. -/
theorem sheltered_frame {before after : Text} (cleanBefore : ∀ c ∈ before, c ∉ ['(', ')', ';'])
    (cleanAfter : ∀ c ∈ after, c ∉ ['(', ')', ';']) :
    Sheltered (before ++ (text ++ after)) ↔ Sheltered text := by
  have noOpening : before.count '(' = 0 :=
    List.count_eq_zero_of_not_mem fun member => cleanBefore _ member (by decide)
  have noClosing : before.count ')' = 0 :=
    List.count_eq_zero_of_not_mem fun member => cleanBefore _ member (by decide)
  constructor
  · rintro sheltered front back rfl
    have known := sheltered (before ++ front) (back ++ after) (by simp)
    rw [List.count_append, List.count_append] at known
    omega
  · intro sheltered front back parts
    obtain ⟨inner, rfl, inText⟩ :=
      Text.exists_of_append_eq (fun member => cleanBefore _ member (by decide)) parts
    obtain ⟨later, rfl⟩ := Text.exists_of_eq_append (fun member => cleanAfter _ member (by decide)) inText
    have known := sheltered inner later rfl
    rw [List.count_append, List.count_append]
    omega

end DepAtlas.DefinitionSpan
