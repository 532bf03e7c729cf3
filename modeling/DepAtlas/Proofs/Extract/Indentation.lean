import DepAtlas.Extract.Body
import DepAtlas.Proofs.Text.Bytes
import DepAtlas.Proofs.Text.Search

/-!
Definitions whose body is indented. The body goes on as long as lines are blank or deeper than the line of
the definition, and ends with the last of them that is not blank; a body that begins on the line of the
definition is told by a separator with code after it.
-/

namespace DepAtlas.DefinitionSpan

open Text

/-- Every parenthesis has its partner. -/
def Balanced (text : Text) : Prop :=
  text.count ')' = text.count '(' ∧ ∀ front, front <+: text → front.count ')' ≤ front.count '('

/-- A parameter list without the parenthesis that closes it. Only spaces and tabs come before it. -/
def IsParams (params : Text) : Prop :=
  ∃ blanks inside, params = blanks ++ '(' :: inside ∧ (∀ c ∈ blanks, isIndent c = true) ∧
    Balanced inside

/-- What can stand between a signature and a body on one line. -/
def separates (c : Char) : Bool :=
  c == ':' || c == ';'

/-- A text that is neither blank nor a comment. -/
def IsCode (text : Text) : Prop :=
  ∃ blanks c rest, text = blanks ++ c :: rest ∧ (∀ blank ∈ blanks, isBlank blank = true) ∧
    isBlank c = false ∧ c ≠ '#'

/-- Whether a line goes on with a body. -/
def Continues (indent : Nat) (line : Text) : Prop :=
  isBlankLine line = true ∨ indent < indentation line

/-- A text starts with a definition keyword that no character of an identifier follows. -/
def StartsWithKeyword (grammar : Grammar) (text : Text) : Prop :=
  ∃ keyword ∈ grammar.definitionKeywords, ∃ rest, text = keyword.toList ++ rest ∧
    ∀ c, rest.head? = some c → isIdentifier c = false

/-- The parts of a text around a definition with an indented body. -/
structure Layout where
  /-- Spaces and tabs before the definition. -/
  indent : Nat
  /-- From the name up to the parenthesis that closes the parameter list. -/
  params : Option Text
  /-- From there, or from the name, up to the end of the line. -/
  line : Text
  lineBreak : Text
  /-- What stands on the line before the separator of a body on the same line. -/
  signature : Option Text
  /-- The lines of the body, the blank ones after it, and all others. -/
  body : List Text
  blanks : List Text
  others : List Text

/-- These are the parts of a text in which `name` stands between the start of the definition and the end of
its name. -/
structure Layout.Fits (layout : Layout) (front name back : Text) : Prop where
  indent : ∃ earlier lead, front = earlier ++ lead ∧ (earlier = [] ∨ ∃ lines, earlier = lines ++ ['\n']) ∧
    '\n' ∉ lead ∧ layout.indent = indentation (lead ++ (name ++ back))
  parts : ∃ following, back = layout.params.getD [] ++ (layout.line ++ (layout.lineBreak ++ following)) ∧
    (layout.lineBreak = ['\n'] ∨ layout.lineBreak = [] ∧ following = []) ∧
    HasLines following (layout.body ++ (layout.blanks ++ layout.others))
  line : '\n' ∉ layout.line
  params : ∀ params, layout.params = some params → IsParams params ∧ layout.line.head? = some ')'
  noParams : layout.params = none → ∀ params rest, back = params ++ ')' :: rest → ¬ IsParams params
  signature : ∀ before, layout.signature = some before → ∃ c code, layout.line = before ++ c :: code ∧
    (∀ other ∈ before, separates other = false) ∧ separates c = true ∧ IsCode code
  noSignature : layout.signature = none → ∀ before c code, layout.line = before ++ c :: code →
    (∀ other ∈ before, separates other = false) → separates c = true → ¬ IsCode code
  continues : ∀ line ∈ layout.body ++ layout.blanks, Continues layout.indent line
  stops : ∀ line, layout.others.head? = some line → ¬ Continues layout.indent line
  blanks : ∀ line ∈ layout.blanks, isBlankLine line = true
  last : ∀ line, layout.body.getLast? = some line → isBlankLine line = false

/-- The places that a layout gives for a definition whose name ends at an offset. -/
def Layout.span (layout : Layout) (nameEnd : Nat) : DefinitionSpan :=
  let first := nameEnd + byteLength (layout.params.getD [])
  let lineEnd := first + byteLength layout.line
  let next := lineEnd + byteLength layout.lineBreak
  let (signatureEnd, bodyStart, inlineEnd) :=
    match layout.signature with
    | some signature =>
      (first + byteLength signature, first + byteLength signature + 1, lineEnd)
    | none => (lineEnd, next, next)
  { paramsEnd := layout.params.map (nameEnd + byteLength ·)
    signatureEnd, bodyStart
    bodyEnd := if layout.body = [] then inlineEnd else next + byteLength layout.body.flatten }

variable {text inside front name back : Text} {opens closes : Char} {depth offset : Nat}

section Parentheses

/-- The text up to the character that balances `depth` opened ones. -/
def Closes (opens closes : Char) (depth : Nat) (inside : Text) : Prop :=
  inside.count closes + 1 = inside.count opens + depth ∧
    ∀ front, front <+: inside → front.count closes < front.count opens + depth

theorem closes_one : Closes '(' ')' 1 inside ↔ Balanced inside := by
  unfold Closes Balanced
  simp only [Nat.add_right_cancel_iff, Nat.lt_succ_iff]

variable {c : Char} {depth' : Nat} (shift : depth' + [c].count closes = depth + [c].count opens)
include shift

theorem closes_cons (positive : 0 < depth) :
    Closes opens closes depth (c :: inside) ↔ Closes opens closes depth' inside := by
  have split (mark : Char) (rest : Text) : (c :: rest).count mark = [c].count mark + rest.count mark := by
    rw [← List.singleton_append, List.count_append]
  constructor
  · rintro ⟨balanced, nested⟩
    rw [split closes inside, split opens inside] at balanced
    refine ⟨by omega, fun front starts => ?_⟩
    have longer := nested (c :: front) (List.cons_prefix_cons.mpr ⟨rfl, starts⟩)
    rw [split closes front, split opens front] at longer
    omega
  · rintro ⟨balanced, nested⟩
    refine ⟨?_, fun front starts => ?_⟩
    · rw [split closes inside, split opens inside]
      omega
    rcases List.prefix_cons_iff.mp starts with rfl | ⟨rest, rfl, inner⟩
    · simpa using positive
    · have shorter := nested rest inner
      rw [split closes rest, split opens rest]
      omega

theorem exists_closes_cons (positive : 0 < depth) (later : c = closes → depth ≠ 1) {place : Nat} :
    (∃ inside rest, c :: text = inside ++ closes :: rest ∧ place = offset + byteLength inside ∧
      Closes opens closes depth inside) ↔
    ∃ inside rest, text = inside ++ closes :: rest ∧
      place = offset + c.utf8Size + byteLength inside ∧ Closes opens closes depth' inside := by
  constructor
  · rintro ⟨inside, rest, parts, here, closed⟩
    cases inside with
    | nil =>
      obtain ⟨rfl, -⟩ := List.cons.inj parts
      have outer := closed.1
      simp only [List.count_nil] at outer
      exact absurd (by omega) (later rfl)
    | cons first inside =>
      obtain ⟨rfl, rfl⟩ := List.cons.inj parts
      rw [byteLength] at here
      exact ⟨inside, rest, rfl, by omega, (closes_cons shift positive).mp closed⟩
  · rintro ⟨inside, rest, rfl, rfl, closed⟩
    refine ⟨c :: inside, rest, rfl, ?_, (closes_cons shift positive).mpr closed⟩
    rw [byteLength]
    omega

omit shift in
/-- The closing character is the first one that balances all that were opened. -/
theorem closing?_eq_some_iff (apart : opens ≠ closes) (positive : 0 < depth) {place : Nat} :
    closing? opens closes depth offset text = some place ↔
      ∃ inside rest, text = inside ++ closes :: rest ∧ place = offset + byteLength inside ∧
        Closes opens closes depth inside := by
  induction text generalizing depth offset with
  | nil => simp [closing?]
  | cons c rest ih =>
    rw [closing?]
    by_cases isOpening : c = opens
    · subst isOpening
      have shift : depth + 1 + [c].count closes = depth + [c].count c := by simp [apart]
      rw [if_pos rfl, ih (Nat.succ_pos depth),
        exists_closes_cons shift positive fun same => absurd same apart]
    rw [if_neg isOpening]
    by_cases isClosing : c = closes
    · subst isClosing
      rw [if_pos rfl]
      by_cases last : depth ≤ 1
      · obtain rfl : depth = 1 := by omega
        rw [if_pos last, Option.some.injEq]
        constructor
        · rintro rfl
          refine ⟨[], rest, rfl, rfl, rfl, fun front starts => ?_⟩
          rw [List.prefix_nil.mp starts]
          exact Nat.one_pos
        · rintro ⟨inside, rest', parts, rfl, balanced, nested⟩
          cases inside with
          | nil => rfl
          | cons first inside =>
            -- The text would be closed before its end.
            obtain ⟨rfl, -⟩ := List.cons.inj parts
            have early := nested [c] (List.cons_prefix_cons.mpr ⟨rfl, List.nil_prefix⟩)
            simp [Ne.symm apart] at early
      · have shift : depth - 1 + [c].count c = depth + [c].count opens := by
          simp [isOpening]
          omega
        rw [if_neg last, ih (by omega), exists_closes_cons shift positive fun _ => by omega]
    · have shift : depth + [c].count closes = depth + [c].count opens := by
        simp [isOpening, isClosing]
      rw [if_neg isClosing, ih positive, exists_closes_cons shift positive fun same => absurd same isClosing]

end Parentheses

theorem byteLength_of_indent {blanks : Text} (indents : ∀ c ∈ blanks, isIndent c = true) :
    byteLength blanks = blanks.length := by
  induction blanks with
  | nil => rfl
  | cons c rest ih =>
    obtain ⟨here, indentsRest⟩ := List.forall_mem_cons.mp indents
    have narrow : c.utf8Size = 1 := by
      rw [isIndent, Bool.or_eq_true, beq_iff_eq, beq_iff_eq] at here
      rcases here with rfl | rfl <;> rfl
    rw [byteLength, ih indentsRest, narrow, List.length_cons, Nat.add_comm]

theorem paramsClose?_eq_none (closed : ∀ params, back.dropWhile isIndent ≠ '(' :: params) :
    paramsClose? (front ++ back) (byteLength front) = none := by
  rw [paramsClose?, dropBytes_byteLength_append]
  split
  case h_1 params isOpen => exact absurd isOpen (closed params)
  case h_2 => rfl

theorem paramsClose?_of_indent {blanks : Text} (indents : ∀ c ∈ blanks, isIndent c = true) (rest : Text) :
    paramsClose? (front ++ (blanks ++ '(' :: rest)) (byteLength front) =
      closing? '(' ')' 1 (byteLength front + byteLength blanks + 1) rest := by
  have closed : isIndent '(' = false := by decide
  rw [paramsClose?, dropBytes_byteLength_append, List.dropWhile_append_of_pos indents,
    List.takeWhile_append_of_pos indents, List.dropWhile_cons_of_neg (by simp [closed]),
    List.takeWhile_cons_of_neg (by simp [closed]), List.append_nil, ← byteLength_of_indent indents]
  rfl

theorem paramsClose?_eq_some_iff {place : Nat} :
    paramsClose? (front ++ back) (byteLength front) = some place ↔
      ∃ params rest, back = params ++ ')' :: rest ∧ place = byteLength front + byteLength params ∧
        IsParams params := by
  constructor
  · intro found
    by_cases opens : ∃ params, back.dropWhile isIndent = '(' :: params
    · obtain ⟨params, isOpen⟩ := opens
      have parts : back = back.takeWhile isIndent ++ '(' :: params := by
        rw [← isOpen, List.takeWhile_append_dropWhile]
      have indents : ∀ c ∈ back.takeWhile isIndent, isIndent c = true :=
        List.all_eq_true.mp List.all_takeWhile
      generalize back.takeWhile isIndent = blanks at parts indents
      subst parts
      rw [paramsClose?_of_indent indents] at found
      obtain ⟨inside, rest, rfl, rfl, closes⟩ := (closing?_eq_some_iff (by decide) Nat.one_pos).mp found
      refine ⟨blanks ++ '(' :: inside, rest, ?_, ?_, blanks, inside, rfl, indents, closes_one.mp closes⟩
      · rw [List.append_assoc, List.cons_append]
      · rw [byteLength_append, byteLength]
        show _ = _ + (_ + (1 + _))
        omega
    · rw [paramsClose?_eq_none (not_exists.mp opens)] at found
      cases found
  · rintro ⟨_, rest, rfl, rfl, blanks, inside, rfl, indents, balanced⟩
    rw [List.append_assoc, List.cons_append, paramsClose?_of_indent indents]
    refine (closing?_eq_some_iff (by decide) Nat.one_pos).mpr
      ⟨inside, rest, rfl, ?_, closes_one.mpr balanced⟩
    rw [byteLength_append, byteLength]
    show _ + (_ + (1 + _)) = _
    omega

theorem startsDefinition_iff {grammar : Grammar} :
    startsDefinition grammar text = true ↔ StartsWithKeyword grammar text := by
  have apart (keyword : String) (rest : Text) :
      ((keyword.toList ++ rest).drop keyword.length).head?.any isIdentifier = false ↔
        ∀ c, rest.head? = some c → isIdentifier c = false := by
    rw [← String.length_toList, List.drop_left, Option.any_eq_false]
  rw [startsDefinition, List.any_eq_true]
  constructor
  · rintro ⟨keyword, isKeyword, starts⟩
    rw [Bool.and_eq_true, Bool.not_eq_true', List.isPrefixOf_iff_prefix] at starts
    obtain ⟨⟨rest, rfl⟩, ends⟩ := starts
    exact ⟨keyword, isKeyword, rest, rfl, (apart keyword rest).mp ends⟩
  · rintro ⟨keyword, isKeyword, rest, rfl, ends⟩
    refine ⟨keyword, isKeyword, ?_⟩
    rw [Bool.and_eq_true, Bool.not_eq_true', List.isPrefixOf_iff_prefix]
    exact ⟨List.prefix_append _ _, (apart keyword rest).mpr ends⟩

theorem lineStartBefore_eq {earlier lead : Text}
    (begins : earlier = [] ∨ ∃ lines, earlier = lines ++ ['\n']) (clean : '\n' ∉ lead) (back : Text) :
    lineStartBefore (earlier ++ lead ++ back) (byteLength (earlier ++ lead)) = byteLength earlier := by
  have stays (start offset : Nat) : lineStartBefore.go start offset lead = start := by
    induction lead generalizing offset with
    | nil => rfl
    | cons c rest ih =>
      obtain ⟨here, cleanRest⟩ : '\n' ≠ c ∧ '\n' ∉ rest := by simpa using clean
      rw [lineStartBefore.go, if_neg (by simpa using here.symm), ih cleanRest]
  have moves (lines : Text) (start offset : Nat) :
      lineStartBefore.go start offset (lines ++ '\n' :: lead) = offset + byteLength lines + 1 := by
    induction lines generalizing start offset with
    | nil => rw [List.nil_append, lineStartBefore.go, if_pos BEq.rfl, stays]; rfl
    | cons c rest ih =>
      rw [List.cons_append, lineStartBefore.go, byteLength]
      split
      case isTrue lineEnd =>
        obtain rfl := beq_iff_eq.mp lineEnd
        rw [ih]
        show _ = _ + (1 + _) + 1
        omega
      case isFalse =>
        rw [ih]
        omega
  rw [lineStartBefore, takeBytes_byteLength_append]
  rcases begins with rfl | ⟨lines, rfl⟩
  · exact stays 0 0
  · rw [List.append_assoc, List.singleton_append, moves, byteLength_append, Nat.zero_add]
    rfl

theorem utf8Size_of_separates {c : Char} (isSeparator : separates c = true) : c.utf8Size = 1 := by
  rw [separates, Bool.or_eq_true, beq_iff_eq, beq_iff_eq] at isSeparator
  rcases isSeparator with rfl | rfl <;> rfl

theorem inlineBody?_append {before code : Text} {c : Char}
    (first : ∀ other ∈ before, separates other = false) (isSeparator : separates c = true) :
    inlineBody? (before ++ c :: code) =
      if (trim code).isEmpty || (trim code).head? == some '#' then none
      else some (byteLength before) := by
  have found : findWhere? (fun c => c == ':' || c == ';') (before ++ c :: code) =
      some (byteLength before) := findWhere?_first first isSeparator code
  have cut := Utf8.dropBytes_after (utf8Size_of_separates isSeparator) before code
  simp only [inlineBody?, found, Option.bind_eq_bind, Option.bind_some, cut]

theorem inlineBody?_of_code {before code : Text} {c : Char}
    (first : ∀ other ∈ before, separates other = false) (isSeparator : separates c = true)
    (isCode : IsCode code) : inlineBody? (before ++ c :: code) = some (byteLength before) := by
  obtain ⟨blanks, ink, rest, rfl, areBlank, isInk, noComment⟩ := isCode
  rw [inlineBody?_append first isSeparator, trim_of_ink areBlank isInk]
  simp [noComment]

theorem exists_of_inlineBody? {line : Text} {place : Nat} (found : inlineBody? line = some place) :
    ∃ before c code, line = before ++ c :: code ∧ (∀ other ∈ before, separates other = false) ∧
      separates c = true ∧ IsCode code := by
  rcases exists_first separates line with clean | ⟨before, c, code, rfl, first, isSeparator⟩
  · have absent : findWhere? (fun c => c == ':' || c == ';') line = none := findWhere?_eq_none clean
    rw [inlineBody?, absent] at found
    cases found
  refine ⟨before, c, code, rfl, first, isSeparator, ?_⟩
  rw [inlineBody?_append first isSeparator] at found
  rcases exists_first (fun c => !isBlank c) code with blank | ⟨blanks, ink, rest, rfl, blank, isInk⟩
  · rw [trim_of_blank fun c member => by simpa using blank c member] at found
    cases found
  · have areBlank : ∀ c ∈ blanks, isBlank c = true := fun c member => by simpa using blank c member
    rw [Bool.not_eq_true'] at isInk
    refine ⟨blanks, ink, rest, rfl, areBlank, isInk, ?_⟩
    rintro rfl
    rw [trim_of_ink areBlank isInk] at found
    cases found

section Lines

variable {indent bodyEnd : Nat} {body blanks others : List Text}
  (areBlank : ∀ line ∈ blanks, isBlankLine line = true)
  (stops : ∀ line, others.head? = some line → ¬ Continues indent line)
include areBlank stops

theorem indentedEnd_of_blanks (offset : Nat) :
    indentedEnd indent offset bodyEnd (blanks ++ others) = bodyEnd := by
  induction blanks generalizing offset with
  | nil =>
    cases others with
    | nil => rfl
    | cons line others =>
      have ends := stops line rfl
      rw [Continues, not_or, Nat.not_lt] at ends
      rw [List.nil_append, indentedEnd, if_neg ends.1, if_pos ends.2]
  | cons line blanks ih =>
    obtain ⟨isBlank, areBlank⟩ := List.forall_mem_cons.mp areBlank
    rw [List.cons_append, indentedEnd, if_pos isBlank, ih areBlank]

/-- The lines that go on with the body are passed over up to the last one that is not blank. -/
theorem indentedEnd_eq (continues : ∀ line ∈ body, Continues indent line)
    (last : ∀ line, body.getLast? = some line → isBlankLine line = false) (offset : Nat) :
    indentedEnd indent offset bodyEnd (body ++ (blanks ++ others)) =
      if body = [] then bodyEnd else offset + byteLength body.flatten := by
  induction body generalizing offset bodyEnd with
  | nil => exact indentedEnd_of_blanks areBlank stops offset
  | cons line body ih =>
    obtain ⟨here, continues⟩ := List.forall_mem_cons.mp continues
    rw [if_neg (List.cons_ne_nil line body), List.flatten_cons, byteLength_append, ← Nat.add_assoc,
      List.cons_append, indentedEnd]
    cases body with
    | nil =>
      have filled := last line rfl
      have deeper := here.resolve_left (by simp [filled])
      rw [if_neg (by simp [filled]), if_neg (by omega)]
      exact indentedEnd_of_blanks areBlank stops _
    | cons other body =>
      simp only [List.cons_ne_nil, if_false] at ih
      split
      · exact ih continues last _
      case isFalse filled =>
        have deeper := here.resolve_left filled
        rw [if_neg (by omega)]
        exact ih continues last _

end Lines

section Line

variable (head : Text) {line lineBreak following : Text}
  (breaks : lineBreak = ['\n'] ∨ lineBreak = [] ∧ following = [])
include breaks

theorem lineEnd_eq (clean : '\n' ∉ line) :
    ((findWhere? (· == '\n') (line ++ (lineBreak ++ following))).map (byteLength head + ·)).getD
        (byteLength (head ++ (line ++ (lineBreak ++ following)))) =
      byteLength head + byteLength line := by
  have inside : ∀ c ∈ line, (c == '\n') = false := fun c member =>
    beq_eq_false_iff_ne.mpr fun same => clean (same ▸ member)
  rcases breaks with rfl | ⟨rfl, rfl⟩
  · rw [List.singleton_append, findWhere?_first inside BEq.rfl]
    rfl
  · rw [List.append_nil, List.append_nil, findWhere?_eq_none inside, byteLength_append]
    rfl

theorem nextLine_eq :
    min (byteLength head + byteLength line + 1)
        (byteLength (head ++ (line ++ (lineBreak ++ following)))) =
      byteLength head + byteLength line + byteLength lineBreak := by
  simp only [byteLength_append]
  rcases breaks with rfl | ⟨rfl, rfl⟩
  · have one : byteLength ['\n'] = 1 := rfl
    omega
  · have zero : byteLength [] = 0 := rfl
    omega

end Line

namespace Layout.Fits

variable {layout : Layout}

theorem paramsClose?_eq (fits : layout.Fits front name back) :
    paramsClose? (front ++ name ++ back) (byteLength (front ++ name)) =
      layout.params.map (byteLength (front ++ name) + byteLength ·) := by
  obtain ⟨following, parts, -, -⟩ := fits.parts
  cases isParams : layout.params with
  | some params =>
    obtain ⟨listed, closes⟩ := fits.params params isParams
    obtain ⟨rest, isLine⟩ : ∃ rest, layout.line = ')' :: rest := by
      cases line : layout.line with
      | nil => rw [line] at closes; cases closes
      | cons c rest =>
        rw [line] at closes
        cases closes
        exact ⟨rest, rfl⟩
    rw [isParams, isLine] at parts
    exact paramsClose?_eq_some_iff.mpr ⟨params, _, parts, rfl, listed⟩
  | none =>
    cases found : paramsClose? (front ++ name ++ back) (byteLength (front ++ name)) with
    | none => rfl
    | some place =>
      obtain ⟨params, rest, isBack, -, listed⟩ := paramsClose?_eq_some_iff.mp found
      exact absurd listed (fits.noParams isParams params rest isBack)

theorem indentation_eq (fits : layout.Fits front name back) :
    indentation (dropBytes (lineStartBefore (front ++ name ++ back) (byteLength front))
      (front ++ name ++ back)) = layout.indent := by
  obtain ⟨earlier, lead, rfl, begins, clean, isIndent⟩ := fits.indent
  rw [List.append_assoc, lineStartBefore_eq begins clean, List.append_assoc,
    dropBytes_byteLength_append, isIndent]

theorem inlineBody?_eq (fits : layout.Fits front name back) :
    inlineBody? layout.line = layout.signature.map byteLength := by
  cases isSignature : layout.signature with
  | some before =>
    obtain ⟨c, code, parts, first, isSeparator, isCode⟩ := fits.signature before isSignature
    rw [parts]
    exact inlineBody?_of_code first isSeparator isCode
  | none =>
    cases found : inlineBody? layout.line with
    | none => rfl
    | some place =>
      obtain ⟨before, c, code, parts, first, isSeparator, isCode⟩ := exists_of_inlineBody? found
      exact absurd isCode (fits.noSignature isSignature before c code parts first isSeparator)

theorem indented?_eq (fits : layout.Fits front name back) (grammar : Grammar) :
    indented? grammar (front ++ name ++ back) (byteLength front) (byteLength (front ++ name)) =
      if startsDefinition grammar ((name ++ back).dropWhile isIndent) then
        some (layout.span (byteLength (front ++ name)))
      else none := by
  obtain ⟨following, parts, breaks, hasLines⟩ := fits.parts
  obtain ⟨head, isHead⟩ : ∃ head, head = front ++ name ++ layout.params.getD [] := ⟨_, rfl⟩
  have whole : front ++ name ++ back = head ++ (layout.line ++ (layout.lineBreak ++ following)) := by
    rw [isHead, parts, ← List.append_assoc]
  have start : byteLength head = byteLength (front ++ name) + byteLength (layout.params.getD []) := by
    rw [isHead, byteLength_append]
  have first : (layout.params.map (byteLength (front ++ name) + byteLength ·)).getD
      (byteLength (front ++ name)) = byteLength head := by
    rw [start]
    cases layout.params <;> rfl
  have fromStart : dropBytes (byteLength front) (front ++ name ++ back) = name ++ back := by
    rw [List.append_assoc, dropBytes_byteLength_append]
  have tail : dropBytes (byteLength head) (front ++ name ++ back) =
      layout.line ++ (layout.lineBreak ++ following) := by
    rw [whole, dropBytes_byteLength_append]
  have onLine : slice (front ++ name ++ back) (byteLength head)
      (byteLength head + byteLength layout.line) = layout.line := by
    rw [whole, slice_append]
  have afterLine : dropBytes (byteLength head + byteLength layout.line + byteLength layout.lineBreak)
      (front ++ name ++ back) = following := by
    rw [whole, Nat.add_assoc, dropBytes_byteLength_add, dropBytes_byteLength_add,
      dropBytes_byteLength_append]
  have lineEnd := lineEnd_eq head breaks fits.line
  have next : min (byteLength head + byteLength layout.line + 1)
      (byteLength (head ++ (layout.line ++ (layout.lineBreak ++ following)))) =
      byteLength head + byteLength layout.line + byteLength layout.lineBreak := nextLine_eq head breaks
  rw [← whole] at lineEnd next
  have continues : ∀ line ∈ layout.body, Continues layout.indent line := fun line member =>
    fits.continues line (List.mem_append_left _ member)
  rw [indented?, fromStart]
  cases startsDefinition grammar ((name ++ back).dropWhile isIndent) with
  | false => rfl
  | true =>
    simp only [Bool.not_true, Bool.false_eq_true, if_false, if_true, fits.paramsClose?_eq,
      fits.indentation_eq, first, tail, lineEnd, next, onLine, afterLine, hasLines.eq_lines,
      fits.inlineBody?_eq, indentedEnd_eq fits.blanks fits.stops continues fits.last]
    rw [Layout.span, ← start]
    cases isSignature : layout.signature with
    | none =>
      simp only [Option.map_none]
      rw [Nat.max_eq_left]
      split <;> omega
    | some signature =>
      obtain ⟨c, code, isLine, -⟩ := fits.signature signature isSignature
      have short : byteLength signature + 1 ≤ byteLength layout.line := by
        have positive := c.utf8Size_pos
        rw [isLine, byteLength_append, byteLength]
        omega
      simp only [Option.map_some]
      rw [Nat.max_eq_left]
      split <;> omega

end Layout.Fits

section Existence

theorem exists_lineStart (front : Text) :
    ∃ earlier lead, front = earlier ++ lead ∧ (earlier = [] ∨ ∃ lines, earlier = lines ++ ['\n']) ∧
      '\n' ∉ lead := by
  induction front with
  | nil => exact ⟨[], [], rfl, .inl rfl, List.not_mem_nil⟩
  | cons c rest ih =>
    obtain ⟨earlier, lead, rfl, begins, clean⟩ := ih
    rcases begins with rfl | ⟨lines, rfl⟩
    · by_cases lineEnd : c = '\n'
      · subst lineEnd
        exact ⟨['\n'], lead, rfl, .inr ⟨[], rfl⟩, clean⟩
      · exact ⟨[], c :: lead, rfl, .inl rfl, by simp [Ne.symm lineEnd, clean]⟩
    · exact ⟨c :: (lines ++ ['\n']), lead, rfl, .inr ⟨c :: lines, rfl⟩, clean⟩

theorem exists_line (text : Text) :
    ∃ line lineBreak following, text = line ++ (lineBreak ++ following) ∧ '\n' ∉ line ∧
      (lineBreak = ['\n'] ∨ lineBreak = [] ∧ following = []) := by
  rcases exists_first (· == '\n') text with clean | ⟨line, c, following, rfl, clean, lineEnd⟩
  · refine ⟨text, [], [], (List.append_nil _).symm, fun member => ?_, .inr ⟨rfl, rfl⟩⟩
    cases clean _ member
  · obtain rfl := beq_iff_eq.mp lineEnd
    refine ⟨line, ['\n'], following, rfl, fun member => ?_, .inl rfl⟩
    cases clean _ member

/-- The longest run of lines that go on with a body, without the blank ones at its end. -/
theorem exists_body (indent : Nat) (lines : List Text) :
    ∃ body blanks others, lines = body ++ (blanks ++ others) ∧
      (∀ line ∈ body ++ blanks, Continues indent line) ∧
      (∀ line, others.head? = some line → ¬ Continues indent line) ∧
      (∀ line ∈ blanks, isBlankLine line = true) ∧
      ∀ line, body.getLast? = some line → isBlankLine line = false := by
  induction lines with
  | nil => exact ⟨[], [], [], rfl, nofun, nofun, nofun, nofun⟩
  | cons line lines ih =>
    by_cases continues : Continues indent line
    · obtain ⟨body, blanks, others, rfl, run, stops, areBlank, last⟩ := ih
      have longer : ∀ other ∈ line :: (body ++ blanks), Continues indent other :=
        List.forall_mem_cons.mpr ⟨continues, run⟩
      by_cases early : body = [] ∧ isBlankLine line = true
      · obtain ⟨rfl, blank⟩ := early
        exact ⟨[], line :: blanks, others, rfl, longer, stops,
          List.forall_mem_cons.mpr ⟨blank, areBlank⟩, nofun⟩
      · refine ⟨line :: body, blanks, others, rfl, longer, stops, areBlank, fun other isLast => ?_⟩
        cases body with
        | nil =>
          cases isLast
          simpa using early
        | cons first body => exact last other isLast
    · refine ⟨[], [], line :: lines, rfl, nofun, ?_, nofun, nofun⟩
      rintro _ ⟨⟩
      exact continues

theorem exists_params (back : Text) : ∃ params tail, back = Option.getD params [] ++ tail ∧
    (∀ list, params = some list → IsParams list ∧ tail.head? = some ')') ∧
    (params = none → ∀ list rest, back = list ++ ')' :: rest → ¬ IsParams list) := by
  by_cases listed : ∃ list rest, back = list ++ ')' :: rest ∧ IsParams list
  · obtain ⟨list, rest, parts, isParams⟩ := listed
    refine ⟨some list, ')' :: rest, parts, ?_, nofun⟩
    rintro _ ⟨⟩
    exact ⟨isParams, rfl⟩
  · exact ⟨none, back, rfl, nofun, fun _ list rest parts isParams => listed ⟨list, rest, parts, isParams⟩⟩

theorem exists_signature (line : Text) : ∃ signature : Option Text,
    (∀ before, signature = some before → ∃ c code, line = before ++ c :: code ∧
      (∀ other ∈ before, separates other = false) ∧ separates c = true ∧ IsCode code) ∧
    (signature = none → ∀ before c code, line = before ++ c :: code →
      (∀ other ∈ before, separates other = false) → separates c = true → ¬ IsCode code) := by
  by_cases inline : ∃ before c code, line = before ++ c :: code ∧
      (∀ other ∈ before, separates other = false) ∧ separates c = true ∧ IsCode code
  · obtain ⟨before, c, code, found⟩ := inline
    refine ⟨some before, ?_, nofun⟩
    rintro _ ⟨⟩
    exact ⟨c, code, found⟩
  · exact ⟨none, nofun, fun _ before c code parts first isSeparator isCode =>
      inline ⟨before, c, code, parts, first, isSeparator, isCode⟩⟩

/-- Wherever a definition stands, the text around it has a layout. -/
theorem exists_fits (front name back : Text) : ∃ layout : Layout, layout.Fits front name back := by
  obtain ⟨earlier, lead, parts, begins, clean⟩ := exists_lineStart front
  obtain ⟨params, tail, isBack, isParams, noParams⟩ := exists_params back
  obtain ⟨line, lineBreak, following, isTail, onLine, breaks⟩ := exists_line tail
  obtain ⟨signature, isSignature, noSignature⟩ := exists_signature line
  obtain ⟨body, blanks, others, isLines, continues, stops, areBlank, last⟩ :=
    exists_body (indentation (lead ++ (name ++ back))) (Text.lines following)
  have hasLines := hasLines_lines following
  rw [isLines] at hasLines
  have closes (list : Text) (isList : params = some list) :
      IsParams list ∧ line.head? = some ')' := by
    obtain ⟨listed, closed⟩ := isParams list isList
    refine ⟨listed, ?_⟩
    rw [isTail] at closed
    cases line with
    | cons c rest => exact closed
    | nil => rcases breaks with rfl | ⟨rfl, rfl⟩ <;> simp at closed
  exact ⟨⟨_, params, line, lineBreak, signature, body, blanks, others⟩,
    ⟨earlier, lead, parts, begins, clean, rfl⟩, ⟨following, by rw [isBack, isTail], breaks, hasLines⟩,
    onLine, closes, noParams, isSignature, noSignature, continues, stops, areBlank, last⟩

end Existence

/-- A candidate in an indented language is accepted exactly if it starts with a definition keyword after
spaces and tabs, and its span is then the one that the layout of the text around it gives. There is such a
layout for every text that is cut at the start of the candidate and at the end of its name. -/
theorem definitionSpan?_of_indented {grammar : Grammar} (indented : grammar.bodyStyle = .indented)
    (front name back : Text) :
    let found := grammar.definitionSpan? (front ++ name ++ back) (byteLength front)
      (byteLength (front ++ name))
    (found.isSome = true ↔ StartsWithKeyword grammar ((name ++ back).dropWhile isIndent)) ∧
      (∃ layout : Layout, layout.Fits front name back) ∧
      ∀ layout : Layout, layout.Fits front name back →
        ∀ span, found = some span → span = layout.span (byteLength (front ++ name)) := by
  intro found
  have isFound : found = indented? grammar (front ++ name ++ back) (byteLength front)
      (byteLength (front ++ name)) := by
    rw [show found = grammar.definitionSpan? _ _ _ from rfl, Grammar.definitionSpan?, indented]
  obtain ⟨layout, fits⟩ := exists_fits front name back
  refine ⟨?_, ⟨layout, fits⟩, fun other fits span isSpan => ?_⟩
  · rw [isFound, fits.indented?_eq, ← startsDefinition_iff]
    cases startsDefinition grammar ((name ++ back).dropWhile isIndent) <;> simp
  · rw [isFound, fits.indented?_eq] at isSpan
    split at isSpan
    · exact (Option.some.inj isSpan).symm
    · cases isSpan

/-- A method with parameters on two lines, a comment after its signature, and blank lines in its body and
after it. -/
def nested : Text × Text × Text :=
  ("class A:\n  ".toList, "def f".toList,
    "(a,\n    b=(1, 2)):  # note\n    g()\n\n    h()\n\n  i()\n".toList)

theorem definitionSpan?_of_indented_nested :
    let (front, name, back) := nested
    Grammar.python.bodyStyle = .indented ∧
      Grammar.python.definitionSpan? (front ++ name ++ back) 11 16 = some ⟨some 32, 42, 43, 60⟩ ∧
      ∃ layout : Layout, layout.Fits front name back ∧ layout.span 16 = ⟨some 32, 42, 43, 60⟩ := by
  have found : Grammar.python.definitionSpan? (nested.1 ++ nested.2.1 ++ nested.2.2) 11 16 =
      some ⟨some 32, 42, 43, 60⟩ := by decide +kernel
  obtain ⟨-, ⟨layout, fits⟩, spans⟩ :=
    definitionSpan?_of_indented (rfl : Grammar.python.bodyStyle = .indented) nested.1 nested.2.1 nested.2.2
  exact ⟨rfl, found, layout, fits, (spans layout fits _ found).symm⟩

example : Grammar.ruby.definitionSpan? "def run; helper(1); end\n".toList 0 7 = some ⟨none, 7, 8, 23⟩ := by
  decide +kernel

end DepAtlas.DefinitionSpan
