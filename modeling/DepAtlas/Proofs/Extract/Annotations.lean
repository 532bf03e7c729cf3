import DepAtlas.Proofs.Extract.DefinitionLines
import DepAtlas.Proofs.Extract.Nesting
import DepAtlas.Proofs.Extract.ReturnType

/-!
The return types of definitions whose bodies are indented, read off their source text.

A definition is found on its line, under the indentation, unless its name is reserved or defined before. What
is read as the end of its signature is the line after the parameters, up to the `:` or `;` with which a body
on the same line would begin. A comment is no body, so that it is read as part of the signature: it is found
in the return type, or taken for one.
-/

namespace DepAtlas.DefinitionSpan

open Text (byteLength isIndent)

/-- Where the parameters and the signature of a definition on one line end. -/
theorem indented?_line {grammar : Grammar} {text head line following : Text} {start nameEnd : Nat}
    (parts : text = head ++ (line ++ (['\n'] ++ following)))
    (starts : startsDefinition grammar ((Text.dropBytes start text).dropWhile isIndent) = true)
    (isEnd : paramsClose? text nameEnd = some (byteLength head)) (clean : '\n' ∉ line) :
    ∃ bodyStart bodyEnd, indented? grammar text start nameEnd = some {
      paramsEnd := some (byteLength head)
      signatureEnd := byteLength head + (inlineBody? line).getD (byteLength line)
      bodyStart, bodyEnd } := by
  have lineEnd := lineEnd_eq head (.inl rfl : ['\n'] = ['\n'] ∨ ['\n'] = [] ∧ following = []) clean
  have fromParams := Text.dropBytes_byteLength_append head (line ++ (['\n'] ++ following))
  have onLine := Text.slice_append head line (['\n'] ++ following)
  rw [← parts] at lineEnd fromParams onLine
  rw [indented?, starts]
  simp only [Bool.not_true, Bool.false_eq_true, if_false, isEnd, Option.getD_some, fromParams, lineEnd,
    onLine]
  cases inlineBody? line <;> exact ⟨_, _, rfl⟩

end DepAtlas.DefinitionSpan

namespace DepAtlas.Extract

open DefinitionSpan (Balanced inlineBody?)
open Pattern
open Text (byteLength ink trim isIndent)
open Text.Cursor (between)

/-- The source of a definition, with the lines around it. -/
structure DefinitionText where
  /-- The lines before the definition. -/
  front : Text
  /-- The indentation of its line. -/
  lead : Text
  name : Text
  params : Text
  /-- The return type, with the blanks around it. -/
  annotation : Option Text
  /-- The blanks after the `:`. -/
  gap : Text
  comment : Option Text
  /-- The lines after the line of the definition. -/
  rest : Text

namespace DefinitionText

def annotationText (definition : DefinitionText) : Text :=
  match definition.annotation with
  | none => []
  | some type => " -> ".toList ++ type

def commentText (definition : DefinitionText) : Text :=
  match definition.comment with
  | none => []
  | some comment => '#' :: comment

/-- The line after the parameters. -/
def tail (definition : DefinitionText) : Text :=
  definition.annotationText ++ ':' :: (definition.gap ++ definition.commentText)

def text (definition : DefinitionText) : Text :=
  definition.front ++ (definition.lead ++ ("def ".toList ++ (definition.name ++ '(' :: (definition.params ++
    ')' :: (definition.tail ++ '\n' :: definition.rest)))))

structure WellFormed (definition : DefinitionText) : Prop where
  begins : definition.front = [] ∨ ∃ lines, definition.front = lines ++ ['\n']
  lead : ∀ c ∈ definition.lead, isIndent c = true
  params : Balanced definition.params
  annotation : ∀ type, definition.annotation = some type →
    trim type ≠ [] ∧ (∀ c ∈ type, c ∉ [':', '#', '\n']) ∧ ¬ "=>".toList <:+: type
  gap : ∀ c ∈ definition.gap, Text.isBlank c = true ∧ c ≠ '\n'
  comment : ∀ comment, definition.comment = some comment → '\n' ∉ comment
  /-- The name is not defined before. -/
  first : ∀ before after, definition.front = before ++ after →
    (before = [] ∨ ∃ lines, before = lines ++ ['\n']) → ¬ StartsDefinition definition.name after

/-- The name is an ASCII identifier that is not reserved. -/
def IsNamed (definition : DefinitionText) : Prop :=
  (∃ c more, definition.name = c :: more ∧ CharSet.identStart c = true ∧
    ∀ c ∈ more, CharSet.ident "" c = true) ∧
    Grammar.python.isKeyword (String.ofList definition.name) = false

/-- The return type is read as it is written: no comment follows it, and neither a `;` nor what begins like a
clause stands in it. Without a return type, a comment is not taken for one only if nothing is left of what
follows the first arrow in it. -/
def ReadsAnnotation (definition : DefinitionText) : Prop :=
  match definition.annotation, definition.comment with
  | none, none => True
  | some type, none => ';' ∉ type ∧ ¬ " where".toList <:+: ' ' :: type
  | some _, some _ => False
  | none, some comment => ∃ before after, comment = before ++ ("->".toList ++ after) ∧
      ¬ "->".toList <:+: before ∧ cleaned after = []

variable {definition : DefinitionText}

/-- What is read as the end of the signature. -/
structure IsSignature (definition : DefinitionText) (signature : Text) : Prop where
  starts : signature <+: definition.tail
  length : byteLength (')' :: signature) =
    (inlineBody? (')' :: definition.tail)).getD (byteLength (')' :: definition.tail))
  reads : tailType? signature = definition.annotation.map (String.ofList <| trim ·) ↔
    definition.ReadsAnnotation

theorem WellFormed.blank_gap (wellFormed : definition.WellFormed) :
    ∀ c ∈ definition.gap, Text.isBlank c = true :=
  fun c member => (wellFormed.gap c member).1

theorem tail_plain (plain : definition.annotation = none) :
    definition.tail = ':' :: (definition.gap ++ definition.commentText) := by
  rw [tail, annotationText, plain, List.nil_append]

theorem tail_annotated {type : Text} (annotated : definition.annotation = some type) :
    definition.tail = " -> ".toList ++ type ++ ':' :: (definition.gap ++ definition.commentText) := by
  rw [tail, annotationText, annotated]

/-- Neither the arrow nor what is written after it ends the signature without one of two characters. -/
theorem not_separates_arrow {text : Text} (colonless : ':' ∉ text) (whole : ';' ∉ text) :
    ∀ c ∈ [')'] ++ " -> ".toList ++ text, DefinitionSpan.separates c = false := by
  have inArrow : ∀ c ∈ [')'] ++ " -> ".toList, DefinitionSpan.separates c = false :=
    List.all_iff_forall_prop.mp (by decide)
  refine List.forall_mem_append.mpr ⟨inArrow, fun c member => ?_⟩
  have noColon : c ≠ ':' := fun same => colonless (same ▸ member)
  have noSemicolon : c ≠ ';' := fun same => whole (same ▸ member)
  simp [DefinitionSpan.separates, noColon, noSemicolon]

theorem inlineBody?_comment {before : Text} (wellFormed : definition.WellFormed)
    (clean : ∀ c ∈ before, DefinitionSpan.separates c = false) :
    inlineBody? (before ++ ':' :: (definition.gap ++ definition.commentText)) = none := by
  rw [DefinitionSpan.inlineBody?_append clean rfl, commentText]
  cases definition.comment with
  | none => rw [List.append_nil, Text.trim_of_blank wellFormed.blank_gap]; rfl
  | some comment => rw [Text.trim_of_ink wellFormed.blank_gap (by decide)]; rfl

theorem isSignature_plain (wellFormed : definition.WellFormed) (plain : definition.annotation = none) :
    definition.IsSignature definition.tail := by
  have blank := wellFormed.blank_gap
  refine ⟨List.prefix_refl _, ?_, ?_⟩
  · have nothing : inlineBody? ([')'] ++ ':' :: (definition.gap ++ definition.commentText)) = none :=
      inlineBody?_comment wellFormed (List.forall_mem_singleton.mpr rfl)
    rw [List.singleton_append, ← tail_plain plain] at nothing
    rw [nothing]
    rfl
  · rw [tail_plain plain, plain, ReadsAnnotation, plain, commentText]
    cases definition.comment with
    | none =>
      have absent : ¬ arrow <:+: definition.gap := Text.not_infix_of_blank ⟨'-', by decide, by decide⟩ blank
      have nothing := @cleaned_append_blank [] definition.gap blank
      rw [List.nil_append] at nothing
      rw [List.append_nil, tailType?_colon absent, nothing]
      exact iff_of_true rfl trivial
    | some comment => exact tailType?_comment_eq_none_iff blank comment

theorem isSignature_annotated (wellFormed : definition.WellFormed) {type : Text}
    (annotated : definition.annotation = some type) (whole : ';' ∉ type) :
    definition.IsSignature definition.tail := by
  obtain ⟨typed, clean, bodyless⟩ := wellFormed.annotation type annotated
  have blank := wellFormed.blank_gap
  have colonless : ':' ∉ type := fun member => clean _ member (by decide)
  refine ⟨List.prefix_refl _, ?_, ?_⟩
  · have nothing := inlineBody?_comment wellFormed (not_separates_arrow colonless whole)
    rw [List.append_assoc, List.append_assoc, List.singleton_append, ← List.append_assoc,
      ← tail_annotated annotated] at nothing
    rw [nothing]
    rfl
  · have first : ¬ arrow <:+: [' '] := by decide
    have isTail : definition.tail =
        [' '] ++ (arrow ++ (' ' :: type ++ ':' :: (definition.gap ++ definition.commentText))) :=
      tail_annotated annotated
    have bodyless' : ¬ bodyMark <:+: ' ' :: type := bodyless_cons_space bodyless
    have trimmed : trim (' ' :: type) = trim type := Text.trim_cons_blank (by decide)
    rw [isTail, tailType?_arrow first, annotated, Option.map_some, typeNamed?_eq_some_iff typed,
      ReadsAnnotation, annotated, commentText, ← trimmed]
    cases definition.comment with
    | none =>
      have colonless' : ':' ∉ ' ' :: type := List.not_mem_cons_of_ne_of_not_mem (by decide) colonless
      rw [List.append_nil, cleaned_colon_iff bodyless' colonless' blank]
      exact (and_iff_right whole).symm
    | some comment => exact iff_of_false (cleaned_comment_ne bodyless' blank comment) id

theorem isSignature_cut (wellFormed : definition.WellFormed) {before after : Text}
    (annotated : definition.annotation = some (before ++ ';' :: after)) (first : ';' ∉ before) :
    definition.IsSignature (" -> ".toList ++ before) := by
  obtain ⟨typed, clean, -⟩ := wellFormed.annotation _ annotated
  have isTail : definition.tail = " -> ".toList ++ before ++
      ';' :: (after ++ ':' :: (definition.gap ++ definition.commentText)) := by
    rw [tail_annotated annotated]
    simp
  have isCode : DefinitionSpan.IsCode (after ++ ':' :: (definition.gap ++ definition.commentText)) := by
    rcases Text.exists_first (fun c => !Text.isBlank c) after with
      blank | ⟨blanks, ink, more, rfl, blank, isInk⟩
    · exact ⟨after, ':', _, rfl, fun c member => by simpa using blank c member, by decide, by decide⟩
    · refine ⟨blanks, ink, more ++ ':' :: (definition.gap ++ definition.commentText), by simp,
        fun c member => by simpa using blank c member, by simpa using isInk, ?_⟩
      rintro rfl
      exact clean '#' (by simp) (by decide)
  refine ⟨⟨_, isTail.symm⟩, ?_, ?_⟩
  · have colonless : ':' ∉ before := fun member => clean _ (List.mem_append_left _ member) (by decide)
    have found := DefinitionSpan.inlineBody?_of_code (not_separates_arrow colonless first)
      (rfl : DefinitionSpan.separates ';' = true) isCode
    have isLine : [')'] ++ " -> ".toList ++ before ++
        ';' :: (after ++ ':' :: (definition.gap ++ definition.commentText)) = ')' :: definition.tail := by
      rw [isTail]
      rfl
    rw [isLine] at found
    rw [found]
    rfl
  · have absent : ¬ arrow <:+: [' '] := by decide
    have read : tailType? (" -> ".toList ++ before) = typeNamed? (cleaned (' ' :: before)) :=
      tailType?_arrow absent _
    have shorter := ink_cleaned_le (' ' :: before)
    rw [read, annotated, Option.map_some, typeNamed?_eq_some_iff typed, ReadsAnnotation, annotated]
    refine iff_of_false (fun same => ?_) ?_
    · have longer : ink (' ' :: before) < ink (before ++ ';' :: after) := by
        rw [Text.ink_cons_blank (by decide), Text.ink_append, Text.ink_cons_ink (by decide)]
        omega
      rw [same, Text.ink_trim] at shorter
      omega
    · cases definition.comment with
      | none => exact fun both => both.1 (by simp)
      | some comment => exact id

theorem exists_isSignature (wellFormed : definition.WellFormed) :
    ∃ signature, definition.IsSignature signature := by
  cases annotated : definition.annotation with
  | none => exact ⟨_, isSignature_plain wellFormed annotated⟩
  | some type =>
    rcases Text.exists_first (· == ';') type with clean | ⟨before, c, after, rfl, clean, isSemicolon⟩
    · refine ⟨_, isSignature_annotated wellFormed annotated fun member => ?_⟩
      simpa using clean _ member
    · obtain rfl := beq_iff_eq.mp isSemicolon
      refine ⟨_, isSignature_cut wellFormed annotated fun member => ?_⟩
      simpa using clean _ member

section Reported

variable (path : Path)

/-- The source up to the name. -/
def beforeName (definition : DefinitionText) : Text :=
  definition.front ++ definition.lead ++ definitionWord

/-- The source from the parameters on. -/
def afterName (definition : DefinitionText) : Text :=
  '(' :: (definition.params ++ ')' :: (definition.tail ++ '\n' :: definition.rest))

theorem text_eq (definition : DefinitionText) :
    definition.text = definition.beforeName ++ definition.name ++ definition.afterName := by
  simp [text, beforeName, afterName, definitionWord]

/-- The captured name. -/
def nameSpan (definition : DefinitionText) : Text.Span :=
  ⟨between definition.beforeName (definition.name ++ definition.afterName),
    byteLength (definition.beforeName ++ definition.name)⟩

/-- The match on the line of the definition. -/
def hit (definition : DefinitionText) : Hit :=
  ⟨⟨between definition.front
        (definition.lead ++ (definitionWord ++ (definition.name ++ definition.afterName))),
      byteLength (definition.beforeName ++ definition.name ++ ['('])⟩,
    { subject := some definition.nameSpan }⟩

theorem toString_nameSpan : definition.nameSpan.toString = String.ofList definition.name :=
  congrArg String.ofList (Text.Span.text_between definition.beforeName definition.name definition.afterName)

/-- Only blanks and the word stand before the name. -/
theorem builtinWord?_lead {lead : Text} (inLead : ∀ c ∈ lead, isIndent c = true) :
    builtinWord? Grammar.python (lead ++ definitionWord) = none := by
  induction lead with
  | nil => decide
  | cons c lead ih =>
    obtain ⟨here, rest⟩ := List.forall_mem_cons.mp inLead
    have splits : (fun c => !Text.isIdentifier c) c = true := by
      rw [isIndent, Bool.or_eq_true, beq_iff_eq, beq_iff_eq] at here
      rcases here with rfl | rfl <;> decide
    have pieces :=
      @Text.splitWhere_append (fun c => !Text.isIdentifier c) c splits [] (lead ++ definitionWord)
    rw [List.nil_append] at pieces
    have known := ih rest
    rw [builtinWord?, Text.words] at known ⊢
    rw [List.cons_append, pieces, List.map_append, List.find?_append, known]
    decide

theorem clean_tail (wellFormed : definition.WellFormed) : '\n' ∉ ')' :: definition.tail := by
  have inGap : '\n' ∉ definition.gap := fun member => (wellFormed.gap _ member).2 rfl
  have inComment : '\n' ∉ definition.commentText := by
    rw [commentText]
    split
    case h_1 => exact List.not_mem_nil
    case h_2 comment isComment =>
      rw [List.mem_cons, not_or]
      exact ⟨by decide, wellFormed.comment comment isComment⟩
  have inAnnotation : '\n' ∉ definition.annotationText := by
    rw [annotationText]
    split
    case h_1 => exact List.not_mem_nil
    case h_2 type annotated =>
      refine List.not_mem_append (by decide) fun member => ?_
      exact (wellFormed.annotation type annotated).2.1 _ member (by decide)
  rw [List.mem_cons, tail, List.mem_append, List.mem_cons, List.mem_append]
  simp [inGap, inComment, inAnnotation]

/-- The definition is accepted, with its parameters and its signature. -/
theorem exists_definitionSpan? (wellFormed : definition.WellFormed) {signature : Text}
    (isSignature : definition.IsSignature signature) :
    ∃ bodyStart bodyEnd, Grammar.python.definitionSpan? definition.text (byteLength definition.front)
        definition.nameSpan.stop = some {
      paramsEnd := some (byteLength (definition.beforeName ++ definition.name ++ '(' :: definition.params))
      signatureEnd := byteLength (definition.beforeName ++ definition.name ++ '(' :: definition.params) +
        byteLength (')' :: signature)
      bodyStart, bodyEnd } := by
  have starts : DefinitionSpan.startsDefinition Grammar.python
      ((Text.dropBytes (byteLength definition.front) definition.text).dropWhile isIndent) = true := by
    have fromStart : Text.dropBytes (byteLength definition.front) definition.text =
        definition.lead ++ (definitionWord ++ (definition.name ++ definition.afterName)) := by
      rw [text_eq, beforeName, List.append_assoc, List.append_assoc, List.append_assoc,
        Text.dropBytes_byteLength_append]
    rw [fromStart, List.dropWhile_append_of_pos wellFormed.lead]
    rfl
  have isParams : DefinitionSpan.paramsClose? definition.text
      (byteLength (definition.beforeName ++ definition.name)) =
        some (byteLength (definition.beforeName ++ definition.name ++ '(' :: definition.params)) := by
    rw [text_eq]
    refine DefinitionSpan.paramsClose?_eq_some_iff.mpr
      ⟨'(' :: definition.params, definition.tail ++ '\n' :: definition.rest, rfl, ?_,
        [], definition.params, rfl, nofun, wellFormed.params⟩
    exact Text.byteLength_append _ _
  have isLine : definition.text = (definition.beforeName ++ definition.name ++ '(' :: definition.params) ++
      ((')' :: definition.tail) ++ (['\n'] ++ definition.rest)) := by
    rw [text_eq, afterName]
    simp
  obtain ⟨bodyStart, bodyEnd, found⟩ :=
    DefinitionSpan.indented?_line isLine starts isParams (clean_tail wellFormed)
  rw [← isSignature.length] at found
  exact ⟨bodyStart, bodyEnd, found⟩

/-- The definition in its source file. -/
def source (definition : DefinitionText) (path : Path) : Source :=
  .ofContent .python path (String.ofList definition.text)

theorem text_source : (definition.source path).text = definition.text := String.toList_ofList

theorem slice_signature {signature : Text} (isSignature : definition.IsSignature signature) :
    let paramsEnd := byteLength (definition.beforeName ++ definition.name ++ '(' :: definition.params)
    Text.slice definition.text (paramsEnd + 1) (paramsEnd + byteLength (')' :: signature)) = signature := by
  intro paramsEnd
  obtain ⟨code, isTail⟩ := isSignature.starts
  have parts : definition.text =
      (definition.beforeName ++ definition.name ++ '(' :: definition.params ++ [')']) ++
      (signature ++ (code ++ '\n' :: definition.rest)) := by
    rw [text_eq, afterName, ← isTail]
    simp
  have width : byteLength (definition.beforeName ++ definition.name ++ '(' :: definition.params ++ [')']) =
      paramsEnd + 1 := Text.byteLength_append _ _
  have whole : paramsEnd + byteLength (')' :: signature) = paramsEnd + 1 + byteLength signature := by
    rw [byteLength, ← Nat.add_assoc]
    rfl
  have cut := Text.slice_append
    (definition.beforeName ++ definition.name ++ '(' :: definition.params ++ [')']) signature
    (code ++ '\n' :: definition.rest)
  rw [← parts, width] at cut
  rw [whole, cut]

/-- The return type is read off the signature. -/
theorem returnType?_text (wellFormed : definition.WellFormed) {signature : Text}
    (isSignature : definition.IsSignature signature) (bodyStart bodyEnd : Nat) :
    let paramsEnd := byteLength (definition.beforeName ++ definition.name ++ '(' :: definition.params)
    returnType? Grammar.python definition.text definition.hit (byteLength definition.beforeName)
      ⟨some paramsEnd, paramsEnd + byteLength (')' :: signature), bodyStart, bodyEnd⟩ =
        tailType? signature := by
  intro paramsEnd
  have plain : builtinWord? Grammar.python (Text.slice definition.text (byteLength definition.front)
      (byteLength definition.beforeName)) = none := by
    have word := Text.slice_append definition.front (definition.lead ++ definitionWord)
      (definition.name ++ definition.afterName)
    have parts : definition.text = definition.front ++ ((definition.lead ++ definitionWord) ++
        (definition.name ++ definition.afterName)) := by
      rw [text_eq, beforeName]
      simp
    rw [← parts, ← Text.byteLength_append, ← List.append_assoc] at word
    rw [beforeName, word]
    exact builtinWord?_lead wellFormed.lead
  have before : paramsEnd < paramsEnd + byteLength (')' :: signature) :=
    Nat.lt_add_of_pos_right (Text.byteLength_pos (List.cons_ne_nil _ _))
  exact (returnType?_eq rfl rfl before plain).trans (congrArg tailType? (slice_signature isSignature))

theorem exists_of_isNamed (wellFormed : definition.WellFormed) (isNamed : definition.IsNamed) :
    ∃ dependency ∈ inLayer (definition.source path) .method,
      dependency.target = String.ofList definition.name ∧
      dependency.line = min (definition.front.count '\n' + 1) Text.LineIndex.maxLine ∧
      (dependency.returnType? = definition.annotation.map (String.ofList <| trim ·) ↔
        definition.ReadsAnnotation) := by
  obtain ⟨⟨c, more, isName, starts, ident⟩, free⟩ := isNamed
  obtain ⟨signature, isSignature⟩ := exists_isSignature wellFormed
  obtain ⟨bodyStart, bodyEnd, isSpan⟩ := exists_definitionSpan? wellFormed isSignature
  have parts : (String.ofList definition.text).toList = definition.front ++
      (definition.lead ++ (definitionWord ++ (definition.name ++ definition.afterName))) := by
    rw [String.toList_ofList, text_eq, beforeName]
    simp
  have isHit : definitionPattern.hitAt (between definition.front
      (definition.lead ++ (definitionWord ++ (definition.name ++ definition.afterName)))) =
        some definition.hit := by
    have found := hitAt_definitionPattern wellFormed.begins wellFormed.lead starts ident
      (definition.params ++ ')' :: (definition.tail ++ '\n' :: definition.rest))
    rw [← isName] at found
    exact found
  have named : (definition.source path).grammar.isKeyword definition.nameSpan.toString = false := by
    rw [toString_nameSpan]
    exact free
  have accepted := @method?_eq (definition.source path) (.ofGrammar .python .method) definition.hit
    definition.nameSpan rfl rfl named
  rw [text_source] at accepted
  change _ = (Grammar.python.definitionSpan? definition.text (byteLength definition.front)
    definition.nameSpan.stop).map _ at accepted
  rw [isSpan, Option.map_some] at accepted
  refine ⟨_, mem_inLayer_of_hitAt definitions_python parts isHit accepted ?_, toString_nameSpan, ?_, ?_⟩
  · intro before after other whole filled isOther
    have begins : before = [] ∨ ∃ lines, before = lines ++ ['\n'] :=
      lineStart_of_hitAt anchored_definitionPattern isOther
    obtain ⟨ends, name, defines, captured⟩ :=
      of_earlier_hit wellFormed.begins wellFormed.lead whole filled isOther
    refine ⟨ends, fun same => wellFormed.first before after whole begins ?_⟩
    rw [captured] at same
    have sameName := (Option.some.inj same).trans toString_nameSpan
    rwa [← String.ofList_inj.mp sameName]
  · change (Text.LineIndex.ofText (String.ofList definition.text).toList).lineOf
      (byteLength definition.beforeName) = _
    have clean : '\n' ∉ definition.lead ++ definitionWord := by
      refine List.not_mem_append (fun member => ?_) (by decide)
      exact absurd (wellFormed.lead _ member) (by decide)
    rw [String.toList_ofList, text_eq, List.append_assoc, lineOf_append, beforeName, List.append_assoc,
      List.count_append, List.count_eq_zero_of_not_mem clean, Nat.add_zero]
  · rw [← isSignature.reads, ← returnType?_text wellFormed isSignature bodyStart bodyEnd]
    rfl

theorem isNamed_of_mem {dependency : Dependency}
    (member : dependency ∈ inLayer (definition.source path) .method)
    (named : dependency.target = String.ofList definition.name) : definition.IsNamed := by
  obtain ⟨front, back, hit, -, isHit, accepted⟩ := exists_hitAt_of_mem_inLayer definitions_python member
  obtain ⟨span, result, body, captured, free, whole⟩ := exists_of_method? accepted
  have isName : span.toString = String.ofList definition.name := by
    rw [← named, whole]
    rfl
  rw [hitAt_eq] at isHit
  obtain ⟨way, isFirst, rfl⟩ := Option.map_eq_some_iff.mp isHit
  obtain ⟨lead, modifier, gap, c, more, blanks, rest, rfl, -, -, -, -, ⟨starts, ident⟩, rfl⟩ :=
    exists_of_mem_definitionPattern (List.mem_of_head? isFirst)
  cases captured
  have isText : definition.name = c :: more := by
    rw [← String.ofList_inj, ← isName]
    exact congrArg String.ofList (text_name front _ (c :: more) blanks _)
  exact ⟨⟨c, more, isText, starts, ident⟩, isName ▸ free⟩

end Reported

end DefinitionText

/-- The first definition of a name is reported on its line. Its return type is the annotation exactly if no
comment follows it and nothing in it ends it too early; without an annotation there is none unless a comment
follows. -/
theorem extractAs_definition (definition : DefinitionText) (wellFormed : definition.WellFormed) (path : Path)
    (mask : LayerMask) (included : mask.contains .method = true) :
    ∃ found, extractAs .filled .python path (String.ofList definition.text) mask = .ok found ∧
      let reported := fun dependency => dependency ∈ found ∧ dependency.layer = .method ∧
        dependency.target = String.ofList definition.name ∧
        dependency.line = min (definition.front.count '\n' + 1) Text.LineIndex.maxLine
      ((∃ dependency, reported dependency) ↔ definition.IsNamed) ∧
        ((∃ dependency, reported dependency ∧
            dependency.returnType? = definition.annotation.map (String.ofList <| trim ·)) ↔
          definition.IsNamed ∧ definition.ReadsAnnotation) := by
  obtain ⟨found, isFound, methods⟩ :=
    exists_extractAs_methods .python path (String.ofList definition.text) included
  refine ⟨found, isFound, ⟨?_, fun isNamed => ?_⟩, ⟨?_, ?_⟩⟩
  · rintro ⟨dependency, member, isMethod, named, -⟩
    exact definition.isNamed_of_mem path ((methods _).mp ⟨member, isMethod⟩) named
  · obtain ⟨dependency, member, named, line, -⟩ := definition.exists_of_isNamed path wellFormed isNamed
    obtain ⟨inFound, isMethod⟩ := (methods _).mpr member
    exact ⟨dependency, inFound, isMethod, named, line⟩
  · rintro ⟨dependency, ⟨member, isMethod, named, -⟩, returns⟩
    have inMethods := (methods _).mp ⟨member, isMethod⟩
    have isNamed := definition.isNamed_of_mem path inMethods named
    obtain ⟨other, isOther, named', -, reads⟩ := definition.exists_of_isNamed path wellFormed isNamed
    obtain rfl := eq_of_mem_inLayer inMethods isOther (named.trans named'.symm)
    exact ⟨isNamed, reads.mp returns⟩
  · rintro ⟨isNamed, reads⟩
    obtain ⟨dependency, member, named, line, returns⟩ :=
      definition.exists_of_isNamed path wellFormed isNamed
    obtain ⟨inFound, isMethod⟩ := (methods _).mpr member
    exact ⟨dependency, ⟨inFound, isMethod, named, line⟩, returns.mpr reads⟩

/-- A method of a class with a comment after its return type. -/
def commentedDefinition : DefinitionText where
  front := "class Box:\n".toList
  lead := "    ".toList
  name := "size".toList
  params := "self, unit=(1, 2)".toList
  annotation := some "int".toList
  gap := "  ".toList
  comment := some " in units".toList
  rest := "        return measure(self, unit)\n".toList

theorem extractAs_definition_commented :
    commentedDefinition.WellFormed ∧ LayerMask.all.contains .method = true ∧
      ∃ found,
        extractAs .filled .python ⟨"box.py"⟩ (String.ofList commentedDefinition.text) .all = .ok found ∧
        (∃ dependency ∈ found, dependency.target = "size" ∧ dependency.line = 2) ∧
        ∀ dependency ∈ found, dependency.layer = .method → dependency.target = "size" →
          dependency.line = 2 → dependency.returnType? ≠ some "int" := by
  have wellFormed : commentedDefinition.WellFormed := {
    begins := .inr ⟨"class Box:".toList, by decide⟩
    lead := List.all_iff_forall_prop.mp (by decide)
    params := by decide +kernel
    annotation := by
      rintro _ ⟨⟩
      exact ⟨by decide, List.all_iff_forall_prop.mp (by decide), by decide⟩
    gap := List.all_iff_forall_prop.mp (by decide)
    comment := by
      rintro _ ⟨⟩
      decide
    first := by
      rintro before after parts - ⟨lead, modifier, gap, blanks, rest, rfl, -⟩
      -- A definition opens a parenthesis, and there is none in the line before.
      have absent : '(' ∉ commentedDefinition.front := by decide
      exact absurd (parts ▸ by simp) absent }
  have isNamed : commentedDefinition.IsNamed :=
    ⟨⟨'s', "ize".toList, by decide, by decide, List.all_iff_forall_prop.mp (by decide)⟩, by decide +kernel⟩
  obtain ⟨found, isResult, reported, returned⟩ :=
    extractAs_definition commentedDefinition wellFormed ⟨"box.py"⟩ .all (by decide)
  refine ⟨wellFormed, by decide, found, isResult, ?_, ?_⟩
  · obtain ⟨dependency, member, -, named, line⟩ := reported.mpr isNamed
    exact ⟨dependency, member, named, line⟩
  · intro dependency member isMethod named line returns
    exact (returned.mp ⟨dependency, ⟨member, isMethod, named, line⟩, returns⟩).2

end DepAtlas.Extract
