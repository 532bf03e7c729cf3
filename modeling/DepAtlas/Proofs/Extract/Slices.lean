import DepAtlas.Proofs.Extract.Places
import DepAtlas.Proofs.Extract.ReturnType
import DepAtlas.Proofs.Pattern.Reading

/-!
Every part of a text that is cut out while definitions are read lies between two characters. The functions
under `Checked` are the extraction with each cut and each count downwards checked, and they have no result
where a check fails. They have the results of the extraction that makes no checks, so none ever fails.
-/

namespace DepAtlas.DefinitionSpan

open Text

namespace Checked

/-- Looks for the character that balances `depth` opened ones. There is no result if the counter would go
below zero. -/
def closing (opens closes : Char) : Nat → Nat → Text → Option (Option Nat)
  | _, _, [] => some none
  | depth, offset, c :: rest =>
    let next := offset + c.utf8Size
    if c = opens then closing opens closes (depth + 1) next rest
    else if c = closes then
      if depth = 0 then none
      else if depth = 1 then some (some offset)
      else closing opens closes (depth - 1) next rest
    else closing opens closes depth next rest

/-- The counter of braces begins at the brace that opens the body. The one of parentheses is signed, and the
search ends when it is below zero. -/
def braces (text : Text) (start nameEnd : Nat) : Option (Option DefinitionSpan) :=
  let rest := dropBytes start text
  match openingBrace? nameEnd (byteLength text - byteLength rest) {} rest with
  | none => some none
  | some (opening, signature) =>
    (closing '\x7b' '\x7d' 0 opening (dropBytes opening text)).map fun close =>
      some {
        paramsEnd := signature.paramsEnd
        signatureEnd := opening
        bodyStart := opening + 1
        bodyEnd := close.getD (byteLength text) }

/-- The counter begins at the first parenthesis, in front of which only spaces and tabs may stand. -/
def paramsClose (text : Text) (start : Nat) : Option (Option Nat) := do
  let rest ← slice? text start (byteLength text)
  match findWhere? (· == '(') rest with
  | none => some none
  | some opening =>
    let lead ← slice? rest 0 opening
    if lead.all isIndent then closing '(' ')' 0 (start + opening) (dropBytes opening rest)
    else some none

def inlineBody (rest : Text) : Option (Option Nat) :=
  match findWhere? separates rest with
  | none => some none
  | some separator =>
    (slice? rest (separator + 1) (byteLength rest)).map fun tail =>
      if (trim tail).isEmpty || (trim tail).head? == some '#' then none else some separator

def indented (grammar : Grammar) (text : Text) (start nameEnd : Nat) :
    Option (Option DefinitionSpan) := do
  let length := byteLength text
  let before ← slice? text 0 start
  let fromStart ← slice? text start length
  if !startsDefinition grammar (fromStart.dropWhile isIndent) then
    some none
  else
    let line ← slice? text (lineStartBefore.go 0 0 before) length
    let indent := indentation line
    let paramsEnd ← paramsClose text nameEnd
    let signature := paramsEnd.getD nameEnd
    let tail ← slice? text signature length
    let lineEnd := ((findWhere? (· == '\n') tail).map (signature + ·)).getD length
    let nextLine := min (lineEnd + 1) length
    let onLine ← slice? text signature lineEnd
    let separator ← inlineBody onLine
    let following ← slice? text nextLine length
    match separator with
    | some separator =>
      let bodyStart := signature + separator + 1
      some (some {
        paramsEnd := paramsEnd
        signatureEnd := signature + separator
        bodyStart := bodyStart
        bodyEnd := max (indentedEnd indent nextLine lineEnd (lines following)) bodyStart })
    | none =>
      some (some {
        paramsEnd := paramsEnd
        signatureEnd := lineEnd
        bodyStart := nextLine
        bodyEnd := max (indentedEnd indent nextLine nextLine (lines following)) nextLine })

/-- `Grammar.definitionSpan?` with its checks. -/
def definitionSpan (grammar : Grammar) (text : Text) (start nameEnd : Nat) :
    Option (Option DefinitionSpan) :=
  match grammar.bodyStyle with
  | .braces => braces text start nameEnd
  | .indented => indented grammar text start nameEnd

end Checked

variable {text : Text} {start nameEnd : Nat}

section Scanning

theorem isBoundary_lineStartBefore (starts : isBoundary start text = true) :
    isBoundary (lineStartBefore text start) text = true := by
  obtain ⟨front, back, rfl, rfl⟩ := exists_of_isBoundary starts
  obtain ⟨earlier, lead, rfl, begins, clean⟩ := exists_lineStart front
  rw [lineStartBefore_eq begins clean, List.append_assoc]
  exact isBoundary_append earlier _

theorem isBoundary_paramsClose? (ends : isBoundary nameEnd text = true) :
    isBoundary ((paramsClose? text nameEnd).getD nameEnd) text = true := by
  obtain ⟨front, back, rfl, rfl⟩ := exists_of_isBoundary ends
  cases found : paramsClose? (front ++ back) (byteLength front) with
  | none => exact ends
  | some place =>
    obtain ⟨params, rest, rfl, rfl, -⟩ := paramsClose?_eq_some_iff.mp found
    rw [Option.getD_some, ← byteLength_append, ← List.append_assoc]
    exact isBoundary_append _ _

/-- The end of the line that an offset is on, and the start of the next one. -/
theorem isBoundary_lineEnd {first lineEnd : Nat} (cuts : isBoundary first text = true)
    (isEnd : lineEnd = ((findWhere? (· == '\n') (dropBytes first text)).map (first + ·)).getD
      (byteLength text)) :
    first ≤ lineEnd ∧ isBoundary lineEnd text = true ∧
      isBoundary (min (lineEnd + 1) (byteLength text)) text = true := by
  obtain ⟨head, tail, rfl, rfl⟩ := exists_of_isBoundary cuts
  obtain ⟨line, lineBreak, following, rfl, clean, breaks⟩ := exists_line tail
  rw [dropBytes_byteLength_append, lineEnd_eq head breaks clean] at isEnd
  rw [isEnd, nextLine_eq head breaks, ← byteLength_append, ← byteLength_append]
  refine ⟨?_, ?_, ?_⟩
  · rw [byteLength_append]
    exact Nat.le_add_right _ _
  · rw [← List.append_assoc]
    exact isBoundary_append _ _
  · rw [← List.append_assoc, ← List.append_assoc]
    exact isBoundary_append _ _

end Scanning

namespace Checked

variable {opens closes : Char} {depth offset : Nat}

theorem closing_eq (positive : 0 < depth) :
    closing opens closes depth offset text = some (closing? opens closes depth offset text) := by
  induction text generalizing depth offset with
  | nil => rfl
  | cons c rest ih =>
    rw [closing, closing?]
    split
    · exact ih (Nat.succ_pos depth)
    split
    · rw [if_neg (Nat.ne_of_gt positive)]
      by_cases last : depth = 1
      · rw [if_pos last, if_pos (Nat.le_of_eq last)]
      · rw [if_neg last, if_neg (by omega)]
        exact ih (by omega)
    · exact ih positive

/-- A counter that begins at an opening character does not go below zero. -/
theorem closing_opens (rest : Text) :
    closing opens closes 0 offset (opens :: rest) =
      some (closing? opens closes 1 (offset + opens.utf8Size) rest) :=
  (if_pos rfl).trans (closing_eq Nat.one_pos)

theorem braces_eq (ordered : start ≤ nameEnd) :
    braces text start nameEnd = some (braces? text start nameEnd) := by
  have spec := openingBrace?_start text ordered
  rw [braces, braces?]
  cases found : openingBrace? nameEnd
      (byteLength text - byteLength (dropBytes start text)) {} (dropBytes start text) with
  | none => rfl
  | some result =>
    obtain ⟨opening, signature⟩ := result
    rw [found] at spec
    obtain ⟨front, back, rfl, rfl⟩ := Utf8.exists_of_stands (by decide) spec.1.brace
    have after : dropBytes (byteLength front + 1) (front ++ '\x7b' :: back) = back :=
      Utf8.dropBytes_after (by decide) front back
    simp only [dropBytes_byteLength_append, closing_opens, Option.map_some, Option.bind_eq_bind,
      Option.bind_some, after]
    rfl

theorem paramsClose_eq (cuts : isBoundary start text = true) :
    paramsClose text start = some (paramsClose? text start) := by
  obtain ⟨front, back, rfl, rfl⟩ := exists_of_isBoundary cuts
  rw [paramsClose, slice?_back cuts, dropBytes_byteLength_append]
  simp only [Option.bind_eq_bind, Option.bind_some]
  rcases exists_first (· == '(') back with absent | ⟨lead, c, rest, rfl, clean, isOpen⟩
  · rw [findWhere?_eq_none absent, paramsClose?_eq_none fun params isOpen => ?_]
    have member : '(' ∈ back := (List.dropWhile_suffix isIndent).subset (isOpen ▸ List.mem_cons_self)
    cases absent '(' member
  · obtain rfl := beq_iff_eq.mp isOpen
    rw [findWhere?_first clean isOpen]
    simp only [slice?_front (isBoundary_append lead _), takeBytes_byteLength_append,
      dropBytes_byteLength_append, Option.bind_some, closing_opens]
    rcases exists_first (fun c => !isIndent c) lead with blank | ⟨blanks, ink, more, rfl, blank, isInk⟩
    · have indents : ∀ c ∈ lead, isIndent c = true := fun c member => by simpa using blank c member
      rw [if_pos (List.all_eq_true.mpr indents), paramsClose?_of_indent indents]
      rfl
    · have indents : ∀ c ∈ blanks, isIndent c = true := fun c member => by simpa using blank c member
      rw [Bool.not_eq_true'] at isInk
      rw [if_neg (by simp [isInk]), paramsClose?_eq_none fun params isOpen => ?_]
      rw [List.append_assoc, List.dropWhile_append_of_pos indents, List.cons_append,
        List.dropWhile_cons_of_neg (by simp [isInk])] at isOpen
      cases isOpen
      cases clean '(' (by simp)

theorem inlineBody_eq (rest : Text) : inlineBody rest = some (inlineBody? rest) := by
  rw [inlineBody, inlineBody?]
  change _ = some ((findWhere? separates rest).bind _)
  cases found : findWhere? separates rest with
  | none => rfl
  | some separator =>
    obtain ⟨before, c, code, rfl, rfl, isSeparator, -⟩ := exists_of_findWhere? found
    have cuts := isBoundary_after (utf8Size_of_separates isSeparator) before code
    simp only [slice?_back cuts, Option.map_some, Option.bind_some]

theorem indented_eq (grammar : Grammar) (starts : isBoundary start text = true)
    (ends : isBoundary nameEnd text = true) :
    indented grammar text start nameEnd = some (indented? grammar text start nameEnd) := by
  have lineStart := isBoundary_lineStartBefore starts
  have first := isBoundary_paramsClose? ends
  obtain ⟨onLine, lineEnd, nextLine⟩ := isBoundary_lineEnd first rfl
  rw [lineStartBefore] at lineStart
  simp only [indented, indented?, slice?_front starts, slice?_back starts, Option.bind_eq_bind,
    Option.bind_some]
  split
  · rfl
  · simp only [slice?_back lineStart, paramsClose_eq ends, slice?_back first,
      slice?_eq onLine first lineEnd, inlineBody_eq, slice?_back nextLine, Option.bind_some,
      lineStartBefore]
    generalize inlineBody? _ = separator
    cases separator <;> rfl

theorem definitionSpan_eq (grammar : Grammar) (ordered : start ≤ nameEnd)
    (starts : isBoundary start text = true) (ends : isBoundary nameEnd text = true) :
    definitionSpan grammar text start nameEnd = some (grammar.definitionSpan? text start nameEnd) := by
  rw [definitionSpan, Grammar.definitionSpan?]
  cases grammar.bodyStyle with
  | braces => exact braces_eq ordered
  | indented => exact indented_eq grammar starts ends

end Checked

end DepAtlas.DefinitionSpan

namespace DepAtlas.Extract

open Text (slice slice? byteLength isBoundary trim)

namespace Checked

def written (tail : Text) : Option (Option Text) :=
  match Text.find? arrow tail with
  | some place => (slice? tail (place + 2) (byteLength tail)).map some
  | none => some (written? tail)

def tailType (tail : Text) : Option (Option String) :=
  (written (trim tail)).map (·.bind fun written => typeNamed? (cleaned written))

/-- What is written between a parameter list and the end of the signature. -/
def signatureTail (text : Text) (span : DefinitionSpan) : Option (Option String) :=
  match span.paramsEnd with
  | some paramsEnd =>
    if paramsEnd < span.signatureEnd then
      (slice? text (paramsEnd + 1) span.signatureEnd).bind tailType
    else some none
  | none => some none

def returnType (grammar : Grammar) (text : Text) (hit : Hit) (nameStart : Nat) (span : DefinitionSpan) :
    Option (Option String) :=
  match (capturedResult? hit).filter fun result => !declarationModifiers.contains result with
  | some captured => some (some captured)
  | none => do
    match ← signatureTail text span with
    | some written => some (some written)
    | none => (slice? text hit.whole.offset nameStart).map (builtinWord? grammar)

/-- `Extract.method?` with its checks. -/
def method (source : Source) (set : PatternSet) (hit : Hit) : Option (Option Dependency) :=
  let grammar := source.grammar
  match hit.captures.subject with
  | none => some none
  | some name =>
    if grammar.isKeyword name.toString then some none
    else if (capturedResult? hit).any grammar.isKeyword then some none
    else do
      match ← DefinitionSpan.Checked.definitionSpan grammar source.text hit.whole.offset name.stop with
      | none => some none
      | some span =>
        let body ← slice? source.text span.bodyStart span.bodyEnd
        let calls := calledNames set grammar body name.toString
        let result ← returnType grammar source.text hit name.offset span
        some (source.dependency name.toString .method name.offset (some (.method result calls)))

def firstMethods (source : Source) (set : PatternSet) (seen : List String) :
    List Hit → Option (List Dependency)
  | [] => some []
  | hit :: hits =>
    if hit.captures.subject.any fun name => seen.contains name.toString then
      firstMethods source set seen hits
    else do
      match ← method source set hit with
      | some found => (firstMethods source set (found.target :: seen) hits).map (found :: ·)
      | none => firstMethods source set seen hits

/-- `Extract.methods` with its checks. -/
def methods (source : Source) (set : PatternSet) : Option (List Dependency) :=
  firstMethods source set [] (set.definitions.flatMap (·.hits source.text))

variable {text : Text} {hit : Hit} {nameStart : Nat} {span : DefinitionSpan} {source : Source}
  {set : PatternSet}

theorem written_eq (tail : Text) : written tail = some (written? tail) := by
  rw [written]
  cases found : Text.find? arrow tail with
  | none => rfl
  | some place =>
    obtain ⟨front, back, rfl, rfl⟩ := Text.exists_of_find? found
    have cuts : isBoundary (byteLength front + 2) (front ++ (arrow ++ back)) = true :=
      Text.isBoundary_of_parts (front ++ arrow) (List.append_assoc front arrow back).symm
        (Text.byteLength_append front arrow).symm
    simp only [Text.slice?_back cuts, Option.map_some, written?, found]

theorem tailType_eq (tail : Text) : tailType tail = some (tailType? tail) := by
  rw [tailType, written_eq, tailType?_eq, Option.map_some]

theorem signatureTail_eq {start nameEnd : Nat} (sound : span.Sound text start nameEnd) :
    signatureTail text span = some (span.paramsEnd.bind fun paramsEnd =>
      if paramsEnd < span.signatureEnd then tailType? (slice text (paramsEnd + 1) span.signatureEnd)
      else none) := by
  rw [signatureTail]
  cases isParams : span.paramsEnd with
  | none => rfl
  | some paramsEnd =>
    obtain ⟨-, before, -, cuts⟩ := sound.paramsEnd paramsEnd isParams
    simp only [Option.bind_some, if_pos before, Text.slice?_eq before cuts sound.signatureEnd, tailType_eq]

theorem returnType_eq (grammar : Grammar) {start nameEnd : Nat} (sound : span.Sound text start nameEnd)
    (whole : isBoundary hit.whole.offset text = true) (name : isBoundary nameStart text = true)
    (ordered : hit.whole.offset ≤ nameStart) :
    returnType grammar text hit nameStart span = some (returnType? grammar text hit nameStart span) := by
  rw [returnType, returnType?, signatureTail_eq sound, Text.slice?_eq ordered whole name]
  cases (capturedResult? hit).filter fun result => !declarationModifiers.contains result with
  | some captured => rfl
  | none =>
    simp only [Option.bind_eq_bind, Option.bind_some, Option.map_some]
    generalize (span.paramsEnd.bind fun paramsEnd =>
      if paramsEnd < span.signatureEnd then tailType? (slice text (paramsEnd + 1) span.signatureEnd)
      else none) = written
    cases written <;> rfl

/-- A match and its name are cut at places of the text, in order. -/
theorem cuts_of_mem_hits {pattern : Pattern} (member : hit ∈ pattern.hits text) {name : Text.Span}
    (captured : hit.captures.subject = some name) :
    isBoundary hit.whole.offset text = true ∧ isBoundary name.offset text = true ∧
      isBoundary name.stop text = true ∧ hit.whole.offset ≤ name.offset ∧ name.offset ≤ name.stop := by
  obtain ⟨front, back, rfl, found⟩ := Pattern.exists_of_mem_hits member
  obtain ⟨begins, stretch⟩ := Pattern.stretch_of_hitAt found
  obtain ⟨passed, inside, rest, rfl, rfl⟩ := stretch name captured
  rw [Text.Span.offset, begins, Text.Span.offset, Text.Cursor.offset_between, Text.Cursor.offset_between]
  refine ⟨Text.isBoundary_append front _, ?_, ?_, ?_, ?_⟩
  · exact Text.isBoundary_of_parts (front ++ passed) (List.append_assoc front passed _).symm rfl
  · exact Text.isBoundary_of_parts (front ++ passed ++ inside) (by simp; rfl) rfl
  · rw [Text.byteLength_append]
    exact Nat.le_add_right _ _
  · rw [Text.byteLength_append (front ++ passed)]
    exact Nat.le_add_right _ _

theorem method_eq {pattern : Pattern} (member : hit ∈ pattern.hits source.text) :
    method source set hit = some (method? source set hit) := by
  rw [method, method?]
  cases captured : hit.captures.subject with
  | none => rfl
  | some name =>
    obtain ⟨whole, begins, ends, before, ordered⟩ := cuts_of_mem_hits member captured
    simp only [Option.bind_eq_bind, Option.bind_some]
    split
    · rfl
    split
    · rfl
    rw [DefinitionSpan.Checked.definitionSpan_eq _ (Nat.le_trans before ordered) whole ends,
      Option.bind_some]
    cases found : source.grammar.definitionSpan? source.text hit.whole.offset name.stop with
    | none => rfl
    | some span =>
      obtain ⟨sound, -⟩ :=
        DefinitionSpan.sound_of_definitionSpan? (Nat.le_trans before ordered) whole ends found
      simp only [Text.slice?_eq sound.bodyStart_le sound.bodyStart sound.bodyEnd,
        returnType_eq _ sound whole begins before, Option.bind_some]
      rfl

theorem firstMethods_eq (seen : List String) (hits : List Hit)
    (found : ∀ hit ∈ hits, ∃ pattern : Pattern, hit ∈ pattern.hits source.text) :
    firstMethods source set seen hits = some (Extract.firstMethods source set seen hits) := by
  induction hits generalizing seen with
  | nil => rfl
  | cons hit hits ih =>
    obtain ⟨⟨pattern, member⟩, later⟩ := List.forall_mem_cons.mp found
    rw [firstMethods, Extract.firstMethods]
    split
    · exact ih seen later
    · simp only [method_eq member, Option.bind_eq_bind, Option.bind_some]
      cases method? source set hit with
      | none => exact ih seen later
      | some dependency =>
        simp only [ih _ later, Option.map_some]

theorem methods_eq (source : Source) (set : PatternSet) :
    methods source set = some (Extract.methods source set) := by
  refine firstMethods_eq [] _ fun hit member => ?_
  obtain ⟨pattern, -, isHit⟩ := List.mem_flatMap.mp member
  exact ⟨pattern, isHit⟩

end Checked

/-- A definition with characters of several bytes all around it, and without a line end after it. -/
def accented : Text :=
  "é\ndef naïve(ß='→'):  # ü\n    gänse()".toList

end DepAtlas.Extract
