import DepAtlas.Proofs.Extract.Definitions
import DepAtlas.Proofs.Extract.Nesting
import DepAtlas.Proofs.Extract.ReturnType

/-!
Functions with a body between braces, and their return types, read off their source text.

A function is found if its name is an ASCII identifier that is not reserved, and no `;` before its body stands
outside parentheses. Its return type is what follows the arrow, up to a clause on its type parameters; the
clause is known by its word after a space, so that one on a line of its own is read as part of the type.
-/

namespace DepAtlas.Extract

open DefinitionSpan (Balanced Sheltered)
open Pattern
open Text (byteLength trim)
open Text.Cursor (between)

section Candidate

/-- What follows the name of a function, up to its parameters. -/
def parameterOpening : Pattern :=
  blanks ++ opt ("<" ++ many (CharSet.except "(") ++ ">") ++ blanks ++ "("

/-- The candidate functions of Rust. -/
def functionPattern : Pattern :=
  lineStart ++ blanks ++ opt ("pub" ++ opt parens ++ blanks1) ++ optWord "const" ++ optWord "async" ++
    optWord "unsafe" ++
    opt ("extern" ++ blanks1 ++ "\"" ++ many (CharSet.except "\"") ++ "\"" ++ blanks1) ++
    "fn" ++ blanks1 ++ subject (many1 (CharSet.ident "")) ++ blanks ++
    opt ("<" ++ many (CharSet.except "(") ++ ">") ++ blanks ++ "("

theorem definitions_rust : Language.rust.grammar.definitions = [functionPattern] := rfl

theorem anchored_functionPattern : functionPattern.anchored = true := rfl

theorem namedParts_functionPattern : functionPattern.namedParts = [many1 (CharSet.ident "")] := rfl

/-- The word in front of the name of a function. -/
def functionWord : Text := ['f', 'n', ' ']

theorem first_parameterOpening (front rest : Text) :
    parameterOpening.first ends (between front ('(' :: rest)) =
      some { stop := byteLength (front ++ ['(']) } := by
  have generics : ("<" ++ many (CharSet.except "(") ++ ">" : Pattern).Begins '<' :=
    ((begins_literal '<' []).append _).append _
  rw [parameterOpening, first_append, first_append, first_append, first_blanks_ink (by decide),
    first_opt_skip generics (by decide), first_blanks_ink (by decide), first_literal]
  exact spell_append ['(']

theorem shuns_parameterOpening : Shuns (CharSet.ident "") (parameterOpening.first ends) := by
  have generics : ("<" ++ many (CharSet.except "(") ++ ">" : Pattern).Begins '<' :=
    ((begins_literal '<' []).append _).append _
  have opens : ("(" : Pattern).Begins '(' := begins_literal '(' []
  rw [parameterOpening, first_append, first_append, first_append]
  exact shuns_many (fun _ => CharSet.isBlank_of_ident) ((generics.shuns (by decide)).opt
    (shuns_many (fun _ => CharSet.isBlank_of_ident) (opens.shuns (by decide))))

/-- A function without modifiers is matched up to its parameters. -/
theorem hitAt_functionPattern {name : Text} (named : name ≠ [])
    (ident : ∀ c ∈ name, CharSet.ident "" c = true) (rest : Text) :
    functionPattern.hitAt (between [] (functionWord ++ (name ++ '(' :: rest))) = some
      ⟨⟨between [] (functionWord ++ (name ++ '(' :: rest)), byteLength (functionWord ++ name ++ ['('])⟩,
        { subject := some
            ⟨between functionWord (name ++ '(' :: rest), byteLength (functionWord ++ name)⟩ }⟩ := by
  have nameRead : (subject (many1 (CharSet.ident ""))).first (parameterOpening.first ends)
      (between functionWord (name ++ '(' :: rest)) =
        some (Completion.remember { stop := byteLength (functionWord ++ name ++ ['(']) } .subject
          ⟨between functionWord (name ++ '(' :: rest), byteLength (functionWord ++ name)⟩) := by
    refine (first_capture_between ?_).trans ?_
    · refine first_many1_run (shuns_parameterOpening.map fun stop => (·.close stop.offset)) named ident ?_
      rintro _ ⟨⟩
      decide
    · rw [first_parameterOpening]
      rfl
  have wordRead (next : Text.Cursor → Option Completion) :
      ("fn" : Pattern).first (blanks1.first next) (between [] (functionWord ++ (name ++ '(' :: rest))) =
        next (between functionWord (name ++ '(' :: rest)) := by
    obtain ⟨c, more, rfl⟩ := List.exists_cons_of_ne_nil named
    have isInk := CharSet.isBlank_of_ident (ident c List.mem_cons_self)
    rw [first_literal]
    refine (spell_append ['f', 'n']).trans ?_
    rw [blanks1, many1, first_seq, first_one_between, if_pos (by decide)]
    exact first_blanks_ink isInk
  have skip (c : Char) (text : Text) (apart : ¬ 'f' = c) (next : Text.Cursor → Option Completion) :
      (opt (literal (c :: text) ++ blanks1)).first next (between [] (functionWord ++ (name ++ '(' :: rest))) =
        next (between [] (functionWord ++ (name ++ '(' :: rest))) :=
    first_opt_skip ((begins_literal c text).append _) apart
  have read : functionPattern.first ends (between [] (functionWord ++ (name ++ '(' :: rest))) =
      some (Completion.remember { stop := byteLength (functionWord ++ name ++ ['(']) } .subject
          ⟨between functionWord (name ++ '(' :: rest), byteLength (functionWord ++ name)⟩) := by
    rw [parameterOpening] at nameRead
    simp only [functionPattern, first_append] at nameRead ⊢
    have visibility : ("pub" ++ opt parens ++ blanks1 : Pattern).Begins 'p' :=
      ((begins_literal 'p' ['u', 'b']).append _).append _
    have linkage : ("extern" ++ blanks1 ++ "\"" ++ many (CharSet.except "\"") ++ "\"" ++ blanks1 :
        Pattern).Begins 'e' :=
      (((((begins_literal 'e' _).append _).append _).append _).append _).append _
    refine (first_lineStart.trans (if_pos rfl)).trans ?_
    refine (first_blanks_ink (by decide)).trans ?_
    refine (first_opt_skip visibility (by decide)).trans ?_
    refine (skip 'c' _ (by decide) _).trans ?_
    refine (skip 'a' _ (by decide) _).trans ?_
    refine (skip 'u' _ (by decide) _).trans ?_
    refine (first_opt_skip linkage (by decide)).trans ?_
    exact (wordRead _).trans nameRead
  exact congrArg (Option.map _) read

end Candidate

/-- The source of a function with a body. -/
structure FunctionText where
  name : Text
  params : Text
  /-- The return type, with the blanks around it. -/
  type : Text
  /-- The blanks before a clause on type parameters, and what follows `where`. -/
  clause : Option (Text × Text)
  body : Text

namespace FunctionText

def clauseText (function : FunctionText) : Text :=
  match function.clause with
  | none => []
  | some (gap, bounds) => gap ++ ("where".toList ++ bounds)

/-- What stands between the parameters and the body. -/
def tail (function : FunctionText) : Text :=
  " -> ".toList ++ ((function.type ++ function.clauseText) ++ [' '])

def text (function : FunctionText) : Text :=
  "fn ".toList ++ (function.name ++ '(' :: (function.params ++ ')' :: (function.tail ++
    '\x7b' :: (function.body ++ "\x7d".toList))))

structure WellFormed (function : FunctionText) : Prop where
  named : function.name ≠ []
  params : Balanced function.params
  typed : trim function.type ≠ []
  type : Balanced function.type
  bodyless : ¬ "=>".toList <:+: function.type
  braceless : '\x7b' ∉ function.type ++ function.clauseText
  clause : ∀ gap bounds, function.clause = some (gap, bounds) →
    gap ≠ [] ∧ (∀ c ∈ gap, Text.isBlank c = true) ∧ Balanced bounds

/-- The name is an ASCII identifier that is not reserved, and no `;` before the body stands outside
parentheses. -/
def IsFound (function : FunctionText) : Prop :=
  (∀ c ∈ function.name, CharSet.ident "" c = true) ∧
    Grammar.rust.isKeyword (String.ofList function.name) = false ∧
    Sheltered (function.type ++ function.clauseText)

/-- No part of the type is taken for the start of a clause or cut off at its end, and a clause is
recognised by the space before it. -/
def ReadsType (function : FunctionText) : Prop :=
  (¬ " where".toList <:+: ' ' :: function.type ∧ (trim function.type).getLast? ≠ some ':') ∧
    ∀ gap bounds, function.clause = some (gap, bounds) → gap.getLast? = some ' '

variable {function : FunctionText}

theorem balanced_tail (wellFormed : function.WellFormed) : Balanced function.tail := by
  have clause : Balanced function.clauseText := by
    rw [clauseText]
    split
    case h_1 => exact DefinitionSpan.balanced_of_clean nofun
    case h_2 gap bounds isClause =>
      obtain ⟨-, blank, balanced⟩ := wellFormed.clause gap bounds isClause
      have clean : ∀ c ∈ gap, c ∉ ['(', ')'] := by
        intro c member paren
        have inked : ∀ c ∈ ['(', ')'], Text.isBlank c = false :=
          List.all_iff_forall_prop.mp (by decide)
        exact absurd (blank c member) (by simp [inked c paren])
      exact (DefinitionSpan.balanced_of_clean clean).append
        ((DefinitionSpan.balanced_of_clean (List.all_iff_forall_prop.mp (by decide))).append balanced)
  have arrow : DefinitionSpan.Balanced " -> ".toList :=
    DefinitionSpan.balanced_of_clean (List.all_iff_forall_prop.mp (by decide))
  have space : DefinitionSpan.Balanced [' '] :=
    DefinitionSpan.balanced_of_clean (List.all_iff_forall_prop.mp (by decide))
  exact arrow.append ((wellFormed.type.append clause).append space)

theorem cleaned_tail_iff (wellFormed : function.WellFormed) :
    cleaned (' ' :: ((function.type ++ function.clauseText) ++ [' '])) = trim function.type ↔
      function.ReadsType := by
  have bodyless : ¬ bodyMark <:+: ' ' :: function.type := bodyless_cons_space wellFormed.bodyless
  have trimmed : trim (' ' :: function.type) = trim function.type := Text.trim_cons_blank (by decide)
  have gap : ∀ c ∈ [' '], Text.isBlank c = true := List.all_iff_forall_prop.mp (by decide)
  rw [← List.cons_append, ← List.cons_append, cleaned_append_blank gap, ← trimmed]
  cases isClause : function.clause with
  | none =>
    have alone := cleaned_eq_trim_iff bodyless
    rw [clauseText, isClause, ReadsType, isClause, List.append_nil, alone, trimmed]
    exact (and_iff_left nofun).symm
  | some clause =>
    obtain ⟨gap, bounds⟩ := clause
    obtain ⟨filled, blank, -⟩ := wellFormed.clause gap bounds isClause
    have read := cleaned_clause_iff bodyless blank filled bounds
    rw [clauseText, isClause, ReadsType, isClause]
    refine read.trans ?_
    rw [trimmed]
    refine and_congr_right fun _ => ⟨fun last gap' bounds' same => ?_, fun all => all gap bounds rfl⟩
    cases same
    exact last

section Reported

variable (path : Path)

/-- The function as a source file. -/
def source (function : FunctionText) (path : Path) : Source :=
  .ofContent .rust path (String.ofList function.text)

theorem text_source : (function.source path).text = function.text := String.toList_ofList

/-- The source from the parameters on. -/
def afterName (function : FunctionText) : Text :=
  '(' :: (function.params ++ ')' :: (function.tail ++ '\x7b' :: (function.body ++ "\x7d".toList)))

/-- The captured name. -/
def nameSpan (function : FunctionText) : Text.Span :=
  ⟨between functionWord (function.name ++ function.afterName), byteLength (functionWord ++ function.name)⟩

/-- The match at the start of the source. -/
def hit (function : FunctionText) : Hit :=
  ⟨⟨between [] function.text, byteLength (functionWord ++ function.name ++ ['('])⟩,
    { subject := some function.nameSpan }⟩

theorem hitAt_text (named : function.name ≠ []) (ident : ∀ c ∈ function.name, CharSet.ident "" c = true) :
    functionPattern.hitAt (between [] function.text) = some function.hit :=
  hitAt_functionPattern named ident _

theorem toString_nameSpan : function.nameSpan.toString = String.ofList function.name :=
  congrArg String.ofList (Text.Span.text_between functionWord function.name function.afterName)

theorem clean_head (ident : ∀ c ∈ function.name, CharSet.ident "" c = true) :
    ∀ c ∈ functionWord ++ function.name, c ∉ ['(', ')', '\x7b', ';'] := by
  have outside : ∀ c ∈ ['(', ')', '\x7b', ';'], CharSet.ident "" c = false :=
    List.all_iff_forall_prop.mp (by decide)
  have word : ∀ c ∈ functionWord, c ∉ ['(', ')', '\x7b', ';'] := List.all_iff_forall_prop.mp (by decide)
  refine List.forall_mem_append.mpr ⟨word, fun c member special => ?_⟩
  exact absurd (ident c member) (by simp [outside c special])

theorem braceless_tail (wellFormed : function.WellFormed) : '\x7b' ∉ function.tail := by
  rw [tail, List.mem_append, List.mem_append]
  rintro (inArrow | inType | inBlank)
  · exact absurd inArrow (by decide)
  · exact wellFormed.braceless inType
  · exact absurd inBlank (by decide)

theorem sheltered_tail_iff : Sheltered function.tail ↔ Sheltered (function.type ++ function.clauseText) :=
  DefinitionSpan.sheltered_frame (List.all_iff_forall_prop.mp (by decide))
    (List.all_iff_forall_prop.mp (by decide))

/-- The span of the definition. -/
theorem definitionSpan?_text (wellFormed : function.WellFormed)
    (ident : ∀ c ∈ function.name, CharSet.ident "" c = true) :
    let found := Grammar.rust.definitionSpan? function.text 0 function.nameSpan.stop
    let paramsEnd := byteLength (functionWord ++ function.name) + 1 + byteLength function.params
    (¬ Sheltered (function.type ++ function.clauseText) → found = none) ∧
      (Sheltered (function.type ++ function.clauseText) → ∃ bodyEnd, found = some {
        paramsEnd := some paramsEnd
        signatureEnd := paramsEnd + 1 + byteLength function.tail
        bodyStart := paramsEnd + 1 + byteLength function.tail + 1
        bodyEnd }) := by
  have parts : function.text = (functionWord ++ function.name) ++ function.afterName := by
    rw [List.append_assoc]
    rfl
  rw [parts, ← sheltered_tail_iff]
  exact DefinitionSpan.braces?_function (clean_head ident) wellFormed.params (balanced_tail wellFormed)
    (braceless_tail wellFormed) (function.body ++ "\x7d".toList)

theorem slice_tail (function : FunctionText) :
    let paramsEnd := byteLength (functionWord ++ function.name) + 1 + byteLength function.params
    Text.slice function.text (paramsEnd + 1) (paramsEnd + 1 + byteLength function.tail) = function.tail := by
  intro paramsEnd
  have parts : function.text = (functionWord ++ function.name ++ '(' :: (function.params ++ [')'])) ++
      (function.tail ++ '\x7b' :: (function.body ++ "\x7d".toList)) := by
    simp [text, functionWord]
  have width : byteLength (functionWord ++ function.name ++ '(' :: (function.params ++ [')'])) =
      paramsEnd + 1 := by
    rw [Text.byteLength_append, byteLength, Text.byteLength_append function.params]
    change _ + (1 + (_ + 1)) = _
    omega
  have cut := Text.slice_append (functionWord ++ function.name ++ '(' :: (function.params ++ [')']))
    function.tail ('\x7b' :: (function.body ++ "\x7d".toList))
  rwa [← parts, width] at cut

theorem tailType?_tail (function : FunctionText) : tailType? function.tail =
    typeNamed? (cleaned (' ' :: ((function.type ++ function.clauseText) ++ [' ']))) := by
  have first : ¬ arrow <:+: [' '] := by decide
  exact tailType?_arrow first _

theorem exists_of_isFound (wellFormed : function.WellFormed) (isFound : function.IsFound) :
    ∃ dependency ∈ inLayer (function.source path) .method,
      dependency.target = String.ofList function.name ∧ dependency.line = 1 ∧
      dependency.returnType? =
        typeNamed? (cleaned (' ' :: ((function.type ++ function.clauseText) ++ [' ']))) := by
  obtain ⟨ident, free, sheltered⟩ := isFound
  obtain ⟨bodyEnd, isSpan⟩ := (definitionSpan?_text wellFormed ident).2 sheltered
  have named : (function.source path).grammar.isKeyword function.nameSpan.toString = false := by
    rw [toString_nameSpan]
    exact free
  have accepted := @method?_eq (function.source path) (.ofGrammar .rust .method) function.hit
    function.nameSpan rfl rfl named
  rw [text_source] at accepted
  change _ = (Grammar.rust.definitionSpan? function.text 0 function.nameSpan.stop).map _ at accepted
  rw [isSpan, Option.map_some] at accepted
  refine ⟨_, mem_inLayer_of_hitAt definitions_rust (List.nil_append _).symm ?_ accepted ?_,
    toString_nameSpan, ?_, ?_⟩
  · rw [String.toList_ofList]
    exact hitAt_text wellFormed.named ident
  · intro before after other nothing filled
    exact absurd (List.append_eq_nil_iff.mp nothing.symm).2 filled
  · have line := lineOf_append functionWord (function.name ++ function.afterName)
    change (Text.LineIndex.ofText (String.ofList function.text).toList).lineOf _ = 1
    rw [String.toList_ofList]
    exact line
  · have plain : builtinWord? Grammar.rust (Text.slice function.text 0 3) = none := by
      have word : Text.slice function.text 0 3 = functionWord :=
        Text.slice_append [] functionWord (function.name ++ function.afterName)
      rw [word]
      decide
    have before : ∀ paramsEnd, paramsEnd < paramsEnd + 1 + byteLength function.tail := by
      intro paramsEnd
      omega
    refine (returnType?_eq rfl rfl (before _) plain).trans ?_
    exact (congrArg tailType? (slice_tail function)).trans (tailType?_tail function)

theorem isFound_of_mem {dependency : Dependency} (wellFormed : function.WellFormed)
    (member : dependency ∈ inLayer (function.source path) .method)
    (named : dependency.target = String.ofList function.name) (first : dependency.line = 1) :
    function.IsFound := by
  obtain ⟨hit, isHit, accepted⟩ := hitAt_of_first_line definitions_rust anchored_functionPattern member first
  obtain ⟨span, result, body, captured, free, whole⟩ := exists_of_method? accepted
  have isName : span.toString = String.ofList function.name := by
    rw [← named, whole]
    rfl
  have ident : ∀ c ∈ function.name, CharSet.ident "" c = true := by
    rw [← String.ofList_inj.mp isName]
    refine allowed_of_hitAt (fun part member => ?_) isHit captured
    rw [namedParts_functionPattern, List.mem_singleton] at member
    rw [member]
    exact ⟨fun _ isIdent => isIdent, fun _ isIdent => isIdent⟩
  rw [String.toList_ofList, hitAt_text wellFormed.named ident] at isHit
  cases isHit
  cases captured
  refine ⟨ident, isName ▸ free, ?_⟩
  by_contra exposed
  have isSpan := (definitionSpan?_text wellFormed ident).1 exposed
  have refused := @method?_eq (function.source path) (.ofGrammar .rust .method) function.hit
    function.nameSpan rfl rfl free
  rw [text_source] at refused
  change _ = (Grammar.rust.definitionSpan? function.text 0 function.nameSpan.stop).map _ at refused
  rw [isSpan] at refused
  exact absurd (refused.symm.trans accepted) nofun

end Reported

end FunctionText

/-- A function with a body is reported under its name on the first line unless a `;` stands outside
parentheses in its return type or its clause, as in the type of an array; its return type is reported as it is
written unless another blank than a space stands before the clause, or the type holds the mark of a
clause. -/
theorem extractAs_function (function : FunctionText) (wellFormed : function.WellFormed) (path : Path)
    (mask : LayerMask) (included : mask.contains .method = true) :
    ∃ found, extractAs .filled .rust path (String.ofList function.text) mask = .ok found ∧
      let reported := fun dependency => dependency ∈ found ∧ dependency.layer = .method ∧
        dependency.target = String.ofList function.name ∧ dependency.line = 1
      ((∃ dependency, reported dependency) ↔ function.IsFound) ∧
        ((∃ dependency, reported dependency ∧
            dependency.returnType? = some (String.ofList (trim function.type))) ↔
          function.IsFound ∧ function.ReadsType) := by
  obtain ⟨found, isFound, methods⟩ :=
    exists_extractAs_methods .rust path (String.ofList function.text) included
  refine ⟨found, isFound, ⟨?_, fun isFunction => ?_⟩, ⟨?_, ?_⟩⟩
  · rintro ⟨dependency, member, isMethod, named, first⟩
    exact function.isFound_of_mem path wellFormed ((methods _).mp ⟨member, isMethod⟩) named first
  · obtain ⟨dependency, member, named, first, -⟩ := function.exists_of_isFound path wellFormed isFunction
    obtain ⟨inFound, isMethod⟩ := (methods _).mpr member
    exact ⟨dependency, inFound, isMethod, named, first⟩
  · rintro ⟨dependency, ⟨member, isMethod, named, first⟩, returns⟩
    have inMethods := (methods _).mp ⟨member, isMethod⟩
    have isFunction := function.isFound_of_mem path wellFormed inMethods named first
    obtain ⟨other, isOther, named', -, returns'⟩ := function.exists_of_isFound path wellFormed isFunction
    obtain rfl := eq_of_mem_inLayer inMethods isOther (named.trans named'.symm)
    rw [returns', typeNamed?_eq_some_iff wellFormed.typed] at returns
    exact ⟨isFunction, (function.cleaned_tail_iff wellFormed).mp returns⟩
  · rintro ⟨isFunction, reads⟩
    obtain ⟨dependency, member, named, first, returns⟩ :=
      function.exists_of_isFound path wellFormed isFunction
    obtain ⟨inFound, isMethod⟩ := (methods _).mpr member
    refine ⟨dependency, ⟨inFound, isMethod, named, first⟩, ?_⟩
    rw [returns, typeNamed?_eq_some_iff wellFormed.typed]
    exact (function.cleaned_tail_iff wellFormed).mpr reads

/-- A function with a clause on a line of its own. -/
def splitFunction : FunctionText where
  name := "pick".toList
  params := "items: &[T], by: fn(&T) -> u8".toList
  type := "Option<(T, u8)>".toList
  clause := some ("\n".toList, "\n    T: Clone\n".toList)
  body := " scan(items, by) ".toList

theorem extractAs_function_split :
    splitFunction.WellFormed ∧ LayerMask.all.contains .method = true ∧
      ∃ found, extractAs .filled .rust ⟨"pick.rs"⟩ (String.ofList splitFunction.text) .all = .ok found ∧
        (∃ dependency ∈ found, dependency.target = "pick" ∧ dependency.line = 1) ∧
        ∀ dependency ∈ found, dependency.layer = .method → dependency.target = "pick" →
          dependency.line = 1 → dependency.returnType? ≠ some "Option<(T, u8)>" := by
  have wellFormed : splitFunction.WellFormed := {
    named := by decide
    params := by decide +kernel
    typed := by decide +kernel
    type := by decide +kernel
    bodyless := by decide +kernel
    braceless := by decide +kernel
    clause := by
      rintro _ _ ⟨⟩
      exact ⟨by decide, List.all_iff_forall_prop.mp (by decide),
        DefinitionSpan.balanced_of_clean (List.all_iff_forall_prop.mp (by decide))⟩ }
  have isFound : splitFunction.IsFound := by
    refine ⟨List.all_iff_forall_prop.mp (by decide), by decide +kernel, fun before after parts => ?_⟩
    have absent : ';' ∉ splitFunction.type ++ splitFunction.clauseText := by decide +kernel
    exact absurd (parts ▸ by simp) absent
  have cuts : ¬ splitFunction.ReadsType := fun reads => absurd (reads.2 _ _ rfl) (by decide)
  obtain ⟨found, isResult, reported, returned⟩ :=
    extractAs_function splitFunction wellFormed ⟨"pick.rs"⟩ .all (by decide)
  refine ⟨wellFormed, by decide, found, isResult, ?_, ?_⟩
  · obtain ⟨dependency, member, -, named, first⟩ := reported.mpr isFound
    exact ⟨dependency, member, named, first⟩
  · intro dependency member isMethod named first returns
    exact cuts (returned.mp ⟨dependency, ⟨member, isMethod, named, first⟩, returns⟩).2

end DepAtlas.Extract
