import DepAtlas.Extract.Body
import DepAtlas.Extract.Source

/-!
Defined functions and methods, with their return types and the names that their bodies call.
-/

namespace DepAtlas.Extract

/-- Words in front of a definition that are not types. -/
def declarationModifiers : List String := [
  "public", "private", "protected", "static", "final", "abstract", "synchronized", "native",
  "default", "virtual", "inline", "extern", "const"]

/-- Keeps the first of equal names. -/
def firstNames (seen : List String) : List String → List String
  | [] => []
  | name :: rest =>
    if seen.contains name then firstNames seen rest else name :: firstNames (name :: seen) rest

/-- The calls that one pattern finds in a body, each with its offset. -/
def callsOf (body : Text) (pattern : Pattern) : List (Nat × String) :=
  (pattern.hits body).filterMap fun hit =>
    hit.captures.subject.map fun span => (span.offset, span.toString)

/-- The names called in a body, in order of first appearance, without reserved words and without
the name of the method itself. -/
def calledNames (set : PatternSet) (grammar : Grammar) (body : Text) (ownName : String) :
    List String :=
  let found := (set.calls.flatMap (callsOf body)).mergeSort fun a b => a.1 ≤ b.1
  let names := (found.map (·.2)).filter fun name => name != ownName && !grammar.isKeyword name
  firstNames [] names

/-- The captured return type, unless it is blank. -/
def capturedResult? (hit : Hit) : Option String :=
  match hit.captures.result with
  | some span =>
    match Text.trim span.text with
    | [] => none
    | result => some (String.ofList result)
  | none => none

/-- The return type written between the parameter list and the body: after an arrow, after a colon,
or on its own; a list of thrown types is none. -/
def tailType? (tail : Text) : Option String :=
  let tail := Text.trim tail
  let written :=
    match Text.find? ['-', '>'] tail with
    | some arrow => some (Text.dropBytes (arrow + 2) tail)
    | none =>
      if tail.head? == some ':' then some (tail.drop 1)
      else if "throws".toList.isPrefixOf tail then none
      else some tail
  written.bind fun written =>
    let bare := Text.before ['=', '>'] (Text.before " where".toList written)
    match Text.trim (Text.dropEndWhile (· == ':') (Text.trim bare)) with
    | [] => none
    | result => some (String.ofList result)

/-- The first builtin type among the words of a text. -/
def builtinWord? (grammar : Grammar) (text : Text) : Option String :=
  ((Text.words text).map String.ofList).find? grammar.isBuiltinType

/-- The return type of a definition: captured in front of its name, written after its parameters, or
a builtin type among the words before its name. -/
def returnType? (grammar : Grammar) (text : Text) (hit : Hit) (nameStart : Nat)
    (span : DefinitionSpan) : Option String :=
  let captured := (capturedResult? hit).filter fun result => !declarationModifiers.contains result
  let written := fun (_ : Unit) =>
    span.paramsEnd.bind fun paramsEnd =>
      if paramsEnd < span.signatureEnd then
        tailType? (Text.slice text (paramsEnd + 1) span.signatureEnd)
      else none
  captured <|> written () <|>
    builtinWord? grammar (Text.slice text hit.whole.offset nameStart)

/-- The definition that a match stands for, if it is one. -/
def method? (source : Source) (set : PatternSet) (hit : Hit) : Option Dependency := do
  let grammar := source.grammar
  let name ← hit.captures.subject
  if grammar.isKeyword name.toString then none
  else if (capturedResult? hit).any grammar.isKeyword then none
  else
    let span ← grammar.definitionSpan? source.text hit.whole.offset name.stop
    let body := Text.slice source.text span.bodyStart span.bodyEnd
    let calls := calledNames set grammar body name.toString
    let result := returnType? grammar source.text hit name.offset span
    return source.dependency name.toString .method name.offset (some (.method result calls))

/-- Keeps the first accepted definition of each name; matches that repeat a name are not looked at
again. -/
def firstMethods (source : Source) (set : PatternSet) (seen : List String) :
    List Hit → List Dependency
  | [] => []
  | hit :: hits =>
    if hit.captures.subject.any fun name => seen.contains name.toString then
      firstMethods source set seen hits
    else
      match method? source set hit with
      | some found => found :: firstMethods source set (found.target :: seen) hits
      | none => firstMethods source set seen hits

/-- The methods defined in a file, pattern by pattern, each name once. -/
def methods (source : Source) (set : PatternSet) : List Dependency :=
  firstMethods source set [] (set.definitions.flatMap (·.hits source.text))

end DepAtlas.Extract
