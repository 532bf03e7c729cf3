import DepAtlas.Grammar.Registry

/-!
Where an accepted definition's signature and body lie. A candidate in a brace language is a
definition when a parameter list is followed by a block before any `;` outside parentheses; in an
indented language, when it starts with a definition keyword.
-/

namespace DepAtlas

/-- The places of a definition's signature and body, as byte offsets. -/
structure DefinitionSpan where
  /-- The parenthesis that closes the parameter list. -/
  paramsEnd : Option Nat
  /-- Where the signature ends. -/
  signatureEnd : Nat
  bodyStart : Nat
  bodyEnd : Nat
deriving Repr, DecidableEq

namespace DefinitionSpan

/-- What is known while looking for the block of a definition. -/
structure Signature where
  depth : Nat := 0
  sawParams : Bool := false
  paramsEnd : Option Nat := none
deriving Repr, DecidableEq

/-- Looks for the brace that opens the body, from a byte offset on. Nothing is found when a
parenthesis closes that was not opened, when a `;` or a brace without a parameter list comes first
outside parentheses, or when the text ends. -/
def openingBrace? (nameEnd : Nat) : Nat → Signature → Text → Option (Nat × Signature)
  | _, _, [] => none
  | offset, signature, c :: rest =>
    let next := offset + c.utf8Size
    if c = '(' then
      openingBrace? nameEnd next
        { signature with depth := signature.depth + 1, sawParams := true } rest
    else if c = ')' then
      match signature.depth with
      | 0 => none
      | depth + 1 =>
        let closes := depth == 0 && signature.paramsEnd.isNone && nameEnd < offset
        openingBrace? nameEnd next
          { signature with
            depth := depth
            paramsEnd := if closes then some offset else signature.paramsEnd } rest
    else if c = '\x7b' ∧ signature.depth = 0 then
      if signature.sawParams then some (offset, signature) else none
    else if c = ';' ∧ signature.depth = 0 then none
    else openingBrace? nameEnd next signature rest

/-- The byte offset of the closing character that balances `depth` opened ones. -/
def closing? (opens closes : Char) : Nat → Nat → Text → Option Nat
  | _, _, [] => none
  | depth, offset, c :: rest =>
    let next := offset + c.utf8Size
    if c = opens then closing? opens closes (depth + 1) next rest
    else if c = closes then
      if depth ≤ 1 then some offset else closing? opens closes (depth - 1) next rest
    else closing? opens closes depth next rest

/-- The span of a definition whose body stands between braces. It is looked for from the first character
on that begins at the start or after it. -/
def braces? (text : Text) (start nameEnd : Nat) : Option DefinitionSpan := do
  let rest := Text.dropBytes start text
  let first := Text.byteLength text - Text.byteLength rest
  let (opening, signature) ← openingBrace? nameEnd first {} rest
  let body := Text.dropBytes (opening + 1) text
  return {
    paramsEnd := signature.paramsEnd
    signatureEnd := opening
    bodyStart := opening + 1
    bodyEnd := (closing? '\x7b' '\x7d' 1 (opening + 1) body).getD (Text.byteLength text) }

/-- Whether a text starts with a definition keyword as a whole word. -/
def startsDefinition (grammar : Grammar) (text : Text) : Bool :=
  grammar.definitionKeywords.any fun keyword =>
    keyword.toList.isPrefixOf text &&
      !(text.drop keyword.length).head?.any Text.isIdentifier

/-- The closing parenthesis of a parameter list that opens at `from`, after spaces and tabs only. -/
def paramsClose? (text : Text) (start : Nat) : Option Nat :=
  let rest := Text.dropBytes start text
  let inner := rest.dropWhile Text.isIndent
  match inner with
  | '(' :: params =>
    closing? '(' ')' 1 (start + (rest.takeWhile Text.isIndent).length + 1) params
  | _ => none

/-- The offset in the rest of a definition line of the `:` or `;` with code after it. -/
def inlineBody? (rest : Text) : Option Nat := do
  let separator ← Text.findWhere? (fun c => c == ':' || c == ';') rest
  let tail := Text.trim (Text.dropBytes (separator + 1) rest)
  if tail.isEmpty || tail.head? == some '#' then none else some separator

/-- The end of the last line that belongs to an indented body: lines that are blank or deeper than
`indent` belong to it, and blank lines at its end do not count. -/
def indentedEnd (indent : Nat) : Nat → Nat → List Text → Nat
  | _, bodyEnd, [] => bodyEnd
  | offset, bodyEnd, line :: lines =>
    let next := offset + Text.byteLength line
    if Text.isBlankLine line then indentedEnd indent next bodyEnd lines
    else if Text.indentation line ≤ indent then bodyEnd
    else indentedEnd indent next next lines

/-- The start of the line that holds an offset. -/
def lineStartBefore (text : Text) (offset : Nat) : Nat :=
  go 0 0 (Text.takeBytes offset text)
where
  go (start offset : Nat) : Text → Nat
    | [] => start
    | c :: rest =>
      if c == '\n' then go (offset + 1) (offset + 1) rest else go start (offset + c.utf8Size) rest

/-- The span of a definition whose body is indented, or stands on the line of its signature. -/
def indented? (grammar : Grammar) (text : Text) (start nameEnd : Nat) : Option DefinitionSpan :=
  let fromStart := Text.dropBytes start text
  if !startsDefinition grammar (fromStart.dropWhile Text.isIndent) then none
  else
    let length := Text.byteLength text
    let indent := Text.indentation (Text.dropBytes (lineStartBefore text start) text)
    let paramsEnd := paramsClose? text nameEnd
    let signature := paramsEnd.getD nameEnd
    let tail := Text.dropBytes signature text
    let lineEnd := ((Text.findWhere? (· == '\n') tail).map (signature + ·)).getD length
    let nextLine := min (lineEnd + 1) length
    let following := Text.lines (Text.dropBytes nextLine text)
    match inlineBody? (Text.slice text signature lineEnd) with
    | some separator =>
      let bodyStart := signature + separator + 1
      some {
        paramsEnd := paramsEnd
        signatureEnd := signature + separator
        bodyStart := bodyStart
        bodyEnd := max (indentedEnd indent nextLine lineEnd following) bodyStart }
    | none =>
      some {
        paramsEnd := paramsEnd
        signatureEnd := lineEnd
        bodyStart := nextLine
        bodyEnd := max (indentedEnd indent nextLine nextLine following) nextLine }

end DefinitionSpan

/-- Accepts or refuses the candidate definition whose match starts at `start` and whose name ends at
`nameEnd`, and locates its body. -/
def Grammar.definitionSpan? (grammar : Grammar) (text : Text) (start nameEnd : Nat) :
    Option DefinitionSpan :=
  match grammar.bodyStyle with
  | .braces => DefinitionSpan.braces? text start nameEnd
  | .indented => DefinitionSpan.indented? grammar text start nameEnd

end DepAtlas
