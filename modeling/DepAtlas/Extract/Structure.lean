import DepAtlas.Extract.Source

/-!
Declared types, each with its declaring word and its parent type.
-/

namespace DepAtlas.Extract

/-- Words that declare a type. -/
def declarationWords : List String := [
  "struct", "enum", "union", "class", "interface", "trait", "impl", "type", "module", "record"]

/-- The first declaring word of a declaration. -/
def declarationWord (text : Text) : String :=
  (((Text.words text).map String.ofList).find? declarationWords.contains).getD "struct"

/-- A declaration as far as repetitions are told: name, declaring word and parent type. -/
structure Declaration where
  name : String
  word : String
  base : Option String
deriving Repr, DecidableEq

/-- The declaration that a match stands for, with the offset of its name. -/
def declaration? (hit : Hit) : Option (Declaration × Nat) :=
  match hit.captures.subject with
  | some span =>
    if span.text.isEmpty then none
    else some (⟨span.toString, declarationWord hit.whole.text,
      hit.captures.base.map Text.Span.toString⟩, span.offset)
  | none => none

/-- Keeps the first of the entries that stand for the same declaration. -/
def firstDeclarations (seen : List Declaration) :
    List (Declaration × Nat) → List (Declaration × Nat)
  | [] => []
  | (declaration, offset) :: rest =>
    if seen.contains declaration then firstDeclarations seen rest
    else (declaration, offset) :: firstDeclarations (declaration :: seen) rest

/-- The types declared in a file, pattern by pattern, each declaration once. -/
def structures (source : Source) (set : PatternSet) : List Dependency :=
  let found := set.patterns.flatMap fun (pattern, _) =>
    (pattern.hits source.text).filterMap declaration?
  (firstDeclarations [] found).map fun (declaration, offset) =>
    source.dependency declaration.name .struct offset
      (some (.struct declaration.word declaration.base))

end DepAtlas.Extract
