import DepAtlas.Language
import DepAtlas.Layer
import DepAtlas.Pattern.Basic

/-!
What is known about a source language: its import, declaration, definition and call patterns, its
reserved words and builtin types, the modules of its standard library, and how bodies are delimited.
-/

namespace DepAtlas

/-- How a definition's body is delimited. -/
inductive BodyStyle
  /-- Between braces. -/
  | braces
  /-- By deeper indentation than the line that defines it. -/
  | indented
deriving Repr, DecidableEq

/-- What a pattern looks for. -/
inductive PatternRole
  | importing
  | declaration
  | definition
  | call
deriving Repr, DecidableEq

def PatternRole.name : PatternRole → String
  | importing => "import"
  | declaration => "structure"
  | definition => "definition"
  | call => "call"

/-- Which modules belong to a language's standard library. -/
structure LibraryFilter where
  /-- Names of modules. -/
  exact : List String := []
  /-- Beginnings of names of modules. -/
  leading : List String := []
  /-- When set, a name whose first segment is listed in `exact` belongs to the library too. -/
  separator : Option Char := none
deriving Repr

namespace LibraryFilter

def includes (filter : LibraryFilter) (module : String) : Bool :=
  filter.exact.contains module || filter.leading.any (·.toList.isPrefixOf module.toList) ||
    filter.separator.any fun separator =>
      filter.exact.contains (String.ofList (module.toList.takeWhile (· != separator)))

end LibraryFilter

/-- The analysis rules of one language. -/
structure Grammar where
  language : Language
  /-- Import statements; the subject is the imported name. -/
  imports : List Pattern
  /-- A block of grouped imports; the subject is the text of the block. -/
  importBlock : Option Pattern := none
  /-- Type declarations; the subject is the declared name. -/
  structures : List Pattern
  /-- Candidate definitions; the subject is the defined name. -/
  definitions : List Pattern
  /-- Calls; the subject is the called name. -/
  calls : List Pattern
  /-- Words that are neither definitions nor calls. -/
  keywords : List String
  /-- Words that are recognised as a return type. -/
  builtinTypes : List String
  /-- Imports that are left out. -/
  library : LibraryFilter := {}
  bodyStyle : BodyStyle := .braces
  /-- Words that start a definition with an indented body. -/
  definitionKeywords : List String := []
  /-- Whether imports of paths relative to the file are left out. -/
  skipRelativeImports : Bool := false

namespace Grammar

/-- The patterns of a layer with their roles, in the order in which they are applied. -/
def patterns (grammar : Grammar) : Layer → List (Pattern × PatternRole)
  | .module => grammar.imports.map (·, .importing)
  | .struct => grammar.structures.map (·, .declaration)
  | .method => grammar.definitions.map (·, .definition) ++ grammar.calls.map (·, .call)

def isKeyword (grammar : Grammar) (word : String) : Bool :=
  grammar.keywords.contains word

def isBuiltinType (grammar : Grammar) (word : String) : Bool :=
  grammar.builtinTypes.contains word

def isLibrary (grammar : Grammar) (module : String) : Bool :=
  grammar.library.includes module

end Grammar

namespace Pattern

/-- An ASCII identifier directly before an opening parenthesis. -/
def identCall : Pattern :=
  wordBoundary ++ subject (one CharSet.identStart ++ many (CharSet.ident "")) ++ blanks ++ "("

/-- Text between angle brackets, without a closing one inside. -/
def angles : Pattern :=
  "<" ++ many (CharSet.except ">") ++ ">"

/-- Text between square brackets, without a closing one inside. -/
def squares : Pattern :=
  "[" ++ many (CharSet.except "]") ++ "]"

/-- Text between parentheses, without a closing one inside. -/
def parens : Pattern :=
  "(" ++ many (CharSet.except ")") ++ ")"

/-- A single or double quotation mark. -/
def quote : Pattern :=
  one (CharSet.of "'\"")

/-- Text without quotation marks between two of them, as the subject. -/
def quotedSubject : Pattern :=
  quote ++ subject (many1 (CharSet.except "'\"")) ++ quote

/-- Any of the words, each followed by blanks, any number of times. -/
def modifiers (words : List String) : Pattern :=
  star (anyWord words ++ blanks1)

/-- The word followed by blanks, or nothing. -/
def optWord (word : String) : Pattern :=
  opt (literal word.toList ++ blanks1)

end Pattern

end DepAtlas
