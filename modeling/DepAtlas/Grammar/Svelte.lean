import DepAtlas.Grammar.JavaScript

/-! The grammar of Svelte components. -/

namespace DepAtlas.Grammar

open Pattern

/-- Imports, types and functions in the script part of a component. -/
def svelte : Grammar where
  language := .svelte
  imports := [scriptImport, scriptReexport]
  structures := scriptStructures
  definitions := [
    lineStart ++ blanks ++ optWord "export" ++ optWord "async" ++ "function" ++ blanks1 ++
      subject scriptName ++ blanks ++ "(",
    lineStart ++ blanks ++ optWord "export" ++ anyWord ["const", "let"] ++ blanks1 ++
      subject scriptName ++ blanks ++ "=" ++ blanks ++ optWord "async" ++ parens ++ blanks ++ "=>"]
  calls := [identCall]
  keywords := [
    "if", "else", "each", "await", "then", "catch", "as", "export", "const", "let", "var",
    "function", "import", "from", "return", "for", "while", "switch", "new", "typeof"]
  builtinTypes := scriptBuiltinTypes
  library := scriptLibrary
  definitionKeywords := ["function"]
  skipRelativeImports := true

end DepAtlas.Grammar
