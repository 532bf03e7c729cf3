import DepAtlas.Grammar.Basic

/-! The grammar of JavaScript and TypeScript, and what Svelte components share with it. -/

namespace DepAtlas.Grammar

open Pattern

/-- An identifier of JavaScript. -/
def scriptName : Pattern :=
  many1 (CharSet.ident "$")

/-- An import statement at the start of a line. -/
def scriptImport : Pattern :=
  lineStart ++ blanks ++ "import" ++ blanks1 ++
    opt (few (CharSet.except ";'\"") ++ blanks1 ++ "from" ++ blanks1) ++ quotedSubject

/-- An export that passes on another module's names. -/
def scriptReexport : Pattern :=
  lineStart ++ blanks ++ "export" ++ blanks1 ++ opt (few (CharSet.except ";'\"") ++ blanks1) ++
    "from" ++ blanks1 ++ quotedSubject

private def scriptExtends : Pattern :=
  opt (blanks1 ++ "extends" ++ blanks1 ++ capture .base (many1 (CharSet.ident "$.")))

/-- Classes, interfaces, type aliases and enumerations. -/
def scriptStructures : List Pattern := [
  lineStart ++ blanks ++ optWord "export" ++ optWord "default" ++ optWord "abstract" ++
    "class" ++ blanks1 ++ subject scriptName ++ opt angles ++ scriptExtends,
  lineStart ++ blanks ++ optWord "export" ++ "interface" ++ blanks1 ++ subject scriptName ++
    opt angles ++ scriptExtends,
  lineStart ++ blanks ++ optWord "export" ++ "type" ++ blanks1 ++ subject scriptName ++ blanks ++
    opt angles ++ blanks ++ "=",
  lineStart ++ blanks ++ optWord "export" ++ optWord "const" ++ "enum" ++ blanks1 ++
    subject scriptName]

/-- Builtin types of the script languages. -/
def scriptBuiltinTypes : List String := [
  "void", "string", "number", "boolean", "any", "unknown", "never", "object", "Promise"]

/-- Modules that come with the script runtime. -/
def scriptLibrary : LibraryFilter where
  exact := [
    "fs", "path", "os", "util", "events", "stream", "buffer", "crypto", "http", "https", "url",
    "querystring", "zlib"]
  leading := ["node:"]

private def scriptBinding : Pattern :=
  lineStart ++ blanks ++ optWord "export" ++ anyWord ["const", "let", "var"] ++ blanks1 ++
    subject scriptName ++ blanks ++ "=" ++ blanks ++ optWord "async"

private def scriptCallOf (word : String) : Pattern :=
  wordBoundary ++ literal word.toList ++ blanks ++ "(" ++ blanks ++ quotedSubject ++ blanks ++ ")"

/-- Imports, types and functions of JavaScript and TypeScript. -/
def javaScript : Grammar where
  language := .javaScript
  imports := [scriptImport, scriptCallOf "require", scriptReexport, scriptCallOf "import"]
  structures := scriptStructures
  definitions := [
    lineStart ++ blanks ++ optWord "export" ++ optWord "default" ++ optWord "async" ++
      "function" ++ blanks ++ opt "*" ++ blanks ++ subject scriptName ++ blanks ++ opt angles ++
      blanks ++ "(",
    scriptBinding ++ "function" ++ wordBoundary,
    scriptBinding ++ parens ++ blanks ++
      opt (":" ++ blanks ++ many1 (CharSet.except "=")) ++ "=>",
    lineStart ++ blanks ++ subject scriptName ++ blanks ++ ":" ++ blanks ++ optWord "async" ++
      "function" ++ blanks ++ "(",
    lineStart ++ blanks ++
      modifiers ["public", "private", "protected", "static", "async", "readonly"] ++
      subject scriptName ++ blanks ++ parens ++ blanks ++
      opt (":" ++ blanks ++ capture .result (many1 (CharSet.ident "$<>[]")) ++ blanks) ++ "\x7b"]
  calls := [identCall]
  keywords := [
    "if", "else", "while", "for", "do", "switch", "case", "break", "continue", "return",
    "try", "catch", "finally", "throw", "typeof", "instanceof", "new", "class", "extends",
    "super", "import", "export", "default", "await", "function", "constructor"]
  builtinTypes := scriptBuiltinTypes
  library := scriptLibrary
  definitionKeywords := ["function"]
  skipRelativeImports := true

end DepAtlas.Grammar
