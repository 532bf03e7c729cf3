import DepAtlas.Grammar.Basic

/-! The grammar of Python. -/

namespace DepAtlas.Grammar

open Pattern

/-- Imports, classes and functions of Python. -/
def python : Grammar where
  language := .python
  imports := [
    lineStart ++ indent ++ "import" ++ indent1 ++ subject (many1 (CharSet.ident ".")),
    lineStart ++ indent ++ "from" ++ indent1 ++ subject (many1 (CharSet.ident ".")) ++ indent1 ++
      "import" ++ wordBoundary,
    "__import__" ++ blanks ++ "(" ++ blanks ++ quotedSubject ++ blanks ++ ")"]
  structures := [
    lineStart ++ indent ++ "class" ++ indent1 ++ subject (many1 (CharSet.ident "")) ++
      opt (indent ++ "(" ++ indent ++ capture .base (many1 (CharSet.ident ".")))]
  definitions := [
    lineStart ++ indent ++ opt ("async" ++ indent1) ++ "def" ++ indent1 ++
      subject (one CharSet.identStart ++ many (CharSet.ident "")) ++ blanks ++ "("]
  calls := [identCall]
  keywords := [
    "if", "else", "elif", "while", "for", "in", "try", "except", "finally", "with",
    "break", "continue", "return", "yield", "pass", "raise", "def", "class", "lambda",
    "and", "or", "not", "assert", "del"]
  builtinTypes := [
    "int", "float", "str", "bool", "list", "dict", "tuple", "set", "bytes", "None"]
  library := {
    exact := [
      "os", "sys", "json", "re", "math", "datetime", "collections", "itertools", "functools",
      "operator", "typing", "pathlib", "urllib", "http", "socket", "threading",
      "multiprocessing", "asyncio", "sqlite3", "pickle", "csv", "xml", "html"]
    separator := some '.' }
  bodyStyle := .indented
  definitionKeywords := ["def", "async"]
  skipRelativeImports := true

end DepAtlas.Grammar
