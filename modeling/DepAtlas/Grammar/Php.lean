import DepAtlas.Grammar.Basic

/-! The grammar of PHP. -/

namespace DepAtlas.Grammar

open Pattern

private def phpName : Pattern :=
  many1 (CharSet.ident "")

private def phpPath : Pattern :=
  many1 (CharSet.ident "\\")

private def phpExtends : Pattern :=
  opt (blanks1 ++ "extends" ++ blanks1 ++ capture .base phpPath)

/-- Imports, types and functions of PHP. -/
def php : Grammar where
  language := .php
  imports := [
    lineStart ++ blanks ++ anyWord ["require", "require_once", "include", "include_once"] ++
      blanks ++ opt "(" ++ blanks ++ quotedSubject,
    lineStart ++ blanks ++ "use" ++ blanks1 ++ subject phpPath]
  structures := [
    lineStart ++ blanks ++ modifiers ["abstract", "final", "readonly"] ++ "class" ++ blanks1 ++
      subject phpName ++ phpExtends,
    lineStart ++ blanks ++ "interface" ++ blanks1 ++ subject phpName ++ phpExtends,
    lineStart ++ blanks ++ "trait" ++ blanks1 ++ subject phpName]
  definitions := [
    lineStart ++ blanks ++
      modifiers ["public", "private", "protected", "static", "abstract", "final"] ++
      "function" ++ blanks1 ++ opt "&" ++ subject phpName ++ blanks ++ "("]
  calls := [identCall]
  keywords := [
    "if", "else", "elseif", "while", "for", "foreach", "do", "switch", "case", "break",
    "continue", "return", "try", "catch", "finally", "throw", "instanceof", "function",
    "array", "isset", "empty", "unset", "list", "echo", "print", "new"]
  builtinTypes := [
    "int", "float", "string", "bool", "array", "void", "mixed", "object", "callable",
    "iterable"]
  definitionKeywords := ["function"]

end DepAtlas.Grammar
