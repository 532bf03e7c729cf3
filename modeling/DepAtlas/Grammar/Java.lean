import DepAtlas.Grammar.Basic

/-! The grammar of Java. -/

namespace DepAtlas.Grammar

open Pattern

private def javaName : Pattern :=
  many1 (CharSet.ident "")

private def javaParameters : Pattern :=
  opt ("<" ++ many (CharSet.except ">\x7b") ++ ">")

private def javaExtends : Pattern :=
  opt (blanks1 ++ "extends" ++ blanks1 ++ capture .base (many1 (CharSet.ident ".")))

/-- Imports, types and methods of Java. -/
def java : Grammar where
  language := .java
  imports := [
    lineStart ++ blanks ++ "import" ++ blanks1 ++ optWord "static" ++
      subject (many1 (CharSet.ident ".") ++ opt ".*") ++ blanks ++ ";"]
  structures := [
    lineStart ++ blanks ++
      modifiers ["public", "protected", "private", "abstract", "final", "static", "sealed"] ++
      "class" ++ blanks1 ++ subject javaName ++ javaParameters ++ javaExtends,
    lineStart ++ blanks ++
      modifiers ["public", "protected", "private", "abstract", "static", "sealed"] ++
      "interface" ++ blanks1 ++ subject javaName ++ javaParameters ++ javaExtends,
    lineStart ++ blanks ++ modifiers ["public", "protected", "private", "static"] ++
      "enum" ++ blanks1 ++ subject javaName,
    lineStart ++ blanks ++ modifiers ["public", "protected", "private", "static", "final"] ++
      "record" ++ blanks1 ++ subject javaName]
  definitions := [
    lineStart ++ blanks ++ star ("@" ++ many1 (CharSet.word "") ++ blanks1) ++
      modifiers [
        "public", "protected", "private", "static", "final", "abstract", "synchronized",
        "native", "default"] ++
      opt ("<" ++ many1 (CharSet.except ">") ++ ">" ++ blanks1) ++
      capture .result (many1 (CharSet.ident ".[]") ++
        opt ("<" ++ many (CharSet.except ">()") ++ ">") ++ star "[]") ++
      blanks1 ++ subject javaName ++ blanks ++ "("]
  calls := [identCall]
  keywords := [
    "if", "else", "while", "for", "do", "switch", "case", "break", "continue", "return",
    "try", "catch", "finally", "throw", "throws", "instanceof", "new", "synchronized",
    "assert", "super", "this"]
  builtinTypes := [
    "void", "int", "long", "short", "byte", "char", "float", "double", "boolean", "String",
    "Object"]
  library := { leading := ["java.", "javax.", "org.w3c.", "org.xml."] }

end DepAtlas.Grammar
