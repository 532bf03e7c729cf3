import DepAtlas.Grammar.Basic

/-! The grammar of C and C++. -/

namespace DepAtlas.Grammar

open Pattern

private def cName : Pattern :=
  one CharSet.identStart ++ many (CharSet.word "")

private def cBlock : Pattern :=
  "\x7b" ++ many (CharSet.except "\x7d") ++ "\x7d"

private def cDirective (word : String) : Pattern :=
  lineStart ++ blanks ++ "#" ++ blanks ++ literal word.toList ++ blanks ++ one (CharSet.of "<\"") ++
    subject (many1 (CharSet.except ">\"")) ++ one (CharSet.of ">\"")

/-- Includes, types and functions of C and C++. -/
def c : Grammar where
  language := .c
  imports := [cDirective "include", cDirective "import"]
  structures := [
    "typedef" ++ blanks1 ++ "struct" ++ blanks1 ++ cName ++ blanks ++ cBlock ++ blanks ++
      subject cName ++ blanks ++ ";",
    "typedef" ++ blanks1 ++ "struct" ++ blanks ++ cBlock ++ blanks ++ subject cName ++ blanks ++ ";",
    "typedef" ++ blanks1 ++ "enum" ++ blanks1 ++ cName ++ blanks ++ cBlock ++ blanks ++
      subject cName ++ blanks ++ ";",
    wordBoundary ++ "struct" ++ blanks1 ++ subject cName ++ blanks ++ "\x7b",
    wordBoundary ++ "enum" ++ blanks1 ++ optWord "class" ++ subject cName ++ blanks ++ "\x7b",
    wordBoundary ++ "class" ++ blanks1 ++ subject cName ++
      opt (blanks ++ ":" ++ blanks ++ opt (anyWord ["public", "protected", "private"]) ++ blanks ++
        capture .base (one CharSet.identStart ++ many (CharSet.word ":"))) ++ blanks ++ "\x7b",
    wordBoundary ++ "union" ++ blanks1 ++ subject cName ++ blanks ++ "\x7b"]
  definitions := [
    lineStart ++ indent ++
      modifiers ["static", "extern", "inline", "virtual", "const", "unsigned", "signed", "struct"] ++
      capture .result (one CharSet.identStart ++ many (CharSet.word ":") ++
        alt (blanks ++ many1 (CharSet.of "*") ++ blanks) blanks1) ++
      star (cName ++ "::") ++ subject cName ++ blanks ++ "("]
  calls := [wordBoundary ++ cName ++ "::" ++ subject cName ++ blanks ++ "(", identCall]
  keywords := [
    "if", "else", "while", "for", "do", "switch", "case", "break", "continue", "return",
    "goto", "sizeof", "typedef", "volatile", "register", "auto", "struct", "union", "enum",
    "static", "extern", "const", "new", "delete"]
  builtinTypes := [
    "void", "char", "short", "int", "long", "float", "double", "signed", "unsigned", "bool",
    "size_t", "ssize_t", "int8_t", "int16_t", "int32_t", "int64_t", "uint8_t", "uint16_t",
    "uint32_t", "uint64_t", "FILE"]
  library := {
    exact := [
      "stdio.h", "stdlib.h", "string.h", "math.h", "time.h", "ctype.h", "assert.h", "errno.h",
      "limits.h", "float.h", "stdarg.h", "setjmp.h", "signal.h", "locale.h"] }

end DepAtlas.Grammar
