import DepAtlas.Grammar.Basic

/-! The grammar of Go. -/

namespace DepAtlas.Grammar

open Pattern

private def goName : Pattern :=
  many1 (CharSet.ident "")

private def goType : Pattern :=
  lineStart ++ blanks ++ "type" ++ blanks1 ++ subject goName ++ opt squares ++ blanks1

private def goParameters : Pattern :=
  blanks ++ opt squares ++ blanks ++ "("

/-- Imports, types and functions of Go. -/
def go : Grammar where
  language := .go
  imports := [
    lineStart ++ blanks ++ "import" ++ blanks1 ++ opt (many1 (CharSet.ident ".") ++ blanks1) ++
      "\"" ++ subject (many1 (CharSet.except "\"")) ++ "\""]
  importBlock := some
    (lineStart ++ blanks ++ "import" ++ blanks ++ "(" ++ subject (many (CharSet.except ")")) ++ ")")
  structures := [goType ++ "struct" ++ wordBoundary, goType ++ "interface" ++ wordBoundary]
  definitions := [
    lineStart ++ blanks ++ "func" ++ blanks1 ++ parens ++ blanks ++ subject goName ++ goParameters,
    lineStart ++ blanks ++ "func" ++ blanks1 ++ subject goName ++ goParameters]
  calls := [identCall]
  keywords := [
    "if", "else", "for", "range", "switch", "case", "break", "continue", "return", "goto",
    "fallthrough", "defer", "select", "type", "func", "go", "make", "new", "len"]
  builtinTypes := [
    "int", "int8", "int16", "int32", "int64", "uint", "uint8", "uint16", "uint32",
    "uint64", "float32", "float64", "string", "bool", "byte", "rune", "error"]
  library := {
    exact := [
      "fmt", "os", "io", "strings", "strconv", "time", "math", "net", "net/http",
      "encoding/json", "log", "bufio", "bytes", "context", "sync", "regexp", "sort", "errors",
      "flag"] }
  definitionKeywords := ["func"]

end DepAtlas.Grammar
