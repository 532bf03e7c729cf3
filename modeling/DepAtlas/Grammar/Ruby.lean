import DepAtlas.Grammar.Basic

/-! The grammar of Ruby. -/

namespace DepAtlas.Grammar

open Pattern

private def rubyConstant : Pattern :=
  one Char.isUpper ++ many (CharSet.ident ":")

private def rubyName (endings : String) : Pattern :=
  one CharSet.identStart ++ many (CharSet.ident "") ++ opt (one (CharSet.of endings))

private def rubyRequire (word : String) : Pattern :=
  lineStart ++ indent ++ literal word.toList ++ indent ++ opt "(" ++ indent ++ quotedSubject

/-- Imports, classes, modules and methods of Ruby. -/
def ruby : Grammar where
  language := .ruby
  imports := [rubyRequire "require", rubyRequire "require_relative"]
  structures := [
    lineStart ++ indent ++ "class" ++ indent1 ++ subject rubyConstant ++
      opt (indent ++ "<" ++ indent ++ capture .base rubyConstant),
    lineStart ++ indent ++ "module" ++ indent1 ++ subject rubyConstant]
  definitions := [
    lineStart ++ indent ++ "def" ++ indent1 ++ opt "self." ++ subject (rubyName "?!="),
    lineStart ++ indent ++ "define_method" ++ indent ++ opt "(" ++ indent ++ ":" ++
      subject (rubyName "?!")]
  calls := [
    "." ++ subject (rubyName "?!"),
    wordBoundary ++ subject (rubyName "?!") ++ "("]
  keywords := [
    "if", "else", "elsif", "unless", "while", "until", "for", "break", "next", "return",
    "yield", "begin", "rescue", "ensure", "retry", "redo", "def", "end", "do", "class",
    "module", "case", "when", "then", "and", "or", "not", "self", "super"]
  builtinTypes := []
  library := {
    exact := [
      "json", "yaml", "csv", "uri", "net/http", "openssl", "digest", "base64", "zlib",
      "fileutils", "pathname", "logger", "benchmark", "optparse", "ostruct"] }
  bodyStyle := .indented
  definitionKeywords := ["def", "define_method"]

end DepAtlas.Grammar
