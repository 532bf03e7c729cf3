import DepAtlas.Grammar.Basic

/-! The grammar of Rust. -/

namespace DepAtlas.Grammar

open Pattern

private def rustVisibility : Pattern :=
  opt ("pub" ++ opt parens ++ blanks1)

private def rustName : Pattern :=
  many1 (CharSet.ident "")

private def rustPath : Pattern :=
  many1 (CharSet.ident ":")

/-- Imports, types, traits and functions of Rust. -/
def rust : Grammar where
  language := .rust
  imports := [
    lineStart ++ blanks ++ rustVisibility ++ "use" ++ blanks1 ++ subject rustPath,
    lineStart ++ blanks ++ "extern" ++ blanks1 ++ "crate" ++ blanks1 ++ subject rustName,
    lineStart ++ blanks ++ rustVisibility ++ "mod" ++ blanks1 ++ subject rustName ++ blanks ++ ";",
    "include!" ++ blanks ++ "(" ++ blanks ++ "\"" ++ subject (many1 (CharSet.except "\"")) ++ "\"" ++
      blanks ++ ")"]
  structures := [
    lineStart ++ blanks ++ rustVisibility ++ "struct" ++ blanks1 ++ subject rustName,
    lineStart ++ blanks ++ rustVisibility ++ "enum" ++ blanks1 ++ subject rustName,
    lineStart ++ blanks ++ rustVisibility ++ optWord "unsafe" ++ "trait" ++ blanks1 ++
      subject rustName ++ opt angles ++ opt (blanks ++ ":" ++ blanks ++ capture .base rustPath),
    lineStart ++ blanks ++ optWord "unsafe" ++ "impl" ++ opt angles ++ blanks1 ++
      opt (capture .base rustPath ++ opt angles ++ blanks1 ++ "for" ++ blanks1) ++ subject rustName]
  definitions := [
    lineStart ++ blanks ++ rustVisibility ++ optWord "const" ++ optWord "async" ++
      optWord "unsafe" ++
      opt ("extern" ++ blanks1 ++ "\"" ++ many (CharSet.except "\"") ++ "\"" ++ blanks1) ++
      "fn" ++ blanks1 ++ subject rustName ++ blanks ++
      opt ("<" ++ many (CharSet.except "(") ++ ">") ++ blanks ++ "("]
  calls := [
    wordBoundary ++ "self." ++ subject rustName ++ blanks ++ "(",
    wordBoundary ++ rustName ++ "::" ++ subject rustName ++ blanks ++ "(",
    identCall]
  keywords := [
    "if", "else", "while", "for", "loop", "match", "break", "continue", "return", "yield",
    "in", "where", "move", "mut", "ref", "type", "fn", "impl", "let", "as", "unsafe"]
  builtinTypes := [
    "i8", "i16", "i32", "i64", "i128", "isize", "u8", "u16", "u32", "u64", "u128", "usize",
    "f32", "f64", "bool", "char", "str", "String", "Self", "Vec", "Option", "Result", "Box"]
  library := {
    exact := ["std", "core", "alloc"]
    leading := ["std::", "core::", "alloc::"] }
  definitionKeywords := ["fn"]

end DepAtlas.Grammar
