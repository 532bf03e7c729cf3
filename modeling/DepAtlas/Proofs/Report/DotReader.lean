import DepAtlas.Report.Dot

/-!
A reader of reports in the DOT language: the text as words, quoted texts and signs, the statements between
braces, and what they declare.
-/

namespace DepAtlas.Report.Dot

/-- A part of a text. -/
inductive Token
  | word (text : Text)
  /-- A quoted text, with its escapes undone. -/
  | quoted (text : Text)
  | sign (c : Char)
deriving DecidableEq

/-- What is read at a place of a text, as far as it was read. -/
inductive Reading
  /-- A word, or nothing yet. -/
  | bare (word : Text)
  | quoted (text : Text)
  /-- A quoted text after a backslash. -/
  | escaped (text : Text)
deriving DecidableEq

/-- A reader with what it has read, the last first. -/
structure Lexer where
  reading : Reading := .bare []
  tokens : List Token := []
deriving DecidableEq

namespace Lexer

/-- Ends a word. -/
def endWord (word : Text) (tokens : List Token) : List Token :=
  if word.isEmpty then tokens else .word word :: tokens

/-- Reads a character. -/
def step (lexer : Lexer) (c : Char) : Lexer :=
  match lexer.reading with
  | .bare word =>
    if c.isAlphanum || c == '_' then ⟨.bare (word ++ [c]), lexer.tokens⟩
    else if c == '"' then ⟨.quoted [], endWord word lexer.tokens⟩
    else if Text.isBlank c then ⟨.bare [], endWord word lexer.tokens⟩
    else ⟨.bare [], .sign c :: endWord word lexer.tokens⟩
  | .quoted text =>
    if c == '"' then ⟨.bare [], .quoted text :: lexer.tokens⟩
    else if c == '\\' then ⟨.escaped text, lexer.tokens⟩
    else ⟨.quoted (text ++ [c]), lexer.tokens⟩
  | .escaped text => ⟨.quoted (text ++ [c]), lexer.tokens⟩

/-- The parts of a text, unless it ends within quotation marks. -/
def tokens? (text : Text) : Option (List Token) :=
  let lexer := text.foldl step {}
  match lexer.reading with
  | .bare word => some (endWord word lexer.tokens).reverse
  | _ => none

end Lexer

/-- The text of a word or a quoted text. -/
def Token.text? : Token → Option String
  | .word text => some (String.ofList text)
  | .quoted text => some (String.ofList text)
  | .sign _ => none

/-- The declaration of a node. -/
structure NodeStatement where
  id : String
  attributes : List (String × String)
deriving DecidableEq

/-- The declaration of an edge between nodes. -/
structure EdgeStatement where
  source : String
  target : String
  attributes : List (String × String)
deriving DecidableEq

/-- A statement of a graph. -/
inductive Statement
  /-- A setting of the graph. -/
  | setting (name value : String)
  /-- The attributes of all nodes, or of all edges. -/
  | defaults (element : String) (attributes : List (String × String))
  | node (statement : NodeStatement)
  | edge (statement : EdgeStatement)
deriving DecidableEq

/-- Attributes up to the closing bracket. -/
def attributes? : List Token → Option (List (String × String))
  | [.word name, .sign '=', value, .sign ']'] => value.text?.map fun text => [(String.ofList name, text)]
  | .word name :: .sign '=' :: value :: .sign ',' :: rest =>
    value.text?.bind fun text => (attributes? rest).map ((String.ofList name, text) :: ·)
  | _ => none

namespace Statement

/-- The statement that is written with these tokens. -/
def ofTokens? : List Token → Option Statement
  | [.word name, .sign '=', .word value] => some (.setting (String.ofList name) (String.ofList value))
  | .word element :: .sign '[' :: rest => (attributes? rest).map (.defaults (String.ofList element))
  | .quoted id :: .sign '[' :: rest =>
    (attributes? rest).map fun attributes => .node ⟨String.ofList id, attributes⟩
  | .quoted source :: .sign '-' :: .sign '>' :: .quoted target :: .sign '[' :: rest =>
    (attributes? rest).map fun attributes => .edge ⟨String.ofList source, String.ofList target, attributes⟩
  | _ => none

/-- The statements up to the closing brace. Each ends with a semicolon; `pending` was read of the first. -/
def list? (pending : List Token) : List Token → Option (List Statement)
  | [] => none
  | .sign ';' :: rest => (ofTokens? pending).bind fun statement => (list? [] rest).map (statement :: ·)
  | token :: rest =>
    if pending = [] ∧ token = .sign '\x7d' ∧ rest = [] then some [] else list? (pending ++ [token]) rest

def node? : Statement → Option NodeStatement
  | .node statement => some statement
  | _ => none

def edge? : Statement → Option EdgeStatement
  | .edge statement => some statement
  | _ => none

end Statement

/-- What a report declares. -/
structure Document where
  nodes : List NodeStatement
  edges : List EdgeStatement
deriving DecidableEq

/-- Reads a report. -/
def Document.read? (text : Text) : Option Document :=
  match Lexer.tokens? text with
  | some (.word kind :: .word _ :: .sign '\x7b' :: body) =>
    if kind = "digraph".toList then
      (Statement.list? [] body).map fun statements =>
        ⟨statements.filterMap Statement.node?, statements.filterMap Statement.edge?⟩
    else none
  | _ => none

end DepAtlas.Report.Dot
