import DepAtlas.Toml.Scalars

/-!
TOML documents. A document is a list of statements, each on its own line: a header names the table to
which the following keys belong, and a key gets a value. Readers take what they read off the front of
a text and return what follows it.
-/

namespace DepAtlas.Toml

/-- Longest dotted key, and one more than the deepest nesting of arrays and inline tables. -/
def maxDepth : Nat := 80

/-- Drops a comment, if there is one; its text must be plain. -/
def skipComment : Text → Text
  | '#' :: rest => rest.dropWhile isPlain
  | rest => rest

/-- The rest of a line: blanks, perhaps a comment, and the end of the line or of the text. -/
def endLine? (text : Text) : Option Text :=
  match skipComment (skipBlanks text) with
  | [] => some []
  | rest => lineEnd? rest

/-- Drops blanks, comments and line ends. A comment must have a line end after it. -/
def skipLines : Nat → Text → Text
  | 0, text => text
  | fuel + 1, text =>
    match lineEnd? (skipComment (skipBlanks text)) with
    | some rest => skipLines fuel rest
    | none => skipBlanks text

/-- Characters of a key without quotation marks. -/
def isBare (c : Char) : Bool :=
  c.isAlphanum || c == '_' || c == '-'

def readKeyPart? (text : Text) : Option (String × Text) :=
  match text with
  | '"' :: _ => (readLineString? text).map fun (key, rest) => (String.ofList key, rest)
  | '\'' :: _ => (readLineString? text).map fun (key, rest) => (String.ofList key, rest)
  | _ =>
    let key := text.takeWhile isBare
    if key.isEmpty then none else some (String.ofList key, text.drop key.length)

/-- The parts of a dotted key, at least one, with blanks around them; at most `count` of them. -/
def readKeyParts? : Nat → Text → Option (List String × Text)
  | 0, _ => none
  | count + 1, text => do
    let (part, rest) ← readKeyPart? (skipBlanks text)
    match skipBlanks rest with
    | '.' :: rest =>
      let (parts, rest) ← readKeyParts? count rest
      return (part :: parts, rest)
    | rest => return ([part], rest)

/-- A dotted key: the tables on the way and the last part. -/
structure Key where
  path : List String
  name : String
deriving Repr, DecidableEq

def Key.ofParts? (parts : List String) : Option Key :=
  parts.getLast?.map fun name => ⟨parts.dropLast, name⟩

def readKey? (text : Text) : Option (Key × Text) := do
  let (parts, rest) ← readKeyParts? (maxDepth - 1) text
  let key ← Key.ofParts? parts
  return (key, rest)

mutual

/-- A value that may hold `depth` more levels. -/
def readValue? : Nat → Nat → Text → Option (Toml × Text)
  | 0, _, _ => none
  | fuel + 1, depth, text =>
    match text with
    | '[' :: rest =>
      match depth with
      | 0 => none
      | depth + 1 => do
        let (items, rest) ← readItems? fuel depth (skipLines (fuel + 1) rest)
        return (.array items, rest)
    | '\x7b' :: rest =>
      match depth with
      | 0 => none
      | depth + 1 =>
        match skipBlanks rest with
        | '\x7d' :: rest => some (.table .inline [], rest)
        | rest => do
          let (entries, rest) ← readEntries? fuel depth [] rest
          return (.table .inline entries, rest)
    | 't' :: _ => readWord? "true" (.boolean true) text
    | 'f' :: _ => readWord? "false" (.boolean false) text
    | 'i' :: _ => readWord? "inf" (.float "inf") text
    | 'n' :: _ => readWord? "nan" (.float "nan") text
    | c :: _ =>
      if c == '"' || c == '\'' then
        (readString? text).map fun (value, rest) => (.string (String.ofList value), rest)
      else if c.isDigit || c == '+' || c == '-' then readNumeric? text
      else none
    | [] => none

/-- The items of an array and its closing bracket. A comma may follow the last item. -/
def readItems? : Nat → Nat → Text → Option (List Toml × Text)
  | 0, _, _ => none
  | fuel + 1, depth, text =>
    match text with
    | ']' :: rest => some ([], rest)
    | _ => do
      let (item, rest) ← readValue? fuel depth text
      match skipLines (fuel + 1) rest with
      | ',' :: rest =>
        let (items, rest) ← readItems? fuel depth (skipLines (fuel + 1) rest)
        return (item :: items, rest)
      | ']' :: rest => return ([item], rest)
      | _ => none

/-- The keys of an inline table, at least one, with their values, and its closing brace; `entries` is
what was read before. -/
def readEntries? : Nat → Nat → Entries → Text → Option (Entries × Text)
  | 0, _, _, _ => none
  | fuel + 1, depth, entries, text => do
    let (key, rest) ← readKey? text
    let rest ← readMark? '=' rest
    let (value, rest) ← readValue? fuel depth (skipBlanks rest)
    let entries ← insert key.path key.name value .inline entries
    match skipBlanks rest with
    | ',' :: rest => readEntries? fuel depth entries rest
    | '\x7d' :: rest => return (entries, rest)
    | _ => none

end

/-- What one statement says. -/
inductive Statement
  /-- The following keys belong to this table. -/
  | table (key : Key)
  /-- The following keys belong to a new table at the end of this array. -/
  | element (key : Key)
  | value (key : Key) (value : Toml)

/-- A statement and its line end. -/
def readStatement? (text : Text) : Option (Statement × Text) := do
  let (statement, rest) ←
    match text with
    | '[' :: '[' :: rest => do
      let (key, rest) ← readKey? rest
      let rest ← readMark? ']' (← readMark? ']' rest)
      pure (Statement.element key, rest)
    | '[' :: rest => do
      let (key, rest) ← readKey? rest
      let rest ← readMark? ']' rest
      pure (Statement.table key, rest)
    | _ => do
      let (key, rest) ← readKey? text
      let (value, rest) ← readValue? (text.length + 1) (maxDepth - 1) (skipBlanks (← readMark? '=' rest))
      pure (Statement.value key value, rest)
  return (statement, ← endLine? rest)

def readStatements? : Nat → Text → Option (List Statement)
  | 0, _ => none
  | fuel + 1, text =>
    match skipBlanks text with
    | [] => some []
    | '#' :: rest => (endLine? ('#' :: rest)).bind (readStatements? fuel)
    | text =>
      match lineEnd? text with
      | some rest => readStatements? fuel rest
      | none => do
        let (statement, rest) ← readStatement? text
        let statements ← readStatements? fuel rest
        return statement :: statements

/-- Carries out statements on the entries of a document; `header` is the table to which keys belong. -/
def build? : List Statement → List String → Entries → Option Entries
  | [], _, entries => some entries
  | .table key :: rest, _, entries =>
    (openTable key.path key.name entries).bind (build? rest (key.path ++ [key.name]))
  | .element key :: rest, _, entries =>
    (openElement key.path key.name entries).bind (build? rest (key.path ++ [key.name]))
  | .value key value :: rest, header, entries =>
    (insertBelow header key.path key.name value entries).bind (build? rest header)

/-- The tables of a document, which may start with a byte order mark. -/
def parse? (text : String) : Option Entries := do
  let text :=
    match text.toList with
    | '\uFEFF' :: rest => rest
    | text => text
  let statements ← readStatements? (text.length + 1) text
  build? statements [] []

end DepAtlas.Toml
