import DepAtlas.Json.Parser

/-!
The four forms of TOML strings. A reader takes a string off the front of a text and returns what
follows it.
-/

namespace DepAtlas.Toml

/-- Blanks inside a line. -/
def skipBlanks (text : Text) : Text :=
  text.dropWhile Text.isIndent

/-- Takes the end of a line off the front. -/
def lineEnd? : Text → Option Text
  | '\n' :: rest => some rest
  | '\r' :: '\n' :: rest => some rest
  | _ => none

/-- Characters that may be written as they are, line ends apart. -/
def isPlain (c : Char) : Bool :=
  c == '\t' || (0x20 ≤ c.toNat && c.toNat != 0x7F)

def readHexDigits? : Nat → Nat → Text → Option (Nat × Text)
  | 0, value, rest => some (value, rest)
  | count + 1, value, c :: rest =>
    (Json.hexValue? c).bind fun digit => readHexDigits? count (value * 16 + digit) rest
  | _ + 1, _, [] => none

/-- The character with a code point, if there is one. -/
def charOf? (code : Nat) : Option Char :=
  if code < 0xD800 ∨ (0xE000 ≤ code ∧ code < 0x110000) then some (Char.ofNat code) else none

/-- The character that an escape stands for, after its backslash. -/
def readEscape? : Text → Option (Char × Text)
  | 'b' :: rest => some ('\x08', rest)
  | 't' :: rest => some ('\t', rest)
  | 'n' :: rest => some ('\n', rest)
  | 'f' :: rest => some ('\x0c', rest)
  | 'r' :: rest => some ('\r', rest)
  | '"' :: rest => some ('"', rest)
  | '\\' :: rest => some ('\\', rest)
  | 'u' :: rest => do
    let (code, rest) ← readHexDigits? 4 0 rest
    let c ← charOf? code
    return (c, rest)
  | 'U' :: rest => do
    let (code, rest) ← readHexDigits? 8 0 rest
    let c ← charOf? code
    return (c, rest)
  | _ => none

/-- The rest of a string in double quotes; `read` holds what was read, last character first. -/
def readBasic? : Nat → Text → Text → Option (Text × Text)
  | 0, _, _ => none
  | fuel + 1, read, text =>
    match text with
    | '"' :: rest => some (read.reverse, rest)
    | '\\' :: rest => (readEscape? rest).bind fun (c, rest) => readBasic? fuel (c :: read) rest
    | c :: rest => if isPlain c then readBasic? fuel (c :: read) rest else none
    | [] => none

/-- The rest of a string in single quotes. -/
def readLiteral? (text : Text) : Option (Text × Text) :=
  let body := text.takeWhile fun c => isPlain c && c != '\''
  match text.drop body.length with
  | '\'' :: rest => some (body, rest)
  | _ => none

/-- Drops the blanks and line ends after a backslash at the end of a line. -/
def skipFolded : Nat → Text → Text
  | 0, text => text
  | fuel + 1, text =>
    match lineEnd? (skipBlanks text) with
    | some rest => skipFolded fuel rest
    | none => skipBlanks text

/-- The rest of a string in triple quotes, with its quotation mark and whether it has escapes. Up to two
quotation marks may stand before the closing ones. -/
def readTriple? (quote : Char) (escapes : Bool) : Nat → Text → Text → Option (Text × Text)
  | 0, _, _ => none
  | fuel + 1, read, text =>
    let quotes := (text.takeWhile (· == quote)).length
    if 3 ≤ quotes then
      let inner := min (quotes - 3) 2
      some ((List.replicate inner quote ++ read).reverse, text.drop (inner + 3))
    else
      match lineEnd? text with
      | some rest => readTriple? quote escapes fuel ('\n' :: read) rest
      | none =>
        match text with
        | [] => none
        | c :: rest =>
          if escapes && c == '\\' then
            match lineEnd? (skipBlanks rest) with
            | some folded => readTriple? quote escapes fuel read (skipFolded fuel folded)
            | none =>
              (readEscape? rest).bind fun (c, rest) => readTriple? quote escapes fuel (c :: read) rest
          else if isPlain c then readTriple? quote escapes fuel (c :: read) rest
          else none

/-- Drops a line end directly after opening triple quotes. -/
def skipFirstLineEnd (text : Text) : Text :=
  (lineEnd? text).getD text

def readLineString? (text : Text) : Option (Text × Text) :=
  match text with
  | '"' :: rest => readBasic? (rest.length + 1) [] rest
  | '\'' :: rest => readLiteral? rest
  | _ => none

def readString? (text : Text) : Option (Text × Text) :=
  match text with
  | '"' :: '"' :: '"' :: rest =>
    readTriple? '"' true (rest.length + 1) [] (skipFirstLineEnd rest)
  | '\'' :: '\'' :: '\'' :: rest =>
    readTriple? '\'' false (rest.length + 1) [] (skipFirstLineEnd rest)
  | _ => readLineString? text

end DepAtlas.Toml
