import DepAtlas.Json.Basic
import DepAtlas.Json.Magnitude
import DepAtlas.Text.Basic
import DepAtlas.Width

/-!
Reading JSON. A reader takes a value off the front of an input and returns what follows it. Values may
be nested at most 127 levels deep; a number is whole when it is written without fraction and exponent
and fits in 64 bits. What is well formed and cannot be held is read as such.
-/

namespace DepAtlas.Json

/-- What JSON is read from: characters, and gaps where bytes belong to no character. -/
abbrev Input := List (Option Char)

def isSpace (c : Char) : Bool :=
  c == ' ' || c == '\n' || c == '\t' || c == '\r'

def skipSpace (input : Input) : Input :=
  input.dropWhile fun symbol => symbol.any isSpace

def hexValue? (c : Char) : Option Nat :=
  if '0' ≤ c ∧ c ≤ '9' then some (c.toNat - '0'.toNat)
  else if 'a' ≤ c ∧ c ≤ 'f' then some (c.toNat - 'a'.toNat + 10)
  else if 'A' ≤ c ∧ c ≤ 'F' then some (c.toNat - 'A'.toNat + 10)
  else none

/-- Four hexadecimal digits. -/
def readHex? : Input → Option (Nat × Input)
  | some a :: some b :: some c :: some d :: rest => do
    let a ← hexValue? a
    let b ← hexValue? b
    let c ← hexValue? c
    let d ← hexValue? d
    return (((a * 16 + b) * 16 + c) * 16 + d, rest)
  | _ => none

/-- Whether a code unit is the first of a pair. -/
def isLeading (unit : Nat) : Bool :=
  0xD800 ≤ unit && unit < 0xDC00

/-- Whether a code unit is the second of a pair. -/
def isTrailing (unit : Nat) : Bool :=
  0xDC00 ≤ unit && unit < 0xE000

/-- The second half of a pair that is escaped at the front of an input. -/
def readTrailing? : Input → Option (Nat × Input)
  | some '\\' :: some 'u' :: rest => (readHex? rest).filter fun (unit, _) => isTrailing unit
  | _ => none

/-- The character of an escaped code unit or pair; half a pair is none. -/
def readUnicode? (input : Input) : Option (Option Char × Input) := do
  let (unit, rest) ← readHex? input
  if isTrailing unit then return (none, rest)
  else if isLeading unit then
    match readTrailing? rest with
    | some (low, rest) =>
      return (some (Char.ofNat (0x10000 + (unit - 0xD800) * 0x400 + (low - 0xDC00))), rest)
    | none => return (none, rest)
  else return (some (Char.ofNat unit), rest)

/-- The character that a one-letter escape stands for. -/
def escaped? : Char → Option Char
  | '"' => some '"'
  | '\\' => some '\\'
  | '/' => some '/'
  | 'b' => some '\x08'
  | 'f' => some '\x0c'
  | 'n' => some '\n'
  | 'r' => some '\r'
  | 't' => some '\t'
  | _ => none

/-- Adds a character to what was read of a string; a gap leaves no text. -/
def extend (read : Option Text) (symbol : Option Char) : Option Text :=
  symbol.bind fun c => read.map (c :: ·)

/-- The rest of a string, after its opening quotation mark; `read` holds what was read so far, last
character first, as long as that is a text. -/
def readString? : Nat → Option Text → Input → Option (Option String × Input)
  | 0, _, _ => none
  | _ + 1, read, some '"' :: rest => some (read.map fun text => String.ofList text.reverse, rest)
  | fuel + 1, read, some '\\' :: some 'u' :: rest =>
    match readUnicode? rest with
    | some (symbol, rest) => readString? fuel (extend read symbol) rest
    | none => none
  | fuel + 1, read, some '\\' :: some c :: rest =>
    match escaped? c with
    | some c => readString? fuel (extend read (some c)) rest
    | none => none
  | fuel + 1, read, some c :: rest =>
    if c.toNat < 0x20 || c == '\\' then none else readString? fuel (extend read (some c)) rest
  | fuel + 1, read, none :: rest => readString? fuel (extend read none) rest
  | _ + 1, _, [] => none

/-- Digits and what follows them. -/
def takeDigits (input : Input) : Text × Input :=
  let isDigit := fun (symbol : Option Char) => symbol.any Char.isDigit
  ((input.takeWhile isDigit).filterMap id, input.dropWhile isDigit)

/-- The digits of a fraction, if there is one; a point needs a digit after it. -/
def readFraction? : Input → Option (Text × Input)
  | some '.' :: rest =>
    match takeDigits rest with
    | ([], _) => none
    | (digits, rest) => some (digits, rest)
  | rest => some ([], rest)

/-- The sign in front of an exponent's digits; whether it is a minus. -/
def readExponentSign : Input → Bool × Input
  | some '+' :: rest => (false, rest)
  | some '-' :: rest => (true, rest)
  | rest => (false, rest)

/-- The exponent of a number, if there is one. -/
def readExponent? : Input → Option (Option Exponent × Input)
  | some e :: rest =>
    if e == 'e' || e == 'E' then
      let (negative, rest) := readExponentSign rest
      match takeDigits rest with
      | ([], _) => none
      | (digits, rest) => some (some { negative, digits }, rest)
    else some (none, some e :: rest)
  | rest => some (none, rest)

/-- A number from its parts. One without fraction and exponent is kept exactly if it fits; a negative
zero does not. -/
def ofMagnitude (negative : Bool) (magnitude : Magnitude) : Json :=
  let value := digitsValue magnitude.whole
  let real :=
    if magnitude.isHuge then .unreadable
    else .real (String.ofList (if negative then '-' :: magnitude.text else magnitude.text))
  if !magnitude.isWhole then real
  else if negative then if 0 < value ∧ value ≤ signLimit64 then .int (-value) else real
  else if value < limit64 then .int value else real

/-- A number without its sign. -/
def readMagnitude? (negative : Bool) (input : Input) : Option (Json × Input) :=
  match takeDigits input with
  | ([], _) => none
  | ('0' :: _ :: _, _) => none
  | (whole, rest) => do
    let (fraction, rest) ← readFraction? rest
    let (exponent, rest) ← readExponent? rest
    return (ofMagnitude negative { whole, fraction, exponent }, rest)

def readNumber? : Input → Option (Json × Input)
  | some '-' :: rest => readMagnitude? true rest
  | input => readMagnitude? false input

/-- Takes a word off the front. -/
def readWord? (word : String) (value : Json) (input : Input) : Option (Json × Input) :=
  if (word.toList.map some).isPrefixOf input then some (value, input.drop word.length) else none

/-- A string, if what was read is a text. -/
def ofText : Option String → Json
  | some text => .str text
  | none => .unreadable

/-- The object with these members, if all their names are texts. -/
def ofMembers (members : List (Option String × Json)) : Json :=
  match members.mapM fun (name, value) => name.map fun name => (name, value) with
  | some members => .obj members
  | none => .unreadable

/-- An array or object that may hold `depth` more levels, its own included. -/
def within (depth : Nat) (json : Json) : Json :=
  if depth = 0 then .unreadable else json

mutual

/-- A value that may hold `depth` more levels; blanks in front of it are skipped. -/
def readValue? : Nat → Nat → Input → Option (Json × Input)
  | 0, _, _ => none
  | fuel + 1, depth, input =>
    match skipSpace input with
    | some '"' :: rest =>
      (readString? (fuel + 1) (some []) rest).map fun (value, rest) => (ofText value, rest)
    | some '[' :: rest =>
      match skipSpace rest with
      | some ']' :: rest => some (within depth (.arr []), rest)
      | rest =>
        (readItems? fuel (depth - 1) rest).map fun (items, rest) => (within depth (.arr items), rest)
    | some '\x7b' :: rest =>
      match skipSpace rest with
      | some '\x7d' :: rest => some (within depth (.obj []), rest)
      | rest =>
        (readMembers? fuel (depth - 1) rest).map fun (members, rest) =>
          (within depth (ofMembers members), rest)
    | some 'n' :: rest => readWord? "null" .null (some 'n' :: rest)
    | some 't' :: rest => readWord? "true" (.bool true) (some 't' :: rest)
    | some 'f' :: rest => readWord? "false" (.bool false) (some 'f' :: rest)
    | rest => readNumber? rest

/-- The items of an array, at least one, and its closing bracket. -/
def readItems? : Nat → Nat → Input → Option (List Json × Input)
  | 0, _, _ => none
  | fuel + 1, depth, input => do
    let (item, rest) ← readValue? fuel depth input
    match skipSpace rest with
    | some ',' :: rest =>
      let (items, rest) ← readItems? fuel depth rest
      return (item :: items, rest)
    | some ']' :: rest => return ([item], rest)
    | _ => none

/-- The members of an object, at least one, and its closing brace. -/
def readMembers? : Nat → Nat → Input → Option (List (Option String × Json) × Input)
  | 0, _, _ => none
  | fuel + 1, depth, input =>
    match skipSpace input with
    | some '"' :: rest => do
      let (name, rest) ← readString? (fuel + 1) (some []) rest
      match skipSpace rest with
      | some ':' :: rest =>
        let (value, rest) ← readValue? fuel depth rest
        match skipSpace rest with
        | some ',' :: rest =>
          let (members, rest) ← readMembers? fuel depth rest
          return ((name, value) :: members, rest)
        | some '\x7d' :: rest => return ([(name, value)], rest)
        | _ => none
      | _ => none
    | _ => none

end

/-- Deepest nesting that is read. -/
def maxDepth : Nat := 127

/-- The value that an input is; nothing but blanks may follow it. -/
def read? (input : Input) : Option Json :=
  match readValue? (input.length + 1) maxDepth input with
  | some (json, rest) => if (skipSpace rest).isEmpty then some json else none
  | none => none

/-- The value that a text is. -/
def parse? (text : String) : Option Json :=
  read? (text.toList.map some)

end DepAtlas.Json
