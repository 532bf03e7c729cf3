import DepAtlas.Json.Basic
import DepAtlas.Text.Basic

/-!
Writing JSON, either on one line or with one item per line and two blanks of indentation per level.
Each writer puts the value in front of the text that follows it.
-/

namespace DepAtlas.Json

/-- Digits of the hexadecimal escape of a control character. -/
def hexDigit (value : Nat) : Char :=
  if value < 10 then Char.ofNat ('0'.toNat + value) else Char.ofNat ('a'.toNat + (value - 10))

/-- A character inside quotation marks. -/
def escapeChar (c : Char) : Text :=
  if c = '"' then ['\\', '"']
  else if c = '\\' then ['\\', '\\']
  else if c = '\x08' then ['\\', 'b']
  else if c = '\x0c' then ['\\', 'f']
  else if c = '\n' then ['\\', 'n']
  else if c = '\r' then ['\\', 'r']
  else if c = '\t' then ['\\', 't']
  else if c.toNat < 0x20 then
    ['\\', 'u', '0', '0', hexDigit (c.toNat / 16), hexDigit (c.toNat % 16)]
  else [c]

/-- A string between quotation marks. -/
def writeString (value : String) (rest : Text) : Text :=
  '"' :: (value.toList.flatMap escapeChar ++ '"' :: rest)

/-- How items are set apart. -/
inductive Layout
  /-- Everything on one line, without blanks. -/
  | compact
  /-- One item per line. -/
  | pretty
deriving Repr, DecidableEq

namespace Layout

/-- What stands before an item at a nesting level. -/
def lineBreak (layout : Layout) (level : Nat) (rest : Text) : Text :=
  match layout with
  | compact => rest
  | pretty => '\n' :: (List.replicate (2 * level) ' ' ++ rest)

/-- What stands between a member's name and its value. -/
def colon (layout : Layout) (rest : Text) : Text :=
  match layout with
  | compact => ':' :: rest
  | pretty => ':' :: ' ' :: rest

end Layout

mutual

/-- Writes a value that stands at a nesting level; what is not there to be written is null. -/
def write (layout : Layout) (level : Nat) : Json → Text → Text
  | null, rest => "null".toList ++ rest
  | unreadable, rest => "null".toList ++ rest
  | bool true, rest => "true".toList ++ rest
  | bool false, rest => "false".toList ++ rest
  | int value, rest => (toString value).toList ++ rest
  | real text, rest => text.toList ++ rest
  | str value, rest => writeString value rest
  | arr [], rest => '[' :: ']' :: rest
  | arr (item :: items), rest =>
    '[' :: layout.lineBreak (level + 1) (write layout (level + 1) item
      (writeItems layout level items rest))
  | obj [], rest => '\x7b' :: '\x7d' :: rest
  | obj (member :: members), rest =>
    '\x7b' :: layout.lineBreak (level + 1) (writeMember layout (level + 1) member
      (writeMembers layout level members rest))

/-- Writes the items after the first one, and the closing bracket. -/
def writeItems (layout : Layout) (level : Nat) : List Json → Text → Text
  | [], rest => layout.lineBreak level (']' :: rest)
  | item :: items, rest =>
    ',' :: layout.lineBreak (level + 1) (write layout (level + 1) item
      (writeItems layout level items rest))

/-- Writes a name and its value. -/
def writeMember (layout : Layout) (level : Nat) : String × Json → Text → Text
  | (name, value), rest => writeString name (layout.colon (write layout level value rest))

/-- Writes the members after the first one, and the closing brace. -/
def writeMembers (layout : Layout) (level : Nat) : List (String × Json) → Text → Text
  | [], rest => layout.lineBreak level ('\x7d' :: rest)
  | member :: members, rest =>
    ',' :: layout.lineBreak (level + 1) (writeMember layout (level + 1) member
      (writeMembers layout level members rest))

end

/-- The value on one line. -/
def compact (json : Json) : String :=
  String.ofList (write .compact 0 json [])

/-- The value with one item per line. -/
def pretty (json : Json) : String :=
  String.ofList (write .pretty 0 json [])

end DepAtlas.Json
