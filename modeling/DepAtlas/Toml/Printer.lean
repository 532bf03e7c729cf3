import DepAtlas.Text.Basic
import DepAtlas.Toml.Basic
import DepAtlas.Width

/-!
TOML text for a document of sections. Strings are written in the plainest of the four forms that can
hold them, and arrays with more than one item take a line for each item.
-/

namespace DepAtlas.Toml

/-- Length of the longest run of a character. -/
def longestRun (c : Char) (text : Text) : Nat :=
  (text.foldl (fun (longest, current) d =>
    let current := if d == c then current + 1 else 0
    (max longest current, current)) (0, 0)).1

/-- Whether a character can only be written as an escape. -/
def needsEscape (c : Char) : Bool :=
  c != '\t' && c != '\n' && (c.toNat < 0x20 || c.toNat == 0x7F)

/-- The forms of a string. -/
inductive StringForm
  | basic
  | literal
  | tripleBasic
  | tripleLiteral
deriving Repr, DecidableEq

namespace StringForm

/-- The form in which a text is written: double quotes, single quotes, triple double quotes and triple
single quotes, whichever is the first to need no escapes, and double quotes with escapes if none does. -/
def ofText (text : Text) : StringForm :=
  let coded := text.any needsEscape
  let escapes := coded || text.contains '\\'
  let broken := text.contains '\n'
  let double := longestRun '"' text
  let single := longestRun '\'' text
  if !escapes && double == 0 && !broken then .basic
  else if !coded && single == 0 && !broken then .literal
  else if !escapes && double ≤ 2 then .tripleBasic
  else if !coded && single ≤ 2 then .tripleLiteral
  else if broken then .tripleBasic
  else .basic

/-- The marks around a string. -/
def delimiter : StringForm → Text
  | basic => ['"']
  | literal => ['\'']
  | tripleBasic => ['"', '"', '"']
  | tripleLiteral => ['\'', '\'', '\'']

/-- Number of double quotes that may stand side by side without an escape. -/
def quotesAllowed : StringForm → Nat
  | tripleBasic => 2
  | _ => 0

/-- Whether a string of this form may run over several lines. -/
def spansLines : StringForm → Bool
  | tripleBasic => true
  | tripleLiteral => true
  | _ => false

end StringForm

def hexDigits4 (code : Nat) : Text :=
  [code / 4096, code / 256, code / 16, code].map fun digit =>
    let digit := digit % 16
    if digit < 10 then Char.ofNat (48 + digit) else Char.ofNat (55 + digit)

/-- The escape of a character that needs one in a form with escapes; `quotes` double quotes stand
before it. -/
def escape? (form : StringForm) (quotes : Nat) (c : Char) : Option Text :=
  if c == '"' then if form.quotesAllowed ≤ quotes then some ['\\', '"'] else none
  else if c == '\n' then if form.spansLines then none else some ['\\', 'n']
  else if c == '\t' then some ['\\', 't']
  else if c == '\\' then some ['\\', '\\']
  else if c == '\x08' then some ['\\', 'b']
  else if c == '\x0c' then some ['\\', 'f']
  else if c == '\r' then some ['\\', 'r']
  else if needsEscape c then some ('\\' :: 'u' :: hexDigits4 c.toNat)
  else none

def writeEscaped (form : StringForm) : Nat → Text → Text
  | _, [] => []
  | quotes, c :: rest =>
    match escape? form quotes c with
    | some escape => escape ++ writeEscaped form 0 rest
    | none => c :: writeEscaped form (if c == '"' then quotes + 1 else 0) rest

/-- A string in a given form. A string over several lines starts on a line of its own. -/
def writeIn (form : StringForm) (text : Text) : Text :=
  let opening := if form.spansLines && text.contains '\n' then ['\n'] else []
  let body :=
    match form with
    | .literal => text
    | .tripleLiteral => text
    | _ => writeEscaped form 0 text
  form.delimiter ++ opening ++ body ++ form.delimiter

def writeString (text : Text) : Text :=
  writeIn (StringForm.ofText text) text

/-- A value without a value inside it, if it can be written: a number must fit in 64 bits with sign. -/
def writeScalar? : Toml → Option Text
  | .string value => some (writeString value.toList)
  | .integer value =>
    if fitsSigned64 value then some (toString value).toList else none
  | .boolean value => some (toString value).toList
  | _ => none

def writeValue? : Toml → Option Text
  | .array [] => some ['[', ']']
  | .array [item] => (writeScalar? item).map fun item => '[' :: item ++ [']']
  | .array items => do
    let items ← items.mapM writeScalar?
    return '[' :: '\n' :: items.flatMap (fun item => "    ".toList ++ item ++ [',', '\n']) ++ [']']
  | value => writeScalar? value

/-- A key with its value, on a line of its own. -/
def writeEntry? (entry : String × Toml) : Option Text :=
  (writeValue? entry.2).map fun value => entry.1.toList ++ [' ', '=', ' '] ++ value ++ ['\n']

/-- A table with its header. -/
def writeSection? (name : String) (entries : Entries) : Option Text := do
  let entries ← entries.mapM writeEntry?
  return '[' :: name.toList ++ [']', '\n'] ++ entries.flatten

/-- A document of sections, with a blank line between them. Keys are written without quotation marks. -/
def write? (sections : List (String × Entries)) : Option String := do
  let sections ← sections.mapM fun (name, entries) => writeSection? name entries
  return String.ofList (List.intercalate ['\n'] sections)

end DepAtlas.Toml
