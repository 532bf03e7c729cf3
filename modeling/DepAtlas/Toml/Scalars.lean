import DepAtlas.Toml.Basic
import DepAtlas.Toml.Strings
import DepAtlas.Width

/-!
TOML numbers, dates and times. Numbers without fraction and exponent must fit in 64 bits with sign;
dates must be days of the calendar.
-/

namespace DepAtlas.Toml

/-- A sign, if there is one. -/
def takeSign : Text → Text × Text
  | '+' :: rest => (['+'], rest)
  | '-' :: rest => (['-'], rest)
  | rest => ([], rest)

/-- Digits with single underscores between them, the first one at the front; the digits alone and the
rest. -/
def takeGrouped (isDigit : Char → Bool) : Nat → Text → Text × Text
  | 0, text => ([], text)
  | fuel + 1, text =>
    match text with
    | '_' :: c :: rest =>
      if isDigit c then
        let (digits, rest) := takeGrouped isDigit fuel rest
        (c :: digits, rest)
      else ([], text)
    | c :: rest =>
      if isDigit c then
        let (digits, rest) := takeGrouped isDigit fuel rest
        (c :: digits, rest)
      else ([], text)
    | [] => ([], [])

/-- At least one digit, with single underscores between digits. -/
def readDigits? (isDigit : Char → Bool) : Text → Option (Text × Text)
  | c :: rest =>
    if isDigit c then
      let (digits, rest) := takeGrouped isDigit rest.length rest
      some (c :: digits, rest)
    else none
  | [] => none

/-- Decimal digits, of which the first is zero only if it is the only one. -/
def readDecimal? : Text → Option (Text × Text)
  | '0' :: rest => some (['0'], rest)
  | text => readDigits? Char.isDigit text

/-- The value of digits in a base. -/
def valueOf (base : Nat) (digits : Text) : Nat :=
  digits.foldl (fun value c => value * base + (Json.hexValue? c).getD 0) 0

/-- A whole number, if it fits. -/
def integer? (value : Int) : Option Toml :=
  if fitsSigned64 value then some (.integer value) else none

/-- Digits of a base after its mark. -/
def readBased? (base : Nat) (isDigit : Char → Bool) (text : Text) : Option (Toml × Text) := do
  let (digits, rest) ← readDigits? isDigit text
  let value ← integer? (valueOf base digits)
  return (value, rest)

/-- A number without fraction and exponent. -/
def readInteger? : Text → Option (Toml × Text)
  | '0' :: 'x' :: rest => readBased? 16 (fun c => (Json.hexValue? c).isSome) rest
  | '0' :: 'o' :: rest => readBased? 8 (fun c => '0' ≤ c && c ≤ '7') rest
  | '0' :: 'b' :: rest => readBased? 2 (fun c => c == '0' || c == '1') rest
  | text => do
    let (sign, rest) := takeSign text
    let (digits, rest) ← readDecimal? rest
    let value := valueOf 10 digits
    let number ← integer? (if sign == ['-'] then -value else value)
    return (number, rest)

/-- The digits after a point, if there is one. -/
def readFraction? : Text → Option (Text × Text)
  | '.' :: rest => readDigits? Char.isDigit rest
  | rest => some ([], rest)

/-- The exponent, if there is one: its sign and digits. -/
def readExponent? : Text → Option (Option (Text × Text) × Text)
  | c :: rest =>
    if c == 'e' || c == 'E' then do
      let (sign, rest) := takeSign rest
      let (digits, rest) ← readDigits? Char.isDigit rest
      return (some (sign, digits), rest)
    else some (none, c :: rest)
  | [] => some (none, [])

/-- Whether a decimal number lies above every double, half a unit in the last place included. -/
def overflows (digits : Text) (exponent : Int) : Bool :=
  let digits := digits.dropWhile (· == '0')
  let size := exponent + digits.length
  if digits.isEmpty || size < 300 then false
  else if 320 < size then true
  else
    let value := valueOf 10 digits
    let limit := Nat.pow 2 1024 - Nat.pow 2 970
    if 0 ≤ exponent then limit ≤ value * Nat.pow 10 exponent.toNat
    else limit * Nat.pow 10 (-exponent).toNat ≤ value

/-- A number with fraction or exponent, or one of the special numbers. A number above every double is
refused; one below every double stands for negative infinity. -/
def readFloat? (text : Text) : Option (Toml × Text) := do
  let (sign, rest) := takeSign text
  let written (rest : Text) := Toml.float (String.ofList (text.take (text.length - rest.length)))
  if ['i', 'n', 'f'].isPrefixOf rest || ['n', 'a', 'n'].isPrefixOf rest then
    return (written (rest.drop 3), rest.drop 3)
  let (whole, rest) ← readDecimal? rest
  let afterWhole := rest.length
  let (fraction, rest) ← readFraction? rest
  let (exponent, rest) ← readExponent? rest
  if rest.length == afterWhole then none
  else
    let (exponentSign, exponentDigits) := exponent.getD ([], [])
    let power := valueOf 10 exponentDigits
    let power : Int := if exponentSign == ['-'] then -power else power
    if sign != ['-'] && overflows (whole ++ fraction) (power - fraction.length) then none
    else return (written rest, rest)

/-- A number of exactly so many decimal digits, within bounds. -/
def readField? (count low high : Nat) (text : Text) : Option (Nat × Text) :=
  let digits := text.take count
  let value := valueOf 10 digits
  if digits.length == count && digits.all Char.isDigit && low ≤ value && value ≤ high then
    some (value, text.drop count)
  else none

/-- Takes one character off the front. -/
def readMark? (mark : Char) : Text → Option Text
  | c :: rest => if c == mark then some rest else none
  | [] => none

def daysIn (year month : Nat) : Nat :=
  if month == 2 then
    if year % 4 == 0 && (year % 100 != 0 || year % 400 == 0) then 29 else 28
  else if month == 4 || month == 6 || month == 9 || month == 11 then 30
  else 31

def readDate? (text : Text) : Option Text := do
  let (year, rest) ← readField? 4 0 9999 text
  let (month, rest) ← readField? 2 1 12 (← readMark? '-' rest)
  let (_, rest) ← readField? 2 1 (daysIn year month) (← readMark? '-' rest)
  return rest

/-- A time of the day, with any number of digits after the seconds. A minute may have 61 seconds. -/
def readTime? (text : Text) : Option Text := do
  let (_, rest) ← readField? 2 0 23 text
  let (_, rest) ← readField? 2 0 59 (← readMark? ':' rest)
  let (_, rest) ← readField? 2 0 60 (← readMark? ':' rest)
  match rest with
  | '.' :: rest =>
    let digits := rest.takeWhile Char.isDigit
    if digits.isEmpty then none else return rest.drop digits.length
  | rest => return rest

/-- The distance from universal time, if there is one. -/
def readOffset? (text : Text) : Option Text :=
  match text with
  | c :: rest =>
    if c == 'Z' || c == 'z' then some rest
    else if c == '+' || c == '-' then do
      let (_, rest) ← readField? 2 0 23 rest
      let (_, rest) ← readField? 2 0 59 (← readMark? ':' rest)
      return rest
    else some text
  | [] => some []

/-- Whether a text starts with an hour and a colon, after which nothing but a time may follow. -/
def startsTime (text : Text) : Bool :=
  ((readField? 2 0 23 text).bind fun (_, rest) => readMark? ':' rest).isSome

/-- The time after a date, if there is one. -/
def readTimeAfter? (text : Text) : Option Text :=
  match text with
  | c :: rest =>
    if (c == 'T' || c == 't' || c == ' ') && startsTime rest then
      (readTime? rest).bind readOffset?
    else some text
  | [] => some []

/-- A date, a time or both. -/
def readDatetime? (text : Text) : Option (Toml × Text) := do
  let rest ←
    match readDate? text with
    | some rest => readTimeAfter? rest
    | none => readTime? text
  return (.datetime (String.ofList (text.take (text.length - rest.length))), rest)

/-- A date, time or number; the first form that fits the text. -/
def readNumeric? (text : Text) : Option (Toml × Text) :=
  if (text.drop 4).head? == some '-' && (text.take 4).all Char.isDigit || startsTime text then
    readDatetime? text
  else readFloat? text <|> readInteger? text

/-- Takes a word off the front. -/
def readWord? (word : String) (value : Toml) (text : Text) : Option (Toml × Text) :=
  if word.toList.isPrefixOf text then some (value, text.drop word.length) else none

end DepAtlas.Toml
