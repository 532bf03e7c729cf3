import DepAtlas.Ratio
import DepAtlas.Text.Basic
import DepAtlas.Width

/-!
How large a number is that is written with digits, a fraction and an exponent. Such a number is held to
53 significant bits and an exponent of its own, and one that is larger than anything that can be held is
huge. Only as many digits are looked at as fit in 64 bits.
-/

namespace DepAtlas

namespace Json

def digitValue (c : Char) : Nat :=
  c.toNat - '0'.toNat

def digitsValue (digits : Text) : Nat :=
  digits.foldl (fun value c => value * 10 + digitValue c) 0

/-- The exponent of a number. -/
structure Exponent where
  negative : Bool
  digits : Text
deriving Repr, DecidableEq

/-- The power of ten that an exponent adds. -/
def Exponent.power (exponent : Exponent) : Int :=
  let size : Int := digitsValue exponent.digits
  if exponent.negative then -size else size

/-- A number without its sign. -/
structure Magnitude where
  whole : Text
  fraction : Text := []
  exponent : Option Exponent := none
deriving Repr, DecidableEq

namespace Magnitude

/-- Whether there is neither fraction nor exponent. -/
def isWhole (magnitude : Magnitude) : Bool :=
  magnitude.fraction.isEmpty && magnitude.exponent.isNone

/-- The number as it is written. -/
def text (magnitude : Magnitude) : Text :=
  let fraction := if magnitude.fraction.isEmpty then [] else '.' :: magnitude.fraction
  let exponent :=
    match magnitude.exponent with
    | some exponent => 'e' :: ((if exponent.negative then ['-'] else []) ++ exponent.digits)
    | none => []
  magnitude.whole ++ fraction ++ exponent

/-- Adds digits to a number as long as it fits in 64 bits; returns the number of digits left over. -/
def gather : Nat → Text → Nat × Nat
  | value, [] => (value, 0)
  | value, c :: rest =>
    let next := value * 10 + digitValue c
    if next < limit64 then gather next rest else (value, rest.length + 1)

/-- The digits that are looked at as a whole number, and the power of ten by which it is multiplied
where there is no exponent. -/
def significand (magnitude : Magnitude) : Nat × Int :=
  let (value, surplus) := gather 0 magnitude.whole
  let (value, unused) := gather value magnitude.fraction
  (value, surplus - (magnitude.fraction.length - unused : Nat))

/-- Greatest power of ten that can be held. -/
def maxPower : Nat := 308

/-- The least power of two that is too large to be held. -/
def powerLimit : Nat := 1024

/-- Whether the number is too large to be held. -/
def isHuge (magnitude : Magnitude) : Bool :=
  let (value, scale) := magnitude.significand
  let power := scale + (magnitude.exponent.map Exponent.power).getD 0
  if value = 0 ∨ power < 0 then false
  else if (maxPower : Int) < power then true
  else Nat.pow 2 powerLimit ≤ hold (hold value * hold (Nat.pow 10 power.toNat))

end Magnitude

end Json

end DepAtlas
