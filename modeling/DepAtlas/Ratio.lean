/-!
Sums over lists, and shares of a total, shown as decimals. Every number on the way to a share is held to 53
significant bits and the result to the places that are shown; each step goes to the nearest value and, half-way,
to the even one.
-/

namespace DepAtlas

/-- The sum of a measure over the items of a list. -/
def total {α : Type} (measure : α → Nat) : List α → Nat
  | [] => 0
  | item :: rest => measure item + total measure rest

/-- The quotient, rounded to the nearest whole number and to the even one half-way. -/
def roundDiv (num den : Nat) : Nat :=
  let quotient := num / den
  let twice := 2 * (num % den)
  if twice < den then quotient
  else if den < twice then quotient + 1
  else quotient + quotient % 2

/-- Significant bits that are held. -/
def heldBits : Nat := 53

/-- A whole number held to the significant bits. -/
def hold (value : Nat) : Nat :=
  let surplus := value.log2 + 1 - heldBits
  roundDiv value (Nat.pow 2 surplus) * Nat.pow 2 surplus

/-- A quotient with a number of decimal places. -/
def decimalText (places num den : Nat) : String :=
  let scaled := roundDiv (num * Nat.pow 10 places) den
  let digits := toString (scaled % Nat.pow 10 places)
  toString (scaled / Nat.pow 10 places) ++ "." ++
    String.ofList (List.replicate (places - digits.length) '0') ++ digits

/-- A part of a whole; of nothing at all the share is zero. -/
structure Ratio where
  part : Nat
  whole : Nat
deriving Repr, DecidableEq

namespace Ratio

/-- The power of two by which a quotient is scaled so that it has at least the significant bits. -/
def scale (num den : Nat) : Nat :=
  heldBits + den.log2 - num.log2

/-- The share as a multiple of a power of two: the multiple, and the power in whose parts it counts. -/
def held (ratio : Ratio) : Nat × Nat :=
  if ratio.whole = 0 ∨ ratio.part = 0 then (0, 1)
  else
    let num := hold ratio.part
    let den := hold ratio.whole
    let bits := scale num den
    let quotient := num * Nat.pow 2 bits / den
    let surplus := quotient.log2 + 1 - heldBits
    (roundDiv (num * Nat.pow 2 bits) (den * Nat.pow 2 surplus) * Nat.pow 2 surplus, Nat.pow 2 bits)

/-- The share with six decimal places. -/
def text (ratio : Ratio) : String :=
  let (num, den) := ratio.held
  decimalText 6 num den

/-- The share in hundredths with one decimal place. -/
def percentText (ratio : Ratio) : String :=
  let (num, den) := ratio.held
  decimalText 1 (hold (num * 100)) den

end Ratio

end DepAtlas
