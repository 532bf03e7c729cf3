/-!
Limits of whole numbers that are stored with a fixed number of bits.
-/

namespace DepAtlas

/-- The numbers below this one are those of 32 bits. -/
def limit32 : Nat := 4294967296

/-- The numbers below this one are those of 64 bits. -/
def limit64 : Nat := 18446744073709551616

/-- The size of the least number of 64 bits with sign. -/
def signLimit64 : Nat := 9223372036854775808

/-- Whether a number takes at most 64 bits with its sign. -/
def fitsSigned64 (value : Int) : Bool :=
  -(signLimit64 : Int) ≤ value && value < (signLimit64 : Int)

end DepAtlas
