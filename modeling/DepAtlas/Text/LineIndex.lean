import DepAtlas.Text.Basic

/-!
Line numbers of byte offsets. The index lists the offset at which each line starts, in increasing
order and beginning with 0; the line of an offset is found by halving the list.
-/

namespace DepAtlas.Text

/-- The offsets at which the lines of a text start. -/
structure LineIndex where
  starts : Array Nat
deriving Repr, DecidableEq

namespace LineIndex

/-- Offsets just after the line feeds of a text that begins at `offset`. -/
def startsAfter (offset : Nat) : Text → List Nat
  | [] => []
  | c :: rest =>
    if c == '\n' then (offset + 1) :: startsAfter (offset + 1) rest
    else startsAfter (offset + c.utf8Size) rest

/-- The index of a text. -/
def ofText (text : Text) : LineIndex :=
  ⟨(0 :: startsAfter 0 text).toArray⟩

/-- What a search for an offset among the starts of lines finds. -/
inductive Finding
  /-- The line with this position starts at the offset. -/
  | found (position : Nat)
  /-- No line starts at the offset; one that did would have this position. -/
  | missing (position : Nat)
deriving Repr, DecidableEq

/-- Searches for an offset among the starts at the positions from `low` on and below `high`. -/
def search (index : LineIndex) (offset low high : Nat) (inside : high ≤ index.starts.size) : Finding :=
  if filled : low < high then
    let middle := low + (high - low) / 2
    if index.starts[middle] = offset then .found middle
    else if index.starts[middle] < offset then index.search offset (middle + 1) high inside
    else index.search offset low middle (by omega)
  else .missing low
termination_by high - low

/-- The position of the line that holds an offset. An offset at which no line starts is on the line
before the position that it would have. -/
def lineAt (index : LineIndex) (offset : Nat) : Nat :=
  match index.search offset 0 index.starts.size (Nat.le_refl _) with
  | .found position => position
  | .missing position => position - 1

/-- Largest line number that is told apart. -/
def maxLine : Nat := 4294967295

/-- The line that holds an offset, counted from 1. -/
def lineOf (index : LineIndex) (offset : Nat) : Nat :=
  min (index.lineAt offset + 1) maxLine

/-- The offset at which the line that holds an offset starts. -/
def lineStart (index : LineIndex) (offset : Nat) : Nat :=
  index.starts[index.lineAt offset]?.getD 0

end LineIndex

end DepAtlas.Text
