import DepAtlas.Text.CharTable

/-!
Character classes used when source text is read: blanks, alphanumeric characters, identifier
characters and the wider class of word characters whose edges are word boundaries.
-/

namespace DepAtlas.Text

/-- Blank characters: spaces, line and paragraph ends, and the fixed-width spaces. -/
def isBlank (c : Char) : Bool :=
  let n := c.toNat
  (9 ≤ n && n ≤ 13) || n == 0x20 || n == 0x85 || n == 0xA0 || n == 0x1680 ||
    (0x2000 ≤ n && n ≤ 0x200A) || n == 0x2028 || n == 0x2029 || n == 0x202F || n == 0x205F ||
    n == 0x3000

/-- Letters and numbers of any script. -/
def isAlphanumeric (c : Char) : Bool :=
  if c.toNat < 128 then c.isAlphanum
  else inRanges letters c.toNat || inRanges numerals c.toNat

/-- Alphanumeric characters and the underscore: what makes two words one identifier. -/
def isIdentifier (c : Char) : Bool :=
  isAlphanumeric c || c == '_'

/-- Word characters: a boundary lies where exactly one of the two neighbours is one. They are fixed by
the 16th edition of the standard, whereas letters and numbers follow the 17th. -/
def isWord (c : Char) : Bool :=
  if c.toNat < 128 then c.isAlphanum || c == '_'
  else
    (inRanges letters c.toNat && !inRanges recentLetters c.toNat) || inRanges joiners c.toNat

/-- The blanks that indent a line. -/
def isIndent (c : Char) : Bool :=
  c == ' ' || c == '\t'

end DepAtlas.Text
