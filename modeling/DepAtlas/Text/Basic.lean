import DepAtlas.Text.CharClass

/-!
Texts as lists of characters, measured in the bytes of their UTF-8 form.

Offsets are byte offsets. `dropBytes` and `takeBytes` cut at an offset that lies between two
characters; an offset inside a character cuts after that character.
-/

namespace DepAtlas

/-- A text, character by character. -/
abbrev Text := List Char

namespace Text

/-- Number of bytes of the UTF-8 form. -/
def byteLength : Text → Nat
  | [] => 0
  | c :: rest => c.utf8Size + byteLength rest

/-- The text after the first `n` bytes. -/
def dropBytes : Nat → Text → Text
  | 0, text => text
  | _, [] => []
  | n + 1, c :: rest => dropBytes (n + 1 - c.utf8Size) rest
termination_by structural _ text => text

/-- The first `n` bytes of the text. -/
def takeBytes : Nat → Text → Text
  | 0, _ => []
  | _, [] => []
  | n + 1, c :: rest => c :: takeBytes (n + 1 - c.utf8Size) rest
termination_by structural _ text => text

/-- The text between two byte offsets. -/
def slice (text : Text) (start stop : Nat) : Text :=
  takeBytes (stop - start) (dropBytes start text)

/-- Drops the longest tail all of whose characters satisfy `p`. -/
def dropEndWhile (p : Char → Bool) (text : Text) : Text :=
  (text.reverse.dropWhile p).reverse

/-- Drops characters that satisfy `p` from both ends. -/
def trimWhere (p : Char → Bool) (text : Text) : Text :=
  dropEndWhile p (text.dropWhile p)

/-- Drops blanks from both ends. -/
def trim (text : Text) : Text :=
  trimWhere isBlank text

def isBlankLine (text : Text) : Bool :=
  text.all isBlank

/-- Byte offset of the first character that satisfies `p`. -/
def findWhere? (p : Char → Bool) : Text → Option Nat
  | [] => none
  | c :: rest => if p c then some 0 else (findWhere? p rest).map (· + c.utf8Size)

/-- Byte offset of the first occurrence of `needle`. -/
def find? (needle : Text) : Text → Option Nat
  | [] => if needle.isEmpty then some 0 else none
  | c :: rest =>
    if needle.isPrefixOf (c :: rest) then some 0
    else (find? needle rest).map (· + c.utf8Size)

/-- The text before the first occurrence of `needle`, or the whole text. -/
def before (needle : Text) : Text → Text
  | [] => []
  | c :: rest => if needle.isPrefixOf (c :: rest) then [] else c :: before needle rest

/-- The pieces between characters that satisfy `p`, in order; one more than there are such
characters. -/
def splitWhere (p : Char → Bool) : Text → List Text
  | [] => [[]]
  | c :: rest =>
    match splitWhere p rest with
    | [] => [[c]]
    | piece :: pieces => if p c then [] :: piece :: pieces else (c :: piece) :: pieces

/-- The maximal runs between characters that cannot stand in an identifier. -/
def words (text : Text) : List Text :=
  splitWhere (fun c => !isIdentifier c) text

/-- The lines of a text, each with its line end; nothing after a final line end. -/
def lines : Text → List Text
  | [] => []
  | c :: rest =>
    if c == '\n' then [c] :: lines rest
    else
      match lines rest with
      | [] => [[c]]
      | line :: more => (c :: line) :: more

/-- Number of leading indenting blanks. -/
def indentation (text : Text) : Nat :=
  (text.takeWhile isIndent).length

/-- Drops every leading copy of `head` (nothing when `head` is empty). -/
def dropLeading (head : Text) (text : Text) : Text :=
  go text.length text
where
  go : Nat → Text → Text
    | 0, rest => rest
    | fuel + 1, rest =>
      if head.isEmpty then rest
      else if head.isPrefixOf rest then go fuel (rest.drop head.length) else rest

/-- Drops every trailing copy of `tail`. -/
def dropTrailing (tail : Text) (text : Text) : Text :=
  (dropLeading tail.reverse text.reverse).reverse

end Text

end DepAtlas
