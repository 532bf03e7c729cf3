import DepAtlas.Text.Basic

/-!
Places in a text. A cursor knows the character before it, its byte offset and the characters after
it, which is all that a pattern may look at; a span runs from a cursor to a later offset.
-/

namespace DepAtlas.Text

/-- A place between two characters of a text. -/
structure Cursor where
  before : Option Char
  offset : Nat
  rest : Text
deriving Repr, DecidableEq, Inhabited

namespace Cursor

/-- The place before the first character. -/
def start (text : Text) : Cursor :=
  ⟨none, 0, text⟩

/-- The place after `c`, which is followed by `rest`. -/
def step (cursor : Cursor) (c : Char) (rest : Text) : Cursor :=
  ⟨some c, cursor.offset + c.utf8Size, rest⟩

/-- The places of a text, the last one first. -/
def placesBackward (text : Text) : List Cursor :=
  go [] (start text) text
where
  go (found : List Cursor) (cursor : Cursor) : Text → List Cursor
    | [] => cursor :: found
    | c :: rest => go (cursor :: found) (cursor.step c rest) rest

/-- Whether a line starts here: at the start of the text or after a line feed. -/
def atLineStart (cursor : Cursor) : Bool :=
  cursor.before.all (· == '\n')

/-- Whether exactly one neighbour is a word character. -/
def atWordBoundary (cursor : Cursor) : Bool :=
  cursor.before.any isWord != cursor.rest.head?.any isWord

end Cursor

/-- A stretch of a text, from a place to a later byte offset. -/
structure Span where
  start : Cursor
  stop : Nat
deriving Repr, DecidableEq, Inhabited

namespace Span

/-- Byte offset of the first character. -/
def offset (span : Span) : Nat :=
  span.start.offset

/-- The characters of the stretch. -/
def text (span : Span) : Text :=
  takeBytes (span.stop - span.start.offset) span.start.rest

/-- The characters of the stretch as a string. -/
def toString (span : Span) : String :=
  String.ofList span.text

end Span

end DepAtlas.Text
