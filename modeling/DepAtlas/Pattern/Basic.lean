import DepAtlas.Text.Cursor

/-!
Patterns over source text.

A pattern may match at a place in several ways. They have an order of preference: the left side of a
choice before the right one, more repetitions before fewer (fewer before more when the repetition is
lazy).
-/

namespace DepAtlas

/-- A set of characters. -/
abbrev CharSet := Char → Bool

namespace CharSet

def of (members : String) : CharSet :=
  let members := members.toList
  fun c => members.contains c

/-- Every character but those of a string; line ends are included. -/
def except (members : String) : CharSet :=
  let members := members.toList
  fun c => !members.contains c

/-- ASCII letters, digits and the underscore, with the characters of `extra`. -/
def ident (extra : String) : CharSet :=
  let extra := extra.toList
  fun c => c.isAlphanum || c == '_' || extra.contains c

/-- ASCII letters and the underscore. -/
def identStart : CharSet :=
  fun c => c.isAlpha || c == '_'

/-- Word characters of any script, with the characters of `extra`. -/
def word (extra : String) : CharSet :=
  let extra := extra.toList
  fun c => Text.isWord c || extra.contains c

end CharSet

/-- What a captured stretch stands for. -/
inductive Label
  /-- The imported, declared, defined or called name. -/
  | subject
  /-- The parent type of a declaration. -/
  | base
  /-- The return type in front of a definition. -/
  | result
deriving Repr, DecidableEq

/-- A pattern over text. -/
inductive Pattern
  /-- Matches without consuming anything. -/
  | empty
  /-- One character of the set. -/
  | one (set : CharSet)
  /-- Any number of characters of the set, as many as possible first. -/
  | many (set : CharSet)
  /-- Any number of characters of the set, as few as possible first. -/
  | few (set : CharSet)
  /-- The first pattern, then the second. -/
  | seq (first second : Pattern)
  /-- The first pattern, or else the second. -/
  | alt (first second : Pattern)
  /-- Any number of copies, as many as possible first. Each copy consumes at least a character. -/
  | star (body : Pattern)
  /-- Matches the body and remembers the stretch. -/
  | capture (label : Label) (body : Pattern)
  /-- The start of a line. -/
  | lineStart
  /-- A word boundary. -/
  | wordBoundary

namespace Pattern

instance : Append Pattern := ⟨.seq⟩

instance : OrElse Pattern := ⟨fun first second => .alt first (second ())⟩

/-- These characters, one after the other. -/
def literal : Text → Pattern
  | [] => .empty
  | c :: rest => rest.foldl (fun before c => .seq before (.one (· == c))) (.one (· == c))

instance : Coe String Pattern := ⟨fun text => .literal text.toList⟩

/-- The pattern or nothing, preferring the pattern. -/
def opt (body : Pattern) : Pattern :=
  .alt body .empty

/-- One or more characters of the set. -/
def many1 (set : CharSet) : Pattern :=
  .seq (.one set) (.many set)

/-- Blanks, possibly none. -/
def blanks : Pattern :=
  .many Text.isBlank

/-- At least one blank. -/
def blanks1 : Pattern :=
  many1 Text.isBlank

/-- Spaces and tabs, possibly none. -/
def indent : Pattern :=
  .many Text.isIndent

/-- At least one space or tab. -/
def indent1 : Pattern :=
  many1 Text.isIndent

/-- One of the words, tried in order. -/
def anyWord : List String → Pattern
  | [] => .one fun _ => false
  | [word] => .literal word.toList
  | word :: more => .alt (.literal word.toList) (anyWord more)

/-- The name a pattern is after. -/
def subject (body : Pattern) : Pattern :=
  .capture .subject body

end Pattern

end DepAtlas
