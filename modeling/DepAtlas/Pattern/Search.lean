import DepAtlas.Pattern.Basic

/-!
The search for matches.

A text is read from its end to its start, so that at each place it is known how the rest of a pattern can
be completed to the right of it. `Pattern.step` takes a pattern from one place to the place before it and
keeps of the ways to complete it the preferred one; every place is visited once. The matches that are
found are then chosen from left to right, without overlap.
-/

namespace DepAtlas

open Text (Cursor Span)

/-- The stretches remembered by a match. -/
structure Captures where
  subject : Option Span := none
  base : Option Span := none
  result : Option Span := none
deriving Repr, DecidableEq, Inhabited

namespace Captures

def get? (captures : Captures) : Label → Option Span
  | .subject => captures.subject
  | .base => captures.base
  | .result => captures.result

/-- Remembers a stretch, in place of an earlier one under the same label. -/
def insert (captures : Captures) (label : Label) (span : Span) : Captures :=
  match label with
  | .subject => { captures with subject := some span }
  | .base => { captures with base := some span }
  | .result => { captures with result := some span }

end Captures

/-- How a pattern is completed from some place on. -/
structure Completion where
  /-- The byte offset at which the match ends. -/
  stop : Nat
  captures : Captures := {}
  /-- The ends of the stretches that start further left, the innermost first. -/
  ends : List Nat := []
deriving Repr, DecidableEq, Inhabited

namespace Completion

/-- A stretch ends at an offset. -/
def close (completion : Completion) (offset : Nat) : Completion :=
  { completion with ends := offset :: completion.ends }

/-- The innermost stretch starts at a place. Of two stretches under one label the later one is
remembered. -/
def start (completion : Completion) (label : Label) (cursor : Cursor) : Completion :=
  match completion.ends with
  | [] => completion
  | stop :: ends =>
    let captures :=
      if (completion.captures.get? label).isSome then completion.captures
      else completion.captures.insert label ⟨cursor, stop⟩
    { completion with captures, ends }

end Completion

/-- What is kept of a place when a pattern goes on to the place before it. -/
inductive Memory
  /-- No part of the pattern can be completed. -/
  | blank
  /-- How a part of the pattern is completed. -/
  | cell (completion : Completion)
  /-- What is kept for two parts. -/
  | pair (first second : Memory)
deriving Inhabited

namespace Memory

/-- Whether nothing is kept. -/
def isBlank : Memory → Bool
  | blank => true
  | _ => false

/-- What is kept of a completion, if there is one. -/
def ofCompletion? : Option Completion → Memory
  | some completion => cell completion
  | none => blank

/-- The completion that is kept, if there is one. -/
def completion? : Memory → Option Completion
  | cell completion => some completion
  | _ => none

/-- What is kept for two parts; nothing if it is nothing for both. -/
def both : Memory → Memory → Memory
  | blank, blank => blank
  | first, second => pair first second

/-- What is kept for the first of two parts. -/
def first : Memory → Memory
  | pair first _ => first
  | _ => blank

/-- What is kept for the second of two parts. -/
def second : Memory → Memory
  | pair _ second => second
  | _ => blank

end Memory

namespace Pattern

/-- The kept completion, if the next character is in a set. -/
def through (set : CharSet) (cursor : Cursor) (memory : Memory) : Option Completion :=
  match cursor.rest with
  | [] => none
  | c :: _ => memory.completion?.filter fun _ => set c

/-- Takes a pattern to a place. `memory` is what was kept at the place to the right and `next` says how
what comes after the pattern is completed from here. Returns how the pattern is completed from here,
what comes after it included, and what is kept.

A character is followed by what was possible one place to the right. Copies of a repeated pattern
consume at least a character, so a first copy depends on nothing but what was kept. -/
def step (cursor : Cursor) (pattern : Pattern) (memory : Memory) (next : Option Completion) :
    Option Completion × Memory :=
  if memory.isBlank && next.isNone then (none, .blank)
  else
    match pattern with
    | empty => (next, .blank)
    | one set => (through set cursor memory, .ofCompletion? next)
    | many set =>
      let here := through set cursor memory <|> next
      (here, .ofCompletion? here)
    | few set =>
      let here := next <|> through set cursor memory
      (here, .ofCompletion? here)
    | seq first second =>
      let (later, secondKept) := second.step cursor memory.second next
      let (here, firstKept) := first.step cursor memory.first later
      (here, .both firstKept secondKept)
    | alt first second =>
      let (here, firstKept) := first.step cursor memory.first next
      let (other, secondKept) := second.step cursor memory.second next
      (here <|> other, .both firstKept secondKept)
    | star body =>
      let here := (body.step cursor memory none).1 <|> next
      (here, (body.step cursor memory here).2)
    | capture label body =>
      let (here, kept) := body.step cursor memory (next.map (·.close cursor.offset))
      (here.map (·.start label cursor), kept)
    | lineStart => (next.filter fun _ => cursor.atLineStart, .blank)
    | wordBoundary => (next.filter fun _ => cursor.atWordBoundary, .blank)

end Pattern

/-- One match of a pattern: the stretch it covers and what it captured. -/
structure Hit where
  whole : Span
  captures : Captures
deriving Repr, DecidableEq, Inhabited

namespace Pattern

/-- Takes a pattern to a place, and puts the preferred match that starts there in front of those further
right. -/
def visit (pattern : Pattern) (state : Memory × List Hit) (cursor : Cursor) : Memory × List Hit :=
  match pattern.step cursor state.1 (some { stop := cursor.offset }) with
  | (some found, memory) => (memory, ⟨⟨cursor, found.stop⟩, found.captures⟩ :: state.2)
  | (none, memory) => (memory, state.2)

/-- The preferred match at each place where there is one, from left to right. -/
def candidates (pattern : Pattern) (text : Text) : List Hit :=
  ((Cursor.placesBackward text).foldl pattern.visit (.blank, [])).2

/-- Keeps a match unless it starts before the offset at which the last one kept ends. -/
def keepDisjoint (state : Nat × List Hit) (hit : Hit) : Nat × List Hit :=
  if state.1 ≤ hit.whole.offset then (hit.whole.stop, hit :: state.2) else state

/-- All matches in a text, leftmost first and without overlap. -/
def hits (pattern : Pattern) (text : Text) : List Hit :=
  ((pattern.candidates text).foldl keepDisjoint (0, [])).2.reverse

end Pattern

end DepAtlas
