import DepAtlas.Digest.Words

/-!
Globs of paths. A glob is matched against all bytes of a path: `?` stands for one byte and `*` for any
number of them, separators included; `**` between separators stands for any number of directories;
`[...]` is a set of bytes, `{...}` a choice, and a backslash takes the next character as it is.
-/

namespace DepAtlas

/-- A part of a glob. -/
inductive GlobToken
  | literal (bytes : Bytes)
  /-- One byte. -/
  | any
  /-- Any bytes. -/
  | many
  /-- Directories in front of a path, perhaps none. -/
  | leading
  /-- Everything below a directory. -/
  | trailing
  /-- A separator, or two with anything between them. -/
  | between
  /-- One byte that is in one of the ranges, or in none of them. -/
  | oneOf (negated : Bool) (ranges : List (UInt8 × UInt8))
  /-- One of several globs. -/
  | choice (alternatives : List (List GlobToken))
deriving Inhabited

namespace GlobToken

/-- The byte that divides the names of a path. -/
def separator : UInt8 := 47

/-- Whether a byte is in one of the ranges. -/
def inRanges (ranges : List (UInt8 × UInt8)) (byte : UInt8) : Bool :=
  ranges.any fun (low, high) => low ≤ byte && byte ≤ high

/-- The form of parts in a row: how many pieces they are made of, and how deep the deepest of them is
nested. Parts that stand for nothing have no piece. -/
structure Form where
  pieces : Nat := 0
  depth : Nat := 0
deriving Repr, DecidableEq

namespace Form

/-- Whether there is no piece. -/
def isVoid (form : Form) : Bool :=
  form.pieces == 0

/-- One form after the other. -/
def append (first second : Form) : Form :=
  ⟨first.pieces + second.pieces, max first.depth second.depth⟩

/-- The depth of the pieces taken together: several pieces in a row are one level. -/
def level (form : Form) : Nat :=
  if 1 < form.pieces then form.depth + 1 else form.depth

/-- The form of a choice. The group is a level, and so are its alternatives when there are several of
them; alternatives that stand for nothing do not count. -/
def choice (alternatives : List Form) : Form :=
  let levels := (alternatives.filter (!·.isVoid)).map level
  match levels with
  | [] => {}
  | [level] => ⟨1, level + 1⟩
  | levels => ⟨1, levels.foldl max 0 + 2⟩

end Form

mutual

/-- The form of a part. Repetition is a level, and a set is one too, or two if it has several ranges. -/
def form : GlobToken → Form
  | .literal bytes => ⟨bytes.length, 0⟩
  | .any => ⟨1, 0⟩
  | .many => ⟨1, 1⟩
  | .leading => ⟨1, 4⟩
  | .trailing => ⟨2, 1⟩
  | .between => ⟨1, 4⟩
  | .oneOf _ ranges => ⟨1, if ranges.length = 1 then 1 else 2⟩
  | .choice alternatives => .choice (formOfEach alternatives)

def formOfAll : List GlobToken → Form
  | [] => {}
  | token :: rest => (form token).append (formOfAll rest)

def formOfEach : List (List GlobToken) → List Form
  | [] => []
  | tokens :: rest => formOfAll tokens :: formOfEach rest

end

/-- For each place of a path, before its first byte, between two or after its last one, whether what was
read of a glob can end there. -/
abbrev Reach := List Bool

namespace Reach

/-- Only the place before the first byte. -/
def start (path : Bytes) : Reach :=
  true :: path.map fun _ => false

/-- Goes on by one byte that is admitted. -/
def advance (admits : UInt8 → Bool) (path : Bytes) (reach : Reach) : Reach :=
  false :: path.zipWith (fun byte here => here && admits byte) reach

/-- Goes on by any number of bytes. -/
def spread (seen : Bool) : Reach → Reach
  | [] => []
  | here :: rest => (seen || here) :: spread (seen || here) rest

def union (one other : Reach) : Reach :=
  one.zipWith (· || ·) other

/-- Goes on by a separator. -/
def cross (path : Bytes) (reach : Reach) : Reach :=
  reach.advance (· == separator) path

/-- Only the places after a separator. -/
def afterSeparator (path : Bytes) (reach : Reach) : Reach :=
  reach.zipWith (· && ·) (false :: path.map (· == separator))

end Reach

mutual

/-- The places where a part can end. -/
def reach (path : Bytes) : GlobToken → Reach → Reach
  | .literal bytes, origin => bytes.foldl (fun reach byte => reach.advance (· == byte) path) origin
  | .any, origin => origin.advance (fun _ => true) path
  | .many, origin => origin.spread false
  | .leading, origin => origin.union ((origin.spread false).cross path)
  | .trailing, origin => (origin.cross path).spread false
  | .between, origin => ((origin.cross path).spread false).afterSeparator path
  | .oneOf negated ranges, origin => origin.advance (inRanges ranges · != negated) path
  | .choice alternatives, origin =>
    (reachOfAny path alternatives origin).getD origin

/-- The places where parts in a row can end. -/
def reachOfAll (path : Bytes) : List GlobToken → Reach → Reach
  | [], origin => origin
  | token :: rest, origin => reachOfAll path rest (reach path token origin)

/-- The places where one of several globs can end; those that stand for nothing do not count, and if
none is left there is nothing to choose from. -/
def reachOfAny (path : Bytes) : List (List GlobToken) → Reach → Option Reach
  | [], _ => none
  | tokens :: rest, origin =>
    let others := reachOfAny path rest origin
    if (formOfAll tokens).isVoid then others
    else
      let ends := reachOfAll path tokens origin
      some ((others.map (Reach.union ends)).getD ends)

end

end GlobToken

/-- A pattern for paths. -/
structure Glob where
  tokens : List GlobToken
deriving Inhabited

namespace Glob

open GlobToken

/-- A group in braces that is still open: the parts before it, last first, and its alternatives so far. -/
structure OpenGroup where
  outer : List GlobToken
  finished : List (List GlobToken)

/-- A glob that is being read: the parts of the current alternative, last first, and the open groups, the
innermost first. -/
structure Draft where
  tokens : List GlobToken := []
  groups : List OpenGroup := []

namespace Draft

def push (draft : Draft) (token : GlobToken) : Draft :=
  { draft with tokens := token :: draft.tokens }

/-- Adds a character that stands for itself. -/
def pushChar (draft : Draft) (c : Char) : Draft :=
  draft.push (.literal c.toString.toUTF8.toList)

def inGroup (draft : Draft) : Bool :=
  !draft.groups.isEmpty

def openGroup (draft : Draft) : Draft :=
  { tokens := [], groups := ⟨draft.tokens, []⟩ :: draft.groups }

/-- Starts the next alternative; outside a group a comma stands for itself. -/
def comma (draft : Draft) : Draft :=
  match draft.groups with
  | [] => draft.pushChar ','
  | group :: groups =>
    { tokens := []
      groups := { group with finished := group.finished ++ [draft.tokens.reverse] } :: groups }

def closeGroup? (draft : Draft) : Option Draft :=
  match draft.groups with
  | [] => none
  | group :: groups =>
    some {
      tokens := .choice (group.finished ++ [draft.tokens.reverse]) :: group.outer
      groups }

/-- Adds `**` as it stands between separators; the separator before it is part of it. -/
def pushDirectories (draft : Draft) (atEnd : Bool) : Draft :=
  match draft.tokens with
  | .leading :: _ => draft
  | .trailing :: _ => draft
  | _ :: before => { draft with tokens := (if atEnd then .trailing else .between) :: before }
  | [] => draft

end Draft

/-- Reads one star or two; `previous` is the character before them. Returns what follows, and the last
character that was read. -/
def readStars (draft : Draft) (previous : Option Char) (text : List Char) :
    Draft × Char × List Char :=
  match text with
  | '*' :: rest =>
    let twice := (draft.push .many).push .many
    let next := rest.head?
    if draft.tokens.isEmpty then
      match rest with
      | [] => (draft.push .leading, '*', [])
      | '/' :: rest => (draft.push .leading, '/', rest)
      | rest => (twice, '*', rest)
    else if previous != some '/' &&
        !(draft.inGroup && (previous == some ',' || previous == some '\x7b')) then
      (twice, '*', rest)
    else if next.isNone || draft.inGroup && (next == some ',' || next == some '\x7d') then
      (draft.pushDirectories true, '*', rest)
    else
      match rest with
      | '/' :: rest => (draft.pushDirectories false, '/', rest)
      | rest => (twice, '*', rest)
  | rest => (draft.push .many, '*', rest)

/-- The ranges of characters of a set, up to its closing bracket, and what follows; the last range is in
front. After a hyphen the next character ends the last range. -/
def readRanges? : Nat → Bool → Bool → List (Char × Char) → List Char →
    Option (List (Char × Char) × List Char)
  | 0, _, _, _, _ => none
  | _ + 1, _, _, _, [] => none
  | fuel + 1, first, inRange, ranges, c :: rest =>
    if c == ']' && !first then some (if inRange then ('-', '-') :: ranges else ranges, rest)
    else if c == '-' && !first && !inRange then readRanges? fuel false true ranges rest
    else if inRange then
      match ranges with
      | (low, _) :: before =>
        if c < low then none else readRanges? fuel false false ((low, c) :: before) rest
      | [] => none
    else readRanges? fuel false false ((c, c) :: ranges) rest

/-- The ranges of bytes for a range of characters. A character of several bytes stands for each of them,
and a range goes from the last byte of its first character to the first byte of its last one. -/
def byteRanges (range : Char × Char) : List (UInt8 × UInt8) :=
  let low := range.1.toString.toUTF8.toList
  let high := range.2.toString.toUTF8.toList
  let single := fun (bytes : Bytes) => bytes.map fun byte => (byte, byte)
  if range.1 == range.2 then single low
  else
    single low.dropLast ++ [(low.getLast?.getD 0, high.head?.getD 0)] ++ single high.tail

/-- Reads a set of bytes after its opening bracket. -/
def readSet? (text : List Char) : Option (GlobToken × List Char) :=
  let (negated, text) :=
    match text with
    | '!' :: rest => (true, rest)
    | '^' :: rest => (true, rest)
    | rest => (false, rest)
  (readRanges? (text.length + 1) true false [] text).map fun (ranges, rest) =>
    (.oneOf negated (ranges.reverse.flatMap byteRanges), rest)

/-- Reads the rest of a glob; `previous` is the character before it. -/
def read? : Nat → Option Char → Draft → List Char → Option Draft
  | 0, _, _, _ => none
  | _ + 1, _, draft, [] => some draft
  | fuel + 1, previous, draft, c :: rest =>
    match c with
    | '?' => read? fuel (some c) (draft.push .any) rest
    | '*' =>
      let (draft, last, rest) := readStars draft previous rest
      read? fuel (some last) draft rest
    | '[' => (readSet? rest).bind fun (token, rest) => read? fuel (some ']') (draft.push token) rest
    | '\x7b' => read? fuel (some c) draft.openGroup rest
    | '\x7d' => draft.closeGroup?.bind fun draft => read? fuel (some c) draft rest
    | ',' => read? fuel (some c) draft.comma rest
    | '\\' =>
      match rest with
      | [] => none
      | escaped :: rest => read? fuel (some escaped) (draft.pushChar escaped) rest
    | c => read? fuel (some c) (draft.pushChar c) rest

/-- Reads a glob. Sets and groups must be closed, and a backslash needs a character after it. -/
def parse? (text : String) : Option Glob :=
  (read? (text.length + 1) none {} text.toList).bind fun draft =>
    if draft.inGroup then none else some ⟨draft.tokens.reverse⟩

/-- Whether a glob is two stars and nothing else, which stands for every path. -/
def isEverything (glob : Glob) : Bool :=
  match glob.tokens with
  | [.leading] => true
  | _ => false

/-- Levels of nesting that a glob may have. -/
def maxDepth : Nat := 250

/-- Whether a glob is nested deeper than is allowed. The glob as a whole is a level. -/
def isTooDeep (glob : Glob) : Bool :=
  maxDepth < (formOfAll glob.tokens).depth + 1

/-- Whether a path is one that the glob stands for. -/
def accepts (glob : Glob) (path : String) : Bool :=
  let bytes := path.toUTF8.toList
  glob.isEverything || (reachOfAll bytes glob.tokens (.start bytes)).getLast?.getD false

end Glob

end DepAtlas
