import DepAtlas.Dependency
import DepAtlas.Path.Set
import DepAtlas.Text.Cursor

/-!
The structure index: where each type is declared, and which other files mention its name as a whole
word. Mentions of all names are looked for together: at each place the longest name wins, and the
search goes on after it.
-/

namespace DepAtlas

/-- A declared type. -/
structure StructureEntry where
  name : String
  /-- The file of its first declaration. -/
  definedIn : Path
  line : Nat
  declaration : String
  base : Option String
  /-- The other files that mention the name. -/
  referencedIn : PathSet := []
deriving Repr, BEq, Inhabited

namespace StructureEntry

def ofDependency (dependency : Dependency) : StructureEntry where
  name := dependency.target
  definedIn := dependency.source
  line := dependency.line
  declaration :=
    match dependency.detail with
    | some (.struct declaration _) => declaration
    | _ => "struct"
  base := dependency.base?

end StructureEntry

/-- Declared types, sorted by name. -/
structure StructureIndex where
  entries : List StructureEntry := []
deriving Repr, BEq, Inhabited

namespace StructureIndex

/-- Adds an entry at its place, unless its name is there. -/
def insert (entry : StructureEntry) : List StructureEntry → List StructureEntry
  | [] => [entry]
  | other :: rest =>
    match compare entry.name other.name with
    | .lt => entry :: other :: rest
    | .eq => other :: rest
    | .gt => other :: insert entry rest

/-- The longest of the names that a text starts with. -/
def longestName? (names : List Text) (text : Text) : Option Text :=
  names.foldl (fun best name =>
    if name.isPrefixOf text && best.all fun best => best.length < name.length then some name
    else best) none

/-- The names found in a text from a place on, as whole words or not, each with the places before and
after it. `resume` is where the last one ended; a name without characters does not match there. -/
def mentions (names : List Text) (resume : Option Nat) (cursor : Text.Cursor) :
    Text → List (Text × Option Char × Option Char)
  | [] =>
    match longestName? names [] with
    | some name => if resume == some cursor.offset then [] else [(name, cursor.before, none)]
    | none => []
  | c :: rest =>
    let next := cursor.step c rest
    if resume.any (cursor.offset < ·) then mentions names resume next rest
    else
      match longestName? names (c :: rest) with
      | none => mentions names resume next rest
      | some [] =>
        if resume == some cursor.offset then mentions names resume next rest
        else ([], cursor.before, some c) :: mentions names (some cursor.offset) next rest
      | some name =>
        (name, cursor.before, ((c :: rest).drop name.length).head?) ::
          mentions names (some (cursor.offset + Text.byteLength name)) next rest

/-- The names that a text mentions as whole words. -/
def wholeWords (names : List Text) (text : Text) : List Text :=
  ((mentions names none (.start text) text).filter fun mention =>
    !mention.2.1.any Text.isIdentifier && !mention.2.2.any Text.isIdentifier).map (·.1)

/-- Adds a file to the entries whose names it mentions; the declaring file is left out. -/
def linkFile (entries : List StructureEntry) (path : Path) (content : String) :
    List StructureEntry :=
  let names := entries.map (·.name.toList)
  let found := wholeWords names content.toList
  entries.map fun entry =>
    if found.contains entry.name.toList && !(entry.definedIn == path) then
      { entry with referencedIn := entry.referencedIn.insert path }
    else entry

/-- The index of the declarations among dependencies, with the mentions in the given contents. -/
def build (dependencies : List Dependency) (contents : List (Path × String)) : StructureIndex :=
  let declared := (dependencies.filter (·.layer == .struct)).foldl
    (fun entries dependency => insert (.ofDependency dependency) entries) []
  if declared.isEmpty then ⟨declared⟩
  else ⟨contents.foldl (fun entries (path, content) => linkFile entries path content) declared⟩

def get? (index : StructureIndex) (name : String) : Option StructureEntry :=
  index.entries.find? (·.name == name)

def size (index : StructureIndex) : Nat :=
  index.entries.length

/-- The types declared with a parent type. -/
def derivedFrom (index : StructureIndex) (base : String) : List StructureEntry :=
  index.entries.filter fun entry => entry.base == some base

end StructureIndex

end DepAtlas
