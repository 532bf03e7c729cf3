import DepAtlas.Text.Basic

/-!
File paths. A path keeps the text it was written with, and is compared by its components: repeated
separators, inner `.` segments and a trailing separator make no difference, a leading `.` does.
-/

namespace DepAtlas

/-- A path as it was written. -/
structure Path where
  text : String
deriving Repr, Inhabited

namespace Path

/-- One step of a path. -/
inductive Component
  | root
  | current
  | parent
  | normal (name : String)
deriving Repr, DecidableEq

namespace Component

/-- Position of the kinds of step in the path order. -/
def rank : Component → Nat
  | root => 0
  | current => 1
  | parent => 2
  | normal _ => 3

/-- Steps of different kinds are ordered by kind, names by their characters. -/
def compare : Component → Component → Ordering
  | normal a, normal b => Ord.compare a b
  | a, b => Ord.compare a.rank b.rank

/-- The name of a step that names something. -/
def name? : Component → Option String
  | normal name => some name
  | _ => none

end Component

/-- The texts between separators; one more than there are separators. -/
def segments (path : Path) : List String :=
  (Text.splitWhere (· == '/') path.text.toList).map String.ofList

def isAbsolute (path : Path) : Bool :=
  path.text.toList.head? == some '/'

/-- The step that a segment stands for, if any. -/
def stepOf? (segment : String) : Option Component :=
  if segment == "" || segment == "." then none
  else if segment == ".." then some .parent
  else some (.normal segment)

def components (path : Path) : List Component :=
  match path.segments with
  | [] => []
  | first :: rest =>
    if path.isAbsolute then .root :: rest.filterMap stepOf?
    else if first == "." then .current :: rest.filterMap stepOf?
    else (first :: rest).filterMap stepOf?

def compareSteps : List Component → List Component → Ordering
  | [], [] => .eq
  | [], _ => .lt
  | _, [] => .gt
  | a :: as, b :: bs =>
    match a.compare b with
    | .eq => compareSteps as bs
    | order => order

/-- The order of paths, step by step. -/
def compare (a b : Path) : Ordering :=
  compareSteps a.components b.components

instance : BEq Path := ⟨fun a b => a.components == b.components⟩

instance : Ord Path := ⟨compare⟩

instance : ToString Path := ⟨text⟩

def isEmpty (path : Path) : Bool :=
  path.text.isEmpty

/-- Appends a path below another one; an absolute path stands for itself. -/
def join (base : Path) (child : Path) : Path :=
  if child.isAbsolute then child
  else if base.isEmpty || base.text.toList.getLast? == some '/' then ⟨base.text ++ child.text⟩
  else ⟨base.text ++ "/" ++ child.text⟩

/-- The name of the last step. -/
def fileName? (path : Path) : Option String :=
  path.components.getLast?.bind Component.name?

/-- Drops segments that stand for no step from the end, but not the first segment. -/
def dropVoid : List String → List String
  | [] => []
  | [first] => [first]
  | segment :: rest => if (stepOf? segment).isNone then dropVoid rest else segment :: rest

/-- The path without its last step; the root and the empty path have none. -/
def parent? (path : Path) : Option Path :=
  match path.components with
  | [] => none
  | [.root] => none
  | _ =>
    match dropVoid path.segments.reverse with
    | [] => none
    | [_] => some ⟨""⟩
    | _ :: before =>
      let kept := (dropVoid before).reverse
      if kept == [""] then some ⟨"/"⟩ else some ⟨"/".intercalate kept⟩

/-- Replaces the last step, if it is a name, by `name`. -/
def withFileName (path : Path) (name : String) : Path :=
  match path.fileName? with
  | some _ => (path.parent?.getD ⟨""⟩).join ⟨name⟩
  | none => path.join ⟨name⟩

/-- The part of the last name after its last dot; a name that only starts with a dot has none. -/
def extension? (path : Path) : Option String :=
  path.fileName?.bind fun name =>
    match (Text.splitWhere (· == '.') name.toList).reverse with
    | [] => none
    | [_] => none
    | last :: before => if before == [[]] then none else some (String.ofList last)

/-- The steps of `path` below `base`. -/
def stepsBelow? : List Component → List Component → Option (List Component)
  | rest, [] => some rest
  | a :: as, b :: bs => if a == b then stepsBelow? as bs else none
  | [], _ :: _ => none

/-- The path as seen from `base`, when it lies below it. -/
def relativeTo? (path base : Path) : Option Path :=
  (stepsBelow? path.components base.components).map fun steps =>
    ⟨"/".intercalate (steps.filterMap Component.name?)⟩

end Path

/-- Sorts by path, keeping the order of entries with equal paths. -/
def sortByPath {α : Type} (path : α → Path) (entries : List α) : List α :=
  entries.mergeSort fun a b => (Ord.compare (path a) (path b)).isLE

end DepAtlas
