import DepAtlas.Path

/-!
Sets of paths as sorted lists. Of paths that are equal step by step the first one inserted stays.
-/

namespace DepAtlas

/-- Paths in increasing order. -/
abbrev PathSet := List Path

namespace PathSet

/-- Adds a path at its place, unless an equal one is there. -/
def insert (path : Path) : PathSet → PathSet
  | [] => [path]
  | other :: rest =>
    match Ord.compare path other with
    | .lt => path :: other :: rest
    | .eq => other :: rest
    | .gt => other :: insert path rest

def ofList (paths : List Path) : PathSet :=
  paths.foldl (fun set path => insert path set) []

def insertAll (set : PathSet) (paths : List Path) : PathSet :=
  paths.foldl (fun set path => insert path set) set

def erase (path : Path) (set : PathSet) : PathSet :=
  set.filter fun other => !(other == path)

end PathSet

end DepAtlas
