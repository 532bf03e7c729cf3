import DepAtlas.CallGraph.Table
import Std.Data.HashMap
import Std.Data.HashSet

/-!
The graph of calls between known methods, and its recursive groups: the methods that reach themselves,
grouped by mutual reachability.
-/

namespace DepAtlas

/-- For each name the names one step away, the last one added first. -/
abbrev Steps := Std.HashMap String (List String)

namespace Steps

/-- The steps from the first to the second name of each pair. -/
def ofEdges (edges : List (String × String)) : Steps :=
  edges.foldl (fun steps edge => steps.insert edge.1 (edge.2 :: steps.getD edge.1 [])) {}

/-- Adds a name to what is reached; keeps it as fresh unless it was reached before. -/
def reach (state : List String × Std.HashSet String) (name : String) :
    List String × Std.HashSet String :=
  if state.2.contains name then state else (name :: state.1, state.2.insert name)

/-- Adds what is one step away from the fresh names until nothing is new, at most `bound` times. -/
def closure (steps : Steps) : Nat → List String → Std.HashSet String → Std.HashSet String
  | 0, _, reached => reached
  | bound + 1, fresh, reached =>
    let (fresh, reached) := (fresh.flatMap (steps.getD · [])).foldl reach ([], reached)
    if fresh.isEmpty then reached else closure steps bound fresh reached

/-- The names reached from a name by one or more steps, of which at most `bound` lead to a new name. -/
def reachedFrom (steps : Steps) (bound : Nat) (name : String) : Std.HashSet String :=
  steps.closure (bound + 1) [name] {}

end Steps

namespace MethodTable

/-- The known methods that a method calls. -/
def callees (table : MethodTable) (name : String) : List String :=
  match table.get? name with
  | some method => method.dependencies.filter fun callee => (table.get? callee).isSome
  | none => []

/-- The names of the graph, sorted. -/
def nodes (table : MethodTable) : List String :=
  table.snapshot.map (·.name)

/-- The calls between known methods, caller by caller. -/
def edges (table : MethodTable) : List (String × String) :=
  table.nodes.flatMap fun caller => (table.callees caller).map fun callee => (caller, callee)

/-- The groups found so far, the last one first, and the names in them. -/
structure Groups where
  found : List (List String) := []
  members : Std.HashSet String := {}

/-- Adds the group of a name: what it reaches and is reached from. A name that is in a group already
belongs to no other one, and one that does not reach itself to none. -/
def addGroup (nodes : List String) (callees callers : Steps) (groups : Groups) (name : String) :
    Groups :=
  if groups.members.contains name then groups
  else
    let forward := callees.reachedFrom nodes.length name
    if !forward.contains name then groups
    else
      let backward := callers.reachedFrom nodes.length name
      let group := nodes.filter fun other => forward.contains other && backward.contains other
      { found := group :: groups.found
        members := group.foldl (fun members name => members.insert name) groups.members }

/-- The groups of methods that call each other directly or indirectly, each sorted, and sorted by
their first members. -/
def cycles (table : MethodTable) : List (List String) :=
  let nodes := table.nodes
  let edges := table.edges
  let callees := Steps.ofEdges edges
  let callers := Steps.ofEdges (edges.map Prod.swap)
  (nodes.foldl (addGroup nodes callees callers) {}).found.reverse

end MethodTable

end DepAtlas
