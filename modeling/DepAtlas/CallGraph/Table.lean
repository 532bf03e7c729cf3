import DepAtlas.Assoc
import DepAtlas.Dependency
import DepAtlas.Error
import DepAtlas.Path.Set
import DepAtlas.Ratio

/-!
The method table: one definition per name, each owned by the first file that defines it, with the
files that call it. Files that define an owned name are remembered in order, and the first of them
takes over when the owner lets go. What a file contributes is replaced when it is taken in again.
-/

namespace DepAtlas

/-- A method known to the table. -/
structure Method where
  name : String
  /-- The file that owns the name. -/
  definedIn : Path
  line : Nat := 0
  returnType : Option String := none
  /-- The names its body calls. -/
  dependencies : List String := []
  /-- The files whose methods call it. -/
  references : PathSet := []
deriving Repr, BEq, Inhabited

/-- A file that defines a name owned by another file. -/
structure Conflict where
  name : String
  owner : Path
  rejected : Path
deriving Repr, BEq, Inhabited

/-- What a file says about a method, whether it owns the name or not. -/
structure FileMethod where
  line : Nat
  returnType : Option String
  calls : List String
deriving Repr, DecidableEq

namespace FileMethod

def ofDependency (dependency : Dependency) : FileMethod where
  line := dependency.line
  returnType := dependency.returnType?
  calls := dependency.calls

/-- The table's entry for the method when the file owns it. -/
def toMethod (method : FileMethod) (name : String) (path : Path) (references : PathSet) : Method where
  name := name
  definedIn := path
  line := method.line
  returnType := method.returnType
  dependencies := method.calls
  references := references

end FileMethod

/-- The methods of all files taken in. -/
structure MethodTable where
  methods : List Method := []
  /-- What each file says about the methods it defines. -/
  definitions : Assoc Path (Assoc String FileMethod) := []
  /-- The names that each file calls. -/
  calls : Assoc Path (List String) := []
  conflicts : List Conflict := []
deriving Inhabited

/-- What taking in a file changed. -/
structure IngestReport where
  created : Nat := 0
  updated : Nat := 0
  removed : Nat := 0
  conflicts : Nat := 0
  /-- Names called by the file that are known to the table. -/
  referencesLinked : Nat := 0
deriving Repr, DecidableEq

/-- Counts over the whole table. -/
structure CallGraphStats where
  methods : Nat := 0
  files : Nat := 0
  /-- Names called by all methods. -/
  callEdges : Nat := 0
  /-- Called names that are known to the table. -/
  resolvedEdges : Nat := 0
  references : Nat := 0
  conflicts : Nat := 0
deriving Repr, DecidableEq

/-- The share of called names that are known. -/
def CallGraphStats.resolutionRate (stats : CallGraphStats) : Ratio :=
  ⟨stats.resolvedEdges, stats.callEdges⟩

namespace MethodTable

def get? (table : MethodTable) (name : String) : Option Method :=
  table.methods.find? (·.name == name)

/-- The method with a name, which must be known. -/
def require (table : MethodTable) (name : String) : Except CallGraphError Method :=
  match table.get? name with
  | some method => .ok method
  | none => .error (.unknownMethod name)

def size (table : MethodTable) : Nat :=
  table.methods.length

/-- All methods, sorted by name. -/
def snapshot (table : MethodTable) : List Method :=
  table.methods.mergeSort fun a b => decide (a.name ≤ b.name)

def callersOf (table : MethodTable) (name : String) : List Path :=
  (table.calls.filter fun entry => entry.2.contains name).map (·.1)

def modify (table : MethodTable) (name : String) (change : Method → Method) : MethodTable :=
  { table with
    methods := table.methods.map fun method =>
      if method.name == name then change method else method }

/-- Drops the references that a file made when it was last taken in. -/
def unlink (table : MethodTable) (path : Path) : MethodTable :=
  let names := (table.calls.get? path).getD []
  { table with
    calls := table.calls.erase path
    methods := table.methods.map fun method =>
      if names.contains method.name then
        { method with references := method.references.erase path }
      else method }

def dropMethod (table : MethodTable) (name : String) : MethodTable :=
  { table with methods := table.methods.filter (·.name != name) }

/-- Adds a method whose name the table does not know, with the files that call it. -/
def addMethod (table : MethodTable) (name : String) (path : Path) (method : FileMethod) :
    MethodTable :=
  let references := PathSet.ofList (table.callersOf name)
  { table with methods := table.methods ++ [method.toMethod name path references] }

/-- The owner of a name lets go: the first file that also defines it takes over, and the files after
it now conflict with the new owner. -/
def release (table : MethodTable) (name : String) (owner : Path) : MethodTable :=
  let table := table.dropMethod name
  let ofOwner := fun (conflict : Conflict) => conflict.name == name && conflict.owner == owner
  match table.conflicts.find? ofOwner with
  | none => table
  | some first =>
    let heir := first.rejected
    let table :=
      { table with
        conflicts := (table.conflicts.eraseP ofOwner).map fun conflict =>
          if ofOwner conflict then { conflict with owner := heir } else conflict }
    match (table.definitions.get? heir).bind (Assoc.get? name) with
    | none => table
    | some method => table.addMethod name heir method

/-- The names that a file owns and that satisfy a condition. -/
def ownedNames (table : MethodTable) (path : Path) (condition : String → Bool) : List String :=
  (table.methods.filter fun method => method.definedIn == path && condition method.name).map (·.name)

/-- Takes in one definition of a file. -/
def define (path : Path) (state : MethodTable × IngestReport) (dependency : Dependency) :
    MethodTable × IngestReport :=
  let (table, report) := state
  let name := dependency.target
  let method := FileMethod.ofDependency dependency
  match table.get? name with
  | none => (table.addMethod name path method, { report with created := report.created + 1 })
  | some known =>
    if known.definedIn == path then
      (table.modify name fun known =>
        { known with
          line := method.line, returnType := method.returnType, dependencies := method.calls },
        { report with updated := report.updated + 1 })
    else
      let conflict : Conflict := ⟨name, known.definedIn, path⟩
      let conflicts :=
        if table.conflicts.contains conflict then table.conflicts else table.conflicts ++ [conflict]
      ({ table with conflicts }, { report with conflicts := report.conflicts + 1 })

/-- Adds a file to the references of the methods it calls. -/
def link (table : MethodTable) (path : Path) (names : List String) : MethodTable :=
  { table with
    methods := table.methods.map fun method =>
      if names.contains method.name then
        { method with references := method.references.insert path }
      else method
    calls := if names.isEmpty then table.calls else table.calls.put path names }

/-- Takes in the methods among a file's dependencies, in place of what it contributed before. -/
def ingest (table : MethodTable) (path : Path) (dependencies : List Dependency) :
    MethodTable × IngestReport :=
  let methods := dependencies.filter (·.layer == .method)
  let defined := methods.foldl (fun entries dependency =>
    Assoc.put dependency.target (FileMethod.ofDependency dependency) entries) []
  let table := table.unlink path
  let table :=
    { table with
      conflicts := table.conflicts.filter fun conflict =>
        !(conflict.rejected == path) || Assoc.has conflict.name defined }
  let stale := table.ownedNames path fun name => !Assoc.has name defined
  let table :=
    { table with
      definitions :=
        if defined.isEmpty then table.definitions.erase path
        else table.definitions.put path defined }
  let table := stale.foldl (fun table name => table.release name path) table
  let (table, report) := methods.foldl (define path) (table, { removed := stale.length })
  let called := (methods.flatMap (·.calls)).eraseDups
  let linked := (called.filter fun name => (table.get? name).isSome).length
  (table.link path called, { report with referencesLinked := linked })

/-- Forgets what a file contributed; returns the number of names it owned. -/
def remove (table : MethodTable) (path : Path) : MethodTable × Nat :=
  let table := table.unlink path
  let table :=
    { table with
      definitions := table.definitions.erase path
      conflicts := table.conflicts.filter fun conflict => !(conflict.rejected == path) }
  let owned := table.ownedNames path fun _ => true
  (owned.foldl (fun table name => table.release name path) table, owned.length)

def stats (table : MethodTable) : CallGraphStats where
  methods := table.size
  files := (PathSet.ofList (table.methods.map (·.definedIn))).length
  callEdges := total (·.dependencies.length) table.methods
  resolvedEdges := total (fun method =>
    (method.dependencies.filter fun name => (table.get? name).isSome).length) table.methods
  references := total (·.references.length) table.methods
  conflicts := table.conflicts.length

end MethodTable

end DepAtlas
