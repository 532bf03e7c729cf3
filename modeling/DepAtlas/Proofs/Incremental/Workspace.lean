import DepAtlas.Incremental.Coordinator

/-!
Coordinators at work over a file system that anybody may edit: what each action does, and what has been
the case so far.
-/

namespace DepAtlas

/-- What the coordinators of a workspace have in common. -/
structure Project where
  patterns : PatternStore
  layers : LayerMask
  /-- The language in which a file is analysed. -/
  languageOf : Path → Language
  languageOf_congr : ∀ {path other : Path}, (path == other) = true → languageOf path = languageOf other

namespace Project

/-- The dependencies in a content that stands at a path. -/
def extract (project : Project) (path : Path) (content : String) :
    Except ExtractError (List Dependency) :=
  extractAs project.patterns (project.languageOf path) path content project.layers

/-- A coordinator that remembers nothing yet. A cache is used if there are limits for one. -/
def coordinator (project : Project) (options : IncrementalOptions) (methods : MethodTable)
    (limits : Option (Nat × Nat)) : Coordinator where
  patterns := project.patterns
  options := { options with layers := project.layers }
  methods := methods
  files := limits.bind fun (maxEntries, maxBytes) => (FileCache.create maxEntries maxBytes).toOption

end Project

/-- The answer to one analysis. -/
structure Answer where
  /-- The file system when it was given. -/
  fs : FileSystem
  path : Path
  outcome : Except Failure Analysis

structure Workspace where
  fs : FileSystem
  coordinators : List Coordinator := []
  /-- The file system at every moment so far. -/
  moments : List FileSystem := [fs]
  /-- The states saved so far. -/
  saved : List SavedState := []
  answers : List Answer := []

/-- A call of one coordinator. -/
inductive Call
  | analyze (path : Path)
  | detectDeleted (seen : List Path)
  | detectMoves
  | invalidate (path : Path)
  | clear
  | saveState (path : Path)
  | loadState (path : Path)
  /-- The time of what follows. -/
  | setTime (now : Time)

inductive Action
  /-- The file system becomes another one. -/
  | edit (fs : FileSystem)
  | create (options : IncrementalOptions) (methods : MethodTable) (limits : Option (Nat × Nat))
  /-- One coordinator goes on with the file cache and the method table of another. -/
  | share (owner user : Nat)
  | call (index : Nat) (call : Call)

namespace Workspace

/-- The file system becomes another one. -/
def edit (workspace : Workspace) (fs : FileSystem) : Workspace :=
  { workspace with fs, moments := fs :: workspace.moments }

/-- One coordinator becomes another one. -/
def set (workspace : Workspace) (index : Nat) (coordinator : Coordinator) : Workspace :=
  { workspace with coordinators := workspace.coordinators.set index coordinator }

/-- Whether what stands at a path, if it can be read, is a state that has been saved. -/
def isSaved (workspace : Workspace) (path : Path) : Bool :=
  (workspace.fs.read path).toOption.all fun bytes => workspace.saved.any (·.encode == bytes)

/-- A call of the coordinator with an index. Only saved states are loaded. -/
def call? (project : Project) (workspace : Workspace) (index : Nat) (coordinator : Coordinator) :
    Call → Option Workspace
  | .analyze path =>
    let result := coordinator.analyze workspace.fs path (project.languageOf path)
    some { workspace.set index result.1 with
      answers := { fs := workspace.fs, path, outcome := result.2 } :: workspace.answers }
  | .detectDeleted seen => some (workspace.set index (coordinator.detectDeleted workspace.fs seen).1)
  | .detectMoves => some (workspace.set index coordinator.detectMoves.1)
  | .invalidate path => some (workspace.set index (coordinator.invalidate path))
  | .clear => some (workspace.set index coordinator.clear)
  | .saveState path =>
    some { workspace.edit (coordinator.saveState workspace.fs path).1 with
      saved := coordinator.toState :: workspace.saved }
  | .loadState path =>
    if workspace.isSaved path then
      some (workspace.set index (coordinator.loadState workspace.fs path).1)
    else none
  | .setTime now => some (workspace.set index { coordinator with now })

/-- One action; `none` where it is not possible. -/
def step? (project : Project) (workspace : Workspace) : Action → Option Workspace
  | .edit fs => some (workspace.edit fs)
  | .create options methods limits =>
    some { workspace with
      coordinators := workspace.coordinators ++ [project.coordinator options methods limits] }
  | .share owner user => do
    let owner ← workspace.coordinators[owner]?
    let coordinator ← workspace.coordinators[user]?
    return workspace.set user { coordinator with files := owner.files, methods := owner.methods }
  | .call index call =>
    workspace.coordinators[index]?.bind fun coordinator =>
      workspace.call? project index coordinator call

/-- Actions one after the other; `none` where one is not possible. -/
def run? (project : Project) (workspace : Workspace) : List Action → Option Workspace
  | [] => some workspace
  | action :: rest => (workspace.step? project action).bind (run? project · rest)

end Workspace

/-- A content that some file had at one of the moments. -/
def Occurs (moments : List FileSystem) (content : String) : Prop :=
  ∃ fs ∈ moments, ∃ path, fs.readText path = .ok content

/-- Stamps and digests tell contents apart: a path with the same stamp at two moments has the same
content then or can be read at neither, and different contents have different digests. -/
structure Stable (moments : List FileSystem) : Prop where
  stamps : ∀ first ∈ moments, ∀ second ∈ moments, ∀ path stamp,
    Stamp.read first path = .ok stamp → Stamp.read second path = .ok stamp →
      (first.readText path).toOption = (second.readText path).toOption
  digests : ∀ content other, Occurs moments content → Occurs moments other →
    Digest.ofString content = Digest.ofString other → content = other

end DepAtlas
