import DepAtlas.CallGraph.Table
import DepAtlas.Config.Basic
import DepAtlas.Digest.Basic
import DepAtlas.Extract
import DepAtlas.FileCache
import DepAtlas.Incremental.Change
import DepAtlas.Incremental.State

/-!
Analysis that uses earlier results again. A coordinator remembers a fingerprint and a result for each
file it has analysed; an unchanged file is answered from memory, and a changed one is read and
extracted anew. It also keeps the method table up to date and records how the dependencies of files
change.
-/

namespace DepAtlas

/-- Settings of incremental analysis. -/
structure IncrementalOptions where
  layers : LayerMask := LayerMask.all
  /-- Whether a file counts as unchanged by its content instead of its stamp. -/
  verifyContent : Bool := false
  trackMoves : Bool := false
  /-- Whether the state is saved to the state file when the work ends. -/
  autoSave : Bool := false
  stateFile : Option Path := none
deriving Repr, Inhabited

namespace IncrementalOptions

/-- The options that the settings of the caches ask for. -/
def ofConfig (cache : Config.Cache) (layers : LayerMask) : IncrementalOptions where
  layers := layers
  verifyContent := cache.verifiesContent
  trackMoves := cache.tracksMoves
  autoSave := cache.savesState
  stateFile := cache.stateFile

end IncrementalOptions

/-- What has happened in incremental analysis so far. -/
structure IncrementalStats where
  /-- Files that have a fingerprint. -/
  tracked : Nat := 0
  analyzed : Nat := 0
  /-- Analyses answered from memory. -/
  skipped : Nat := 0
  /-- Contents found in the file cache. -/
  cacheHits : Nat := 0
  changes : Nat := 0
  deleted : Nat := 0
  moved : Nat := 0
deriving Repr, DecidableEq, Inhabited

/-- The share of analyses answered from memory. -/
def IncrementalStats.efficiency (stats : IncrementalStats) : Ratio :=
  ⟨stats.skipped, stats.analyzed + stats.skipped⟩

/-- The outcome of one analysis. -/
structure Analysis where
  path : Path
  state : FileState
  dependencies : List Dependency
  /-- Whether the dependencies come from memory. -/
  reused : Bool
  /-- Whether a change was recorded. -/
  changed : Bool
deriving Repr

/-- The memory of incremental analysis. -/
structure Coordinator where
  patterns : PatternStore
  options : IncrementalOptions := {}
  methods : MethodTable := {}
  /-- The cache of file contents, if one is used. -/
  files : Option FileCache := none
  store : FingerprintStore := []
  /-- The dependencies found in each file. -/
  results : Assoc Path (List Dependency) := []
  changes : List DependencyChange := []
  /-- Fingerprints of deleted files, in the order in which they were found to be gone. -/
  deleted : List Fingerprint := []
  /-- Counts; the number of tracked files stays zero here. -/
  counts : IncrementalStats := {}
  now : Time := {}

namespace Coordinator

/-- Seconds since the epoch. -/
def timestamp (coordinator : Coordinator) : Nat :=
  coordinator.now.seconds.toNat

def resultOf? (coordinator : Coordinator) (path : Path) : Option (List Dependency) :=
  coordinator.results.get? path

def fingerprint? (coordinator : Coordinator) (path : Path) : Option Fingerprint :=
  coordinator.store.get? path

def stats (coordinator : Coordinator) : IncrementalStats :=
  { coordinator.counts with tracked := coordinator.store.length }

/-- Answers an analysis from memory, if there is a result. -/
def reuse? (coordinator : Coordinator) (path : Path) : Option (Coordinator × Analysis) :=
  (coordinator.resultOf? path).map fun dependencies =>
    let store := coordinator.store.modify path fun known => { known with state := .unchanged }
    let counts := { coordinator.counts with skipped := coordinator.counts.skipped + 1 }
    ({ coordinator with store, counts },
      { path, state := .unchanged, dependencies, reused := true, changed := false })

/-- Reads a file, from the cache if it is there. -/
def readContent (coordinator : Coordinator) (fs : FileSystem) (path : Path) :
    Coordinator × Except CacheError (String × Stamp) :=
  match coordinator.files with
  | none => (coordinator, FileCache.readStamped fs path)
  | some cache =>
    match cache.get fs path with
    | (cache, some found) =>
      let counts := { coordinator.counts with cacheHits := coordinator.counts.cacheHits + 1 }
      ({ coordinator with files := some cache, counts }, .ok found)
    | (cache, none) =>
      match FileCache.readStamped fs path with
      | .error failure => ({ coordinator with files := some cache }, .error failure)
      | .ok (content, stamp) =>
        ({ coordinator with files := some (cache.put path content stamp).1 }, .ok (content, stamp))

/-- Records the change between two results of a file, if their keys differ. -/
def recordChange (coordinator : Coordinator) (path : Path) (previous current : List Dependency) :
    Coordinator × Bool :=
  match DependencyChange.between? path previous current coordinator.timestamp with
  | none => (coordinator, false)
  | some change =>
    let counts := { coordinator.counts with changes := coordinator.counts.changes + 1 }
    ({ coordinator with changes := coordinator.changes ++ [change], counts }, true)

/-- Takes new dependencies of a file over into the memory. -/
def adopt (coordinator : Coordinator) (path : Path) (stamp : Stamp) (contentHash : UInt64)
    (state : FileState) (dependencies : List Dependency) : Coordinator × Analysis :=
  let previous := coordinator.resultOf? path
  let fingerprint : Fingerprint := {
    path, stamp, contentHash, state
    dependencyHash := Digest.ofStrings (dependencies.map (·.key))
    lastAnalyzed := coordinator.timestamp }
  let coordinator := {
    coordinator with
    methods := (coordinator.methods.ingest path dependencies).1
    store := coordinator.store.track fingerprint
    results := coordinator.results.put path dependencies
    counts := { coordinator.counts with analyzed := coordinator.counts.analyzed + 1 } }
  let (coordinator, changed) :=
    match previous with
    | some previous => coordinator.recordChange path previous dependencies
    | none => (coordinator, false)
  (coordinator, { path, state, dependencies, reused := false, changed })

/-- Extracts the dependencies of a content and takes them over. -/
def extractAnew (coordinator : Coordinator) (path : Path) (language : Language) (content : String)
    (stamp : Stamp) (contentHash : UInt64) (state : FileState) :
    Coordinator × Except Failure Analysis :=
  match extractAs coordinator.patterns language path content coordinator.options.layers with
  | .error cause => (coordinator, .error (.extract cause))
  | .ok dependencies =>
    let (coordinator, analysis) := coordinator.adopt path stamp contentHash state dependencies
    (coordinator, .ok analysis)

/-- Reads a file and extracts its dependencies, unless its content decides and is the known one. -/
def analyzeContent (coordinator : Coordinator) (fs : FileSystem) (path : Path) (language : Language)
    (stampState : FileState) : Coordinator × Except Failure Analysis :=
  match coordinator.readContent fs path with
  | (coordinator, .error cause) => (coordinator, .error (.cache cause))
  | (coordinator, .ok (content, stamp)) =>
    let contentHash := Digest.ofString content
    if coordinator.options.verifyContent then
      let state := coordinator.store.stateByHash path contentHash
      let reused := if state == .unchanged then coordinator.reuse? path else none
      match reused with
      | some (coordinator, analysis) =>
        let store := coordinator.store.touch path stamp .unchanged
        ({ coordinator with store }, .ok analysis)
      | none => coordinator.extractAnew path language content stamp contentHash state
    else coordinator.extractAnew path language content stamp contentHash stampState

/-- Analyses a file, from memory if it is unchanged. -/
def analyze (coordinator : Coordinator) (fs : FileSystem) (path : Path) (language : Language) :
    Coordinator × Except Failure Analysis :=
  let state := coordinator.store.stateOf fs path
  let reused :=
    if !coordinator.options.verifyContent && state == .unchanged then coordinator.reuse? path
    else none
  match reused with
  | some (coordinator, analysis) => (coordinator, .ok analysis)
  | none => coordinator.analyzeContent fs path language state

/-- Forgets a tracked file that is gone. -/
def forget (coordinator : Coordinator) (fingerprint : Fingerprint) : Coordinator :=
  let path := fingerprint.path
  let previous := (coordinator.resultOf? path).getD []
  let coordinator := {
    coordinator with
    methods := (coordinator.methods.remove path).1
    files := coordinator.files.map fun (cache : FileCache) => (cache.invalidate path).1
    results := coordinator.results.erase path }
  let coordinator := (coordinator.recordChange path previous []).1
  { coordinator with
    deleted := coordinator.deleted ++ [{ fingerprint with state := .deleted }]
    counts := { coordinator.counts with deleted := coordinator.counts.deleted + 1 } }

/-- The fingerprints of tracked files that no longer exist, in path order. Paths in `seen` are known to
be there. -/
def goneFiles (coordinator : Coordinator) (fs : FileSystem) (seen : List Path) : List Fingerprint :=
  (coordinator.store.paths.filter fun path => !seen.contains path && !fs.exists? path).filterMap
    coordinator.store.get?

/-- Forgets tracked files that no longer exist, and returns their paths in order. -/
def detectDeleted (coordinator : Coordinator) (fs : FileSystem) (seen : List Path) :
    Coordinator × List Path :=
  let gone := coordinator.goneFiles fs seen
  let store := gone.foldl (fun store fingerprint => Assoc.erase fingerprint.path store)
    coordinator.store
  (gone.foldl forget { coordinator with store }, gone.map (·.path))

/-- Pairs one tracked path, if it is new, with the first deleted file of the same content. -/
def detectMove (state : Coordinator × List (Path × Path)) (path : Path) :
    Coordinator × List (Path × Path) :=
  let (coordinator, moves) := state
  match coordinator.store.get? path with
  | none => (coordinator, moves)
  | some known =>
    if known.state != .new then (coordinator, moves)
    else
      match coordinator.deleted.findIdx? (·.contentHash == known.contentHash) with
      | none => (coordinator, moves)
      | some index =>
        match coordinator.deleted[index]? with
        | none => (coordinator, moves)
        | some old =>
          ({ coordinator with
              store := coordinator.store.put path
                { known with state := .moved, movedFrom := some old.path }
              deleted := coordinator.deleted.eraseIdx index
              counts := { coordinator.counts with moved := coordinator.counts.moved + 1 } },
            moves ++ [(old.path, path)])

/-- Pairs new files with deleted ones of the same content, and returns where from and where to. -/
def detectMoves (coordinator : Coordinator) : Coordinator × List (Path × Path) :=
  coordinator.store.paths.foldl detectMove (coordinator, [])

/-- Hands out the recorded changes and forgets them. -/
def takeChanges (coordinator : Coordinator) : Coordinator × List DependencyChange :=
  ({ coordinator with changes := [] }, coordinator.changes)

/-- Lets the next analysis of a path extract anew. -/
def invalidate (coordinator : Coordinator) (path : Path) : Coordinator :=
  { coordinator with
    store := coordinator.store.erase path
    results := coordinator.results.erase path
    files := coordinator.files.map fun (cache : FileCache) => (cache.invalidate path).1 }

/-- Forgets everything but the method table and the file cache. -/
def clear (coordinator : Coordinator) : Coordinator :=
  { coordinator with store := [], results := [], changes := [], deleted := [], counts := {} }

def toState (coordinator : Coordinator) : SavedState where
  version := SavedState.formatVersion
  fingerprints := coordinator.store.fingerprints
  results := (sortByPath (·.1) coordinator.results).map fun (path, dependencies) =>
    { path, dependencies }

/-- Takes over one result of a saved state, if its file is tracked. -/
def restore (coordinator : Coordinator) (result : SavedResult) : Coordinator :=
  if coordinator.store.has result.path then
    { coordinator with
      methods := (coordinator.methods.ingest result.path result.dependencies).1
      results := coordinator.results.put result.path result.dependencies }
  else coordinator

/-- Replaces fingerprints and results by those of a saved state. -/
def ofState (coordinator : Coordinator) (state : SavedState) : Coordinator :=
  state.results.foldl restore
    { coordinator with store := FingerprintStore.ofList state.fingerprints, results := [] }

/-- Loads a state file, and returns the number of files that are tracked by it. A file that is missing
or cannot be used changes nothing. -/
def loadState (coordinator : Coordinator) (fs : FileSystem) (path : Path) : Coordinator × Nat :=
  match SavedState.read fs path with
  | .ok (some state) =>
    let coordinator := coordinator.ofState state
    (coordinator, coordinator.store.length)
  | _ => (coordinator, 0)

def saveState (coordinator : Coordinator) (fs : FileSystem) (path : Path) :
    FileSystem × Except StateError Unit :=
  coordinator.toState.write fs path coordinator.now

/-- Ends the work: saves the state if that is asked for. A state that cannot be saved is given up. -/
def close (coordinator : Coordinator) (fs : FileSystem) : FileSystem :=
  match coordinator.options.autoSave, coordinator.options.stateFile with
  | true, some path => (coordinator.saveState fs path).1
  | _, _ => fs

end Coordinator

end DepAtlas
