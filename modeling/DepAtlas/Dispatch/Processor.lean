import DepAtlas.Dispatch.Pool
import DepAtlas.Incremental.Coordinator

/-!
The two ways in which a crawl works on files: plain extraction, and analysis that uses earlier results
again.
-/

namespace DepAtlas

/-- What plain extraction shares between files. -/
structure ExtractionState where
  methods : MethodTable := {}
  /-- The cache of file contents, if one is used. -/
  files : Option FileCache := none

namespace ExtractionState

/-- Reads a file, through the cache if there is one. -/
def readContent (state : ExtractionState) (fs : FileSystem) (path : Path) :
    ExtractionState × Except CacheError String :=
  match state.files with
  | some cache =>
    let (cache, content) := cache.readThrough fs path
    ({ state with files := some cache }, content)
  | none => (state, (FileCache.readStamped fs path).map (·.1))

end ExtractionState

namespace Processor

/-- Reads a file, extracts its dependencies and takes its methods into the table. -/
def extraction (fs : FileSystem) (patterns : PatternStore) (layers : LayerMask) :
    Processor ExtractionState String where
  prepare state item :=
    match state.readContent fs item.path with
    | (state, .error cause) => (state, .error (.failed (.cache cause)))
    | (state, .ok content) => (state, .ok content)
  complete state item content :=
    match extractAs patterns item.language item.path content layers with
    | .error cause => (state, .failed (.extract cause))
    | .ok dependencies =>
      ({ state with methods := (state.methods.ingest item.path dependencies).1 },
        .done { dependencies })

/-- Analyses a file with the memory of a coordinator. -/
def incremental (fs : FileSystem) : Processor Coordinator Unit where
  prepare coordinator _ := (coordinator, .ok ())
  complete coordinator item _ :=
    match coordinator.analyze fs item.path item.language with
    | (coordinator, .error cause) => (coordinator, .failed cause)
    | (coordinator, .ok analysis) =>
      (coordinator, .done {
        dependencies := analysis.dependencies, reused := analysis.reused
        state := some analysis.state })

end Processor

end DepAtlas
