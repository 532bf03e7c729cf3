import DepAtlas.CallGraph.Table
import DepAtlas.FileCache
import DepAtlas.Incremental.Coordinator
import DepAtlas.StructureIndex

/-!
What a crawl produces: the dependencies of all files, the call graph, the declared types, and an account
of the files.
-/

namespace DepAtlas

/-- A file that could not be analysed. It contributes nothing else. -/
structure FileFailure where
  path : Path
  code : String
  message : String
deriving Repr, BEq

/-- The account of a crawl. -/
structure CrawlStats where
  discovered : Nat := 0
  unsupported : Nat := 0
  excluded : Nat := 0
  tooLarge : Nat := 0
  /-- Files extracted in this run. -/
  analyzed : Nat := 0
  /-- Files whose earlier result was used again. -/
  reused : Nat := 0
  failed : Nat := 0
  deleted : Nat := 0
  /-- Entries that could not be read during the walk. -/
  walkErrors : Nat := 0
  dependencies : Nat := 0
  /-- Number of dependencies by the name of their layer. -/
  byLayer : List (String × Nat) := []
  /-- Number of analysed and reused files by the name of their language. -/
  byLanguage : List (String × Nat) := []
  callGraph : CallGraphStats := {}
  fileCache : Option FileCacheStats := none
  incremental : Option IncrementalStats := none
  /-- Milliseconds. -/
  duration : Nat := 0
deriving Repr, BEq

/-- Everything that a crawl found. -/
structure DependencyGraph where
  /-- By file in path order, and as found within a file. -/
  dependencies : List Dependency := []
  /-- By name. -/
  methods : List Method := []
  conflicts : List Conflict := []
  structures : StructureIndex := {}
  /-- Groups of methods that call each other. -/
  cycles : List (List String) := []
  /-- Changes since the last run. -/
  changes : List DependencyChange := []
  failures : List FileFailure := []
  stats : CrawlStats := {}

namespace DependencyGraph

def isClean (graph : DependencyGraph) : Bool :=
  graph.failures.isEmpty

/-- Drops paths that are equal to the path before them. -/
def dropRepeated : List Path → List Path
  | a :: b :: rest => if a == b then dropRepeated (a :: rest) else a :: dropRepeated (b :: rest)
  | paths => paths
termination_by paths => paths.length

/-- The files of the dependencies, one after the other. -/
def files (graph : DependencyGraph) : List Path :=
  dropRepeated (graph.dependencies.map (·.source))

end DependencyGraph

/-- How often each name occurs, in the order of the names. -/
def tally (names : List String) : List (String × Nat) :=
  (names.eraseDups.mergeSort fun a b => decide (a ≤ b)).map fun name => (name, names.count name)

end DepAtlas
