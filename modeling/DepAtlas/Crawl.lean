import DepAtlas.CallGraph.Cycles
import DepAtlas.Crawl.Graph
import DepAtlas.Dispatch.Dispatcher
import DepAtlas.Dispatch.Processor
import DepAtlas.Walk

/-!
A crawl finds the files below its roots, works on each one whose language is known, one after the other
or on a pool of workers, and puts the results together. An incremental crawl starts from the state that
the last one left, and leaves its own.
-/

namespace DepAtlas

/-- A crawl that is to be run. -/
structure Crawler where
  config : Config
  roots : List Path
  patterns : PatternStore
  token : CancellationToken := {}
  /-- The order in which workers take their steps. -/
  schedule : Schedule := Schedule.eager
  now : Time := {}

/-- The files that a walk found. -/
structure Discovered where
  walked : WalkOutput
  /-- The files whose language is known. -/
  work : List (Path × Language)

/-- What the work on all files left behind. -/
structure Outcome where
  results : List WorkResult
  methods : MethodTable
  files : Option FileCache
  changes : List DependencyChange := []
  deleted : Nat := 0
  incremental : Option IncrementalStats := none

namespace Crawler

def isParallel (crawler : Crawler) : Bool :=
  crawler.config.performance.isParallel

def layers (crawler : Crawler) : LayerMask :=
  LayerMask.ofNames crawler.config.analysis.layers

def stateFileBelow (directory : Path) : Path :=
  directory.join ⟨".depscan/state.json"⟩

/-- The state file: the one that is set, or else one below the first root, or beside it if it is a
file. -/
def stateFile? (crawler : Crawler) (fs : FileSystem) : Option Path :=
  match crawler.config.cache.stateFile with
  | some path => some path
  | none => crawler.roots.head?.map fun root =>
    if (fs.metadata root).toOption.any Node.isFile then stateFileBelow (root.parent?.getD ⟨"."⟩)
    else stateFileBelow root

def discover (crawler : Crawler) (fs : FileSystem) : Except Failure Discovered :=
  match walk fs crawler.roots (ScanOptions.ofConfig crawler.config.scan) crawler.token with
  | .error .cancelled => .error .cancelled
  | .error cause => .error (.scan cause)
  | .ok walked => .ok {
      walked
      work := walked.files.filterMap fun path =>
        (Language.ofPath? path).map fun language => (path, language) }

/-- Works on files one after the other; `id` is the number of the first one. -/
def processSerial {σ ρ : Type} (token : CancellationToken) (processor : Processor σ ρ) :
    Nat → List (Path × Language) → σ → σ × Except Failure (List WorkResult)
  | _, [], state => (state, .ok [])
  | id, (path, language) :: rest, state =>
    if token.isCancelled then (state, .error .cancelled)
    else
      let item : WorkItem := { id, path, language }
      let (state, verdict) := processor.process state item
      let (state, results) := processSerial token processor (id + 1) rest state
      (state, results.map ({ item, outcome := verdict.outcome path } :: ·))

/-- Submits files to workers, and collects results on the way. -/
def submitFiles {σ ρ : Type} (token : CancellationToken) :
    List (Path × Language) → Dispatcher σ ρ → List WorkResult →
      Dispatcher σ ρ × Except Failure (List WorkResult)
  | [], dispatcher, results => (dispatcher, .ok results)
  | (path, language) :: rest, dispatcher, results =>
    if token.isCancelled then (dispatcher, .error .cancelled)
    else
      match dispatcher.submit? path language with
      | none => (dispatcher, .error (.dispatch .shutDown))
      | some (dispatcher, .error cause) => (dispatcher, .error (.dispatch cause))
      | some (dispatcher, .ok _) =>
        let (dispatcher, more) := dispatcher.drainResults
        submitFiles token rest dispatcher (results ++ more)

/-- Works on files with a pool of workers. -/
def processParallel {σ ρ : Type} (crawler : Crawler) (processor : Processor σ ρ)
    (work : List (Path × Language)) (state : σ) : σ × Except Failure (List WorkResult) :=
  let performance := crawler.config.performance
  let created := (Dispatcher.create processor state crawler.schedule performance.threadCount
    performance.queueLimit).bind Dispatcher.start
  match created with
  | .error cause => (state, .error (.dispatch cause))
  | .ok dispatcher =>
    match submitFiles crawler.token work dispatcher [] with
    | (dispatcher, .error cause) => (dispatcher.shutDown.state, .error cause)
    | (dispatcher, .ok results) =>
      let (dispatcher, _) := dispatcher.wait
      let (dispatcher, more) := dispatcher.drainResults
      (dispatcher.shutDown.state, .ok (results ++ more))

/-- Works on files in the way that is set; the results are in path order. -/
def processAll {σ ρ : Type} (crawler : Crawler) (processor : Processor σ ρ)
    (work : List (Path × Language)) (state : σ) : σ × Except Failure (List WorkResult) :=
  let (state, results) :=
    if crawler.isParallel then crawler.processParallel processor work state
    else processSerial crawler.token processor 0 work state
  (state, results.map (sortByPath fun result => result.item.path))

/-- The cache of file contents that is set. -/
def createCache (crawler : Crawler) : Except CacheError (Option FileCache) :=
  let cache := crawler.config.cache
  if cache.isEnabled then (FileCache.create cache.entryLimit cache.byteLimit).map some
  else .ok none

/-- The coordinator of an incremental crawl, with the state that the last crawl left. -/
def createCoordinator (crawler : Crawler) (fs : FileSystem) (files : Option FileCache) :
    Coordinator :=
  let stateFile := crawler.stateFile? fs
  let options := { IncrementalOptions.ofConfig crawler.config.cache crawler.layers with stateFile }
  let coordinator : Coordinator :=
    { patterns := crawler.patterns, options, files, now := crawler.now }
  match stateFile with
  | some path => (coordinator.loadState fs path).1
  | none => coordinator

/-- Takes stock after an incremental run: what was deleted, moved and changed. -/
def takeStock (coordinator : Coordinator) (fs : FileSystem) (walked : List Path)
    (results : List WorkResult) : Coordinator × Outcome :=
  let (coordinator, deleted) := coordinator.detectDeleted fs walked
  let coordinator :=
    if coordinator.options.trackMoves then coordinator.detectMoves.1 else coordinator
  let (coordinator, changes) := coordinator.takeChanges
  (coordinator, {
    results, changes, methods := coordinator.methods, files := coordinator.files
    deleted := deleted.length, incremental := some coordinator.stats })

/-- Works on the files and returns what is left behind, with the file system after it: an incremental
run leaves its state also when it fails. -/
def work (crawler : Crawler) (fs : FileSystem) (found : Discovered) :
    FileSystem × Except Failure Outcome :=
  match crawler.createCache with
  | .error cause => (fs, .error (.cache cause))
  | .ok files =>
    if crawler.config.cache.isIncremental then
      let coordinator := crawler.createCoordinator fs files
      match crawler.processAll (Processor.incremental fs) found.work coordinator with
      | (coordinator, .error cause) => (coordinator.close fs, .error cause)
      | (coordinator, .ok results) =>
        let (coordinator, outcome) := takeStock coordinator fs found.walked.files results
        (coordinator.close fs, .ok outcome)
    else
      let processor := Processor.extraction fs crawler.patterns crawler.layers
      let (state, results) := crawler.processAll processor found.work { files }
      (fs, results.map fun results => { results, methods := state.methods, files := state.files })

/-- Reads files one after the other, through the cache if there is one; those that cannot be read are
left out. -/
def readContents (fs : FileSystem) :
    List Path → Option FileCache → Option FileCache × List (Path × String)
  | [], files => (files, [])
  | path :: rest, files =>
    let (state, content) := ({ files } : ExtractionState).readContent fs path
    let (files, contents) := readContents fs rest state.files
    (files, (content.toOption.map fun content => (path, content)).toList ++ contents)

/-- The results of files that were worked on with success. -/
def succeeded (results : List WorkResult) : List (WorkItem × ProcessedFile) :=
  results.filterMap fun result => result.outcome.toOption.map fun file => (result.item, file)

def failuresOf (results : List WorkResult) : List FileFailure :=
  results.filterMap fun result =>
    match result.outcome with
    | .ok _ => none
    | .error cause => some {
        path := result.item.path, code := Coded.code cause, message := Coded.message cause }

/-- The types declared by dependencies, with the files that mention them. -/
def indexStructures (crawler : Crawler) (fs : FileSystem) (paths : List Path)
    (dependencies : List Dependency) (files : Option FileCache) :
    Option FileCache × StructureIndex :=
  if crawler.layers.contains .struct && crawler.config.analysis.indexesStructures then
    let (files, contents) := readContents fs paths files
    (files, StructureIndex.build dependencies contents)
  else (files, {})

/-- The groups of methods that call each other. -/
def cyclesOf (crawler : Crawler) (methods : MethodTable) : List (List String) :=
  if crawler.layers.contains .method && crawler.config.analysis.detectsCycles then methods.cycles
  else []

/-- Puts the results together. The file system is the one that was worked on. -/
def assemble (crawler : Crawler) (fs : FileSystem) (found : Discovered) (outcome : Outcome) :
    DependencyGraph :=
  let done := succeeded outcome.results
  let dependencies := done.flatMap (·.2.dependencies)
  let failures := failuresOf outcome.results
  let (files, structures) :=
    crawler.indexStructures fs (done.map (·.1.path)) dependencies outcome.files
  { dependencies
    methods := outcome.methods.snapshot
    conflicts := outcome.methods.conflicts
    structures
    cycles := crawler.cyclesOf outcome.methods
    changes := outcome.changes
    failures
    stats := {
      discovered := found.walked.files.length
      unsupported := found.walked.files.length - found.work.length
      excluded := found.walked.excluded
      tooLarge := found.walked.tooLarge
      analyzed := done.countP fun entry => !entry.2.reused
      reused := done.countP fun entry => entry.2.reused
      failed := failures.length
      deleted := outcome.deleted
      walkErrors := found.walked.errors.length
      dependencies := dependencies.length
      byLayer := tally (dependencies.map (·.layer.name))
      byLanguage := tally (done.map (·.1.language.name))
      callGraph := outcome.methods.stats
      fileCache := files.map FileCache.stats
      incremental := outcome.incremental } }

def run (crawler : Crawler) (fs : FileSystem) : FileSystem × Except Failure DependencyGraph :=
  match crawler.discover fs with
  | .error cause => (fs, .error cause)
  | .ok found =>
    match crawler.work fs found with
    | (after, .error cause) => (after, .error cause)
    | (after, .ok outcome) => (after, .ok (crawler.assemble fs found outcome))

end Crawler

end DepAtlas
