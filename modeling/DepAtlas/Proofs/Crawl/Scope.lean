import DepAtlas.Proofs.CallGraph.Contributions
import DepAtlas.Proofs.Crawl.Extraction
import DepAtlas.Proofs.Crawl.Sharing
import DepAtlas.Proofs.Incremental.State
import DepAtlas.Proofs.Incremental.Upkeep

/-!
Which files the call graph of a crawl speaks of. It speaks of the files that the crawl worked on with
success; an incremental crawl also speaks of files that only the state it starts from knows, as long as
they are walked or still there.
-/

namespace DepAtlas

/-- The call graph speaks of a file: as the place of a method, as a caller, or in a conflict. -/
def DependencyGraph.Mentions (graph : DependencyGraph) (path : Path) : Prop :=
  (∃ method ∈ graph.methods,
    (method.definedIn == path) = true ∨ method.references.contains path = true) ∨
  ∃ conflict ∈ graph.conflicts, (conflict.owner == path) = true ∨ (conflict.rejected == path) = true

/-- The work on a file had success. -/
def Processed (results : List WorkResult) (path : Path) : Prop :=
  ∃ result ∈ results, result.isSuccess = true ∧ (result.item.path == path) = true

namespace Processed

variable {results other : List WorkResult} {path : Path}

theorem congr {key : Path} (processed : Processed results key) (same : (key == path) = true) :
    Processed results path := by
  obtain ⟨result, member, success, found⟩ := processed
  exact ⟨result, member, success, BEq.trans found same⟩

theorem append (processed : Processed results path) (more : List WorkResult) :
    Processed (results ++ more) path := by
  obtain ⟨result, member, found⟩ := processed
  exact ⟨result, List.mem_append_left more member, found⟩

theorem perm (processed : Processed results path) (perm : results.Perm other) :
    Processed other path := by
  obtain ⟨result, member, found⟩ := processed
  exact ⟨result, perm.mem_iff.mp member, found⟩

end Processed

theorem DependencyGraph.mentions_iff {graph : DependencyGraph} (table : MethodTable) (path : Path)
    (methods : graph.methods = table.snapshot) (conflicts : graph.conflicts = table.conflicts) :
    graph.Mentions path ↔ table.Mentions path := by
  unfold DependencyGraph.Mentions MethodTable.Mentions
  rw [methods, conflicts]
  simp only [table.perm_snapshot.mem_iff]

namespace Coordinator

variable {base coordinator : Coordinator}

/-- After some results, the memory says what it said in the beginning of all other files. -/
structure Resumes (base coordinator : Coordinator) (done : List WorkResult) : Prop where
  inStep : coordinator.InStep
  keyed : coordinator.store.Keyed
  others : ∀ {path}, ¬ Processed done path →
    coordinator.resultOf? path = base.resultOf? path ∧
      (path ∈ Assoc.keys coordinator.store ↔ path ∈ Assoc.keys base.store)

theorem keeps_incremental (fs : FileSystem) (base : Coordinator) :
    (Processor.incremental fs).Keeps base.Resumes fun _ _ => True := by
  refine Crawler.keeps_of_analyze fun {coordinator done} result resumes isOutcome => ?_
  have analyzes := analyzes_analyze coordinator fs result.item.path result.item.language
  generalize coordinator.analyze fs result.item.path result.item.language = analyzed
    at analyzes isOutcome ⊢
  obtain ⟨after, answer⟩ := analyzed
  refine ⟨analyzes.inStep resumes.inStep, analyzes.keyed resumes.keyed, fun {path} unprocessed => ?_⟩
  have unchanged := resumes.others fun processed => unprocessed (processed.append _)
  cases answer with
  | error cause =>
    cases analyzes with
    | failed _ _ results store =>
      rw [resultOf?, results, store]
      exact unchanged
  | ok analysis =>
    have success : result.isSuccess = true := by
      rw [WorkResult.isSuccess, isOutcome]
      rfl
    have apart : (result.item.path == path) = false := by
      cases same : result.item.path == path with
      | false => rfl
      | true =>
        exact absurd ⟨_, List.mem_append_right done (List.mem_singleton_self _), success, same⟩
          unprocessed
    obtain ⟨results, keys⟩ := analyzes.frame apart
    exact ⟨results.trans unchanged.1, keys.trans unchanged.2⟩

theorem Resumes.misses_iff {done : List WorkResult} {path : Path} (resumes : base.Resumes coordinator done)
    (unprocessed : ¬ Processed done path) (fs : FileSystem) (seen : List Path) :
    coordinator.Misses fs seen path ↔ base.Misses fs seen path := by
  have keys {key : Path} (same : (key == path) = true) :=
    (resumes.others fun processed => unprocessed (processed.congr same)).2
  constructor
  · rintro ⟨key, isKey, same, gone⟩
    exact ⟨key, (keys same).mp isKey, same, gone⟩
  · rintro ⟨key, isKey, same, gone⟩
    exact ⟨key, (keys same).mpr isKey, same, gone⟩

end Coordinator

namespace Crawler

variable {crawler : Crawler} {fs after : FileSystem} {found : Discovered} {files : Option FileCache}
  {outcome : Outcome} {path : Path}

theorem createCoordinator_spec (crawler : Crawler) (fs : FileSystem) (files : Option FileCache) :
    (crawler.createCoordinator fs files).InStep ∧ (crawler.createCoordinator fs files).store.Keyed := by
  have empty : ∀ (patterns : PatternStore) (options : IncrementalOptions) (now : Time),
      let begun : Coordinator := { patterns, options, files, now }
      begun.InStep ∧ begun.store.Keyed :=
    fun _ _ _ => ⟨⟨{}, MethodTable.tracks_empty, fun _ => rfl⟩, fun _ _ found => nomatch found⟩
  unfold createCoordinator
  dsimp only
  split
  · unfold Coordinator.loadState
    split
    · exact Coordinator.ofState_spec rfl _
    · exact empty ..
  · exact empty ..

theorem createCoordinator_of_read {stateFile : Path} {state : SavedState}
    (located : crawler.stateFile? fs = some stateFile)
    (loaded : SavedState.read fs stateFile = .ok (some state)) (files : Option FileCache) :
    ∃ begun : Coordinator, crawler.createCoordinator fs files = begun.ofState state := by
  simp only [createCoordinator, located, Coordinator.loadState, loaded]
  exact ⟨_, rfl⟩

theorem methods_takeStock (coordinator : Coordinator) (fs : FileSystem) (walked : List Path)
    (results : List WorkResult) :
    (takeStock coordinator fs walked results).2.methods =
      (coordinator.detectDeleted fs walked).1.methods := by
  simp only [takeStock, Coordinator.takeChanges]
  split
  · exact Coordinator.detectMoves_frame _
  · rfl

theorem not_mentions_of_extraction {state : ExtractionState} {results : List WorkResult}
    (handles : crawler.Handles (Processor.extraction fs crawler.patterns crawler.layers) found.work
      { files } state results)
    (truthful : Truthful fs files) (methods : outcome.methods = state.methods)
    (unprocessed : ¬ Processed results path) : ¬ (crawler.assemble fs found outcome).Mentions path := by
  obtain ⟨⟨done, extracted, perm⟩, -⟩ := handles.spec keeps_extraction (extracted_begin truthful)
  have absent : ∀ file ∈ contributions done, (file.1 == path) = false := by
    intro file member
    obtain ⟨result, isDone, contributes⟩ := List.mem_filterMap.mp member
    obtain ⟨processed, outcome, rfl⟩ := Option.map_eq_some_iff.mp contributes
    cases same : result.item.path == path with
    | false => rfl
    | true =>
      refine absurd ⟨result, perm.mem_iff.mp isDone, ?_, same⟩ unprocessed
      rw [WorkResult.isSuccess, outcome]
      rfl
  have tracks := MethodTable.tracks_fresh (contributions done)
  rw [← extracted.methods, ← methods] at tracks
  rw [DependencyGraph.mentions_iff outcome.methods path rfl rfl, tracks.mentions_iff,
    Ledger.latest_ingestAll_of_absent absent]
  exact not_not_intro rfl

theorem mentions_of_incremental {coordinator : Coordinator} {results : List WorkResult}
    (handles : crawler.Handles (Processor.incremental fs) found.work (crawler.createCoordinator fs files)
      coordinator results)
    (methods : outcome.methods = (coordinator.detectDeleted fs found.walked.files).1.methods)
    (unprocessed : ¬ Processed results path) :
    (crawler.assemble fs found outcome).Mentions path ↔
      ¬ (crawler.createCoordinator fs files).Misses fs found.walked.files path ∧
        ∃ dependencies, (crawler.createCoordinator fs files).resultOf? path = some dependencies ∧
          Dependency.methods dependencies ≠ [] := by
  obtain ⟨inStep, keyed⟩ := crawler.createCoordinator_spec fs files
  have start : (crawler.createCoordinator fs files).Resumes (crawler.createCoordinator fs files) [] :=
    ⟨inStep, keyed, fun _ => ⟨rfl, .rfl⟩⟩
  obtain ⟨⟨done, resumes, perm⟩, -⟩ := handles.spec (Coordinator.keeps_incremental fs _) start
  have unprocessed : ¬ Processed done path := fun processed => unprocessed (processed.perm perm)
  obtain ⟨final, results⟩ :=
    Coordinator.detectDeleted_spec resumes.inStep resumes.keyed fs found.walked.files
  rw [DependencyGraph.mentions_iff outcome.methods path rfl rfl, methods, final.mentions_iff, results,
    (resumes.others unprocessed).1, propext (resumes.misses_iff unprocessed fs found.walked.files)]
  split
  case isTrue misses => simp [misses]
  case isFalse there => simp [there]

/-- The call graph speaks of a file that the crawl did not work on with success exactly if the crawl is
incremental, the state it starts from has methods for the file, and the file is not found to be gone. -/
theorem mentions_unprocessed_iff (crawler : Crawler) (fs after : FileSystem) (found : Discovered)
    (files : Option FileCache) (outcome : Outcome) (path : Path)
    (created : crawler.createCache = .ok files) (worked : crawler.work fs found = (after, .ok outcome))
    (unprocessed : ¬ Processed outcome.results path) :
    (crawler.assemble fs found outcome).Mentions path ↔
      crawler.config.cache.isIncremental = true ∧
        ¬ (crawler.createCoordinator fs files).Misses fs found.walked.files path ∧
        ∃ dependencies, (crawler.createCoordinator fs files).resultOf? path = some dependencies ∧
          Dependency.methods dependencies ≠ [] := by
  obtain ⟨files', created', ⟨mode, coordinator, results, handles, rfl⟩ |
    ⟨mode, state, results, handles, rfl⟩⟩ := work_cases worked
  all_goals
    cases created.symm.trans created'
    have unprocessed : ¬ Processed results path := fun processed =>
      unprocessed (processed.perm (List.mergeSort_perm _ _).symm)
  · rw [mentions_of_incremental handles (methods_takeStock ..) unprocessed]
    simp only [mode, true_and]
  · refine iff_of_false (not_mentions_of_extraction handles (truthful_create created) rfl unprocessed) ?_
    rw [mode]
    exact fun ⟨impossible, _⟩ => nomatch impossible

/-- What was worked on with success was found. -/
theorem exists_mem_work_of_processed (worked : crawler.work fs found = (after, .ok outcome))
    (processed : Processed outcome.results path) : ∃ file ∈ found.work, (file.1 == path) = true := by
  obtain ⟨result, member, -, same⟩ := processed
  obtain ⟨files, -, ⟨-, coordinator, results, handles, rfl⟩ | ⟨-, state, results, handles, rfl⟩⟩ :=
    work_cases worked
  all_goals
    have inside := handles.work_perm.mem_iff.mp
      (List.mem_map.mpr ⟨result, mem_sortByPath.mp member, rfl⟩)
    exact ⟨_, inside, same⟩

/-- A state that knows a method of one file. -/
def stateOfCallee : SavedState where
  version := SavedState.formatVersion
  fingerprints := [{
    path := ⟨"b.rs"⟩, stamp := { size := 13, seconds := 1 }, contentHash := 0, dependencyHash := 0
    state := .new, lastAnalyzed := 1 }]
  results := [{
    path := ⟨"b.rs"⟩
    dependencies := [{
      source := ⟨"b.rs"⟩, target := "beta", layer := .method, language := .rust, line := 1 }] }]

/-- That file and another one, with the state. -/
def withStateOfCallee : FileSystem where
  nodes := [([], .directory),
    (["a.rs"], .file "fn alpha() {}\n".toUTF8.toList { seconds := 1 }),
    (["b.rs"], .file "fn beta() {}\n".toUTF8.toList { seconds := 1 }),
    (["state.json"], .file stateOfCallee.encode { seconds := 2 })]
  current := []

/-- An incremental crawl of the other file alone. -/
def incrementalElsewhere : Crawler where
  config := {
    analysis := { layers := ["method"] }
    cache := { incremental := some true, stateFile := some ⟨"state.json"⟩ } }
  roots := [⟨"a.rs"⟩]
  patterns := PatternStore.filled

theorem read_stateOfCallee :
    SavedState.read withStateOfCallee ⟨"state.json"⟩ = .ok (some stateOfCallee) := by
  have stored : withStateOfCallee.read ⟨"state.json"⟩ = .ok stateOfCallee.encode := by rfl
  have decoded : SavedState.ofJson? stateOfCallee.toJson.asRead = some stateOfCallee := by rfl
  exact SavedState.read_of_encode stored decoded rfl

/-- The crawl speaks of the file that it neither found nor worked on. -/
theorem mentions_unprocessed_iff_elsewhere : ∃ found after outcome,
    incrementalElsewhere.discover withStateOfCallee = .ok found ∧
    incrementalElsewhere.work withStateOfCallee found = (after, .ok outcome) ∧
    found.walked.files.contains ⟨"b.rs"⟩ = false ∧ ¬ Processed outcome.results ⟨"b.rs"⟩ ∧
    (incrementalElsewhere.assemble withStateOfCallee found outcome).Mentions ⟨"b.rs"⟩ := by
  have facts : ((incrementalElsewhere.discover withStateOfCallee).toOption.any fun found =>
      !found.walked.files.contains ⟨"b.rs"⟩ && found.work.all fun file => !(file.1 == ⟨"b.rs"⟩)) =
        true := by decide +kernel
  obtain ⟨found, isFound, holds⟩ := (Option.any_eq_true _ _).mp facts
  simp only [Bool.and_eq_true, Bool.not_eq_true', List.all_eq_true] at holds
  obtain ⟨unwalked, elsewhere⟩ := holds
  obtain ⟨after, outcome, worked, -⟩ := @exists_work incrementalElsewhere _ rfl rfl (by decide)
    (by decide) withStateOfCallee found
  have unprocessed : ¬ Processed outcome.results ⟨"b.rs"⟩ := by
    intro processed
    obtain ⟨file, member, same⟩ := exists_mem_work_of_processed worked processed
    rw [elsewhere file member] at same
    cases same
  refine ⟨found, after, outcome, eq_ok_of_toOption isFound, worked, unwalked, unprocessed, ?_⟩
  obtain ⟨files, created⟩ : ∃ files, incrementalElsewhere.createCache = .ok files := ⟨_, rfl⟩
  rw [mentions_unprocessed_iff _ _ _ _ files _ _ created worked unprocessed]
  obtain ⟨begun, resumed⟩ := @createCoordinator_of_read incrementalElsewhere _ _ _ rfl
    read_stateOfCallee files
  rw [resumed]
  refine ⟨rfl, ?_, _, rfl, by decide⟩
  rintro ⟨key, isKey, -, -, absent⟩
  rw [show Assoc.keys (begun.ofState stateOfCallee).store = [⟨"b.rs"⟩] from rfl] at isKey
  rw [List.mem_singleton.mp isKey] at absent
  exact absurd absent (by decide)

end Crawler

end DepAtlas
