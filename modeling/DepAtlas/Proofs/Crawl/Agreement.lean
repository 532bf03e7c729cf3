import DepAtlas.Proofs.CallGraph.Reordering
import DepAtlas.Proofs.Crawl.Extraction
import DepAtlas.Proofs.Crawl.Sharing
import DepAtlas.Proofs.Incremental.Memory
import DepAtlas.Proofs.Path.Sorting

/-!
Crawls that differ only in how they share out their work. The results of the files come back in some order,
which sorting by path undoes. What is left of the order is in the method table, and there only for names
that several files define.
-/

namespace DepAtlas

/-- The result without the number of its item. -/
def WorkResult.unnumbered (result : WorkResult) : WorkResult :=
  { result with item := { result.item with id := 0 } }

section Files

variable (fs : FileSystem) (patterns : PatternStore) (layers : LayerMask)

/-- The dependencies in the content of a file; none if it cannot be read or extracted. -/
def extractFile (file : Path × Language) : List Dependency :=
  ((fs.readText file.1).toOption.bind fun content =>
    (extractAs patterns file.2 file.1 content layers).toOption).getD []

/-- The result of plain extraction for a file. -/
def resultOf (file : Path × Language) : WorkResult where
  item := { id := 0, path := file.1, language := file.2 }
  outcome := answerOf fs patterns layers file.1 file.2

/-- What a file contributes to the method table, unless it fails. -/
def contribution? (file : Path × Language) : Option (Path × List Dependency) :=
  (answerOf fs patterns layers file.1 file.2).toOption.map fun processed =>
    (file.1, processed.dependencies)

variable {fs patterns layers}

theorem toOption_textOf (path : Path) : (textOf fs path).toOption = (fs.readText path).toOption := by
  cases read : fs.readText path with
  | ok content =>
    rw [textOf_eq_ok_iff.mpr read]
    rfl
  | error failure =>
    cases text : textOf fs path with
    | error cause => rfl
    | ok content =>
      rw [textOf_eq_ok_iff.mp text] at read
      cases read

theorem toOption_answerOf (path : Path) (language : Language) :
    (answerOf fs patterns layers path language).toOption =
      ((fs.readText path).toOption.bind fun content =>
        (extractAs patterns language path content layers).toOption).map fun dependencies =>
          { dependencies } := by
  rw [← toOption_textOf, answerOf]
  cases textOf fs path with
  | error cause => rfl
  | ok content =>
    simp only [Except.toOption, Option.bind_some]
    cases extractAs patterns language path content layers <;> rfl

theorem dependencies_of_answerOf (file : Path × Language) :
    (((answerOf fs patterns layers file.1 file.2).toOption.map (·.dependencies)).getD []) =
      extractFile fs patterns layers file := by
  rw [toOption_answerOf, Option.map_map, extractFile]
  exact congrArg (Option.getD · []) (Option.map_id' ..)

theorem contributions_eq_filterMap {results : List WorkResult}
    (outcomes : ∀ result ∈ results,
      result.outcome = answerOf fs patterns layers result.item.path result.item.language) :
    contributions results =
      (results.map fun result => (result.item.path, result.item.language)).filterMap
        (contribution? fs patterns layers) := by
  rw [List.filterMap_map, contributions]
  refine List.filterMap_congr fun result member => ?_
  rw [outcomes result member]
  rfl

theorem flatMap_succeeded (files : List (Path × Language)) :
    (Crawler.succeeded (files.map (resultOf fs patterns layers))).flatMap (·.2.dependencies) =
      files.flatMap (extractFile fs patterns layers) := by
  induction files with
  | nil => rfl
  | cons file rest ih =>
    rw [List.flatMap_cons, ← ih, ← dependencies_of_answerOf, List.map_cons, Crawler.succeeded,
      filterMap_cons_toList, List.flatMap_append]
    congr 1
    cases answer : answerOf fs patterns layers file.1 file.2 <;>
      simp [resultOf, answer, Except.toOption]

end Files

namespace DependencyGraph

/-- Graphs with the same answers about files: everything but the call graph, with the counts of it, and
but for the use of the cache. -/
structure SameFiles (graph other : DependencyGraph) : Prop where
  dependencies : graph.dependencies = other.dependencies
  failures : graph.failures = other.failures
  structures : graph.structures = other.structures
  changes : graph.changes = other.changes
  stats : { graph.stats with callGraph := {}, fileCache := none } =
    { other.stats with callGraph := {}, fileCache := none }

/-- Graphs with the same call graph, and the same counts of it. -/
structure SameCalls (graph other : DependencyGraph) : Prop where
  methods : graph.methods = other.methods
  conflicts : graph.conflicts = other.conflicts
  cycles : graph.cycles = other.cycles
  stats : graph.stats.callGraph = other.stats.callGraph

end DependencyGraph

namespace Crawler

variable {crawler : Crawler} {fs : FileSystem} {found : Discovered}

/-- Numbers of items leave no trace in the graph. -/
theorem assemble_unnumbered (crawler : Crawler) (fs : FileSystem) (found : Discovered)
    (outcome : Outcome) :
    crawler.assemble fs found { outcome with results := outcome.results.map (·.unnumbered) } =
      crawler.assemble fs found outcome := by
  have done : succeeded (outcome.results.map (·.unnumbered)) =
      (succeeded outcome.results).map fun entry => ({ entry.1 with id := 0 }, entry.2) := by
    rw [succeeded, succeeded, List.filterMap_map, List.map_filterMap]
    refine List.filterMap_congr fun result _ => ?_
    simp only [Function.comp_def, Option.map_map, WorkResult.unnumbered]
  have failed : failuresOf (outcome.results.map (·.unnumbered)) = failuresOf outcome.results := by
    rw [failuresOf, List.filterMap_map]
    rfl
  simp only [assemble, done, failed, List.flatMap_map, List.map_map, List.countP_map,
    Function.comp_def]

section Views

variable {results : List WorkResult} {methods other : MethodTable} {files files' : Option FileCache}

theorem sameFiles_assemble (truthful : Truthful fs files) (truthful' : Truthful fs files') :
    (crawler.assemble fs found { results, methods, files }).SameFiles
      (crawler.assemble fs found { results, methods := other, files := files' }) := by
  have structures (paths : List Path) (dependencies : List Dependency) :
      (crawler.indexStructures fs paths dependencies files).2 =
        (crawler.indexStructures fs paths dependencies files').2 := by
    unfold indexStructures
    split
    · simp only [readContents_spec truthful, readContents_spec truthful']
    · rfl
  exact ⟨rfl, rfl, structures _ _, rfl, rfl⟩

theorem sameCalls_assemble {done done' : Assoc Path (List Dependency)} (perm : done.Perm done')
    (distinct : Assoc.Distinct done) (sole : MethodTable.SoleDefiners done)
    (known : methods = .fresh done) (known' : other = .fresh done') :
    (crawler.assemble fs found { results, methods, files }).SameCalls
      (crawler.assemble fs found { results, methods := other, files := files' }) := by
  subst known known'
  have sole' : MethodTable.SoleDefiners done' := fun a first b second =>
    sole a (perm.mem_iff.mpr first) b (perm.mem_iff.mpr second)
  have names := (MethodTable.tracks_fresh done).distinct
  have names' := (MethodTable.tracks_fresh done').distinct
  have same := MethodTable.get?_fresh_eq distinct perm sole
  have conflicts : (MethodTable.fresh done).conflicts = (MethodTable.fresh done').conflicts := by
    rw [MethodTable.conflicts_fresh distinct sole,
      MethodTable.conflicts_fresh (distinct.perm perm) sole']
  have cycles : crawler.cyclesOf (.fresh done) = crawler.cyclesOf (.fresh done') := by
    rw [cyclesOf, MethodTable.cycles_eq_of_get? names names' same, cyclesOf]
  exact ⟨MethodTable.snapshot_eq_of_get? names names' same, conflicts, cycles,
    MethodTable.stats_eq_of_get? names names' same (congrArg List.length conflicts)⟩

end Views

/-- The crawl with other settings for its workers, and with another order of their steps. -/
def tuned (crawler : Crawler) (performance : Config.Performance) (schedule : Schedule) : Crawler :=
  { crawler with config := { crawler.config with performance }, schedule }

/-- The graphs with which plain extraction can end, whatever the order in which workers take their
steps. -/
def Yields (crawler : Crawler) (fs : FileSystem) (graph : DependencyGraph) : Prop :=
  ∃ found files state results, crawler.discover fs = .ok found ∧ crawler.createCache = .ok files ∧
    crawler.Handles (Processor.extraction fs crawler.patterns crawler.layers) found.work { files } state
      results ∧
    graph = crawler.assemble fs found {
      results := sortByPath (fun result => result.item.path) results
      methods := state.methods
      files := state.files }

theorem yields_of_run {after : FileSystem} {graph : DependencyGraph}
    (plain : crawler.config.cache.isIncremental = false)
    (ran : crawler.run fs = (after, .ok graph)) : crawler.Yields fs graph := by
  unfold run at ran
  cases discovered : crawler.discover fs with
  | error cause =>
    rw [discovered] at ran
    cases ran
  | ok found =>
    simp only [discovered] at ran
    cases worked : crawler.work fs found with
    | mk last reply =>
      rw [worked] at ran
      cases reply with
      | error cause => cases ran
      | ok outcome =>
        cases ran
        obtain ⟨files, created, ⟨incremental, -⟩ | ⟨-, state, results, handles, rfl⟩⟩ := work_cases worked
        · rw [plain] at incremental
          cases incremental
        · exact ⟨found, files, state, results, discovered, created, handles, rfl⟩

theorem exists_run {files : Option FileCache} (plain : crawler.config.cache.isIncremental = false)
    (discovered : crawler.discover fs = .ok found) (created : crawler.createCache = .ok files)
    (running : crawler.token.isCancelled = false)
    (positive : 1 ≤ crawler.config.performance.threadCount)
    (bounded : crawler.config.performance.threadCount ≤ Pool.maxThreads) :
    ∃ graph, crawler.run fs = (fs, .ok graph) := by
  obtain ⟨after, outcome, worked, same⟩ := exists_work created running positive bounded fs found
  obtain rfl := same plain
  refine ⟨crawler.assemble after found outcome, ?_⟩
  simp only [run, discovered, worked]

theorem pairwise_work (discovered : crawler.discover fs = .ok found)
    (apart : found.walked.files.Pairwise fun a b => (a == b) = false) :
    found.work.Pairwise fun a b => (a.1 == b.1) = false := by
  unfold discover at discovered
  split at discovered
  · cases discovered
  · cases discovered
  · cases discovered
    refine List.pairwise_filterMap.mpr (apart.imp fun distinct file isFile other isOther => ?_)
    obtain ⟨language, -, rfl⟩ := Option.map_eq_some_iff.mp isFile
    obtain ⟨language', -, rfl⟩ := Option.map_eq_some_iff.mp isOther
    exact distinct

/-- Plain extraction leaves a truthful cache, the result of each file in path order, and a fresh table of
the files that did not fail, in some order. -/
theorem Handles.settles {work : List (Path × Language)} {files : Option FileCache}
    {state : ExtractionState} {results : List WorkResult}
    (handles : crawler.Handles (Processor.extraction fs crawler.patterns crawler.layers) work { files }
      state results)
    (truthful : Truthful fs files) (apart : work.Pairwise fun a b => (a.1 == b.1) = false) :
    Truthful fs state.files ∧
      (sortByPath (fun result => result.item.path) results).map (·.unnumbered) =
        (sortByPath (·.1) work).map (resultOf fs crawler.patterns crawler.layers) ∧
      ∃ done, done.Perm (work.filterMap (contribution? fs crawler.patterns crawler.layers)) ∧
        state.methods = .fresh done := by
  obtain ⟨⟨done, extracted, perm⟩, all⟩ := handles.spec keeps_extraction (extracted_begin truthful)
  have outcomes : ∀ result ∈ results, result.outcome =
      answerOf fs crawler.patterns crawler.layers result.item.path result.item.language :=
    fun result member => extracted.outcomes result (perm.mem_iff.mpr member)
  refine ⟨extracted.truthful, ?_, contributions done, ?_, extracted.methods⟩
  · -- A result is that of its file, but for the number of its item.
    have unnumbered : (sortByPath (fun result => result.item.path) results).map (·.unnumbered) =
        ((sortByPath (fun result : WorkResult => result.item.path) results).map fun result =>
          (result.item.path, result.item.language)).map
            (resultOf fs crawler.patterns crawler.layers) := by
      rw [List.map_map]
      refine List.map_congr_left fun result member => ?_
      rw [WorkResult.unnumbered, outcomes result (mem_sortByPath.mp member)]
      rfl
    rw [unnumbered, map_sortByPath (·.1) fun result : WorkResult =>
      (result.item.path, result.item.language), ← sortByPath_eq_of_perm apart all.symm]
  · rw [contributions_eq_filterMap extracted.outcomes]
    exact ((perm.map _).trans all).filterMap _

theorem Yields.settles {performance : Config.Performance} {schedule : Schedule} {graph : DependencyGraph}
    (yields : (crawler.tuned performance schedule).Yields fs graph)
    (discovered : crawler.discover fs = .ok found)
    (apart : found.work.Pairwise fun a b => (a.1 == b.1) = false) :
    ∃ files done, Truthful fs files ∧
      done.Perm (found.work.filterMap (contribution? fs crawler.patterns crawler.layers)) ∧
      graph = crawler.assemble fs found {
        results := (sortByPath (·.1) found.work).map (resultOf fs crawler.patterns crawler.layers)
        methods := .fresh done
        files } := by
  obtain ⟨_, files, state, results, discovered', created, handles, rfl⟩ := yields
  cases discovered.symm.trans discovered'
  obtain ⟨truthful, sorted, done, perm, methods⟩ := handles.settles (truthful_create created) apart
  refine ⟨state.files, done, truthful, perm, ?_⟩
  rw [← assemble_unnumbered]
  simp only [sorted, methods]
  rfl

/-- The files, with their dependencies. -/
def extracts (crawler : Crawler) (fs : FileSystem) (found : Discovered) : Assoc Path (List Dependency) :=
  found.work.map fun file => (file.1, extractFile fs crawler.patterns crawler.layers file)

theorem mem_extracts {file : Path × List Dependency}
    (member : file ∈ found.work.filterMap (contribution? fs crawler.patterns crawler.layers)) :
    file ∈ crawler.extracts fs found := by
  obtain ⟨source, isWork, contributes⟩ := List.mem_filterMap.mp member
  obtain ⟨processed, answer, rfl⟩ := Option.map_eq_some_iff.mp contributes
  refine List.mem_map.mpr ⟨source, isWork, ?_⟩
  rw [← dependencies_of_answerOf, answer]
  rfl

theorem distinct_contributions {work : List (Path × Language)} {patterns : PatternStore}
    {layers : LayerMask} (apart : work.Pairwise fun a b => (a.1 == b.1) = false) :
    Assoc.Distinct (work.filterMap (contribution? fs patterns layers)) := by
  refine List.pairwise_filterMap.mpr (apart.imp fun distinct file isFile other isOther => ?_)
  obtain ⟨processed, -, rfl⟩ := Option.map_eq_some_iff.mp isFile
  obtain ⟨processed', -, rfl⟩ := Option.map_eq_some_iff.mp isOther
  exact distinct

/-- Crawls that differ only in their workers agree. Each one ends with a graph, and whatever the order in
which the workers take their steps: the dependencies are those of the files in path order, the graphs answer
the same about files, and, where no method is defined in two files, they have the same call graph. -/
theorem graphs_agree (crawler : Crawler) (fs : FileSystem) (found : Discovered)
    (plain : crawler.config.cache.isIncremental = false) (discovered : crawler.discover fs = .ok found)
    (apart : found.walked.files.Pairwise fun a b => (a == b) = false) :
    (∀ performance schedule files, crawler.createCache = .ok files →
      crawler.token.isCancelled = false → 1 ≤ performance.threadCount → performance.threadCount ≤ 16 →
      ∃ graph, (crawler.tuned performance schedule).run fs = (fs, .ok graph)) ∧
    (∀ performance schedule after graph,
      (crawler.tuned performance schedule).run fs = (after, .ok graph) →
      (crawler.tuned performance schedule).Yields fs graph) ∧
    ∀ performance schedule graph performance' schedule' graph',
      (crawler.tuned performance schedule).Yields fs graph →
      (crawler.tuned performance' schedule').Yields fs graph' →
      graph.dependencies =
        (sortByPath (·.1) found.work).flatMap (extractFile fs crawler.patterns crawler.layers) ∧
      graph.SameFiles graph' ∧
      (MethodTable.SoleDefiners (crawler.extracts fs found) → graph.SameCalls graph') := by
  refine ⟨?_, ?_, ?_⟩
  · intro performance schedule files created running positive bounded
    exact @exists_run (crawler.tuned performance schedule) fs found files plain discovered created running
      positive bounded
  · intro performance schedule after graph ran
    exact @yields_of_run (crawler.tuned performance schedule) fs after graph plain ran
  · intro performance schedule graph performance' schedule' graph' yields yields'
    have distinct := pairwise_work discovered apart
    obtain ⟨files, done, truthful, perm, rfl⟩ := yields.settles discovered distinct
    obtain ⟨files', done', truthful', perm', rfl⟩ := yields'.settles discovered distinct
    refine ⟨flatMap_succeeded _, sameFiles_assemble truthful truthful', fun sole => ?_⟩
    have contributed {file : Path × List Dependency} (member : file ∈ done) :
        file ∈ crawler.extracts fs found := mem_extracts (perm.mem_iff.mp member)
    refine sameCalls_assemble (perm.trans perm'.symm) ?_ ?_ rfl rfl
    · exact (distinct_contributions distinct).perm perm.symm
    · exact fun a first b second => sole a (contributed first) b (contributed second)

/-- Two files, the first of which calls a method of the other. -/
def callerAndCallee : FileSystem where
  nodes := [([], .directory),
    (["a.rs"], .file "fn alpha() { beta(); }\n".toUTF8.toList { seconds := 1 }),
    (["b.rs"], .file "fn beta() {}\n".toUTF8.toList { seconds := 1 })]
  current := []

/-- A crawl for methods that is given the files the other way round. -/
def calleeFirst : Crawler where
  config := { analysis := { layers := ["method"] } }
  roots := [⟨"b.rs"⟩, ⟨"a.rs"⟩]
  patterns := PatternStore.filled

/-- One after the other, or on two workers that take turns and wait for each other's place in the queue, the
crawl finds the same. -/
theorem graphs_agree_callerAndCallee : ∃ graph graph',
    (calleeFirst.tuned {} .eager).run callerAndCallee = (callerAndCallee, .ok graph) ∧
    (calleeFirst.tuned { parallel := some true, threads := some 2, queueCapacity := some 1 }
      fun tick => some (tick % 2)).run callerAndCallee = (callerAndCallee, .ok graph') ∧
    (graph.dependencies.map (·.target)).Perm ["beta", "alpha"] ∧ graph.SameFiles graph' ∧
    graph.SameCalls graph' := by
  have facts : ((calleeFirst.discover callerAndCallee).toOption.any fun found =>
      decide (found.walked.files.Pairwise fun a b => (a == b) = false) &&
      decide (MethodTable.SoleDefiners (calleeFirst.extracts callerAndCallee found)) &&
      (found.work.flatMap
        (extractFile callerAndCallee calleeFirst.patterns calleeFirst.layers)).map (·.target) ==
          ["beta", "alpha"]) = true := by decide +kernel
  obtain ⟨found, isFound, holds⟩ := (Option.any_eq_true _ _).mp facts
  simp only [Bool.and_eq_true, decide_eq_true_eq, beq_iff_eq] at holds
  obtain ⟨⟨apart, sole⟩, targets⟩ := holds
  obtain ⟨runs, yields, agree⟩ := graphs_agree calleeFirst callerAndCallee found rfl
    (eq_ok_of_toOption isFound) apart
  obtain ⟨graph, ran⟩ := runs {} .eager _ rfl rfl (by decide) (by decide)
  obtain ⟨graph', ran'⟩ := runs { parallel := some true, threads := some 2, queueCapacity := some 1 }
    (fun tick => some (tick % 2)) _ rfl rfl (by decide) (by decide)
  obtain ⟨dependencies, sameFiles, sameCalls⟩ := agree _ _ _ _ _ _ (yields _ _ _ _ ran)
    (yields _ _ _ _ ran')
  refine ⟨graph, graph', ran, ran', ?_, sameFiles, sameCalls sole⟩
  rw [dependencies, ← targets]
  exact ((List.mergeSort_perm _ _).flatMap_right _).map _

end Crawler

end DepAtlas
