import Mathlib.Algebra.BigOperators.Group.Finset.Basic
import Mathlib.Algebra.GroupWithZero.Nat
import Mathlib.Data.List.Dedup
import DepAtlas.Proofs.Crawl.Repetition
import DepAtlas.Proofs.Incremental.Change
import DepAtlas.Proofs.Incremental.Sources

/-!
The account of a crawl. Every file that the walk finds is of no known language, or the work on it has one
result: it is analyzed anew, answered for from memory, or it fails. The numbers of the account are those of the
results, in whatever way the work was shared out, and a coordinator counts the same. The dependencies stand in
the order of their files, since each result is about its own file, also if it has come through state files that
earlier crawls have written.
-/

namespace DepAtlas

section Tally

/-- Each name is counted once for each time that it occurs. -/
theorem sum_tally (names : List String) : ((tally names).map (·.2)).sum = names.length := by
  have sorted : (names.eraseDups.mergeSort fun a b => decide (a ≤ b)).Perm names.eraseDups :=
    List.mergeSort_perm _ _
  have unique : names.eraseDups.Perm names.dedup := by
    refine (List.perm_ext_iff_of_nodup (nodup_eraseDups names) names.nodup_dedup).mpr fun name => ?_
    rw [List.mem_eraseDups, List.mem_dedup]
  rw [tally, List.map_map]
  exact ((sorted.trans unique).map _).sum_eq.trans (List.sum_map_count_dedup_eq_length names)

end Tally

/-- Whether a file was analyzed anew. -/
def WorkResult.isAnew (result : WorkResult) : Bool :=
  result.outcome.toOption.any (!·.reused)

namespace Crawler

variable {crawler : Crawler} {fs after : FileSystem} {found : Discovered} {results : List WorkResult}

section Results

theorem length_failuresOf_cons (result : WorkResult) (rest : List WorkResult) :
    (failuresOf (result :: rest)).length = (!result.isSuccess).toNat + (failuresOf rest).length := by
  rw [failuresOf, List.filterMap_cons, WorkResult.isSuccess]
  cases result.outcome with
  | error cause => exact Nat.add_comm _ 1
  | ok file => exact (Nat.zero_add _).symm

/-- Each result is of one of three kinds. -/
theorem length_eq_kinds (results : List WorkResult) : results.length =
    results.countP WorkResult.isAnew + results.countP WorkResult.isReused + (failuresOf results).length := by
  induction results with
  | nil => rfl
  | cons result rest ih =>
    have one : 1 = result.isAnew.toNat + result.isReused.toNat + (!result.isSuccess).toNat := by
      rw [WorkResult.isAnew, WorkResult.isReused, WorkResult.isSuccess]
      cases result.outcome with
      | error cause => rfl
      | ok file => cases reused : file.reused <;> simp [Except.toOption, reused]
    have add (holds : WorkResult → Bool) :
        (result :: rest).countP holds = rest.countP holds + (holds result).toNat := by
      rw [List.countP_cons]
      cases holds result <;> rfl
    rw [add, add, length_failuresOf_cons, List.length_cons, ih]
    omega

theorem length_succeeded_eq_kinds (results : List WorkResult) : (succeeded results).length =
    results.countP WorkResult.isAnew + results.countP WorkResult.isReused := by
  have reused := countP_succeeded (·.reused) results
  have anew := countP_succeeded (!·.reused) results
  rw [List.length_eq_countP_add_countP fun entry : WorkItem × ProcessedFile => entry.2.reused, reused,
    Nat.add_comm]
  simp only [Bool.not_eq_true, Bool.decide_eq_false]
  rw [anew]
  rfl

end Results

end Crawler

/-- The account of a crawl that found these files adds up. -/
structure DependencyGraph.Accounts (graph : DependencyGraph) (walked : List Path) (isIncremental : Bool) :
    Prop where
  discovered : graph.stats.discovered = walked.length
  unsupported : graph.stats.unsupported = walked.countP fun path => (Language.ofPath? path).isNone
  files : graph.stats.discovered =
    graph.stats.unsupported + graph.stats.analyzed + graph.stats.reused + graph.stats.failed
  failed : graph.stats.failed = graph.failures.length
  languages : (graph.stats.byLanguage.map (·.2)).sum = graph.stats.analyzed + graph.stats.reused
  dependencies : graph.stats.dependencies = graph.dependencies.length
  layers : (graph.stats.byLayer.map (·.2)).sum = graph.stats.dependencies
  incremental : graph.stats.incremental.isSome = isIncremental
  counted : ∀ counts, graph.stats.incremental = some counts →
    counts.analyzed = graph.stats.analyzed ∧ counts.skipped = graph.stats.reused

/-- The dependencies are in the order of their files, and those of a file stand together. -/
structure DependencyGraph.InOrder (graph : DependencyGraph) : Prop where
  sorted : graph.dependencies.Pairwise fun a b => (Ord.compare a.source b.source).isLE = true
  together : ∀ front first between last back,
    graph.dependencies = front ++ first :: (between ++ last :: back) →
    (first.source == last.source) = true →
    ∀ dependency ∈ between, (dependency.source == first.source) = true

namespace Crawler

variable {crawler : Crawler} {fs after : FileSystem} {found : Discovered} {results : List WorkResult}
  {files : Option FileCache} {coordinator : Coordinator} {outcome : Outcome}

section Incremental

/-- A coordinator counts what the results say. -/
theorem keeps_kinds : (Processor.incremental fs).Keeps
    (fun coordinator done => coordinator.answeredByKind =
      (done.countP WorkResult.isAnew, done.countP WorkResult.isReused)) fun _ _ => True := by
  refine keeps_of_analyze fun {coordinator done} result counted isOutcome => ?_
  rw [coordinator.answeredByKind_analyze, counted, List.countP_append, List.countP_append]
  refine Prod.ext (congrArg (_ + ·) ?_) (congrArg (_ + ·) ?_)
  all_goals
    rw [List.countP_singleton]
    simp only [WorkResult.isAnew, WorkResult.isReused, isOutcome]
    cases coordinator.analyze fs result.item.path result.item.language with
    | mk next answer =>
      cases answer with
      | error cause => rfl
      | ok analysis =>
        cases reused : analysis.reused <;> simp [Coordinator.kindOf, reused, Except.map, Except.toOption]

theorem exists_stats_takeStock (coordinator : Coordinator) (fs : FileSystem) (walked : List Path)
    (results : List WorkResult) :
    ∃ counts, (takeStock coordinator fs walked results).2.incremental = some counts ∧
      (counts.analyzed, counts.skipped) = coordinator.answeredByKind := by
  have deleted : (coordinator.detectDeleted fs walked).1.answeredByKind = coordinator.answeredByKind :=
    Coordinator.answeredByKind_foldl_forget _ (coordinator.goneFiles fs walked)
  refine ⟨_, rfl, ?_⟩
  dsimp only [Coordinator.takeChanges, Coordinator.stats]
  split
  · exact (Coordinator.answeredByKind_detectMoves _).trans deleted
  · exact deleted

theorem kinds_createCoordinator (crawler : Crawler) (fs : FileSystem) (files : Option FileCache) :
    (crawler.createCoordinator fs files).answeredByKind = (0, 0) := by
  unfold createCoordinator
  dsimp only
  split
  · unfold Coordinator.loadState
    split
    · rw [Coordinator.ofState_eq_kept]
      rfl
    · rfl
  · rfl

end Incremental

section Account

theorem length_workOf (walked : List Path) :
    walked.length - (workOf walked).length = walked.countP fun path => (Language.ofPath? path).isNone := by
  have known : (workOf walked).length = walked.countP fun path => (Language.ofPath? path).isSome := by
    rw [workOf, List.length_filterMap_eq_countP]
    refine List.countP_congr fun path _ => ?_
    rw [Option.isSome_map]
  have parts : walked.length = walked.countP (fun path => (Language.ofPath? path).isSome) +
      walked.countP fun path => (Language.ofPath? path).isNone := by
    rw [List.length_eq_countP_add_countP fun path => (Language.ofPath? path).isSome]
    simp only [Bool.not_eq_true, Option.isSome_eq_false_iff, Bool.decide_eq_true]
  omega

/-- The account of results, one for each file of a known language. -/
theorem accounts_assemble (discovered : crawler.discover fs = .ok found) {isIncremental : Bool}
    (worked : outcome.results.length = found.work.length)
    (incremental : outcome.incremental.isSome = isIncremental)
    (counted : ∀ counts, outcome.incremental = some counts → (counts.analyzed, counts.skipped) =
      (outcome.results.countP WorkResult.isAnew, outcome.results.countP WorkResult.isReused)) :
    (crawler.assemble fs found outcome).Accounts found.walked.files isIncremental := by
  have kinds := length_eq_kinds outcome.results
  have analyzed : (crawler.assemble fs found outcome).stats.analyzed =
      outcome.results.countP WorkResult.isAnew := countP_succeeded (!·.reused) _
  have reused : (crawler.assemble fs found outcome).stats.reused =
      outcome.results.countP WorkResult.isReused := countP_succeeded (·.reused) _
  have unsupported : (crawler.assemble fs found outcome).stats.unsupported =
      found.walked.files.length - found.work.length := rfl
  obtain ⟨globs, state, -, -, rfl⟩ := discover_eq_ok_iff.mp discovered
  have some : (workOf state.output.files).length ≤ state.output.files.length := List.length_filterMap_le _ _
  constructor
  case discovered => rfl
  case unsupported => exact unsupported.trans (length_workOf _)
  case files =>
    rw [analyzed, reused, unsupported]
    change state.output.files.length = state.output.files.length - (workOf state.output.files).length +
      _ + _ + (failuresOf outcome.results).length
    change outcome.results.length = (workOf state.output.files).length at worked
    omega
  case failed => rfl
  case languages =>
    rw [analyzed, reused, ← length_succeeded_eq_kinds]
    exact (sum_tally _).trans (List.length_map _)
  case dependencies => rfl
  case layers => exact (sum_tally _).trans (List.length_map _)
  case incremental => exact incremental
  case counted =>
    intro counts present
    rw [analyzed, reused]
    exact Prod.mk.inj (counted counts present)

/-- The account of a crawl adds up, however the work was shared out. -/
theorem accounts_of_work (discovered : crawler.discover fs = .ok found)
    (worked : crawler.work fs found = (after, .ok outcome)) :
    (crawler.assemble fs found outcome).Accounts found.walked.files
      crawler.config.cache.isIncremental := by
  obtain ⟨files, -, ⟨mode, coordinator, results, handles, rfl⟩ | ⟨mode, state, results, handles, rfl⟩⟩ :=
    work_cases worked
  all_goals
    have perm : (inOrder results).Perm results := List.mergeSort_perm _ _
    have lengths : (inOrder results).length = found.work.length := by
      rw [perm.length_eq, ← handles.work_perm.length_eq, List.length_map]
    rw [mode]
  · obtain ⟨⟨done, kinds, same⟩, -⟩ := handles.spec keeps_kinds (kinds_createCoordinator crawler fs files)
    obtain ⟨counts, isCounts, counted⟩ :=
      exists_stats_takeStock coordinator fs found.walked.files (inOrder results)
    have present : (takeStock coordinator fs found.walked.files (inOrder results)).2.incremental.isSome :=
      rfl
    refine accounts_assemble discovered lengths present fun other isOther => ?_
    cases isCounts.symm.trans isOther
    rw [counted, kinds]
    have all (holds : WorkResult → Bool) : done.countP holds = (inOrder results).countP holds :=
      (same.trans perm.symm).countP_eq holds
    exact congrArg₂ Prod.mk (all _) (all _)
  · exact accounts_assemble discovered lengths rfl nofun

end Account

section Order

/-- The results of files in order have their dependencies in order. -/
theorem inOrder_flatMap {graph : DependencyGraph}
    (sorted : results.Pairwise fun a b => (Ord.compare a.item.path b.item.path).isLE = true)
    (own : ∀ result ∈ results, Dependency.From result.item.path result.dependencies)
    (all : graph.dependencies = results.flatMap WorkResult.dependencies) : graph.InOrder := by
  have isOrder {result : WorkResult} (member : result ∈ results) {dependency : Dependency}
      (within : dependency ∈ result.dependencies) :
      Ord.compare dependency.source result.item.path = .eq :=
    Std.LawfulBEqCmp.compare_eq_iff_beq.mpr (own result member dependency within)
  have pairwise : graph.dependencies.Pairwise
      fun a b => (Ord.compare a.source b.source).isLE = true := by
    rw [all, List.pairwise_flatMap]
    refine ⟨fun result member => List.pairwise_of_forall_mem_list fun a first b second => ?_, ?_⟩
    · have self : Ord.compare result.item.path result.item.path = .eq := Std.ReflCmp.compare_self
      rw [Std.TransCmp.congr_left (isOrder member first), Std.TransCmp.congr_right (isOrder member second),
        self]
      rfl
    · refine List.Pairwise.imp_of_mem (fun {a b} first second le x within y inside => ?_) sorted
      rwa [Std.TransCmp.congr_left (isOrder first within), Std.TransCmp.congr_right (isOrder second inside)]
  refine ⟨pairwise, fun front first between last back parts same dependency member => ?_⟩
  rw [parts] at pairwise
  obtain ⟨above, rest⟩ := List.pairwise_cons.mp (List.pairwise_append.mp pairwise).2.1
  have lower := above dependency (List.mem_append_left _ member)
  have upper := (List.pairwise_append.mp rest).2.2 dependency member last List.mem_cons_self
  have ends : Ord.compare first.source last.source = .eq := Std.LawfulBEqCmp.compare_eq_iff_beq.mpr same
  rw [← Std.TransCmp.congr_right ends] at upper
  exact Std.LawfulBEqCmp.compare_eq_iff_beq.mp (Std.OrientedCmp.isLE_antisymm upper lower)

/-- The state file that a crawl finds, if there is one, was written by a coordinator. -/
def Inherits (crawler : Crawler) (fs : FileSystem) : Prop :=
  ∀ file, crawler.stateFile? fs = some file → (Use.loadState fs file).Trusted

theorem arises_createCoordinator (inherits : crawler.Inherits fs) (files : Option FileCache) :
    (crawler.createCoordinator fs files).Arises := by
  have begun (options : IncrementalOptions) :
      Coordinator.Arises { patterns := crawler.patterns, options, files, now := crawler.now } :=
    (Coordinator.Arises.begin crawler.patterns options {} files).work
      (show Use.Loads _ (.setTime crawler.now) from trivial)
  unfold createCoordinator
  dsimp only
  split
  case h_1 file isFile => exact (begun _).loadState (inherits file isFile)
  case h_2 => exact begun _

theorem arises_takeStock (arises : coordinator.Arises) (fs : FileSystem) (walked : List Path)
    (results : List WorkResult) : (takeStock coordinator fs walked results).1.Arises := by
  have deleted : (coordinator.detectDeleted fs walked).1.Arises :=
    arises.work (show Use.Loads _ (.detectDeleted fs walked) from trivial)
  have emptied {tracked : Coordinator} (arises : tracked.Arises) : tracked.takeChanges.1.Arises :=
    arises.work (show Use.Loads _ .takeChanges from trivial)
  unfold takeStock
  dsimp only
  apply emptied
  split
  · exact deleted.work (show Use.Loads _ .detectMoves from trivial)
  · exact deleted

/-- Each result is about its own file, whether it is new or remembered. -/
theorem keeps_own : (Processor.incremental fs).Keeps
    (fun coordinator done => coordinator.Arises ∧
      ∀ result ∈ done, Dependency.From result.item.path result.dependencies) fun _ _ => True := by
  refine keeps_of_analyze fun {coordinator done} result held isOutcome => ?_
  obtain ⟨arises, own⟩ := held
  refine ⟨arises.work (show Use.Loads _ (.analyze fs _ _) from trivial), fun other member => ?_⟩
  rcases List.mem_append.mp member with earlier | here
  · exact own other earlier
  · obtain rfl := List.mem_singleton.mp here
    have answer := (arises.sourced.analyze fs other.item.path other.item.language).2
    rw [WorkResult.dependencies, isOutcome]
    cases analyzed : (coordinator.analyze fs other.item.path other.item.language).2 with
    | error cause => exact Dependency.from_nil _
    | ok analysis => exact answer analysis analyzed

/-- A crawl leaves a state that the next one can go on from. -/
theorem Ends.arises (ends : crawler.Ends fs coordinator) (inherits : crawler.Inherits fs) :
    coordinator.Arises := by
  obtain ⟨found, files, last, reply, -, -, processed, rfl⟩ := ends
  have begun := arises_createCoordinator inherits files
  cases reply with
  | error cause =>
    rw [processAll_error processed]
    exact begun
  | ok sorted =>
    obtain ⟨results, handles, rfl⟩ := exists_handles_of_processAll processed
    obtain ⟨⟨done, ⟨arises, -⟩, -⟩, -⟩ :=
      handles.spec keeps_own ⟨begun, fun _ impossible => absurd impossible List.not_mem_nil⟩
    exact arises_takeStock arises fs found.walked.files _

theorem inOrder_of_work (inherits : crawler.Inherits fs)
    (worked : crawler.work fs found = (after, .ok outcome)) :
    (crawler.assemble fs found outcome).InOrder := by
  obtain ⟨files, created, ⟨-, coordinator, results, handles, rfl⟩ | ⟨-, state, results, handles, rfl⟩⟩ :=
    work_cases worked
  all_goals
    refine inOrder_flatMap (pairwise_sortByPath _ results) ?_ (flatMap_succeeded_dependencies _)
    intro result member
    replace member := mem_sortByPath.mp member
  · have begun := arises_createCoordinator inherits files
    obtain ⟨⟨done, ⟨-, own⟩, perm⟩, -⟩ :=
      handles.spec keeps_own ⟨begun, fun _ impossible => absurd impossible List.not_mem_nil⟩
    exact own result (perm.mem_iff.mpr member)
  · obtain ⟨⟨done, extracted, perm⟩, -⟩ :=
      handles.spec keeps_extraction (extracted_begin (truthful_create created))
    rw [WorkResult.dependencies, extracted.outcomes result (perm.mem_iff.mpr member), answerOf]
    split
    · exact Dependency.from_nil _
    · split
      · exact Dependency.from_nil _
      case h_2 dependencies found => exact from_of_extractAs found

end Order

theorem run_of_work (discovered : crawler.discover fs = .ok found)
    (worked : crawler.work fs found = (after, .ok outcome)) :
    crawler.run fs = (after, .ok (crawler.assemble fs found outcome)) := by
  simp only [run, discovered, worked]

/-- However a crawl is set, whatever it finds and in whatever order workers take their steps: where it
succeeds its account adds up, and where the state file is missing or was written by an earlier crawl the
dependencies are in order. Such a file is what the crawl itself leaves, also when it fails. -/
theorem run_accounts_for_files (crawler : Crawler) (fs : FileSystem) (inherits : crawler.Inherits fs) :
    (∀ after graph, crawler.run fs = (after, .ok graph) →
      (∃ found, crawler.discover fs = .ok found ∧
        graph.Accounts found.walked.files crawler.config.cache.isIncremental) ∧ graph.InOrder) ∧
    ∀ coordinator, crawler.Ends fs coordinator → coordinator.Arises := by
  refine ⟨fun after graph ran => ?_, fun coordinator ends => ends.arises inherits⟩
  unfold run at ran
  cases discovered : crawler.discover fs with
  | error cause =>
    simp only [discovered] at ran
    cases ran
  | ok found =>
    simp only [discovered] at ran
    cases worked : crawler.work fs found with
    | mk last reply =>
      rw [worked] at ran
      cases reply with
      | error cause => cases ran
      | ok outcome =>
        cases ran
        exact ⟨⟨found, rfl, accounts_of_work discovered worked⟩, inOrder_of_work inherits worked⟩

/-- A crawl that goes on from what an earlier analysis of the file has saved beside it. -/
def resuming : Crawler where
  config := { cache := { incremental := some true, stateFile := some ⟨"s.json"⟩ } }
  roots := [⟨"a.rs"⟩]
  patterns := PatternStore.filled

theorem run_accounts_for_files_resuming :
    resuming.Inherits Coordinator.resumed ∧ ∃ after graph,
      resuming.run Coordinator.resumed = (after, .ok graph) ∧
      (∃ found, resuming.discover Coordinator.resumed = .ok found ∧
        graph.Accounts found.walked.files true) ∧
      graph.InOrder ∧ graph.stats.discovered = 1 ∧ graph.stats.unsupported = 0 := by
  have inherits : resuming.Inherits Coordinator.resumed := by
    rintro file ⟨⟩ bytes readable
    rw [Coordinator.resumed, Coordinator.read_besideState] at readable
    have arises : Coordinator.earlier.Arises := .work (.begin .filled {} {} none)
      (show Use.Loads _ (.analyze _ _ _) from trivial)
    exact ⟨Coordinator.earlier, arises, (Except.ok.inj readable).symm⟩
  -- What is found does not depend on what was saved.
  have facts (saved : Bytes) :
      ((resuming.discover (Coordinator.besideState "fn a() {}\n" 1 saved)).toOption.any fun found =>
        found.walked.files.length == 1 &&
          (found.walked.files.countP fun path => (Language.ofPath? path).isNone) == 0) = true := by
    with_unfolding_all rfl
  obtain ⟨found, isFound, holds⟩ := (Option.any_eq_true _ _).mp (facts Coordinator.earlier.toState.encode)
  simp only [Bool.and_eq_true, beq_iff_eq] at holds
  have discovered : resuming.discover Coordinator.resumed = .ok found := eq_ok_of_toOption isFound
  obtain ⟨after, outcome, worked, -⟩ := @exists_work resuming _ rfl rfl (by decide) (by decide)
    Coordinator.resumed found
  have ran := run_of_work discovered worked
  obtain ⟨⟨found', discovered', accounts⟩, inOrder⟩ :=
    (run_accounts_for_files resuming Coordinator.resumed inherits).1 _ _ ran
  cases discovered.symm.trans discovered'
  exact ⟨inherits, after, _, ran, ⟨found, discovered, accounts⟩, inOrder,
    accounts.discovered.trans holds.1, accounts.unsupported.trans holds.2⟩

end Crawler

end DepAtlas
