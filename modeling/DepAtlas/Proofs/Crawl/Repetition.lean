import DepAtlas.Proofs.Crawl.Course

/-!
A crawl that is run once more. The first one settles every file that it works on, and saves what it
remembers; the second one finds the same files, answers for all of them from memory, and has nothing to
report.
-/

namespace DepAtlas.Crawler

open Coordinator (Completes)

variable {coordinator : Coordinator} {fs : FileSystem}

section Restart

variable {crawler : Crawler} {later : FileSystem} {file : Path}

/-- A crawl that finds the state that another one has saved. -/
theorem createCoordinator_of_saved (isFile : crawler.stateFile? later = some file)
    (savable : coordinator.Savable) (tree : fs.IsTree) (unlinked : SavedState.Unlinked fs file)
    (saved : coordinator.saveState fs file = (later, .ok ())) (files : Option FileCache) :
    (crawler.createCoordinator later files).store = coordinator.toState.store ∧
      (crawler.createCoordinator later files).results = coordinator.toState.files := by
  unfold createCoordinator
  simp only [isFile]
  rw [Coordinator.loadState_saveState savable tree unlinked saved,
    Coordinator.ofState_eq savable.tidy_toState]
  exact ⟨rfl, rfl⟩

theorem settled_of_saved (isFile : crawler.stateFile? later = some file)
    (savable : coordinator.Savable) (tree : fs.IsTree) (unlinked : SavedState.Unlinked fs file)
    (saved : coordinator.saveState fs file = (later, .ok ())) (files : Option FileCache) {path : Path}
    {verifies : Bool} {dependencies : List Dependency}
    (settled : coordinator.Settled verifies fs path dependencies)
    (same : later.metadata path = fs.metadata path) :
    (crawler.createCoordinator later files).Settled verifies later path dependencies := by
  obtain ⟨store, results⟩ := createCoordinator_of_saved isFile savable tree unlinked saved files
  refine settled.congr_metadata ?_ ?_ same
  · rw [Coordinator.resultOf?, results]
    exact savable.get?_files path
  · rw [Coordinator.fingerprint?, store]
    exact savable.get?_store path

/-- The state file of a crawl does not depend on what was put in place of a file. -/
theorem stateFile?_eq {goal : Location} {found : Discovered} (footprint : FileSystem.Footprint fs later goal)
    (discovered : crawler.discover fs = .ok found)
    (there : ∀ root ∈ crawler.roots, later.exists? root = true) :
    crawler.stateFile? later = crawler.stateFile? fs := by
  obtain ⟨globs, state, -, walked, -⟩ := discover_eq_ok_iff.mp discovered
  unfold stateFile?
  split
  · rfl
  cases isRoots : crawler.roots with
  | nil => rfl
  | cons root rest =>
    rw [isRoots] at walked there
    obtain ⟨next, first, -⟩ := exists_of_bind_eq_ok walked
    obtain ⟨location, node, resolved, kind⟩ := Walk.exists_of_walkRoot first
    have same : (later.metadata root).toOption.any Node.isFile =
        (fs.metadata root).toOption.any Node.isFile := by
      rw [FileSystem.metadata, FileSystem.metadata]
      cases Walk.matches_of_exists footprint resolved (there root List.mem_cons_self) with
      | nowhere before => cases before.symm.trans resolved
      | same _ before now => rw [before, now]
      | goal leaf before now =>
        cases before.symm.trans resolved
        rw [leaf, Bool.or_false] at kind
        rw [before, now]
        exact kind.symm
    simp only [List.head?_cons, Option.map_some, same]

/-- A file that a crawl works on before and after is the same. -/
theorem metadata_of_mem_work {goal : Location} {found found' : Discovered} {worked : Path × Language}
    (footprint : FileSystem.Footprint fs later goal) (discovered : crawler.discover fs = .ok found)
    (discovered' : crawler.discover later = .ok found') (spares : crawler.Spares fs goal)
    (member : worked ∈ found.work) (member' : worked ∈ found'.work) :
    later.metadata worked.1 = fs.metadata worked.1 := by
  obtain ⟨-, location, content, time, before⟩ := exists_file_of_mem_work footprint.tree discovered member
  obtain ⟨-, location', content', time', now⟩ :=
    exists_file_of_mem_work footprint.grown discovered' member'
  have apart : location ≠ goal := by
    rintro rfl
    refine spares found discovered worked member ?_
    rw [FileSystem.canonical, before]
    rfl
  obtain ⟨stored, resolved, same, -⟩ := footprint.resolve before (FileSystem.exists?_iff.mpr ⟨_, now⟩)
  rw [FileSystem.metadata, FileSystem.metadata, before, resolved, same apart]

end Restart

/-- Every file that is tracked is found again. -/
theorem Course.all_present {crawler : Crawler} {found : Discovered} {files : Option FileCache}
    {results : List WorkResult} (course : Course crawler fs found files coordinator results)
    (tracked : ∀ key ∈ Assoc.keys (crawler.createCoordinator fs files).store,
      (∃ file ∈ found.work, (file.1 == key) = true) ∨ fs.exists? key = true) (path : Path) :
    ¬ coordinator.Misses fs found.walked.files path := by
  obtain ⟨resumes, -⟩ := course.spec
  intro misses
  obtain ⟨key, isKey, same, unseen, absent⟩ := misses
  have unworked (worked : ∃ file ∈ found.work, (file.1 == key) = true) : False :=
    course.not_misses worked ⟨key, isKey, BEq.rfl, unseen, absent⟩
  have unprocessed : ¬ Processed results key := by
    rintro ⟨result, member, -, isResult⟩
    obtain ⟨file, inWork, isFile⟩ := course.exists_mem_work member
    exact unworked ⟨file, inWork, isFile ▸ isResult⟩
  rcases tracked key ((resumes.others unprocessed).2.mp isKey) with worked | there
  · exact unworked worked
  · cases absent.symm.trans there

section Account

variable {results others : List WorkResult}

theorem flatMap_succeeded_dependencies (results : List WorkResult) :
    (succeeded results).flatMap (·.2.dependencies) = results.flatMap WorkResult.dependencies := by
  induction results with
  | nil => rfl
  | cons result rest ih =>
    rw [succeeded, List.filterMap_cons, List.flatMap_cons, ← ih, WorkResult.dependencies]
    cases result.outcome with
    | error cause => rfl
    | ok file => rfl

theorem flatMap_inOrder
    (same : results.map (fun result => (result.item.path, result.dependencies)) =
      others.map (fun result => (result.item.path, result.dependencies))) :
    (inOrder results).flatMap WorkResult.dependencies = (inOrder others).flatMap WorkResult.dependencies := by
  have view (results : List WorkResult) : (inOrder results).flatMap WorkResult.dependencies =
      (sortByPath Prod.fst (results.map fun result => (result.item.path, result.dependencies))).flatMap
        (·.2) := by
    rw [← map_sortByPath, List.flatMap_map]
    rfl
  rw [view, view, same]

theorem countP_succeeded (holds : ProcessedFile → Bool) (results : List WorkResult) :
    (succeeded results).countP (fun entry => holds entry.2) =
      results.countP fun result => result.outcome.toOption.any holds := by
  rw [succeeded, List.countP_filterMap]
  refine List.countP_congr fun result _ => ?_
  cases result.outcome <;> simp [Except.toOption]

theorem length_succeeded (success : ∀ result ∈ results, result.isSuccess = true) :
    (succeeded (inOrder results)).length = results.length := by
  have perm : (inOrder results).Perm results := List.mergeSort_perm _ _
  rw [← perm.length_eq, succeeded, List.length_filterMap_eq_countP, List.countP_eq_length]
  intro result member
  rw [Option.isSome_map]
  exact success result (perm.mem_iff.mp member)

/-- The account of a crawl that worked on all files with success. -/
theorem account_assemble (success : ∀ result ∈ results, result.isSuccess = true) (crawler : Crawler)
    (fs : FileSystem) (found : Discovered) (coordinator : Coordinator) :
    let graph := crawler.assemble fs found
      (takeStock coordinator fs found.walked.files (inOrder results)).2
    graph.stats.analyzed + graph.stats.reused = results.length ∧
      graph.stats.reused = results.countP WorkResult.isReused ∧
      graph.dependencies = (inOrder results).flatMap WorkResult.dependencies := by
  intro graph
  have perm : (inOrder results).Perm results := List.mergeSort_perm _ _
  have analyzed : graph.stats.analyzed =
      (succeeded (inOrder results)).countP fun entry => !entry.2.reused := rfl
  have reused : graph.stats.reused = (succeeded (inOrder results)).countP fun entry => entry.2.reused := rfl
  refine ⟨?_, (countP_succeeded (·.reused) _).trans (perm.countP_eq _), flatMap_succeeded_dependencies _⟩
  rw [analyzed, reused, ← length_succeeded success, Nat.add_comm,
    List.length_eq_countP_add_countP fun entry : WorkItem × ProcessedFile => entry.2.reused]
  simp

theorem isSuccess_of_failuresOf (clean : failuresOf (inOrder results) = []) :
    ∀ result ∈ results, result.isSuccess = true := by
  intro result member
  have none := List.filterMap_eq_nil_iff.mp clean result (mem_sortByPath.mpr member)
  rw [WorkResult.isSuccess]
  cases outcome : result.outcome with
  | ok file => rfl
  | error cause =>
    rw [outcome] at none
    cases none

end Account

section Repetition

variable {crawler : Crawler} {found : Discovered} {files : Option FileCache} {results : List WorkResult}
  {later : FileSystem} {file : Path} {goal : Location}

/-- Once the work is done, the state is written to the state file. -/
theorem Course.close_eq (completes : Completes fs (crawler.createCoordinator fs files) coordinator results)
    (autoSave : crawler.config.cache.savesState = true) (isFile : crawler.stateFile? fs = some file)
    (seen : List Path) (sorted : List WorkResult) :
    (takeStock coordinator fs seen sorted).1.close fs =
      ((takeStock coordinator fs seen sorted).1.saveState fs file).1 := by
  have options := (options_takeStock coordinator fs seen sorted).trans
    (completes.options.trans (begins_createCoordinator crawler fs files).options)
  simp only [Coordinator.close, options, IncrementalOptions.ofConfig, autoSave, isFile]

/-- A clean crawl after which the state is saved and nothing else is disturbed. -/
structure Handover (crawler : Crawler) (fs later : FileSystem) (file : Path) (goal : Location)
    (found : Discovered) (files : Option FileCache) (coordinator : Coordinator)
    (results : List WorkResult) : Prop where
  course : Course crawler fs found files coordinator results
  completes : Completes fs (crawler.createCoordinator fs files) coordinator results
  savable : coordinator.Savable
  familiar : crawler.Familiar fs
  isFile : crawler.stateFile? fs = some file
  unlinked : SavedState.Unlinked fs file
  saved : (takeStock coordinator fs found.walked.files (inOrder results)).1.saveState fs file =
    (later, .ok ())
  undisturbed : FileSystem.Undisturbed fs later goal
  there : ∀ root ∈ crawler.roots, later.exists? root = true
  spares : crawler.Spares fs goal
  sparesLater : crawler.Spares later goal

namespace Handover

variable (handover : Handover crawler fs later file goal found files coordinator results)
include handover

theorem stateFile?_later : crawler.stateFile? later = some file :=
  (stateFile?_eq handover.undisturbed.toFootprint handover.course.discovered handover.there).trans
    handover.isFile

/-- Every file that the next crawl tracks from the beginning is worked on, or is there. -/
theorem tracked (now : Time) :
    ∀ key ∈ Assoc.keys (createCoordinator { crawler with now } later files).store,
      (∃ worked ∈ found.work, (worked.1 == key) = true) ∨ later.exists? key = true := by
  have savable := savable_takeStock handover.savable fs found.walked.files (inOrder results)
  let again : Crawler := { crawler with now }
  have isFile : again.stateFile? later = some file := handover.stateFile?_later
  obtain ⟨store, -⟩ := createCoordinator_of_saved isFile savable handover.undisturbed.tree
    handover.unlinked handover.saved files
  intro key isKey
  rw [store] at isKey
  obtain ⟨entry, isEntry, rfl⟩ := List.mem_map.mp isKey
  obtain ⟨fingerprint, member, rfl⟩ := List.mem_map.mp isEntry
  obtain ⟨stored, isStored, rfl⟩ := List.mem_map.mp (mem_sortByPath.mp member)
  have found := savable.storable.distinctStore.get?_of_mem isStored
  rcases handover.course.lasting handover.familiar handover.completes found with
    worked | ⟨exists', known⟩
  · exact .inl worked
  · exact .inr (handover.undisturbed.exists? exists' known)

/-- The next crawl has every file settled from the beginning. -/
theorem settled {found' : Discovered} (discovered' : crawler.discover later = .ok found')
    (sameWork : found'.work = found.work) (now : Time) (result : WorkResult) (member : result ∈ results) :
    (createCoordinator { crawler with now } later files).Settled
      (createCoordinator { crawler with now } later files).options.verifyContent later result.item.path
      result.dependencies := by
  let again : Crawler := { crawler with now }
  obtain ⟨resumes, -⟩ := handover.course.spec
  obtain ⟨worked, inWork, isWorked⟩ := handover.course.exists_mem_work member
  have done := handover.completes.settled result member
  rw [(begins_createCoordinator crawler fs files).options] at done
  have ended := settled_takeStock resumes.inStep resumes.keyed done
    (handover.course.not_misses ⟨worked, inWork, isWorked ▸ BEq.rfl⟩) (inOrder results)
  have isFile : again.stateFile? later = some file := handover.stateFile?_later
  rw [(begins_createCoordinator again later files).options]
  refine settled_of_saved isFile (savable_takeStock handover.savable _ _ _) handover.undisturbed.tree
    handover.unlinked handover.saved files ended ?_
  rw [← isWorked]
  exact metadata_of_mem_work handover.undisturbed.toFootprint handover.course.discovered discovered'
    handover.spares inWork (sameWork ▸ inWork)

/-- The next crawl works on the same files, answers for each of them from memory, and misses none. -/
theorem exists_again (running : crawler.token.isCancelled = false) (now : Time) :
    ∃ found' coordinator' again, Course { crawler with now } later found' files coordinator' again ∧
      again.map (fun result => (result.item.path, result.dependencies)) =
        results.map (fun result => (result.item.path, result.dependencies)) ∧
      (∀ result ∈ again, result.isReused = true) ∧ coordinator'.changes = [] ∧
      ∀ path, ¬ coordinator'.Misses later found'.walked.files path := by
  obtain ⟨found', discovered', sameWork⟩ := exists_discover handover.undisturbed running handover.there
    handover.spares handover.sparesLater handover.course.discovered
  have begins := begins_createCoordinator { crawler with now } later files
  have truthful : Truthful later (createCoordinator { crawler with now } later files).files := by
    rw [begins.files]
    exact truthful_create handover.course.created
  obtain ⟨coordinator', again, worked, same, reused, changes⟩ := exists_processSerial_of_settled running
    truthful (handover.settled discovered' sameWork now) 0
  rw [handover.course.spec.2, ← sameWork] at worked
  have course : Course { crawler with now } later found' files coordinator' again :=
    ⟨discovered', handover.course.created, worked⟩
  refine ⟨found', coordinator', again, course, same, reused, changes.trans begins.changes, ?_⟩
  refine course.all_present fun key isKey => ?_
  rw [sameWork]
  exact handover.tracked now key isKey

/-- What the next crawl reports. -/
theorem exists_report (serial : crawler.isParallel = false)
    (incremental : crawler.config.cache.isIncremental = true)
    (running : crawler.token.isCancelled = false) (now : Time) :
    ∃ last repeated, { crawler with now }.run later = (last, .ok repeated) ∧
      repeated.stats.analyzed = 0 ∧ repeated.stats.reused = results.length ∧ repeated.changes = [] ∧
      repeated.stats.deleted = 0 ∧
      repeated.dependencies = (inOrder results).flatMap WorkResult.dependencies := by
  obtain ⟨found', coordinator', again, course, same, reused, changes, present⟩ :=
    handover.exists_again running now
  have success : ∀ result ∈ again, result.isSuccess = true := fun result member => by
    obtain ⟨processed, isProcessed, -⟩ := (Option.any_eq_true _ _).mp (reused result member)
    rw [WorkResult.isSuccess, isProcessed]
    rfl
  have sameLength : again.length = results.length := by
    have lengths := congrArg List.length same
    rwa [List.length_map, List.length_map] at lengths
  obtain ⟨total, allReused, dependencies⟩ :=
    account_assemble success { crawler with now } later found' coordinator'
  rw [List.countP_eq_length.mpr reused] at allReused
  obtain ⟨changesAgain, deleted⟩ := takeStock_of_present course.spec.1.keyed present (inOrder again)
  refine ⟨_, _, course.run serial incremental, ?_, allReused.trans sameLength, changesAgain.trans changes,
    deleted, ?_⟩
  · omega
  · rw [dependencies]
    exact flatMap_inOrder same

end Handover

/-- How a crawl that succeeds went, whose state can be saved. -/
theorem exists_course (serial : crawler.isParallel = false)
    (incremental : crawler.config.cache.isIncremental = true) {graph : DependencyGraph}
    (ran : crawler.run fs = (later, .ok graph)) (saves : crawler.Saves fs file) :
    ∃ found files coordinator results, Course crawler fs found files coordinator results ∧
      later = (takeStock coordinator fs found.walked.files (inOrder results)).1.close fs ∧
      ((takeStock coordinator fs found.walked.files (inOrder results)).1.saveState fs file).2 = .ok () ∧
      graph = crawler.assemble fs found
        (takeStock coordinator fs found.walked.files (inOrder results)).2 := by
  obtain ⟨-, final, ends, saved⟩ := saves
  obtain ⟨found, files, discovered, created,
    ⟨-, last, cause, failed⟩ | ⟨coordinator, results, course, rfl⟩⟩ := ends.cases serial
  · simp only [run, discovered, work, created, incremental, if_true, failed] at ran
    cases ran
  · have isRun := course.run serial incremental
    rw [ran] at isRun
    obtain ⟨isLater, isGraph⟩ := Prod.ext_iff.mp isRun
    exact ⟨found, files, coordinator, results, course, isLater, saved, Except.ok.inj isGraph⟩

end Repetition

theorem spares_of_all {crawler : Crawler} {goal : Location}
    (all : ((crawler.discover fs).toOption.all fun found =>
      found.work.all fun file => (fs.canonical file.1).toOption != some goal) = true) :
    crawler.Spares fs goal := by
  intro found discovered file member
  rw [discovered] at all
  exact bne_iff_ne.mp (List.all_eq_true.mp all file member)

theorem saves_of_any {crawler : Crawler} {file : Path} (isFile : crawler.stateFile? fs = some file)
    (any : ((crawler.discover fs).toOption.any fun found =>
      crawler.createCache.toOption.any fun files =>
        let worked := crawler.processAll (Processor.incremental fs) found.work
          (crawler.createCoordinator fs files)
        worked.2.toOption.any fun results =>
          ((takeStock worked.1 fs found.walked.files results).1.saveState fs file).2.toOption.isSome) =
      true) : crawler.Saves fs file := by
  obtain ⟨found, isFound, any⟩ := (Option.any_eq_true _ _).mp any
  obtain ⟨files, isFiles, any⟩ := (Option.any_eq_true _ _).mp any
  obtain ⟨results, isResults, saved⟩ := (Option.any_eq_true _ _).mp any
  obtain ⟨_, isSaved⟩ := Option.isSome_iff_exists.mp saved
  have ends : crawler.Ends fs (takeStock (crawler.processAll (Processor.incremental fs) found.work
      (crawler.createCoordinator fs files)).1 fs found.walked.files results).1 :=
    ⟨found, files, _, .ok results, eq_ok_of_toOption isFound, eq_ok_of_toOption isFiles,
      Prod.ext rfl (eq_ok_of_toOption isResults), rfl⟩
  exact ⟨isFile, _, ends, eq_ok_of_toOption isSaved⟩

/-- A directory with a link that leads to where the lock of a state file will be. -/
def lockBehindLink : FileSystem where
  nodes := [([], .directory), (["p"], .directory), (["p", "b.rs"], .link ⟨"../s.json.lock"⟩)]
  current := []

/-- An incremental crawl of the directory that follows links. -/
def followingLinks : Crawler where
  config := {
    scan := { followSymlinks := some true }
    cache := { incremental := some true, autoSave := some true, stateFile := some ⟨"s.json"⟩ } }
  roots := [⟨"p"⟩]
  patterns := .filled

/-- A file that imports a module and defines a method, and the draft of a state that was never finished. -/
def unfinishedDraft : FileSystem where
  nodes := [([], .directory), (["p"], .directory), (["p", "lib"], .directory),
    (["p", "lib", "a.rs"], .file "use serde::X;\nfn a() {}\n".toUTF8.toList { seconds := 7 }),
    (["out"], .directory), (["out", "s.json.tmp"], .file [0] { seconds := 7 })]
  current := []

/-- An incremental crawl whose state file is elsewhere. -/
def savingElsewhere : Crawler where
  config := { cache := { incremental := some true, stateFile := some ⟨"out/s.json"⟩ } }
  roots := [⟨"p"⟩]
  patterns := .filled
  now := { seconds := 9 }

end DepAtlas.Crawler
