import DepAtlas.Proofs.Crawl.Scope
import DepAtlas.Proofs.Incremental.Stock
import DepAtlas.Proofs.Walk.Stability

/-!
The course of an incremental crawl that works on one file after the other. A clean one settles every file
that it works on. What it tracks in the end was worked on, or is there; all of it is of known languages, in
every state that crawls leave one after the other.
-/

namespace DepAtlas

/-- The dependencies that the work on a file gave. -/
def WorkResult.dependencies (result : WorkResult) : List Dependency :=
  (result.outcome.toOption.map (·.dependencies)).getD []

/-- Whether a file was answered for from memory. -/
def WorkResult.isReused (result : WorkResult) : Bool :=
  result.outcome.toOption.any (·.reused)

namespace Coordinator

variable {coordinator after : Coordinator} {fs later : FileSystem} {path other : Path}
  {language : Language} {dependencies : List Dependency} {analysis : Analysis} {verifies : Bool}

namespace Settled

theorem congr_metadata (settled : coordinator.Settled verifies fs path dependencies)
    (result : after.resultOf? other = coordinator.resultOf? path)
    (fingerprint : after.fingerprint? other = coordinator.fingerprint? path)
    (same : later.metadata other = fs.metadata path) :
    after.Settled verifies later other dependencies :=
  settled.congr result fingerprint (by rw [Stamp.read, Stamp.read, same]) (readText_congr same)

theorem exists_metadata (settled : coordinator.Settled verifies fs path dependencies) :
    ∃ node, fs.metadata path = .ok node := by
  obtain ⟨known, -, covers⟩ := settled.covered
  unfold Fingerprint.Covers at covers
  split at covers
  · obtain ⟨content, readable, -⟩ := covers
    exact exists_metadata_of_readText readable
  · obtain ⟨node, isNode, -⟩ := exists_of_map_eq_ok covers
    exact ⟨node, isNode⟩

/-- A file is settled under every spelling of its path that can be read. -/
theorem respell (settled : coordinator.Settled verifies fs path dependencies)
    (same : (other == path) = true) {bytes : Bytes} (readable : fs.read other = .ok bytes) :
    coordinator.Settled verifies fs other dependencies := by
  obtain ⟨node, isNode⟩ := settled.exists_metadata
  obtain ⟨found, resolved, -⟩ := exists_of_map_eq_ok isNode
  refine settled.congr_metadata (Assoc.get?_congr same _) (Assoc.get?_congr same _) ?_
  rw [FileSystem.metadata, FileSystem.metadata, resolved, FileSystem.resolve_respell same readable resolved]

/-- The analysis of another file, or of this one once more, leaves a file settled. -/
theorem analyze (settled : coordinator.Settled coordinator.options.verifyContent fs path dependencies)
    (truthful : Truthful fs coordinator.files) {bytes : Bytes} (readable : fs.read other = .ok bytes)
    (language : Language) :
    (coordinator.analyze fs other language).1.Settled coordinator.options.verifyContent fs path
      dependencies := by
  cases same : other == path with
  | true =>
    obtain ⟨next, analyzed, keeps, results, -⟩ :=
      analyze_of_settled truthful (settled.respell same readable) language
    rw [analyzed]
    exact settled.keep keeps (by rw [resultOf?, results]; rfl)
  | false =>
    obtain ⟨result, fingerprint⟩ := analyze_frame same
    exact settled.congr_metadata result fingerprint rfl

end Settled

/-- What the work on files does to the memory: each of them gets settled, and others are left alone. -/
structure Completes (fs : FileSystem) (coordinator after : Coordinator) (results : List WorkResult) :
    Prop where
  options : after.options = coordinator.options
  savable : coordinator.Savable → after.Savable
  truthful : Truthful fs after.files
  settled : ∀ result ∈ results,
    after.Settled coordinator.options.verifyContent fs result.item.path result.dependencies
  keeps : ∀ {path dependencies},
    coordinator.Settled coordinator.options.verifyContent fs path dependencies →
      after.Settled coordinator.options.verifyContent fs path dependencies
  others : ∀ {path}, (∀ result ∈ results, (result.item.path == path) = false) →
    after.fingerprint? path = coordinator.fingerprint? path

/-- One file that is worked on with success. -/
theorem completes_process (fits : fs.Fits) (truthful : Truthful fs coordinator.files) (item : WorkItem)
    {bytes : Bytes} (readable : fs.read item.path = .ok bytes)
    (success : (item.result ((Processor.incremental fs).process coordinator item).2).isSuccess = true) :
    Completes fs coordinator ((Processor.incremental fs).process coordinator item).1
      [item.result ((Processor.incremental fs).process coordinator item).2] := by
  obtain ⟨isNext, isOutcome⟩ := Crawler.process_incremental coordinator fs item
  have isPath : (item.result ((Processor.incremental fs).process coordinator item).2).item = item := rfl
  generalize item.result ((Processor.incremental fs).process coordinator item).2 = result at *
  rw [isNext]
  cases analyzed : coordinator.analyze fs item.path item.language with
  | mk next answer =>
    rw [WorkResult.isSuccess, isOutcome, analyzed] at success
    cases answer with
    | error cause => cases success
    | ok analysis =>
      obtain ⟨settled, proceeds⟩ := settled_of_analyze truthful analyzed
      have savable (savable : coordinator.Savable) := savable.analyze fits item.path item.language
      rw [analyzed] at savable isOutcome
      refine ⟨proceeds.options, savable, proceeds.truthful, fun result' member => ?_, fun settled => ?_,
        fun {path} apart => ?_⟩
      · cases List.mem_singleton.mp member
        rw [isPath, WorkResult.dependencies, isOutcome]
        exact settled
      · have kept := settled.analyze truthful readable item.language
        rw [analyzed] at kept
        exact kept
      · have frame := apart result (List.mem_singleton_self _)
        rw [isPath] at frame
        have kept : (coordinator.analyze fs item.path item.language).1.fingerprint? path =
            coordinator.fingerprint? path := (analyze_frame frame).2
        rw [analyzed] at kept
        exact kept

theorem Completes.append {next last : Coordinator} {first second : List WorkResult}
    (completes : Completes fs coordinator next first) (more : Completes fs next last second) :
    Completes fs coordinator last (first ++ second) := by
  have rule := completes.options
  obtain ⟨options, savable, truthful, settled, keeps, others⟩ := more
  rw [rule] at settled keeps
  refine ⟨options.trans rule, savable ∘ completes.savable, truthful, fun result member => ?_,
    keeps ∘ completes.keeps, fun apart => ?_⟩
  · rcases List.mem_append.mp member with member | member
    · exact keeps (completes.settled result member)
    · exact settled result member
  · rw [others fun result member => apart result (List.mem_append_right _ member)]
    exact completes.others fun result member => apart result (List.mem_append_left _ member)

end Coordinator

namespace Crawler

open Coordinator (Completes)

variable {coordinator after : Coordinator} {fs : FileSystem} {token : CancellationToken} {id : Nat}

/-- Files that are worked on one after the other, all with success. -/
theorem completes_processSerial (fits : fs.Fits) {work : List (Path × Language)}
    {results : List WorkResult} (truthful : Truthful fs coordinator.files)
    (readable : ∀ file ∈ work, ∃ bytes, fs.read file.1 = .ok bytes)
    (worked : processSerial token (Processor.incremental fs) id work coordinator = (after, .ok results))
    (success : ∀ result ∈ results, result.isSuccess = true) : Completes fs coordinator after results := by
  induction work generalizing id coordinator results with
  | nil =>
    cases worked
    exact ⟨rfl, fun savable => savable, truthful, fun _ impossible => (nomatch impossible),
      fun settled => settled, fun _ => rfl⟩
  | cons file rest ih =>
    obtain ⟨path, language⟩ := file
    cases cancelled : token.isCancelled with
    | true =>
      rw [processSerial, if_pos cancelled] at worked
      cases worked
    | false =>
      let item : WorkItem := { id, path, language }
      rw [processSerial_cons cancelled item] at worked
      obtain ⟨bytes, isRead⟩ := readable (path, language) List.mem_cons_self
      cases continued : processSerial token (Processor.incremental fs) (id + 1) rest
          ((Processor.incremental fs).process coordinator item).1 with
      | mk last reply =>
        rw [continued] at worked
        cases reply with
        | error cause => cases worked
        | ok more =>
          cases worked
          have first := Coordinator.completes_process fits truthful item isRead
            (success _ List.mem_cons_self)
          have others := ih first.truthful (fun file member => readable file (List.mem_cons_of_mem _ member))
            continued fun result member => success result (List.mem_cons_of_mem _ member)
          exact first.append others

/-- Files that are all settled are answered for from memory, one after the other. -/
theorem exists_processSerial_of_settled (running : token.isCancelled = false) {results : List WorkResult}
    (truthful : Truthful fs coordinator.files)
    (settled : ∀ result ∈ results,
      coordinator.Settled coordinator.options.verifyContent fs result.item.path result.dependencies)
    (id : Nat) :
    ∃ after again,
      processSerial token (Processor.incremental fs) id
          (results.map fun result => (result.item.path, result.item.language)) coordinator =
        (after, .ok again) ∧
      again.map (fun result => (result.item.path, result.dependencies)) =
        results.map (fun result => (result.item.path, result.dependencies)) ∧
      (∀ result ∈ again, result.isReused = true) ∧ after.changes = coordinator.changes := by
  induction results generalizing id coordinator with
  | nil => exact ⟨coordinator, [], rfl, rfl, fun _ impossible => (nomatch impossible), rfl⟩
  | cons result rest ih =>
    let item : WorkItem := { id, path := result.item.path, language := result.item.language }
    have here := settled result List.mem_cons_self
    obtain ⟨next, analyzed, keeps, results, changes⟩ :=
      Coordinator.analyze_of_settled truthful here result.item.language
    obtain ⟨-, proceeds⟩ := Coordinator.settled_of_analyze truthful analyzed
    obtain ⟨isNext, isOutcome⟩ := process_incremental coordinator fs item
    rw [analyzed] at isNext isOutcome
    have others (other : WorkResult) (member : other ∈ rest) :
        next.Settled next.options.verifyContent fs other.item.path other.dependencies := by
      rw [proceeds.options]
      refine (settled other (List.mem_cons_of_mem _ member)).keep keeps ?_
      rw [Coordinator.resultOf?, results]
      rfl
    obtain ⟨after, again, worked, same, reused, unchanged⟩ := ih proceeds.truthful others (id + 1)
    let first := item.result ((Processor.incremental fs).process coordinator item).2
    refine ⟨after, first :: again, ?_, ?_, ?_, unchanged.trans changes⟩
    · rw [List.map_cons, processSerial_cons running item, isNext, worked]
      rfl
    · have isFirst : first.dependencies = result.dependencies := by
        rw [WorkResult.dependencies, isOutcome]
        rfl
      rw [List.map_cons, List.map_cons, same, isFirst]
      rfl
    · intro other member
      rcases List.mem_cons.mp member with rfl | member
      · rw [WorkResult.isReused, isOutcome]
        rfl
      · exact reused other member

/-- An incremental crawl that works on one file after the other, up to the point where it takes stock. -/
structure Course (crawler : Crawler) (fs : FileSystem) (found : Discovered) (files : Option FileCache)
    (coordinator : Coordinator) (results : List WorkResult) : Prop where
  discovered : crawler.discover fs = .ok found
  created : crawler.createCache = .ok files
  worked : processSerial crawler.token (Processor.incremental fs) 0 found.work
    (crawler.createCoordinator fs files) = (coordinator, .ok results)

/-- Results in the order of their paths. -/
def inOrder (results : List WorkResult) : List WorkResult :=
  sortByPath (fun result => result.item.path) results

namespace Course

variable {crawler : Crawler} {found : Discovered} {files : Option FileCache} {results : List WorkResult}

theorem run (course : Course crawler fs found files coordinator results)
    (serial : crawler.isParallel = false) (incremental : crawler.config.cache.isIncremental = true) :
    let stock := takeStock coordinator fs found.walked.files (inOrder results)
    crawler.run fs = (stock.1.close fs, .ok (crawler.assemble fs found stock.2)) := by
  intro stock
  have processed : crawler.processAll (Processor.incremental fs) found.work
      (crawler.createCoordinator fs files) = (coordinator, .ok (inOrder results)) := by
    simp only [processAll, serial, Bool.false_eq_true, if_false, course.worked]
    rfl
  simp only [Crawler.run, course.discovered, work, course.created, incremental, if_true, processed]
  rfl

variable (course : Course crawler fs found files coordinator results)
include course

theorem spec : (crawler.createCoordinator fs files).Resumes coordinator results ∧
    results.map (fun result => (result.item.path, result.item.language)) = found.work := by
  obtain ⟨inStep, keyed⟩ := createCoordinator_spec crawler fs files
  have begun : (crawler.createCoordinator fs files).Resumes (crawler.createCoordinator fs files) [] :=
    ⟨inStep, keyed, fun _ => ⟨rfl, Iff.rfl⟩⟩
  exact processSerial_spec (Coordinator.keeps_incremental fs _) begun course.worked

theorem exists_mem_work {result : WorkResult} (member : result ∈ results) :
    ∃ file ∈ found.work, file.1 = result.item.path :=
  ⟨_, course.spec.2 ▸ List.mem_map.mpr ⟨result, member, rfl⟩, rfl⟩

end Course

theorem mem_files_of_mem_work {crawler : Crawler} {found : Discovered}
    (discovered : crawler.discover fs = .ok found) {file : Path × Language} (member : file ∈ found.work) :
    file.1 ∈ found.walked.files := by
  obtain ⟨globs, state, -, -, rfl⟩ := discover_eq_ok_iff.mp discovered
  obtain ⟨path, inFiles, isLanguage⟩ := List.mem_filterMap.mp member
  obtain ⟨language, -, rfl⟩ := Option.map_eq_some_iff.mp isLanguage
  exact inFiles

theorem ofPath?_congr {path other : Path} (same : (path == other) = true) :
    Language.ofPath? path = Language.ofPath? other := by
  rw [Language.ofPath?, Language.ofPath?, Path.extension?, Path.extension?, Path.fileName?, Path.fileName?,
    (Path.beq_iff path other).mp same]

/-- The state that a crawl finds is in order, and of files of known languages. -/
def Familiar (crawler : Crawler) (fs : FileSystem) : Prop :=
  ∀ file state, crawler.stateFile? fs = some file → SavedState.read fs file = .ok (some state) →
    state.Tidy ∧ ∀ fingerprint ∈ state.fingerprints, (Language.ofPath? fingerprint.path).isSome = true

/-- What a crawl starts from. -/
structure Begins (crawler : Crawler) (fs : FileSystem) (files : Option FileCache)
    (coordinator : Coordinator) : Prop where
  options : coordinator.options =
    { IncrementalOptions.ofConfig crawler.config.cache crawler.layers with
      stateFile := crawler.stateFile? fs }
  files : coordinator.files = files
  changes : coordinator.changes = []

theorem begins_createCoordinator (crawler : Crawler) (fs : FileSystem) (files : Option FileCache) :
    crawler.Begins fs files (crawler.createCoordinator fs files) := by
  unfold createCoordinator
  dsimp only
  split
  case h_2 => exact ⟨rfl, rfl, rfl⟩
  case h_1 path isFile =>
    unfold Coordinator.loadState
    split
    · refine List.foldlRecOn (motive := crawler.Begins fs files) _ _ ⟨rfl, rfl, rfl⟩ ?_
      intro earlier begins result _
      unfold Coordinator.restore
      split
      · exact ⟨begins.options, begins.files, begins.changes⟩
      · exact begins
    · exact ⟨rfl, rfl, rfl⟩

theorem savable_createCoordinator {crawler : Crawler} (time : crawler.now.seconds.toNat < limit64)
    (fs : FileSystem) (files : Option FileCache) : (crawler.createCoordinator fs files).Savable := by
  unfold createCoordinator
  dsimp only
  split
  · refine Coordinator.Savable.loadState ?_ _ _
    exact ⟨.nothing, time⟩
  · exact ⟨.nothing, time⟩

/-- What a crawl remembers in the beginning stands under its own path, and is of a known language. -/
theorem known_of_familiar {crawler : Crawler} (familiar : crawler.Familiar fs) {files : Option FileCache}
    {path : Path} {known : Fingerprint}
    (found : (crawler.createCoordinator fs files).fingerprint? path = some known) :
    known.path ∈ Assoc.keys (crawler.createCoordinator fs files).store ∧
      (Language.ofPath? known.path).isSome = true := by
  unfold createCoordinator at found ⊢
  dsimp only at found ⊢
  split at found
  case h_2 => cases found
  case h_1 file isFile =>
    unfold Coordinator.loadState at found ⊢
    split at found
    case h_2 => cases found
    case h_1 state read =>
      obtain ⟨tidy, languages⟩ := familiar file state isFile read
      rw [Coordinator.ofState_eq tidy] at found
      obtain ⟨entry, member, -, rfl⟩ := Assoc.exists_mem_of_get? found
      obtain ⟨fingerprint, isFingerprint, rfl⟩ := List.mem_map.mp member
      refine ⟨?_, languages fingerprint isFingerprint⟩
      simp only [isFile]
      rw [Coordinator.ofState_eq tidy]
      exact List.mem_map.mpr ⟨_, member, rfl⟩

namespace Course

variable {crawler : Crawler} {found : Discovered} {files : Option FileCache} {results : List WorkResult}
  (course : Course crawler fs found files coordinator results)
include course

/-- Files that were worked on are not missed. -/
theorem not_misses {path : Path} (worked : ∃ file ∈ found.work, (file.1 == path) = true) :
    ¬ coordinator.Misses fs found.walked.files path := by
  rintro ⟨key, -, same, unseen, -⟩
  obtain ⟨file, member, isFile⟩ := worked
  refine Bool.eq_false_iff.mp unseen (List.contains_iff_exists_mem_beq.mpr ?_)
  exact ⟨file.1, mem_files_of_mem_work course.discovered member, BEq.trans same (BEq.symm isFile)⟩

/-- A clean crawl ends with all its files settled. -/
theorem completes (tree : fs.IsTree) (fits : fs.Fits)
    (success : ∀ result ∈ results, result.isSuccess = true) :
    Completes fs (crawler.createCoordinator fs files) coordinator results := by
  have truthful : Truthful fs (crawler.createCoordinator fs files).files := by
    rw [(begins_createCoordinator crawler fs files).files]
    exact truthful_create course.created
  refine completes_processSerial fits truthful (fun file member => ?_) course.worked success
  obtain ⟨-, location, content, time, resolved⟩ := exists_file_of_mem_work tree course.discovered member
  refine ⟨content, ?_⟩
  rw [FileSystem.read, FileSystem.metadata, resolved]
  rfl

/-- What is tracked in the end was worked on, or is there and of a known language. -/
theorem lasting (familiar : crawler.Familiar fs)
    (completes : Completes fs (crawler.createCoordinator fs files) coordinator results) {path : Path}
    {known : Fingerprint}
    (tracked : (takeStock coordinator fs found.walked.files (inOrder results)).1.fingerprint? path =
      some known) :
    (∃ file ∈ found.work, (file.1 == known.path) = true) ∨
      (fs.exists? known.path = true ∧ (Language.ofPath? known.path).isSome = true) := by
  obtain ⟨resumes, -⟩ := course.spec
  obtain ⟨earlier, before, isPath, present⟩ := exists_of_takeStock resumes.keyed tracked
  rw [isPath]
  have same := resumes.keyed path earlier before
  by_cases worked : ∃ file ∈ found.work, (file.1 == path) = true
  · obtain ⟨file, member, isFile⟩ := worked
    exact .inl ⟨file, member, BEq.trans isFile (BEq.symm same)⟩
  · have apart : ∀ result ∈ results, (result.item.path == path) = false := by
      intro result member
      refine eq_false_of_ne_true fun isResult => worked ?_
      obtain ⟨file, inWork, isFile⟩ := course.exists_mem_work member
      exact ⟨file, inWork, isFile ▸ isResult⟩
    have unprocessed : ¬ Processed results earlier.path := by
      rintro ⟨result, member, -, isResult⟩
      exact Bool.eq_false_iff.mp (apart result member) (BEq.trans isResult same)
    rw [completes.others apart] at before
    obtain ⟨isKey, language⟩ := known_of_familiar familiar before
    refine .inr ⟨?_, language⟩
    by_contra absent
    refine present ⟨earlier.path, (resumes.others unprocessed).2.mpr isKey, same, ?_,
      eq_false_of_ne_true absent⟩
    refine eq_false_of_ne_true fun seen => worked ?_
    -- A file of a known language that was walked was worked on.
    obtain ⟨other, walked, isOther⟩ := List.contains_iff_exists_mem_beq.mp seen
    obtain ⟨globs, state, -, -, rfl⟩ := discover_eq_ok_iff.mp course.discovered
    rw [ofPath?_congr isOther] at language
    obtain ⟨value, isLanguage⟩ := Option.isSome_iff_exists.mp language
    exact ⟨(other, value), List.mem_filterMap.mpr ⟨other, walked, by rw [isLanguage]; rfl⟩,
      BEq.trans (BEq.symm isOther) same⟩

end Course

/-- The memory that a crawl ends with, also when it is cancelled. -/
def Ends (crawler : Crawler) (fs : FileSystem) (coordinator : Coordinator) : Prop :=
  ∃ found files last reply, crawler.discover fs = .ok found ∧ crawler.createCache = .ok files ∧
    crawler.processAll (Processor.incremental fs) found.work (crawler.createCoordinator fs files) =
      (last, reply) ∧
    coordinator = match reply with
      | .error _ => last
      | .ok results => (takeStock last fs found.walked.files results).1

/-- The states that crawls leave, one after the other, with one configuration. What happens to the files
between two crawls is left open, as long as a crawl does not find a state from elsewhere. -/
inductive Left (crawler : Crawler) : SavedState → Prop
  | crawl {fs : FileSystem} {coordinator : Coordinator} (now : Time) (token : CancellationToken)
      (tree : fs.IsTree) (fits : fs.Fits) (time : now.seconds.toNat < limit64)
      (origin : ∀ file state, crawler.stateFile? fs = some file →
        SavedState.read fs file = .ok (some state) → Left crawler state)
      (ends : Ends { crawler with now, token } fs coordinator) : Left crawler coordinator.toState

/-- The state that a crawl ends with is saved to a file. -/
def Saves (crawler : Crawler) (fs : FileSystem) (file : Path) : Prop :=
  crawler.stateFile? fs = some file ∧
    ∃ coordinator, crawler.Ends fs coordinator ∧ (coordinator.saveState fs file).2 = .ok ()

section History

variable {crawler : Crawler} {found : Discovered} {files : Option FileCache} {results : List WorkResult}

/-- A crawl that works on one file after the other ends with what it started from if it fails, and takes
stock if not. -/
theorem Ends.cases (ends : crawler.Ends fs coordinator) (serial : crawler.isParallel = false) :
    ∃ found files, crawler.discover fs = .ok found ∧ crawler.createCache = .ok files ∧
      ((coordinator = crawler.createCoordinator fs files ∧ ∃ last cause,
          crawler.processAll (Processor.incremental fs) found.work
            (crawler.createCoordinator fs files) = (last, .error cause)) ∨
        ∃ last results, Course crawler fs found files last results ∧
          coordinator = (takeStock last fs found.walked.files (inOrder results)).1) := by
  obtain ⟨found, files, last, reply, discovered, created, processed, isEnd⟩ := ends
  refine ⟨found, files, discovered, created, ?_⟩
  cases reply with
  | error cause =>
    exact .inl ⟨isEnd.trans (processAll_error processed), last, cause, processed⟩
  | ok sorted =>
    obtain ⟨results, handles, rfl⟩ := exists_handles_of_processAll processed
    rw [Handles, if_neg (by simp [serial])] at handles
    exact .inr ⟨last, results, ⟨discovered, created, handles⟩, isEnd⟩

/-- What is tracked is of a known language, or was worked on. -/
structure Records (coordinator : Coordinator) (done : List WorkResult) : Prop where
  savable : coordinator.Savable
  languages : ∀ {path known}, coordinator.fingerprint? path = some known →
    (Language.ofPath? known.path).isSome = true ∨ ∃ result ∈ done, result.item.path = known.path

theorem Records.more {done : List WorkResult} (records : Records coordinator done)
    (savable : after.Savable) (result : WorkResult)
    (paths : ∀ {path known}, after.fingerprint? path = some known →
      known.path = result.item.path ∨
        ∃ earlier, coordinator.fingerprint? path = some earlier ∧ known.path = earlier.path) :
    Records after (done ++ [result]) := by
  refine ⟨savable, fun {path known} tracked => ?_⟩
  rcases paths tracked with new | ⟨earlier, before, same⟩
  · exact .inr ⟨result, List.mem_append_right _ List.mem_cons_self, new.symm⟩
  · rw [same]
    rcases records.languages before with known | ⟨other, member, isOther⟩
    · exact .inl known
    · exact .inr ⟨other, List.mem_append_left _ member, isOther⟩

theorem keeps_records (fits : fs.Fits) : (Processor.incremental fs).Keeps Records fun _ _ => True := by
  refine keeps_of_analyze fun {coordinator done} result records _ => ?_
  have savable := records.savable.analyze fits result.item.path result.item.language
  have analyzes := Coordinator.analyzes_analyze coordinator fs result.item.path result.item.language
  generalize coordinator.analyze fs result.item.path result.item.language = analyzed at savable analyzes ⊢
  obtain ⟨after, answer⟩ := analyzed
  refine records.more savable result fun {path known} tracked => ?_
  cases analyzes with
  | failed _ _ _ store =>
    rw [Coordinator.fingerprint?, store] at tracked
    exact .inr ⟨known, tracked, rfl⟩
  | reused _ _ _ _ store =>
    obtain ⟨earlier, before, same⟩ := store.paths tracked
    exact .inr ⟨earlier, before, same⟩
  | adopted _ fingerprint isPath _ _ store =>
    rw [Coordinator.fingerprint?, store, Assoc.get?_put] at tracked
    split at tracked
    · cases tracked
      exact .inl isPath
    · exact .inr ⟨known, tracked, rfl⟩

/-- A crawl that starts from files of known languages ends with such. -/
theorem Ends.records (ends : crawler.Ends fs coordinator) (serial : crawler.isParallel = false)
    (tree : fs.IsTree) (fits : fs.Fits) (time : crawler.now.seconds.toNat < limit64)
    (familiar : crawler.Familiar fs) : Records coordinator [] := by
  obtain ⟨found, files, discovered, created, ⟨rfl, -⟩ | ⟨last, results, course, rfl⟩⟩ := ends.cases serial
  all_goals
    have begun : Records (crawler.createCoordinator fs files) [] :=
      ⟨savable_createCoordinator time fs files, fun tracked => .inl (known_of_familiar familiar tracked).2⟩
  · exact begun
  · obtain ⟨records, -⟩ := processSerial_spec (keeps_records fits) begun course.worked
    refine ⟨savable_takeStock records.savable _ _ _, fun tracked => .inl ?_⟩
    obtain ⟨earlier, before, same, -⟩ := exists_of_takeStock course.spec.1.keyed tracked
    rw [same]
    rcases records.languages before with known | ⟨result, member, isResult⟩
    · exact known
    · obtain ⟨file, inWork, isFile⟩ := course.exists_mem_work member
      obtain ⟨isLanguage, -⟩ := exists_file_of_mem_work tree discovered inWork
      rw [← isResult, ← isFile, isLanguage]
      rfl

/-- All states that crawls leave are in order, and of files of known languages. -/
theorem Left.spec (serial : crawler.isParallel = false) {state : SavedState} (left : crawler.Left state) :
    state.Tidy ∧ ∀ fingerprint ∈ state.fingerprints, (Language.ofPath? fingerprint.path).isSome = true := by
  induction left with
  | crawl now token tree fits time origin ends ih =>
    obtain ⟨savable, languages⟩ := ends.records serial tree fits time ih
    refine ⟨savable.tidy_toState, fun fingerprint member => ?_⟩
    obtain ⟨entry, isEntry, rfl⟩ := List.mem_map.mp (mem_sortByPath.mp member)
    rcases languages (savable.storable.distinctStore.get?_of_mem isEntry) with known | ⟨_, impossible, -⟩
    · exact known
    · cases impossible

end History

end Crawler

end DepAtlas
