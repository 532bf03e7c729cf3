import DepAtlas.Proofs.Incremental.Memory
import DepAtlas.Proofs.Incremental.State

/-!
A coordinator is consistent when its cache and its memory come from contents that files had. Every call
keeps it so, and an analysis by a consistent coordinator answers for the content that the file has now.
-/

namespace DepAtlas

namespace FingerprintStore

variable {store : FingerprintStore} {fs : FileSystem} {path : Path}

theorem exists_of_stateOf_eq_unchanged (unchanged : store.stateOf fs path = .unchanged) :
    ∃ known, store.get? path = some known ∧ Stamp.read fs path = .ok known.stamp := by
  unfold stateOf at unchanged
  cases tracked : store.get? path with
  | none =>
    rw [tracked] at unchanged
    cases unchanged
  | some known =>
    refine ⟨known, rfl, ?_⟩
    cases stamped : Stamp.read fs path with
    | error failure =>
      simp only [tracked, stamped] at unchanged
      cases unchanged
    | ok stamp =>
      simp only [tracked, stamped] at unchanged
      split at unchanged
      case isTrue same => rw [eq_of_beq same]
      case isFalse => cases unchanged

theorem exists_of_stateByHash_eq_unchanged {contentHash : UInt64}
    (unchanged : store.stateByHash path contentHash = .unchanged) :
    ∃ known, store.get? path = some known ∧ known.contentHash = contentHash := by
  unfold stateByHash at unchanged
  split at unchanged
  · cases unchanged
  case h_2 known tracked =>
    split at unchanged
    case isTrue same => exact ⟨known, tracked, eq_of_beq same⟩
    case isFalse => cases unchanged

theorem get?_modify_self (store : FingerprintStore) (path : Path) (change : Fingerprint → Fingerprint) :
    (store.modify path change).get? path = (store.get? path).map change := by
  unfold modify
  split
  case h_1 known tracked => rw [Assoc.get?_put, if_pos BEq.rfl, tracked, Option.map_some]
  case h_2 absent => rw [absent, Option.map_none]

end FingerprintStore

/-- Dependencies found in the content that a file has. -/
def Project.Answers (project : Project) (fs : FileSystem) (path : Path)
    (dependencies : List Dependency) : Prop :=
  ∃ content, fs.readText path = .ok content ∧ project.Finds path content dependencies

namespace Coordinator

structure Consistent (project : Project) (moments : List FileSystem) (coordinator : Coordinator) :
    Prop where
  patterns : coordinator.patterns = project.patterns
  layers : coordinator.options.layers = project.layers
  genuine : ∀ cache ∈ coordinator.files, cache.Genuine moments
  remembers : project.Remembers moments coordinator.store coordinator.results

variable {project : Project} {moments later : List FileSystem} {fs : FileSystem}
  {coordinator : Coordinator} {path : Path}

theorem consistent_coordinator (project : Project) (moments : List FileSystem)
    (options : IncrementalOptions) (methods : MethodTable) (limits : Option (Nat × Nat)) :
    (project.coordinator options methods limits).Consistent project moments where
  patterns := rfl
  layers := rfl
  genuine := by
    intro cache isCache entry member
    obtain ⟨⟨maxEntries, maxBytes⟩, -, isOption⟩ := Option.bind_eq_some_iff.mp isCache
    rw [FileCache.entries_of_create (eq_ok_of_toOption isOption)] at member
    cases member
  remembers := .nothing project moments

namespace Consistent

theorem mono (consistent : coordinator.Consistent project moments) (kept : moments ⊆ later) :
    coordinator.Consistent project later where
  patterns := consistent.patterns
  layers := consistent.layers
  genuine cache isCache entry member := (consistent.genuine cache isCache entry member).mono kept
  remembers := consistent.remembers.mono kept

theorem recordChange (consistent : coordinator.Consistent project moments) (path : Path)
    (previous current : List Dependency) :
    (coordinator.recordChange path previous current).1.Consistent project moments := by
  unfold Coordinator.recordChange
  split
  · exact consistent
  · exact ⟨consistent.patterns, consistent.layers, consistent.genuine, consistent.remembers⟩

theorem invalidated (consistent : coordinator.Consistent project moments) (path : Path) :
    ∀ cache ∈ coordinator.files.map fun (cache : FileCache) => (cache.invalidate path).1,
      cache.Genuine moments := by
  intro cache isCache
  obtain ⟨earlier, isEarlier, rfl⟩ := Option.map_eq_some_iff.mp isCache
  exact (consistent.genuine earlier isEarlier).invalidate path

theorem invalidate (consistent : coordinator.Consistent project moments) (path : Path) :
    (coordinator.invalidate path).Consistent project moments where
  patterns := consistent.patterns
  layers := consistent.layers
  genuine := consistent.invalidated path
  remembers := (consistent.remembers.eraseFingerprint path).eraseResult path

theorem clear (consistent : coordinator.Consistent project moments) :
    coordinator.clear.Consistent project moments where
  patterns := consistent.patterns
  layers := consistent.layers
  genuine := consistent.genuine
  remembers := .nothing project moments

theorem forget (consistent : coordinator.Consistent project moments) (fingerprint : Fingerprint) :
    (coordinator.forget fingerprint).Consistent project moments := by
  have erased : Consistent project moments { coordinator with
      methods := (coordinator.methods.remove fingerprint.path).1
      files := coordinator.files.map fun (cache : FileCache) => (cache.invalidate fingerprint.path).1
      results := coordinator.results.erase fingerprint.path } :=
    ⟨consistent.patterns, consistent.layers, consistent.invalidated fingerprint.path,
      consistent.remembers.eraseResult fingerprint.path⟩
  have recorded := erased.recordChange fingerprint.path
    ((coordinator.resultOf? fingerprint.path).getD []) []
  exact ⟨recorded.patterns, recorded.layers, recorded.genuine, recorded.remembers⟩

theorem detectDeleted (consistent : coordinator.Consistent project moments) (fs : FileSystem)
    (seen : List Path) : (coordinator.detectDeleted fs seen).1.Consistent project moments := by
  unfold Coordinator.detectDeleted
  have untracked : project.Remembers moments
      ((coordinator.goneFiles fs seen).foldl
        (fun store fingerprint => Assoc.erase fingerprint.path store) coordinator.store)
      coordinator.results :=
    List.foldlRecOn (motive := (project.Remembers moments · coordinator.results))
      (coordinator.goneFiles fs seen) _ consistent.remembers
      fun _ remembers fingerprint _ => remembers.eraseFingerprint fingerprint.path
  refine List.foldlRecOn _ _ ?_ fun _ earlier fingerprint _ => earlier.forget fingerprint
  exact ⟨consistent.patterns, consistent.layers, consistent.genuine, untracked⟩

theorem detectMove {state : Coordinator × List (Path × Path)}
    (consistent : state.1.Consistent project moments) (path : Path) :
    (Coordinator.detectMove state path).1.Consistent project moments := by
  obtain ⟨coordinator, moves⟩ := state
  unfold Coordinator.detectMove
  dsimp only
  split
  · exact consistent
  case h_2 known tracked =>
    split
    · exact consistent
    · split
      · exact consistent
      · split
        · exact consistent
        · refine ⟨consistent.patterns, consistent.layers, consistent.genuine, ?_⟩
          have keyed : (known.path == path) = true := consistent.remembers.keyed tracked
          refine consistent.remembers.putFingerprint keyed fun dependencies found => ?_
          exact (consistent.remembers.recalls tracked found).amend rfl rfl

theorem detectMoves (consistent : coordinator.Consistent project moments) :
    coordinator.detectMoves.1.Consistent project moments :=
  List.foldlRecOn
    (motive := fun (state : Coordinator × List (Path × Path)) => state.1.Consistent project moments)
    coordinator.store.paths _ consistent fun _ earlier path _ => earlier.detectMove path

theorem ofState (consistent : coordinator.Consistent project moments) {state : SavedState}
    (faithful : state.Faithful project moments) :
    (coordinator.ofState state).Consistent project moments := by
  have empty : Consistent project moments
      { coordinator with store := FingerprintStore.ofList state.fingerprints, results := [] } :=
    ⟨consistent.patterns, consistent.layers, consistent.genuine, .ofList project moments _⟩
  suffices restored : (coordinator.ofState state).Consistent project moments ∧
      (coordinator.ofState state).store = FingerprintStore.ofList state.fingerprints from restored.1
  refine List.foldlRecOn
    (motive := fun (restored : Coordinator) => restored.Consistent project moments ∧
      restored.store = FingerprintStore.ofList state.fingerprints)
    state.results _ ⟨empty, rfl⟩ ?_
  rintro earlier ⟨kept, sameStore⟩ result isResult
  unfold restore
  split
  · refine ⟨⟨kept.patterns, kept.layers, kept.genuine, ?_⟩, sameStore⟩
    refine kept.remembers.putResult fun fingerprint tracked => ?_
    rw [sameStore] at tracked
    obtain ⟨isFingerprint, same⟩ := FingerprintStore.mem_of_get?_ofList tracked
    exact faithful fingerprint isFingerprint result isResult same
  · exact ⟨kept, sameStore⟩

theorem loadState (consistent : coordinator.Consistent project moments) {fs : FileSystem} {path : Path}
    (faithful : ∀ bytes, fs.read path = .ok bytes →
      ∃ state : SavedState, state.encode = bytes ∧ state.Faithful project moments) :
    (coordinator.loadState fs path).1.Consistent project moments := by
  unfold Coordinator.loadState
  split
  case h_1 read isRead =>
    obtain ⟨bytes, readable, isDecoded, -⟩ := SavedState.exists_of_read isRead
    obtain ⟨state, rfl, trusted⟩ := faithful bytes readable
    rw [SavedState.eq_of_decode?_encode isDecoded]
    exact consistent.ofState trusted
  case h_2 => exact consistent

theorem reuse (consistent : coordinator.Consistent project moments) {after : Coordinator}
    {analysis : Analysis} (reused : coordinator.reuse? path = some (after, analysis)) :
    after.Consistent project moments ∧
      coordinator.results.get? path = some analysis.dependencies ∧
      after.store = coordinator.store.modify path ({ · with state := .unchanged }) ∧
      after.results = coordinator.results := by
  obtain ⟨dependencies, found, same⟩ := Option.map_eq_some_iff.mp reused
  cases same
  refine ⟨⟨consistent.patterns, consistent.layers, consistent.genuine, ?_⟩, found, rfl, rfl⟩
  refine consistent.remembers.modify path (fun _ => rfl) fun known dependencies tracked found => ?_
  exact (consistent.remembers.recalls tracked found).amend rfl rfl

/-- What is read, from the cache or not, is what the file has. -/
theorem readContent (consistent : coordinator.Consistent project moments) (stable : Stable moments)
    (present : fs ∈ moments) (path : Path) :
    (coordinator.readContent fs path).1.Consistent project moments ∧
      ∀ content stamp, (coordinator.readContent fs path).2 = .ok (content, stamp) →
        Stamp.read fs path = .ok stamp ∧ fs.readText path = .ok content := by
  unfold Coordinator.readContent
  split
  · exact ⟨consistent, fun content stamp read => FileCache.readStamped_eq_ok_iff.mp read⟩
  case h_2 cache isCache =>
    have genuine := consistent.genuine cache isCache
    have looked := genuine.get fs path
    split
    case h_1 after found isFound =>
      rw [isFound] at looked
      refine ⟨⟨consistent.patterns, consistent.layers, ?_, consistent.remembers⟩, ?_⟩
      · rintro _ ⟨⟩
        exact looked
      · rintro content stamp ⟨⟩
        exact FileCache.readStamped_eq_ok_iff.mp
          (genuine.readStamped_of_get stable.stampsTell present (congrArg Prod.snd isFound))
    case h_2 after missed =>
      rw [missed] at looked
      split
      · refine ⟨⟨consistent.patterns, consistent.layers, ?_, consistent.remembers⟩, nofun⟩
        rintro _ ⟨⟩
        exact looked
      case h_2 content stamp isRead =>
        have read := FileCache.readStamped_eq_ok_iff.mp isRead
        refine ⟨⟨consistent.patterns, consistent.layers, ?_, consistent.remembers⟩, ?_⟩
        · rintro _ ⟨⟩
          exact looked.put ⟨fs, present, path, BEq.rfl, read⟩
        · rintro _ _ ⟨⟩
          exact read

end Consistent

/-- What an analysis leaves is consistent, and what it answers holds of the content that the file has. -/
structure Settles (project : Project) (moments : List FileSystem) (fs : FileSystem) (path : Path)
    (result : Coordinator × Except Failure Analysis) : Prop where
  consistent : result.1.Consistent project moments
  answers : ∀ analysis, result.2 = .ok analysis → project.Answers fs path analysis.dependencies

namespace Consistent

theorem adopt (consistent : coordinator.Consistent project moments) {stamp : Stamp}
    {contentHash : UInt64} {state : FileState} {dependencies : List Dependency}
    (recalls : ∀ fingerprint : Fingerprint, fingerprint.stamp = stamp →
      fingerprint.contentHash = contentHash → project.Recalls moments path fingerprint dependencies) :
    (coordinator.adopt path stamp contentHash state dependencies).1.Consistent project moments := by
  unfold Coordinator.adopt
  dsimp only
  split
  · refine Consistent.recordChange ?_ path _ dependencies
    exact ⟨consistent.patterns, consistent.layers, consistent.genuine,
      consistent.remembers.adopt BEq.rfl (recalls _ rfl rfl)⟩
  · exact ⟨consistent.patterns, consistent.layers, consistent.genuine,
      consistent.remembers.adopt BEq.rfl (recalls _ rfl rfl)⟩

theorem extractAnew (consistent : coordinator.Consistent project moments) (present : fs ∈ moments)
    {content : String} {stamp : Stamp} (stamped : Stamp.read fs path = .ok stamp)
    (readable : fs.readText path = .ok content) (state : FileState) :
    Settles project moments fs path (coordinator.extractAnew path (project.languageOf path) content
      stamp (Digest.ofString content) state) := by
  unfold Coordinator.extractAnew
  rw [consistent.patterns, consistent.layers]
  split
  · exact ⟨consistent, nofun⟩
  case h_2 dependencies extracted =>
    have finds : project.Finds path content dependencies := ⟨path, BEq.rfl, extracted⟩
    refine ⟨consistent.adopt fun fingerprint isStamp isHash => ?_, ?_⟩
    · refine ⟨content, ?_, isHash, finds⟩
      rw [isStamp]
      exact ⟨fs, present, path, BEq.rfl, stamped, readable⟩
    · rintro _ ⟨⟩
      exact ⟨content, readable, finds⟩

/-- A known digest of the present content makes the result hold of it. -/
theorem finds_of_stateByHash (consistent : coordinator.Consistent project moments)
    (stable : Stable moments) (present : fs ∈ moments) {content : String}
    {dependencies : List Dependency} (readable : fs.readText path = .ok content)
    (unchanged : coordinator.store.stateByHash path (Digest.ofString content) = .unchanged)
    (found : coordinator.results.get? path = some dependencies) :
    project.Finds path content dependencies := by
  obtain ⟨known, tracked, sameHash⟩ := FingerprintStore.exists_of_stateByHash_eq_unchanged unchanged
  obtain ⟨earlier, witnessed, hashed, finds⟩ := consistent.remembers.recalls tracked found
  have sameContent : earlier = content :=
    stable.digests earlier content witnessed.occurs ⟨fs, present, path, readable⟩
      (hashed.symm.trans sameHash)
  rw [← sameContent]
  exact finds

/-- A known stamp makes the result hold of the present content. -/
theorem answers_of_stateOf (consistent : coordinator.Consistent project moments)
    (stable : Stable moments) (present : fs ∈ moments) {dependencies : List Dependency}
    (unchanged : coordinator.store.stateOf fs path = .unchanged)
    (found : coordinator.results.get? path = some dependencies) :
    project.Answers fs path dependencies := by
  obtain ⟨known, tracked, stamped⟩ := FingerprintStore.exists_of_stateOf_eq_unchanged unchanged
  obtain ⟨content, witnessed, -, finds⟩ := consistent.remembers.recalls tracked found
  exact ⟨content, stable.stampsTell.readText_of_witnessed present witnessed stamped, finds⟩

/-- The fingerprint of a result that holds of the present content may take the present stamp. -/
theorem touch (consistent : coordinator.Consistent project moments) (stable : Stable moments)
    (present : fs ∈ moments) {content : String} {stamp : Stamp} {after : Coordinator}
    {analysis : Analysis} (stamped : Stamp.read fs path = .ok stamp)
    (readable : fs.readText path = .ok content)
    (unchanged : coordinator.store.stateByHash path (Digest.ofString content) = .unchanged)
    (reused : coordinator.reuse? path = some (after, analysis)) :
    Consistent project moments { after with store := after.store.touch path stamp .unchanged } := by
  obtain ⟨kept, -, sameStore, sameResults⟩ := consistent.reuse reused
  refine ⟨kept.patterns, kept.layers, kept.genuine, ?_⟩
  refine kept.remembers.modify path (fun _ => rfl) fun touched dependencies isTouched found => ?_
  obtain ⟨known, tracked, sameHash⟩ := FingerprintStore.exists_of_stateByHash_eq_unchanged unchanged
  rw [sameStore, FingerprintStore.get?_modify_self, tracked] at isTouched
  cases isTouched
  rw [sameResults] at found
  exact ⟨content, ⟨fs, present, path, BEq.rfl, stamped, readable⟩, sameHash,
    consistent.finds_of_stateByHash stable present readable unchanged found⟩

theorem analyzeContent (consistent : coordinator.Consistent project moments) (stable : Stable moments)
    (present : fs ∈ moments) (path : Path) (stampState : FileState) :
    Settles project moments fs path
      (coordinator.analyzeContent fs path (project.languageOf path) stampState) := by
  unfold Coordinator.analyzeContent
  obtain ⟨kept, isRead⟩ := consistent.readContent stable present path
  split
  case h_1 reader cause failed =>
    rw [failed] at kept
    exact ⟨kept, nofun⟩
  case h_2 reader content stamp found =>
    rw [found] at kept isRead
    obtain ⟨stamped, readable⟩ := isRead content stamp rfl
    dsimp only at kept ⊢
    split
    · split
      case h_1 after analysis reused =>
        split at reused
        case isTrue unchanged =>
          have same := eq_of_beq unchanged
          obtain ⟨-, recalled, -⟩ := kept.reuse reused
          refine ⟨kept.touch stable present stamped readable same reused, ?_⟩
          rintro _ ⟨⟩
          exact ⟨content, readable, kept.finds_of_stateByHash stable present readable same recalled⟩
        case isFalse => cases reused
      · exact kept.extractAnew present stamped readable _
    · exact kept.extractAnew present stamped readable _

/-- A consistent coordinator answers every analysis for the content that the file has. -/
theorem analyze (consistent : coordinator.Consistent project moments) (stable : Stable moments)
    (present : fs ∈ moments) (path : Path) :
    Settles project moments fs path (coordinator.analyze fs path (project.languageOf path)) := by
  unfold Coordinator.analyze
  dsimp only
  split
  case h_1 after analysis reused =>
    split at reused
    case isTrue unchanged =>
      obtain ⟨kept, found, -⟩ := consistent.reuse reused
      have same := eq_of_beq (Bool.and_eq_true_iff.mp unchanged).2
      refine ⟨kept, ?_⟩
      rintro _ ⟨⟩
      exact consistent.answers_of_stateOf stable present same found
    case isFalse => cases reused
  · exact consistent.analyzeContent stable present path _

end Consistent

end Coordinator

end DepAtlas
