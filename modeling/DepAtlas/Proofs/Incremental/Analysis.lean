import DepAtlas.Proofs.FileCache
import DepAtlas.Proofs.Incremental.Evidence

/-!
What one analysis does with everything it reads: it fails and leaves the memory as it is, or it answers
from memory because the stamp or the content is the known one, or it takes over what it extracts.
-/

namespace DepAtlas.Coordinator

variable {coordinator reader after : Coordinator} {fs : FileSystem} {path : Path} {language : Language}
  {content : String} {stamp : Stamp} {state : FileState} {dependencies : List Dependency}
  {analysis : Analysis}

/-- What a coordinator becomes by reading a content. -/
def HasRead (coordinator reader : Coordinator) : Prop :=
  reader = { coordinator with
    files := reader.files
    counts := { coordinator.counts with cacheHits := reader.counts.cacheHits } }

/-- Reading leaves the memory alone, and what was read has the stamp that the file has. -/
theorem readContent_spec {outcome : Except CacheError (String × Stamp)}
    (read : coordinator.readContent fs path = (reader, outcome)) :
    HasRead coordinator reader ∧
      ∀ {content stamp}, outcome = .ok (content, stamp) → Stamp.read fs path = .ok stamp := by
  unfold readContent at read
  split at read
  · cases read
    exact ⟨rfl, fun found => (FileCache.readStamped_eq_ok_iff.mp found).1⟩
  case h_2 cache _ =>
    split at read
    case h_1 next found looked =>
      cases read
      refine ⟨rfl, ?_⟩
      rintro content stamp ⟨⟩
      obtain ⟨-, -, -, -, -, stamped⟩ := FileCache.exists_of_get (congrArg Prod.snd looked)
      exact stamped
    case h_2 next missed =>
      split at read
      · cases read
        exact ⟨rfl, nofun⟩
      case h_2 text isStamp found =>
        cases read
        refine ⟨rfl, ?_⟩
        rintro _ _ ⟨⟩
        exact (FileCache.readStamped_eq_ok_iff.mp found).1

/-- How an analysis comes to its answer. -/
inductive Answers (coordinator : Coordinator) (fs : FileSystem) (path : Path) (language : Language) :
    Coordinator → Except Failure Analysis → Prop
  | unread {reader : Coordinator} {cause : CacheError}
      (read : coordinator.readContent fs path = (reader, .error cause)) :
      Answers coordinator fs path language reader (.error (.cache cause))
  | unextracted {reader : Coordinator} {content : String} {stamp : Stamp} {cause : ExtractError}
      (read : coordinator.readContent fs path = (reader, .ok (content, stamp)))
      (extracted : extractAs coordinator.patterns language path content coordinator.options.layers =
        .error cause) :
      Answers coordinator fs path language reader (.error (.extract cause))
  | byStamp {after : Coordinator} {analysis : Analysis}
      (rule : coordinator.options.verifyContent = false)
      (unchanged : coordinator.store.stateOf fs path = .unchanged)
      (reused : coordinator.reuse? path = some (after, analysis)) :
      Answers coordinator fs path language after (.ok analysis)
  | byContent {reader after : Coordinator} {content : String} {stamp : Stamp} {analysis : Analysis}
      (rule : coordinator.options.verifyContent = true)
      (read : coordinator.readContent fs path = (reader, .ok (content, stamp)))
      (unchanged : coordinator.store.stateByHash path (Digest.ofString content) = .unchanged)
      (reused : reader.reuse? path = some (after, analysis)) :
      Answers coordinator fs path language
        { after with store := after.store.touch path stamp .unchanged } (.ok analysis)
  | extracted {reader after : Coordinator} {content : String} {stamp : Stamp} {state : FileState}
      {dependencies : List Dependency} {analysis : Analysis}
      (read : coordinator.readContent fs path = (reader, .ok (content, stamp)))
      (extracted : extractAs coordinator.patterns language path content coordinator.options.layers =
        .ok dependencies)
      (adopted : reader.adopt path stamp (Digest.ofString content) state dependencies =
        (after, analysis)) :
      Answers coordinator fs path language after (.ok analysis)

theorem HasRead.patterns (hasRead : HasRead coordinator reader) :
    reader.patterns = coordinator.patterns := by rw [hasRead]

theorem HasRead.options (hasRead : HasRead coordinator reader) :
    reader.options = coordinator.options := by rw [hasRead]

theorem HasRead.store (hasRead : HasRead coordinator reader) : reader.store = coordinator.store := by
  rw [hasRead]

theorem HasRead.results (hasRead : HasRead coordinator reader) :
    reader.results = coordinator.results := by rw [hasRead]

theorem HasRead.methods (hasRead : HasRead coordinator reader) :
    reader.methods = coordinator.methods := by rw [hasRead]

theorem HasRead.now (hasRead : HasRead coordinator reader) : reader.now = coordinator.now := by
  rw [hasRead]

theorem HasRead.deleted (hasRead : HasRead coordinator reader) :
    reader.deleted = coordinator.deleted := by rw [hasRead]

theorem HasRead.changes (hasRead : HasRead coordinator reader) :
    reader.changes = coordinator.changes := by rw [hasRead]

theorem answers_extractAnew (read : coordinator.readContent fs path = (reader, .ok (content, stamp)))
    (language : Language) (state : FileState) :
    Answers coordinator fs path language
      (reader.extractAnew path language content stamp (Digest.ofString content) state).1
      (reader.extractAnew path language content stamp (Digest.ofString content) state).2 := by
  obtain ⟨hasRead, -⟩ := readContent_spec read
  unfold extractAnew
  rw [hasRead.patterns, hasRead.options]
  split
  case h_1 failed => exact .unextracted read failed
  case h_2 extracted => exact .extracted read extracted rfl

theorem answers_analyze (coordinator : Coordinator) (fs : FileSystem) (path : Path)
    (language : Language) :
    Answers coordinator fs path language (coordinator.analyze fs path language).1
      (coordinator.analyze fs path language).2 := by
  unfold analyze
  dsimp only
  split
  case h_1 after analysis reused =>
    split at reused
    case isTrue unchanged =>
      simp only [Bool.and_eq_true, Bool.not_eq_true', beq_iff_eq] at unchanged
      exact .byStamp unchanged.1 unchanged.2 reused
    case isFalse => cases reused
  case h_2 =>
    unfold analyzeContent
    split
    case h_1 failed => exact .unread failed
    case h_2 reader content stamp read =>
      obtain ⟨hasRead, -⟩ := readContent_spec read
      dsimp only
      split
      case isTrue verifies =>
        rw [hasRead.options] at verifies
        split
        case h_1 after analysis reused =>
          split at reused
          case isTrue unchanged =>
            rw [hasRead.store] at unchanged
            exact .byContent verifies read (eq_of_beq unchanged) reused
          case isFalse => cases reused
        case h_2 => exact answers_extractAnew read language _
      case isFalse => exact answers_extractAnew read language _

/-- What an analysis takes over. -/
theorem adopt_spec {contentHash : UInt64}
    (adopted : coordinator.adopt path stamp contentHash state dependencies = (after, analysis)) :
    ∃ fingerprint : Fingerprint, fingerprint.path = path ∧ fingerprint.stamp = stamp ∧
      fingerprint.contentHash = contentHash ∧ fingerprint.lastAnalyzed = coordinator.timestamp ∧
      after = {
        coordinator with
        methods := (coordinator.methods.ingest path dependencies).1
        store := coordinator.store.put path fingerprint
        results := coordinator.results.put path dependencies
        changes := after.changes
        counts := after.counts } ∧
      analysis.dependencies = dependencies ∧ analysis.reused = false ∧
      fingerprint.dependencyHash = Digest.ofStrings (dependencies.map (·.key)) ∧
      after.counts.analyzed = coordinator.counts.analyzed + 1 ∧
      after.counts.skipped = coordinator.counts.skipped := by
  let fingerprint : Fingerprint := {
    path, stamp, contentHash, state
    dependencyHash := Digest.ofStrings (dependencies.map (·.key))
    lastAnalyzed := coordinator.timestamp }
  refine ⟨fingerprint, rfl, rfl, rfl, rfl, ?_⟩
  unfold adopt at adopted
  dsimp only at adopted
  split at adopted
  · unfold recordChange at adopted
    split at adopted <;> cases adopted <;> exact ⟨rfl, rfl, rfl, rfl, rfl, rfl⟩
  · cases adopted
    exact ⟨rfl, rfl, rfl, rfl, rfl, rfl⟩

end DepAtlas.Coordinator
