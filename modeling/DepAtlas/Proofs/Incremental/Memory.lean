import DepAtlas.Proofs.Assoc
import DepAtlas.Proofs.Incremental.Evidence
import DepAtlas.Proofs.Path.Sorting

/-!
The memory of a coordinator: fingerprints and results agree when each pair of them comes from one
content. The agreement survives being saved and restored.
-/

namespace DepAtlas

namespace Dependency

theorem respell_beq {path other : Path} (same : (path == other) = true) (dependency : Dependency) :
    (dependency.respell path == dependency.respell other) = true := by
  change (_ && _) = true
  simp [same]

end Dependency

/-- Under another spelling of a path the same dependencies are found. -/
theorem exists_extractAs {patterns : PatternStore} {language : Language} {spelling path : Path}
    {content : String} {layers : LayerMask} {dependencies : List Dependency}
    (same : (spelling == path) = true)
    (extracted : extractAs patterns language spelling content layers = .ok dependencies) :
    ∃ found, extractAs patterns language path content layers = .ok found ∧
      (dependencies == found) = true := by
  have own := extractAs_respell patterns language spelling spelling content layers
  have here := extractAs_respell patterns language spelling path content layers
  rw [extracted] at own here
  refine ⟨_, here, ?_⟩
  rw [Except.ok.inj own]
  generalize dependencies = all
  induction all with
  | nil => rfl
  | cons first rest ih =>
    simp only [List.map_cons, List.cons_beq_cons, Bool.and_eq_true]
    exact ⟨Dependency.respell_beq same _, ih⟩

namespace Project

/-- Dependencies found in a content that stands at a path in some spelling. -/
def Finds (project : Project) (path : Path) (content : String) (dependencies : List Dependency) : Prop :=
  ∃ spelling, (spelling == path) = true ∧ project.extract spelling content = .ok dependencies

/-- A fingerprint and a result of a path that come from one content. -/
def Recalls (project : Project) (moments : List FileSystem) (path : Path) (fingerprint : Fingerprint)
    (dependencies : List Dependency) : Prop :=
  ∃ content, Witnessed moments path fingerprint.stamp content ∧
    fingerprint.contentHash = Digest.ofString content ∧ project.Finds path content dependencies

variable {project : Project} {moments later : List FileSystem} {path other : Path} {content : String}
  {fingerprint : Fingerprint} {dependencies : List Dependency}

theorem Finds.congr (finds : project.Finds path content dependencies) (same : (path == other) = true) :
    project.Finds other content dependencies := by
  obtain ⟨spelling, spelled, found⟩ := finds
  exact ⟨spelling, BEq.trans spelled same, found⟩

/-- Under the path itself the same dependencies are found. -/
theorem Finds.extract (finds : project.Finds path content dependencies) :
    ∃ found, project.extract path content = .ok found ∧ (dependencies == found) = true := by
  obtain ⟨spelling, same, extracted⟩ := finds
  unfold Project.extract at extracted ⊢
  rw [← project.languageOf_congr same]
  exact exists_extractAs same extracted

theorem Recalls.mono (recalls : project.Recalls moments path fingerprint dependencies)
    (kept : moments ⊆ later) : project.Recalls later path fingerprint dependencies := by
  obtain ⟨content, witnessed, rest⟩ := recalls
  exact ⟨content, witnessed.mono kept, rest⟩

theorem Recalls.congr (recalls : project.Recalls moments path fingerprint dependencies)
    (same : (path == other) = true) : project.Recalls moments other fingerprint dependencies := by
  obtain ⟨content, witnessed, hashed, finds⟩ := recalls
  exact ⟨content, witnessed.congr same, hashed, finds.congr same⟩

theorem Recalls.amend (recalls : project.Recalls moments path fingerprint dependencies)
    {amended : Fingerprint} (sameStamp : amended.stamp = fingerprint.stamp)
    (sameHash : amended.contentHash = fingerprint.contentHash) :
    project.Recalls moments path amended dependencies := by
  obtain ⟨content, witnessed, hashed, finds⟩ := recalls
  refine ⟨content, ?_, sameHash.trans hashed, finds⟩
  rw [sameStamp]
  exact witnessed

/-- Fingerprints and results that come from the same contents, each path having at most one of each. -/
structure Remembers (project : Project) (moments : List FileSystem) (store : FingerprintStore)
    (results : Assoc Path (List Dependency)) : Prop where
  distinctStore : Assoc.Distinct store
  distinctResults : Assoc.Distinct results
  keyed : ∀ {path fingerprint}, store.get? path = some fingerprint → (fingerprint.path == path) = true
  recalls : ∀ {path fingerprint dependencies}, store.get? path = some fingerprint →
    results.get? path = some dependencies → project.Recalls moments path fingerprint dependencies

namespace Remembers

variable {store : FingerprintStore} {results : Assoc Path (List Dependency)}

theorem nothing (project : Project) (moments : List FileSystem) :
    project.Remembers moments [] [] where
  distinctStore := .nil
  distinctResults := .nil
  keyed found := nomatch found
  recalls found := nomatch found

theorem mono (remembers : project.Remembers moments store results) (kept : moments ⊆ later) :
    project.Remembers later store results where
  distinctStore := remembers.distinctStore
  distinctResults := remembers.distinctResults
  keyed := remembers.keyed
  recalls tracked found := (remembers.recalls tracked found).mono kept

theorem eraseFingerprint (remembers : project.Remembers moments store results) (path : Path) :
    project.Remembers moments (store.erase path) results where
  distinctStore := remembers.distinctStore.erase path
  distinctResults := remembers.distinctResults
  keyed tracked := by
    rw [Assoc.get?_erase] at tracked
    split at tracked
    · cases tracked
    · exact remembers.keyed tracked
  recalls tracked found := by
    rw [Assoc.get?_erase] at tracked
    split at tracked
    · cases tracked
    · exact remembers.recalls tracked found

theorem eraseResult (remembers : project.Remembers moments store results) (path : Path) :
    project.Remembers moments store (results.erase path) where
  distinctStore := remembers.distinctStore
  distinctResults := remembers.distinctResults.erase path
  keyed := remembers.keyed
  recalls tracked found := by
    rw [Assoc.get?_erase] at found
    split at found
    · cases found
    · exact remembers.recalls tracked found

/-- A fingerprint may be put in if it comes from the same content as the result. -/
theorem putFingerprint (remembers : project.Remembers moments store results)
    (keyed : (fingerprint.path == path) = true)
    (recalls : ∀ dependencies, results.get? path = some dependencies →
      project.Recalls moments path fingerprint dependencies) :
    project.Remembers moments (store.put path fingerprint) results where
  distinctStore := remembers.distinctStore.put path fingerprint
  distinctResults := remembers.distinctResults
  keyed tracked := by
    rw [Assoc.get?_put] at tracked
    split at tracked
    case isTrue same =>
      cases tracked
      exact BEq.trans keyed same
    case isFalse => exact remembers.keyed tracked
  recalls tracked found := by
    rw [Assoc.get?_put] at tracked
    split at tracked
    case isTrue same =>
      cases tracked
      exact (recalls _ ((Assoc.get?_congr same results).trans found)).congr same
    case isFalse => exact remembers.recalls tracked found

/-- A result may be put in if it comes from the same content as the fingerprint. -/
theorem putResult (remembers : project.Remembers moments store results)
    (recalls : ∀ fingerprint, store.get? path = some fingerprint →
      project.Recalls moments path fingerprint dependencies) :
    project.Remembers moments store (results.put path dependencies) where
  distinctStore := remembers.distinctStore
  distinctResults := remembers.distinctResults.put path dependencies
  keyed := remembers.keyed
  recalls tracked found := by
    rw [Assoc.get?_put] at found
    split at found
    case isTrue same =>
      cases found
      exact (recalls _ ((Assoc.get?_congr same store).trans tracked)).congr same
    case isFalse => exact remembers.recalls tracked found

/-- A new analysis of a path replaces both its fingerprint and its result. -/
theorem adopt (remembers : project.Remembers moments store results)
    (keyed : (fingerprint.path == path) = true)
    (recalls : project.Recalls moments path fingerprint dependencies) :
    project.Remembers moments (store.put path fingerprint) (results.put path dependencies) := by
  have forgotten : project.Remembers moments (store.put path fingerprint) (results.erase path) := by
    refine (remembers.eraseResult path).putFingerprint keyed fun _ found => ?_
    rw [Assoc.get?_erase, if_pos BEq.rfl] at found
    cases found
  refine ⟨forgotten.distinctStore, remembers.distinctResults.put path dependencies, forgotten.keyed, ?_⟩
  intro other known others tracked found
  rw [Assoc.get?_put] at tracked found
  by_cases same : (path == other) = true
  · rw [if_pos same] at tracked found
    cases tracked
    cases found
    exact recalls.congr same
  · rw [if_neg same] at tracked found
    exact remembers.recalls tracked found

theorem modify (remembers : project.Remembers moments store results) (path : Path)
    {change : Fingerprint → Fingerprint} (keepsPath : ∀ known, (change known).path = known.path)
    (recalls : ∀ known dependencies, store.get? path = some known →
      results.get? path = some dependencies → project.Recalls moments path (change known) dependencies) :
    project.Remembers moments (store.modify path change) results := by
  unfold FingerprintStore.modify
  split
  case h_1 known tracked =>
    refine remembers.putFingerprint ?_ fun dependencies found => recalls known dependencies tracked found
    rw [keepsPath]
    exact remembers.keyed tracked
  case h_2 => exact remembers

end Remembers

end Project

namespace FingerprintStore

variable {fingerprints : List Fingerprint}

theorem distinct_ofList (fingerprints : List Fingerprint) :
    Assoc.Distinct (FingerprintStore.ofList fingerprints) :=
  List.foldlRecOn fingerprints _ .nil fun _ distinct fingerprint _ =>
    distinct.put fingerprint.path fingerprint

theorem mem_or_of_get?_foldl_put {store : FingerprintStore} {path : Path} {fingerprint : Fingerprint}
    (tracked : (fingerprints.foldl (fun store known => Assoc.put known.path known store) store).get? path =
      some fingerprint) :
    (fingerprint ∈ fingerprints ∧ (fingerprint.path == path) = true) ∨
      store.get? path = some fingerprint := by
  induction fingerprints generalizing store with
  | nil => exact .inr tracked
  | cons first rest ih =>
    rcases ih tracked with ⟨member, same⟩ | earlier
    · exact .inl ⟨List.mem_cons_of_mem _ member, same⟩
    · rw [Assoc.get?_put] at earlier
      split at earlier
      case isTrue same =>
        cases earlier
        exact .inl ⟨List.mem_cons_self, same⟩
      case isFalse => exact .inr earlier

theorem mem_of_get?_ofList {path : Path} {fingerprint : Fingerprint}
    (tracked : (FingerprintStore.ofList fingerprints).get? path = some fingerprint) :
    fingerprint ∈ fingerprints ∧ (fingerprint.path == path) = true :=
  (mem_or_of_get?_foldl_put tracked).resolve_right nofun

end FingerprintStore

/-- A fingerprint and a result of one path come from one content. -/
def SavedState.Faithful (project : Project) (moments : List FileSystem) (state : SavedState) : Prop :=
  ∀ fingerprint ∈ state.fingerprints, ∀ result ∈ state.results,
    (fingerprint.path == result.path) = true →
      project.Recalls moments result.path fingerprint result.dependencies

namespace Project.Remembers

variable {project : Project} {moments : List FileSystem}

theorem ofList (project : Project) (moments : List FileSystem) (fingerprints : List Fingerprint) :
    project.Remembers moments (FingerprintStore.ofList fingerprints) [] where
  distinctStore := FingerprintStore.distinct_ofList fingerprints
  distinctResults := .nil
  keyed tracked := (FingerprintStore.mem_of_get?_ofList tracked).2
  recalls _ found := nomatch found

theorem faithful_toState {coordinator : Coordinator}
    (remembers : project.Remembers moments coordinator.store coordinator.results) :
    coordinator.toState.Faithful project moments := by
  intro fingerprint isFingerprint result isResult same
  obtain ⟨entry, isEntry, rfl⟩ := List.mem_map.mp (mem_sortByPath.mp isFingerprint)
  obtain ⟨found, isFound, rfl⟩ := List.mem_map.mp isResult
  have tracked := remembers.distinctStore.get?_of_mem isEntry
  have keyed := remembers.keyed tracked
  have stored := remembers.distinctResults.get?_of_mem (mem_sortByPath.mp isFound)
  rw [Assoc.get?_congr (BEq.trans (BEq.symm keyed) same)] at tracked
  exact remembers.recalls tracked stored

end Project.Remembers

end DepAtlas
