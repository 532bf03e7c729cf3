import DepAtlas.Proofs.Incremental.History

/-!
Work that goes on after a restart. A coordinator that loads a saved state remembers what the one that
saved it did, and would save the same.
-/

namespace DepAtlas

theorem Assoc.put_of_absent {κ α : Type} [BEq κ] {key : κ} {entries : Assoc κ α}
    (absent : has key entries = false) (value : α) : put key value entries = entries ++ [(key, value)] := by
  induction entries with
  | nil => rfl
  | cons entry rest ih =>
    simp only [has, List.any_cons, Bool.or_eq_false_iff] at absent
    simp only [put, absent.1, Bool.false_eq_true, if_false, List.cons_append, List.cons.injEq, true_and]
    exact ih absent.2

/-- Entries with different keys are put in one behind the other. -/
theorem Assoc.foldl_put {κ α β : Type} [BEq κ] [EquivBEq κ] (key : β → κ) (value : β → α)
    (start : Assoc κ α) {items : List β}
    (distinct : Distinct (start ++ items.map fun item => (key item, value item))) :
    items.foldl (fun entries item => put (key item) (value item) entries) start =
      start ++ items.map fun item => (key item, value item) := by
  induction items generalizing start with
  | nil => simp
  | cons item items ih =>
    have absent : has (key item) start = false := by
      refine List.any_eq_false.mpr fun entry member => ?_
      have apart := (List.pairwise_append.mp distinct).2.2 entry member _ List.mem_cons_self
      simpa using apart
    rw [List.map_cons, ← List.singleton_append, ← List.append_assoc] at distinct
    rw [List.foldl_cons, put_of_absent absent, ih _ distinct, List.append_assoc]
    rfl

namespace SavedState

/-- A state as it is saved: in the order of the paths, each of which stands once among the fingerprints,
and once among the results if it has one. -/
structure Tidy (state : SavedState) : Prop where
  version : state.version = formatVersion
  fingerprints : state.fingerprints.Pairwise fun a b => a.path.Before b.path
  results : state.results.Pairwise fun a b => a.path.Before b.path
  tracked : ∀ result ∈ state.results, ∃ fingerprint ∈ state.fingerprints,
    (fingerprint.path == result.path) = true

/-- The fingerprints under their paths. -/
def store (state : SavedState) : FingerprintStore :=
  state.fingerprints.map fun fingerprint => (fingerprint.path, fingerprint)

/-- The results under their paths. -/
def files (state : SavedState) : Assoc Path (List Dependency) :=
  state.results.map fun result => (result.path, result.dependencies)

/-- The results of tracked files under their paths. -/
def kept (state : SavedState) : Assoc Path (List Dependency) :=
  (state.results.filter fun result =>
    (FingerprintStore.ofList state.fingerprints).has result.path).map fun result =>
      (result.path, result.dependencies)

variable {state : SavedState}

theorem Tidy.distinct_store (tidy : state.Tidy) : Assoc.Distinct state.store :=
  List.pairwise_map.mpr (tidy.fingerprints.imp fun before => before.beq_eq_false)

theorem Tidy.distinct_files (tidy : state.Tidy) : Assoc.Distinct state.files :=
  List.pairwise_map.mpr (tidy.results.imp fun before => before.beq_eq_false)

theorem Tidy.has_store (tidy : state.Tidy) {result : SavedResult} (member : result ∈ state.results) :
    state.store.has result.path = true := by
  obtain ⟨fingerprint, isFingerprint, same⟩ := tidy.tracked result member
  exact List.any_eq_true.mpr ⟨_, List.mem_map.mpr ⟨fingerprint, isFingerprint, rfl⟩, same⟩

end SavedState

namespace Coordinator

variable {coordinator : Coordinator} {state : SavedState}

theorem foldl_restore (coordinator : Coordinator) (results : List SavedResult) :
    let tracked := results.filter fun result => coordinator.store.has result.path
    results.foldl restore coordinator = { coordinator with
      methods := tracked.foldl
        (fun methods result => (methods.ingest result.path result.dependencies).1) coordinator.methods
      results := tracked.foldl
        (fun entries result => Assoc.put result.path result.dependencies entries)
        coordinator.results } := by
  induction results generalizing coordinator with
  | nil => rfl
  | cons result results ih =>
    rw [List.foldl_cons, ih]
    cases has : coordinator.store.has result.path with
    | true => simp [restore, has]
    | false => simp [restore, has]

/-- What loading a state makes of a coordinator: results of files that are not tracked are left out. -/
theorem ofState_eq_kept (coordinator : Coordinator) (state : SavedState) :
    coordinator.ofState state = { coordinator with
      methods := state.kept.foldl (fun methods file => (methods.ingest file.1 file.2).1)
        coordinator.methods
      store := FingerprintStore.ofList state.fingerprints
      results := state.kept.foldl (fun entries file => Assoc.put file.1 file.2 entries) [] } := by
  rw [ofState, foldl_restore]
  simp only [SavedState.kept, List.foldl_map]

/-- What loading a tidy state makes of a coordinator. -/
theorem ofState_eq (tidy : state.Tidy) (coordinator : Coordinator) :
    coordinator.ofState state = { coordinator with
      methods := state.files.foldl (fun methods file => (methods.ingest file.1 file.2).1)
        coordinator.methods
      store := state.store
      results := state.files } := by
  have store : FingerprintStore.ofList state.fingerprints = state.store :=
    Assoc.foldl_put Fingerprint.path id [] tidy.distinct_store
  have kept : state.kept = state.files := by
    rw [SavedState.kept, store, List.filter_eq_self.mpr fun result member => tidy.has_store member]
    rfl
  have results : state.files.foldl (fun entries file => Assoc.put file.1 file.2 entries) [] =
      state.files := by
    have whole := Assoc.foldl_put SavedResult.path SavedResult.dependencies [] tidy.distinct_files
    rw [SavedState.files, List.foldl_map]
    exact whole
  rw [ofState_eq_kept, store, kept, results]

/-- A tidy state that is loaded would be saved again. -/
theorem toState_ofState (tidy : state.Tidy) (coordinator : Coordinator) :
    (coordinator.ofState state).toState = state := by
  have sorted {a b : Path} (before : a.Before b) : (Ord.compare a b).isLE = true := by
    rw [before]
    rfl
  have fingerprints : sortByPath (·.path) (state.store.map (·.2)) = state.fingerprints := by
    have values : state.store.map (·.2) = state.fingerprints := by
      rw [SavedState.store, List.map_map]
      exact List.map_id _
    rw [values]
    exact sortByPath_eq_self (tidy.fingerprints.imp sorted)
  have results : (sortByPath (·.1) state.files).map
      (fun file => { path := file.1, dependencies := file.2 }) = state.results := by
    have inOrder : state.files.Pairwise fun a b => (Ord.compare a.1 b.1).isLE = true :=
      List.pairwise_map.mpr (tidy.results.imp sorted)
    rw [sortByPath_eq_self inOrder, SavedState.files, List.map_map]
    exact List.map_id _
  rw [ofState_eq tidy, toState, FingerprintStore.fingerprints, fingerprints]
  obtain ⟨version, known, found⟩ := state
  simp only [SavedState.mk.injEq]
  exact ⟨tidy.version.symm, trivial, results⟩

theorem files_toState (coordinator : Coordinator) :
    coordinator.toState.files = sortByPath (·.1) coordinator.results := by
  rw [SavedState.files, toState, List.map_map]
  exact List.map_id _

namespace Savable

variable (savable : coordinator.Savable)
include savable

theorem fits_toState : coordinator.toState.Fits where
  version := rfl
  fingerprints fingerprint member := by
    obtain ⟨entry, isEntry, rfl⟩ := List.mem_map.mp (mem_sortByPath.mp member)
    exact savable.storable.fingerprints (savable.storable.distinctStore.get?_of_mem isEntry)
  results result member := by
    obtain ⟨entry, isEntry, rfl⟩ := List.mem_map.mp member
    exact savable.storable.results
      (savable.storable.distinctResults.get?_of_mem (mem_sortByPath.mp isEntry))

theorem beq_key {entry : Path × Fingerprint} (member : entry ∈ coordinator.store) :
    (entry.2.path == entry.1) = true :=
  savable.storable.keyed _ _ (savable.storable.distinctStore.get?_of_mem member)

theorem tidy_toState : coordinator.toState.Tidy where
  version := rfl
  fingerprints := by
    refine pairwise_before_sortByPath Fingerprint.path (List.pairwise_map.mpr ?_)
    refine savable.storable.distinctStore.imp_of_mem fun {a b} isFirst isSecond apart => ?_
    rw [BEq.congr_left (savable.beq_key isFirst), BEq.congr_right (savable.beq_key isSecond)]
    exact apart
  results :=
    List.pairwise_map.mpr (pairwise_before_sortByPath Prod.fst savable.storable.distinctResults)
  tracked result member := by
    obtain ⟨entry, isEntry, rfl⟩ := List.mem_map.mp member
    obtain ⟨fingerprint, found⟩ := savable.storable.tracked
      (savable.storable.distinctResults.get?_of_mem (mem_sortByPath.mp isEntry))
    obtain ⟨known, isKnown, same, rfl⟩ := Assoc.exists_mem_of_get? found
    exact ⟨known.2, mem_sortByPath.mpr (List.mem_map.mpr ⟨known, isKnown, rfl⟩),
      BEq.trans (savable.beq_key isKnown) same⟩

theorem get?_store (path : Path) : coordinator.toState.store.get? path = coordinator.store.get? path := by
  have perm : coordinator.toState.store.Perm (coordinator.store.map fun entry => (entry.2.path, entry.2)) := by
    have sorted : coordinator.toState.fingerprints.Perm (coordinator.store.map (·.2)) :=
      List.mergeSort_perm _ _
    have keyed := sorted.map fun fingerprint => (fingerprint.path, fingerprint)
    rw [List.map_map] at keyed
    exact keyed
  rw [savable.tidy_toState.distinct_store.get?_perm perm]
  have keys (entry : Path × Fingerprint) (member : entry ∈ coordinator.store) :=
    savable.beq_key member
  generalize coordinator.store = store at keys
  induction store with
  | nil => rfl
  | cons entry rest ih =>
    rw [List.map_cons, Assoc.get?_cons, Assoc.get?_cons, BEq.congr_left (keys entry List.mem_cons_self),
      ih fun other member => keys other (List.mem_cons_of_mem _ member)]

theorem get?_files (path : Path) :
    coordinator.toState.files.get? path = coordinator.results.get? path := by
  rw [files_toState]
  exact (savable.storable.distinctResults.get?_perm (List.mergeSort_perm _ _).symm path).symm

end Savable

variable {fs after : FileSystem} {path : Path}

theorem loadState_of_read (read : SavedState.read fs path = .ok (some state)) :
    (coordinator.loadState fs path).1 = coordinator.ofState state := by
  rw [loadState, read]

theorem loadState_saveState (savable : coordinator.Savable) (tree : fs.IsTree)
    (unlinked : SavedState.Unlinked fs path)
    (saved : coordinator.saveState fs path = (after, .ok ())) (other : Coordinator) :
    (other.loadState after path).1 = other.ofState coordinator.toState :=
  loadState_of_read (SavedState.read_write tree unlinked savable.fits_toState saved)

/-- A state file holds the state that was written to it, and a coordinator that loads what another one has
saved remembers the same fingerprints and results, and would save the same bytes. -/
theorem memory_survives_restart (fs : FileSystem) (path : Path) (tree : fs.IsTree)
    (unlinked : SavedState.Unlinked fs path) :
    (∀ (state : SavedState) (time : Time) (after : FileSystem), state.Fits →
      state.write fs path time = (after, .ok ()) →
      SavedState.decode? state.encode = some state ∧
        SavedState.read after path = .ok (some state)) ∧
    (∀ (patterns : PatternStore) (options : IncrementalOptions) (methods : MethodTable)
      (files : Option FileCache) (uses : List Use) (other : Coordinator) (after : FileSystem),
      (∀ use ∈ uses, use.Fits) →
      let coordinator := Coordinator.afterUses { patterns, options, methods, files } uses
      coordinator.saveState fs path = (after, .ok ()) →
      let loaded := (other.loadState after path).1
      (∀ file, loaded.fingerprint? file = coordinator.fingerprint? file) ∧
        (∀ file, loaded.resultOf? file = coordinator.resultOf? file) ∧
        loaded.toState.encode = coordinator.toState.encode ∧
        ∀ last, loaded.saveState after path = (last, .ok ()) → last.read path = after.read path) := by
  refine ⟨fun state time after fits written => ?_, ?_⟩
  · exact ⟨SavedState.decode?_encode_of_fits fits, SavedState.read_write tree unlinked fits written⟩
  intro patterns options methods files uses other after fits coordinator saved loaded
  have savable : coordinator.Savable := (Savable.begin patterns options methods files).afterUses fits
  have isLoaded : loaded = other.ofState coordinator.toState :=
    loadState_saveState savable tree unlinked saved other
  have tidy := savable.tidy_toState
  have again : loaded.toState = coordinator.toState := by
    rw [isLoaded]
    exact toState_ofState tidy other
  refine ⟨fun file => ?_, fun file => ?_, congrArg SavedState.encode again, fun last savedAgain => ?_⟩
  · rw [isLoaded, ofState_eq tidy]
    exact savable.get?_store file
  · rw [isLoaded, ofState_eq tidy]
    exact savable.get?_files file
  · obtain ⟨afterTree, afterUnlinked⟩ := SavedState.unlinked_of_write tree unlinked saved
    rw [saveState, again] at savedAgain
    rw [SavedState.read_of_write afterTree afterUnlinked savedAgain,
      SavedState.read_of_write tree unlinked saved]

/-- An empty file, and a link in place of the draft of a state file. -/
def linkedDraft : FileSystem where
  nodes := [([], .directory), (["a.rs"], .file [] {}), (["s.json.tmp"], .link ⟨"s.json"⟩)]
  current := []

/-- A coordinator for which nothing is extracted, after its analysis of the file. -/
def afterEmptyFile (fs : FileSystem) : Coordinator :=
  afterUses { patterns := .filled, options := { layers := .none } } [.analyze fs ⟨"a.rs"⟩ .rust]

/-- What the link leads to is itself then. -/
theorem linked_draft_loses_memory :
    let coordinator := afterEmptyFile linkedDraft
    let saved := coordinator.saveState linkedDraft ⟨"s.json"⟩
    let loaded := (Coordinator.loadState { patterns := .filled } saved.1 ⟨"s.json"⟩).1
    linkedDraft.IsTree ∧ linkedDraft.Fits ∧ saved.2 = .ok () ∧
      loaded.fingerprint? ⟨"a.rs"⟩ ≠ coordinator.fingerprint? ⟨"a.rs"⟩ := by
  intro coordinator saved loaded
  have isSaved : saved.2.toOption = some () := by decide +kernel
  have known : (coordinator.fingerprint? ⟨"a.rs"⟩).isSome = true := by decide +kernel
  have lost : (loaded.fingerprint? ⟨"a.rs"⟩).isSome = false := by decide +kernel
  refine ⟨FileSystem.isTree_of_isPlaced (by decide) rfl rfl (by decide +kernel),
    FileSystem.fits_of_forall_mem (by decide), eq_ok_of_toOption isSaved, fun same => ?_⟩
  rw [same, known] at lost
  cases lost

/-- A file that imports a module and defines a method. -/
def plainFile : FileSystem where
  nodes := [([], .directory), (["a.rs"], .file "use serde::X;\nfn a() {}\n".toUTF8.toList { seconds := 7 })]
  current := []

/-- The analysis of the file. -/
def plainUses : List Use := [.setTime { seconds := 9 }, .analyze plainFile ⟨"a.rs"⟩ .rust]

/-- A coordinator after its analysis of the file. -/
def afterPlainFile : Coordinator := afterUses { patterns := .filled } plainUses

theorem eq_of_snd {outcome : FileSystem × Except StateError Unit}
    (succeeded : outcome.2.toOption = some ()) : outcome = (outcome.1, .ok ()) :=
  Prod.ext rfl (eq_ok_of_toOption succeeded)

theorem memory_survives_restart_plainFile :
    plainFile.IsTree ∧ SavedState.Unlinked plainFile ⟨"d/s.json"⟩ ∧ (∀ use ∈ plainUses, use.Fits) ∧
      afterPlainFile.toState.Fits ∧ ∃ after,
        afterPlainFile.saveState plainFile ⟨"d/s.json"⟩ = (after, .ok ()) ∧
        SavedState.read after ⟨"d/s.json"⟩ = .ok (some afterPlainFile.toState) ∧
        let loaded := (Coordinator.loadState { patterns := .filled } after ⟨"d/s.json"⟩).1
        (afterPlainFile.fingerprint? ⟨"a.rs"⟩).isSome = true ∧
        loaded.fingerprint? ⟨"a.rs"⟩ = afterPlainFile.fingerprint? ⟨"a.rs"⟩ ∧
        (afterPlainFile.resultOf? ⟨"a.rs"⟩).any (·.length == 2) = true ∧
        loaded.resultOf? ⟨"a.rs"⟩ = afterPlainFile.resultOf? ⟨"a.rs"⟩ ∧
        loaded.toState.encode = afterPlainFile.toState.encode := by
  have tree : plainFile.IsTree := FileSystem.isTree_of_isPlaced (by decide) rfl rfl (by decide +kernel)
  have unlinked : SavedState.Unlinked plainFile ⟨"d/s.json"⟩ := ⟨by decide +kernel, by decide +kernel⟩
  have fitting : plainFile.Fits := FileSystem.fits_of_forall_mem (by decide +kernel)
  have fits : ∀ use ∈ plainUses, use.Fits := by
    intro use member
    rcases List.mem_cons.mp member with rfl | member
    · exact show (9 : Int).toNat < limit64 by decide
    · cases List.mem_singleton.mp member
      exact fitting
  have stateFits : afterPlainFile.toState.Fits :=
    ((Savable.begin .filled {} {} none).afterUses fits).fits_toState
  have isSaved : (afterPlainFile.saveState plainFile ⟨"d/s.json"⟩).2.toOption = some () := by
    decide +kernel
  obtain ⟨after, saved⟩ : ∃ after, afterPlainFile.saveState plainFile ⟨"d/s.json"⟩ = (after, .ok ()) :=
    ⟨_, eq_of_snd isSaved⟩
  obtain ⟨readBack, restores⟩ := memory_survives_restart plainFile ⟨"d/s.json"⟩ tree unlinked
  obtain ⟨fingerprints, results, bytes, -⟩ :=
    restores .filled {} {} none plainUses { patterns := .filled } after fits saved
  exact ⟨tree, unlinked, fits, stateFits, after, saved, (readBack _ _ _ stateFits saved).2,
    by decide +kernel, fingerprints _, by decide +kernel, results _, bytes⟩

end Coordinator

end DepAtlas
