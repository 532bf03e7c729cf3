import DepAtlas.Proofs.Extract.WellFormed
import DepAtlas.Proofs.Incremental.Analysis
import DepAtlas.Proofs.Incremental.StateFile
import DepAtlas.Proofs.Incremental.Upkeep

/-!
Coordinators with a history. Whatever is done with a coordinator, while anybody edits the files, its
memory stays one that can be saved: every path has at most one fingerprint and one result, every result
belongs to a tracked file, and all numbers take the bits that they have.
-/

namespace DepAtlas

namespace Extract

variable {patterns : PatternStore} {source : Source} {dependencies : List Dependency}

theorem fit_of_layers {parts : List Layer} (extracted : layers patterns source parts = .ok dependencies) :
    Dependency.Fit dependencies := by
  intro dependency member
  obtain ⟨part, here, isLayer, member⟩ := exists_layer_of_mem_layers extracted member
  obtain ⟨target, offset, detail, rfl⟩ := exists_of_mem_layer isLayer member
  exact Nat.lt_of_le_of_lt (Nat.min_le_right _ _) (by decide)

end Extract

/-- The sizes and times of all nodes take the bits that they have. -/
def FileSystem.Fits (fs : FileSystem) : Prop :=
  ∀ {location node}, fs.nodeAt? location = some node → (Stamp.ofNode node).Fits

theorem FileSystem.Fits.stamp {fs : FileSystem} (fits : fs.Fits) {path : Path} {stamp : Stamp}
    (stamped : Stamp.read fs path = .ok stamp) : stamp.Fits := by
  obtain ⟨node, isNode, rfl⟩ := exists_of_map_eq_ok stamped
  obtain ⟨⟨location, found⟩, resolved, rfl⟩ := exists_of_map_eq_ok isNode
  obtain ⟨goal, -, settled⟩ := find_eq_ok_iff.mp resolved
  cases goal with
  | directory place =>
    cases settled
    exact show (Stamp.ofNode .directory).Fits from ⟨by decide, by decide, by decide⟩
  | entry parent name slashed =>
    simp only [settle] at settled
    split at settled
    · cases settled
    · cases settled
    case h_3 stored looked =>
      split at settled
      · cases settled
      · cases settled
        exact fits (nodeAt?_of_lookup looked)

theorem FileSystem.fits_of_forall_mem {fs : FileSystem}
    (each : ∀ entry ∈ fs.nodes, (Stamp.ofNode entry.2).Fits) : fs.Fits := by
  intro location node found
  obtain ⟨entry, member, -, rfl⟩ := Assoc.exists_mem_of_get? found
  exact each entry member

/-- A memory that can be saved. -/
structure Storable (store : FingerprintStore) (results : Assoc Path (List Dependency)) : Prop where
  distinctStore : Assoc.Distinct store
  distinctResults : Assoc.Distinct results
  keyed : store.Keyed
  tracked : ∀ {path dependencies}, results.get? path = some dependencies →
    ∃ fingerprint, store.get? path = some fingerprint
  fingerprints : ∀ {path fingerprint}, store.get? path = some fingerprint → fingerprint.Fits
  results : ∀ {path dependencies}, results.get? path = some dependencies → Dependency.Fit dependencies

namespace Storable

variable {store : FingerprintStore} {results : Assoc Path (List Dependency)} {path : Path}
  {fingerprint : Fingerprint} {dependencies : List Dependency}

theorem nothing : Storable [] [] where
  distinctStore := .nil
  distinctResults := .nil
  keyed _ _ found := nomatch found
  tracked found := nomatch found
  fingerprints found := nomatch found
  results found := nomatch found

theorem putFingerprint (storable : Storable store results) (same : (fingerprint.path == path) = true)
    (fits : fingerprint.Fits) : Storable (store.put path fingerprint) results where
  distinctStore := storable.distinctStore.put path fingerprint
  distinctResults := storable.distinctResults
  keyed other known found := by
    rw [Assoc.get?_put] at found
    split at found
    case isTrue here =>
      cases found
      exact BEq.trans same here
    case isFalse => exact storable.keyed other known found
  tracked {other _} found := by
    rw [Assoc.get?_put]
    split
    · exact ⟨fingerprint, rfl⟩
    · exact storable.tracked found
  fingerprints found := by
    rw [Assoc.get?_put] at found
    split at found
    · cases found
      exact fits
    · exact storable.fingerprints found
  results := storable.results

theorem putResult (storable : Storable store results)
    (tracked : ∃ fingerprint, store.get? path = some fingerprint) (fit : Dependency.Fit dependencies) :
    Storable store (results.put path dependencies) where
  distinctStore := storable.distinctStore
  distinctResults := storable.distinctResults.put path dependencies
  keyed := storable.keyed
  tracked {other _} found := by
    rw [Assoc.get?_put] at found
    split at found
    case isTrue same =>
      rw [← Assoc.get?_congr same store]
      exact tracked
    case isFalse => exact storable.tracked found
  fingerprints := storable.fingerprints
  results found := by
    rw [Assoc.get?_put] at found
    split at found
    · cases found
      exact fit
    · exact storable.results found

theorem modify (storable : Storable store results) (path : Path) {change : Fingerprint → Fingerprint}
    (keepsPath : ∀ known, (change known).path = known.path)
    (fits : ∀ known : Fingerprint, known.Fits → (change known).Fits) :
    Storable (store.modify path change) results := by
  unfold FingerprintStore.modify
  split
  case h_1 known found =>
    refine storable.putFingerprint ?_ (fits known (storable.fingerprints found))
    rw [keepsPath]
    exact storable.keyed path known found
  case h_2 => exact storable

theorem erase (storable : Storable store results) (path : Path) :
    Storable (store.erase path) (results.erase path) where
  distinctStore := storable.distinctStore.erase path
  distinctResults := storable.distinctResults.erase path
  keyed other known found := by
    rw [Assoc.get?_erase] at found
    split at found
    · cases found
    · exact storable.keyed other known found
  tracked found := by
    rw [Assoc.get?_erase] at found ⊢
    split at found
    · cases found
    case isFalse away =>
      rw [if_neg away]
      exact storable.tracked found
  fingerprints found := by
    rw [Assoc.get?_erase] at found
    split at found
    · cases found
    · exact storable.fingerprints found
  results found := by
    rw [Assoc.get?_erase] at found
    split at found
    · cases found
    · exact storable.results found

theorem eraseAll (storable : Storable store results) (gone : List Fingerprint) :
    Storable (gone.foldl (fun store fingerprint => Assoc.erase fingerprint.path store) store)
      (gone.foldl (fun results fingerprint => Assoc.erase fingerprint.path results) results) := by
  induction gone generalizing store results with
  | nil => exact storable
  | cons fingerprint gone ih => exact ih (storable.erase fingerprint.path)

theorem ofList {fingerprints : List Fingerprint} (fits : ∀ fingerprint ∈ fingerprints, fingerprint.Fits) :
    Storable (FingerprintStore.ofList fingerprints) [] :=
  List.foldlRecOn (motive := (Storable · [])) fingerprints _ nothing
    fun _ storable fingerprint member => storable.putFingerprint BEq.rfl (fits fingerprint member)

end Storable

/-- What can be done with a coordinator. The file system is the one that is there at that moment, whatever
was done to it before. -/
inductive Use
  | analyze (fs : FileSystem) (path : Path) (language : Language)
  | detectDeleted (fs : FileSystem) (seen : List Path)
  | detectMoves
  | takeChanges
  | invalidate (path : Path)
  | clear
  | loadState (fs : FileSystem) (path : Path)
  /-- The time of what follows. -/
  | setTime (now : Time)
  /-- Others have worked with the method table and the file cache. -/
  | share (methods : MethodTable) (files : Option FileCache)

/-- The sizes and times that a use comes across take the bits that they have. -/
def Use.Fits : Use → Prop
  | .analyze fs _ _ => fs.Fits
  | .setTime now => now.seconds.toNat < limit64
  | _ => True

namespace Coordinator

/-- What a coordinator becomes by a use. -/
def use (coordinator : Coordinator) : Use → Coordinator
  | .analyze fs path language => (coordinator.analyze fs path language).1
  | .detectDeleted fs seen => (coordinator.detectDeleted fs seen).1
  | .detectMoves => coordinator.detectMoves.1
  | .takeChanges => coordinator.takeChanges.1
  | .invalidate path => coordinator.invalidate path
  | .clear => coordinator.clear
  | .loadState fs path => (coordinator.loadState fs path).1
  | .setTime now => { coordinator with now }
  | .share methods files => { coordinator with methods, files }

/-- A coordinator after several uses. -/
def afterUses (coordinator : Coordinator) (uses : List Use) : Coordinator :=
  uses.foldl use coordinator

/-- A coordinator whose state can be saved, also after an analysis now. -/
structure Savable (coordinator : Coordinator) : Prop where
  storable : Storable coordinator.store coordinator.results
  time : coordinator.timestamp < limit64

variable {coordinator reader after : Coordinator} {path : Path}

theorem foldl_forget_memory (coordinator : Coordinator) (gone : List Fingerprint) :
    (gone.foldl forget coordinator).store = coordinator.store ∧
      (gone.foldl forget coordinator).now = coordinator.now ∧
      (gone.foldl forget coordinator).results =
        gone.foldl (fun results fingerprint => Assoc.erase fingerprint.path results)
          coordinator.results := by
  induction gone generalizing coordinator with
  | nil => exact ⟨rfl, rfl, rfl⟩
  | cons fingerprint gone ih =>
    obtain ⟨store, now, results⟩ := ih (coordinator.forget fingerprint)
    rw [List.foldl_cons, store, now, results, forget_eq]
    exact ⟨rfl, rfl, rfl⟩

namespace Savable

theorem begin (patterns : PatternStore) (options : IncrementalOptions) (methods : MethodTable)
    (files : Option FileCache) : Savable { patterns, options, methods, files } :=
  ⟨.nothing, show (0 : Int).toNat < limit64 by decide⟩

theorem analyze (savable : coordinator.Savable) {fs : FileSystem} (fits : fs.Fits) (path : Path)
    (language : Language) : (coordinator.analyze fs path language).1.Savable := by
  have answers := answers_analyze coordinator fs path language
  generalize coordinator.analyze fs path language = outcome at answers ⊢
  obtain ⟨after, answer⟩ := outcome
  have kept {reader : Coordinator} (hasRead : HasRead coordinator reader) : reader.Savable := by
    rw [hasRead]
    exact ⟨savable.storable, savable.time⟩
  have reused {reader next : Coordinator} {analysis : Analysis} (savable : reader.Savable)
      (reused : reader.reuse? path = some (next, analysis)) : next.Savable := by
    obtain ⟨dependencies, found, same⟩ := Option.map_eq_some_iff.mp reused
    cases same
    exact ⟨savable.storable.modify path (fun _ => rfl) fun _ fits => ⟨fits.stamp, fits.lastAnalyzed⟩,
      savable.time⟩
  cases answers with
  | unread read => exact kept (readContent_spec read).1
  | unextracted read => exact kept (readContent_spec read).1
  | byStamp _ _ isReused => exact reused savable isReused
  | byContent _ read _ isReused =>
    obtain ⟨hasRead, stamped⟩ := readContent_spec read
    have next := reused (kept hasRead) isReused
    refine ⟨next.storable.modify path (fun _ => rfl) fun _ known => ?_, next.time⟩
    exact ⟨fits.stamp (stamped rfl), known.lastAnalyzed⟩
  | extracted read extracted adopted =>
    obtain ⟨hasRead, stamped⟩ := readContent_spec read
    have begun := kept hasRead
    obtain ⟨fingerprint, isPath, isStamp, -, isTime, isAfter, -⟩ := adopt_spec adopted
    have fingerprintFits : fingerprint.Fits := by
      refine ⟨?_, ?_⟩
      · rw [isStamp]
        exact fits.stamp (stamped rfl)
      · rw [isTime]
        exact begun.time
    have same : (fingerprint.path == path) = true := isPath ▸ BEq.rfl
    have tracked := begun.storable.putFingerprint same fingerprintFits
    rw [isAfter]
    refine ⟨tracked.putResult ⟨fingerprint, ?_⟩ (Extract.fit_of_layers extracted), begun.time⟩
    rw [Assoc.get?_put, if_pos BEq.rfl]

theorem detectDeleted (savable : coordinator.Savable) (fs : FileSystem) (seen : List Path) :
    (coordinator.detectDeleted fs seen).1.Savable := by
  unfold Coordinator.detectDeleted
  dsimp only
  obtain ⟨store, now, results⟩ := foldl_forget_memory
    { coordinator with
      store := (coordinator.goneFiles fs seen).foldl
        (fun store fingerprint => Assoc.erase fingerprint.path store) coordinator.store }
    (coordinator.goneFiles fs seen)
  refine ⟨?_, ?_⟩
  · rw [store, results]
    exact savable.storable.eraseAll _
  · rw [timestamp, now]
    exact savable.time

theorem detectMoves (savable : coordinator.Savable) : coordinator.detectMoves.1.Savable := by
  refine List.foldlRecOn
    (motive := fun (state : Coordinator × List (Path × Path)) => state.1.Savable)
    coordinator.store.paths _ savable ?_
  rintro ⟨earlier, moves⟩ savable path -
  unfold detectMove
  dsimp only at savable ⊢
  split
  · exact savable
  case h_2 known found =>
    split
    · exact savable
    split
    · exact savable
    split
    · exact savable
    · have fits := savable.storable.fingerprints found
      exact ⟨savable.storable.putFingerprint (savable.storable.keyed path known found)
        ⟨fits.stamp, fits.lastAnalyzed⟩, savable.time⟩

theorem ofState (savable : coordinator.Savable) {state : SavedState} (fits : state.Fits) :
    (coordinator.ofState state).Savable := by
  unfold Coordinator.ofState
  refine List.foldlRecOn (motive := Savable) state.results _
    ⟨.ofList fits.fingerprints, savable.time⟩ ?_
  intro earlier savable result member
  unfold restore
  split
  case isTrue has =>
    rw [Assoc.has_eq_isSome] at has
    exact ⟨savable.storable.putResult (Option.isSome_iff_exists.mp has) (fits.results result member),
      savable.time⟩
  case isFalse => exact savable

theorem loadState (savable : coordinator.Savable) (fs : FileSystem) (path : Path) :
    (coordinator.loadState fs path).1.Savable := by
  unfold Coordinator.loadState
  split
  case h_1 state read => exact savable.ofState (SavedState.fits_of_read read)
  case h_2 => exact savable

/-- Every use leaves a state that can be saved. -/
theorem use (savable : coordinator.Savable) {use : Use} (fits : use.Fits) :
    (coordinator.use use).Savable := by
  cases use with
  | analyze fs path language => exact savable.analyze fits path language
  | detectDeleted fs seen => exact savable.detectDeleted fs seen
  | detectMoves => exact savable.detectMoves
  | takeChanges => exact ⟨savable.storable, savable.time⟩
  | invalidate path => exact ⟨savable.storable.erase path, savable.time⟩
  | clear => exact ⟨.nothing, savable.time⟩
  | loadState fs path => exact savable.loadState fs path
  | setTime now => exact ⟨savable.storable, fits⟩
  | share methods files => exact ⟨savable.storable, savable.time⟩

theorem afterUses (savable : coordinator.Savable) {uses : List Use} (fits : ∀ use ∈ uses, use.Fits) :
    (coordinator.afterUses uses).Savable :=
  List.foldlRecOn (motive := Savable) uses _ savable fun _ savable use member =>
    savable.use (fits use member)

end Savable

end Coordinator

end DepAtlas
