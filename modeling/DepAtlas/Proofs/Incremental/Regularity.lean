import DepAtlas.Proofs.CallGraph.Contributions
import DepAtlas.Proofs.Incremental.Ownership

/-!
What every history of a coordinator keeps, whatever is loaded in it: a file with a result has a
fingerprint too, and the method table is one that comes about by taking files in and out. In the course
of a crawl the table also stays in step with the results.
-/

namespace DepAtlas

theorem FingerprintStore.Keyed.putUnder {store : FingerprintStore} (keyed : Keyed store) {path : Path}
    {fingerprint : Fingerprint} (same : (fingerprint.path == path) = true) :
    Keyed (Assoc.put path fingerprint store) := by
  intro other known found
  rw [Assoc.get?_put] at found
  split at found
  case isTrue here =>
    cases found
    exact BEq.trans same here
  case isFalse => exact keyed other known found

/-- Every result goes with a fingerprint, whose digest of the dependencies agrees with it. -/
structure Paired (agrees : UInt64 → List Dependency → Prop) (store : FingerprintStore)
    (results : Assoc Path (List Dependency)) : Prop where
  distinctStore : Assoc.Distinct store
  distinctResults : Assoc.Distinct results
  keyed : store.Keyed
  partner : ∀ {path dependencies}, results.get? path = some dependencies →
    ∃ fingerprint, store.get? path = some fingerprint ∧
      agrees fingerprint.dependencyHash dependencies

def SavedState.Agrees (agrees : UInt64 → List Dependency → Prop) (state : SavedState) : Prop :=
  ∀ fingerprint ∈ state.fingerprints, ∀ result ∈ state.results,
    (fingerprint.path == result.path) = true →
      agrees fingerprint.dependencyHash result.dependencies

namespace Paired

variable {agrees : UInt64 → List Dependency → Prop} {store : FingerprintStore}
  {results : Assoc Path (List Dependency)} {path : Path} {fingerprint : Fingerprint}
  {dependencies : List Dependency}

theorem nothing : Paired agrees [] [] where
  distinctStore := .nil
  distinctResults := .nil
  keyed _ _ found := nomatch found
  partner found := nomatch found

theorem putFingerprint (paired : Paired agrees store results)
    (same : (fingerprint.path == path) = true)
    (agree : ∀ dependencies, results.get? path = some dependencies →
      agrees fingerprint.dependencyHash dependencies) :
    Paired agrees (store.put path fingerprint) results where
  distinctStore := paired.distinctStore.put path fingerprint
  distinctResults := paired.distinctResults
  keyed := paired.keyed.putUnder same
  partner {other dependencies} found := by
    rw [Assoc.get?_put]
    split
    case isTrue here =>
      rw [← Assoc.get?_congr here] at found
      exact ⟨fingerprint, rfl, agree dependencies found⟩
    case isFalse => exact paired.partner found

theorem putResult (paired : Paired agrees store results)
    (tracked : store.get? path = some fingerprint)
    (agree : agrees fingerprint.dependencyHash dependencies) :
    Paired agrees store (results.put path dependencies) where
  distinctStore := paired.distinctStore
  distinctResults := paired.distinctResults.put path dependencies
  keyed := paired.keyed
  partner {other _} found := by
    rw [Assoc.get?_put] at found
    split at found
    case isTrue here =>
      cases found
      exact ⟨fingerprint, (Assoc.get?_congr here store).symm.trans tracked, agree⟩
    case isFalse => exact paired.partner found

theorem eraseResult (paired : Paired agrees store results) (path : Path) :
    Paired agrees store (results.erase path) where
  distinctStore := paired.distinctStore
  distinctResults := paired.distinctResults.erase path
  keyed := paired.keyed
  partner found := by
    rw [Assoc.get?_erase] at found
    split at found
    · cases found
    · exact paired.partner found

/-- A new result takes its fingerprint along. -/
theorem adopt (paired : Paired agrees store results) (same : (fingerprint.path == path) = true)
    (agree : agrees fingerprint.dependencyHash dependencies) :
    Paired agrees (store.put path fingerprint) (results.put path dependencies) := by
  have tracked : Paired agrees (store.put path fingerprint) (results.erase path) := by
    apply (paired.eraseResult path).putFingerprint same
    intro dependencies found
    rw [Assoc.get?_erase, if_pos BEq.rfl] at found
    cases found
  refine ⟨tracked.distinctStore, paired.distinctResults.put path dependencies, tracked.keyed, ?_⟩
  intro other others found
  rw [Assoc.get?_put] at found ⊢
  by_cases here : (path == other) = true
  · rw [if_pos here] at found ⊢
    cases found
    exact ⟨fingerprint, rfl, agree⟩
  · rw [if_neg here] at found ⊢
    exact paired.partner found

theorem modify (paired : Paired agrees store results) (path : Path)
    {change : Fingerprint → Fingerprint} (keepsPath : ∀ known, (change known).path = known.path)
    (keepsHash : ∀ known, (change known).dependencyHash = known.dependencyHash) :
    Paired agrees (store.modify path change) results := by
  unfold FingerprintStore.modify
  split
  case h_1 known found =>
    apply paired.putFingerprint
    · rw [keepsPath]
      exact paired.keyed path known found
    · intro dependencies isResult
      obtain ⟨partner, isPartner, agree⟩ := paired.partner isResult
      rw [keepsHash, Option.some.inj (found.symm.trans isPartner)]
      exact agree
  case h_2 => exact paired

theorem erase (paired : Paired agrees store results) (path : Path) :
    Paired agrees (store.erase path) (results.erase path) where
  distinctStore := paired.distinctStore.erase path
  distinctResults := paired.distinctResults.erase path
  keyed other known found := by
    rw [Assoc.get?_erase] at found
    split at found
    · cases found
    · exact paired.keyed other known found
  partner found := by
    rw [Assoc.get?_erase] at found ⊢
    split at found
    · cases found
    case isFalse away =>
      rw [if_neg away]
      exact paired.partner found

theorem eraseAll (paired : Paired agrees store results) (gone : List Fingerprint) :
    Paired agrees (gone.foldl (fun store fingerprint => Assoc.erase fingerprint.path store) store)
      (gone.foldl (fun results fingerprint => Assoc.erase fingerprint.path results) results) := by
  induction gone generalizing store results with
  | nil => exact paired
  | cons fingerprint gone ih => exact ih (paired.erase fingerprint.path)

theorem ofList (fingerprints : List Fingerprint) :
    Paired agrees (FingerprintStore.ofList fingerprints) [] := by
  unfold FingerprintStore.ofList
  apply List.foldlRecOn (motive := (Paired agrees · [])) fingerprints _ nothing
  intro store paired fingerprint _
  apply paired.putFingerprint BEq.rfl
  intro dependencies found
  cases found

theorem agrees_toState {coordinator : Coordinator}
    (paired : Paired agrees coordinator.store coordinator.results) :
    coordinator.toState.Agrees agrees := by
  intro fingerprint isFingerprint result isResult same
  obtain ⟨entry, isEntry, rfl⟩ := List.mem_map.mp (mem_sortByPath.mp isFingerprint)
  obtain ⟨found, isFound, rfl⟩ := List.mem_map.mp isResult
  have tracked := paired.distinctStore.get?_of_mem isEntry
  have here : (entry.1 == found.1) = true := BEq.trans (BEq.symm (paired.keyed _ _ tracked)) same
  have stored := paired.distinctResults.get?_of_mem (mem_sortByPath.mp isFound)
  obtain ⟨partner, isPartner, agree⟩ := paired.partner stored
  rw [Assoc.get?_congr here, isPartner] at tracked
  rw [← Option.some.inj tracked]
  exact agree

end Paired

namespace Use

/-- What a use loads, if it loads a state, is admitted. -/
def Loads (admits : SavedState → Prop) : Use → Prop
  | .loadState fs path => ∀ state, SavedState.read fs path = .ok (some state) → admits state
  | _ => True

/-- A method table that others have worked with comes about by taking files in and out. -/
def Sound : Use → Prop
  | .share methods _ => ∃ actions, methods = MethodTable.run actions
  | _ => True

/-- The uses of a crawl: perhaps a state to begin with, and then none by which the method table would get
out of step. -/
def crawls : List Use → Bool
  | .loadState _ _ :: uses => uses.all keepsStep
  | uses => uses.all keepsStep

end Use

namespace Coordinator

variable {coordinator : Coordinator} {agrees : UInt64 → List Dependency → Prop}

section Pairs

variable (paired : Paired agrees coordinator.store coordinator.results)
include paired

theorem paired_analyze
    (fresh : ∀ dependencies, agrees (Digest.ofStrings (dependencies.map (·.key))) dependencies)
    (fs : FileSystem) (path : Path) (language : Language) :
    Paired agrees (coordinator.analyze fs path language).1.store
      (coordinator.analyze fs path language).1.results := by
  have answers := answers_analyze coordinator fs path language
  generalize coordinator.analyze fs path language = outcome at answers ⊢
  obtain ⟨after, answer⟩ := outcome
  have kept {reader : Coordinator} (hasRead : HasRead coordinator reader) :
      Paired agrees reader.store reader.results := by
    rw [hasRead.store, hasRead.results]
    exact paired
  have reused {reader next : Coordinator} {analysis : Analysis}
      (paired : Paired agrees reader.store reader.results)
      (reused : reader.reuse? path = some (next, analysis)) :
      Paired agrees next.store next.results := by
    obtain ⟨dependencies, found, same⟩ := Option.map_eq_some_iff.mp reused
    cases same
    exact paired.modify path (fun _ => rfl) fun _ => rfl
  cases answers with
  | unread read => exact kept (readContent_spec read).1
  | unextracted read => exact kept (readContent_spec read).1
  | byStamp _ _ isReused => exact reused paired isReused
  | byContent _ read _ isReused =>
    have next := reused (kept (readContent_spec read).1) isReused
    exact next.modify path (fun _ => rfl) fun _ => rfl
  | extracted read _ adopted =>
    have begun := kept (readContent_spec read).1
    obtain ⟨fingerprint, isPath, -, -, -, isAfter, -, -, isHash, -⟩ := adopt_spec adopted
    rw [isAfter]
    apply begun.adopt
    · rw [isPath]
      exact BEq.rfl
    · rw [isHash]
      exact fresh _

theorem paired_detectDeleted (fs : FileSystem) (seen : List Path) :
    Paired agrees (coordinator.detectDeleted fs seen).1.store
      (coordinator.detectDeleted fs seen).1.results := by
  unfold detectDeleted
  dsimp only
  obtain ⟨store, -, results⟩ := foldl_forget_memory
    { coordinator with
      store := (coordinator.goneFiles fs seen).foldl
        (fun store fingerprint => Assoc.erase fingerprint.path store) coordinator.store }
    (coordinator.goneFiles fs seen)
  rw [store, results]
  exact paired.eraseAll _

theorem paired_detectMoves :
    Paired agrees coordinator.detectMoves.1.store coordinator.detectMoves.1.results := by
  apply List.foldlRecOn
    (motive := fun (state : Coordinator × List (Path × Path)) =>
      Paired agrees state.1.store state.1.results) coordinator.store.paths _ paired
  rintro ⟨earlier, moves⟩ paired path -
  unfold detectMove
  dsimp only at paired ⊢
  split
  · exact paired
  case h_2 known found =>
    split
    · exact paired
    split
    · exact paired
    split
    · exact paired
    · apply paired.putFingerprint
      · exact paired.keyed path known found
      · intro dependencies isResult
        obtain ⟨partner, isPartner, agree⟩ := paired.partner isResult
        rw [found] at isPartner
        cases isPartner
        exact agree

omit paired in
theorem paired_ofState {state : SavedState} (agree : state.Agrees agrees) :
    Paired agrees (coordinator.ofState state).store (coordinator.ofState state).results := by
  suffices restored : Paired agrees (coordinator.ofState state).store (coordinator.ofState state).results ∧
      (coordinator.ofState state).store = FingerprintStore.ofList state.fingerprints from restored.1
  apply List.foldlRecOn
    (motive := fun (restored : Coordinator) => Paired agrees restored.store restored.results ∧
      restored.store = FingerprintStore.ofList state.fingerprints) state.results
  · exact ⟨.ofList state.fingerprints, rfl⟩
  · rintro earlier ⟨paired, sameStore⟩ result isResult
    unfold restore
    split
    case isTrue has =>
      refine ⟨?_, sameStore⟩
      rw [Assoc.has_eq_isSome] at has
      obtain ⟨fingerprint, tracked⟩ := Option.isSome_iff_exists.mp has
      apply paired.putResult tracked
      rw [sameStore] at tracked
      obtain ⟨isFingerprint, same⟩ := FingerprintStore.mem_of_get?_ofList tracked
      exact agree fingerprint isFingerprint result isResult same
    case isFalse => exact ⟨paired, sameStore⟩

theorem paired_use
    (fresh : ∀ dependencies, agrees (Digest.ofStrings (dependencies.map (·.key))) dependencies)
    {use : Use} (loads : use.Loads (SavedState.Agrees agrees)) :
    Paired agrees (coordinator.use use).store (coordinator.use use).results := by
  cases use with
  | analyze fs path language => exact paired_analyze paired fresh fs path language
  | detectDeleted fs seen => exact paired_detectDeleted paired fs seen
  | detectMoves => exact paired_detectMoves paired
  | takeChanges => exact paired
  | invalidate path => exact paired.erase path
  | clear => exact .nothing
  | loadState fs path =>
    unfold use loadState
    dsimp only
    split
    case h_1 state read => exact paired_ofState (loads state read)
    case h_2 => exact paired
  | setTime now => exact paired
  | share methods files => exact paired

theorem paired_afterUses
    (fresh : ∀ dependencies, agrees (Digest.ofStrings (dependencies.map (·.key))) dependencies)
    {uses : List Use} (loads : ∀ use ∈ uses, use.Loads (SavedState.Agrees agrees)) :
    Paired agrees (coordinator.afterUses uses).store (coordinator.afterUses uses).results := by
  apply List.foldlRecOn
    (motive := fun (coordinator : Coordinator) =>
      Paired agrees coordinator.store coordinator.results) uses _ paired
  intro earlier paired use member
  exact paired_use paired fresh (loads use member)

end Pairs

/-- Whatever is loaded, every result has a fingerprint. -/
theorem tracked_afterUses (patterns : PatternStore) (options : IncrementalOptions)
    (methods : MethodTable) (files : Option FileCache) (uses : List Use) :
    let coordinator := Coordinator.afterUses { patterns, options, methods, files } uses
    Paired (fun _ _ => True) coordinator.store coordinator.results := by
  apply paired_afterUses .nothing (fun _ => trivial)
  intro use _
  cases use with
  | loadState fs path => exact fun _ _ _ _ _ _ _ => trivial
  | _ => trivial

theorem detectDeleted_tracks {ledger : Ledger} (tracks : coordinator.methods.Tracks ledger)
    (fs : FileSystem) (seen : List Path) :
    ∃ later, (coordinator.detectDeleted fs seen).1.methods.Tracks later ∧ ∀ path, later.latest path =
      if (coordinator.goneFiles fs seen).any (·.path == path) then [] else ledger.latest path := by
  let untracked : Coordinator := { coordinator with
    store := (coordinator.goneFiles fs seen).foldl
      (fun store fingerprint => Assoc.erase fingerprint.path store) coordinator.store }
  have begun : untracked.methods.Tracks ledger := tracks
  exact foldl_forget_tracks begun (coordinator.goneFiles fs seen)

theorem loadState_tracks {ledger : Ledger} (tracks : coordinator.methods.Tracks ledger)
    (state : SavedState) :
    (coordinator.ofState state).methods.Tracks (ledger.ingestAll state.kept) := by
  rw [ofState_eq_kept]
  exact tracks.ingestAll state.kept

/-- Every use leaves a method table that comes about by taking files in and out. -/
theorem exists_tracks_use (charted : ∃ ledger, coordinator.methods.Tracks ledger) {use : Use}
    (sound : use.Sound) : ∃ ledger, (coordinator.use use).methods.Tracks ledger := by
  obtain ⟨ledger, tracks⟩ := charted
  cases use with
  | analyze fs path language =>
    have analyzes := analyzes_analyze coordinator fs path language
    show ∃ ledger, (coordinator.analyze fs path language).1.methods.Tracks ledger
    generalize coordinator.analyze fs path language = outcome at analyzes ⊢
    obtain ⟨after, answer⟩ := outcome
    cases analyzes with
    | failed _ methods => exact ⟨ledger, methods ▸ tracks⟩
    | reused _ _ methods => exact ⟨ledger, methods ▸ tracks⟩
    | adopted analysis _ _ methods => exact ⟨_, methods ▸ tracks.ingest path analysis.dependencies⟩
  | detectDeleted fs seen =>
    obtain ⟨later, tracks, -⟩ := detectDeleted_tracks tracks fs seen
    exact ⟨later, tracks⟩
  | detectMoves => exact ⟨ledger, (detectMoves_frame coordinator).symm ▸ tracks⟩
  | loadState fs path =>
    unfold use loadState
    dsimp only
    split
    case h_1 state read => exact ⟨_, loadState_tracks tracks state⟩
    case h_2 => exact ⟨ledger, tracks⟩
  | takeChanges | invalidate | clear | setTime => exact ⟨ledger, tracks⟩
  | share methods files =>
    obtain ⟨actions, rfl⟩ := sound
    exact ⟨_, MethodTable.tracks_run actions⟩

theorem exists_tracks_afterUses (charted : ∃ ledger, coordinator.methods.Tracks ledger)
    {uses : List Use} (sound : ∀ use ∈ uses, use.Sound) :
    ∃ ledger, (coordinator.afterUses uses).methods.Tracks ledger := by
  apply List.foldlRecOn
    (motive := fun (coordinator : Coordinator) => ∃ ledger, coordinator.methods.Tracks ledger)
    uses _ charted
  intro earlier charted use member
  exact exists_tracks_use charted (sound use member)

theorem inStep_afterUses (inStep : coordinator.InStep)
    (paired : Paired (fun _ _ => True) coordinator.store coordinator.results) {uses : List Use}
    (keeps : ∀ use ∈ uses, use.keepsStep = true) : (coordinator.afterUses uses).InStep := by
  induction uses generalizing coordinator with
  | nil => exact inStep
  | cons use uses ih =>
    have kept := keeps use List.mem_cons_self
    apply ih (inStep.use paired.keyed kept)
    · apply paired_use paired (fun _ => trivial)
      cases use with
      | loadState => cases kept
      | _ => trivial
    · intro other member
      exact keeps other (List.mem_cons_of_mem _ member)

/-- In the course of a crawl the method table holds what the results say. -/
theorem inStep_of_crawls (patterns : PatternStore) (options : IncrementalOptions)
    (files : Option FileCache) {uses : List Use} (crawls : Use.crawls uses = true) :
    (Coordinator.afterUses { patterns, options, files } uses).InStep := by
  have begun : InStep { patterns, options, files } := ⟨{}, MethodTable.tracks_empty, fun _ => rfl⟩
  unfold Use.crawls at crawls
  split at crawls
  case h_1 fs path uses =>
    have keeps := List.all_eq_true.mp crawls
    refine inStep_afterUses ?_ (tracked_afterUses patterns options {} files [.loadState fs path]) keeps
    show InStep (Coordinator.loadState _ fs path).1
    unfold loadState
    split
    case h_1 state read => exact (ofState_spec rfl state).1
    case h_2 => exact begun
  case h_2 => exact inStep_afterUses begun .nothing (List.all_eq_true.mp crawls)

end Coordinator

end DepAtlas
