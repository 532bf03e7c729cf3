import DepAtlas.Proofs.CallGraph.Contributions
import DepAtlas.Proofs.Incremental.Memory

/-!
How a coordinator keeps its method table in step with its results, what one analysis can do to both, and
which files are found to be gone.
-/

namespace DepAtlas

theorem Assoc.keys_put {κ α : Type} [BEq κ] (key : κ) (value : α) (entries : Assoc κ α) :
    keys (put key value entries) = if has key entries then keys entries else keys entries ++ [key] := by
  induction entries with
  | nil => rfl
  | cons entry rest ih =>
    simp only [has, keys] at ih
    by_cases here : (entry.1 == key) = true
    · simp [put, has, keys, here]
    · simp only [put, has, keys, here, List.any_cons, Bool.false_eq_true, if_false, Bool.false_or,
        List.map_cons, ih]
      exact apply_ite (entry.1 :: ·) ..

namespace FingerprintStore

variable {store amended : FingerprintStore}

/-- Every fingerprint stands under its own path. -/
def Keyed (store : FingerprintStore) : Prop :=
  ∀ path fingerprint, store.get? path = some fingerprint → (fingerprint.path == path) = true

theorem Keyed.put (keyed : Keyed store) (fingerprint : Fingerprint) :
    Keyed (Assoc.put fingerprint.path fingerprint store) := by
  intro path known found
  rw [Assoc.get?_put] at found
  split at found
  · rename_i same
    cases found
    exact same
  · exact keyed path known found

/-- A store with the same keys, and with fingerprints of the same paths. -/
structure Amends (store amended : FingerprintStore) : Prop where
  keys : Assoc.keys amended = Assoc.keys store
  paths : ∀ {path fingerprint}, amended.get? path = some fingerprint →
    ∃ known, store.get? path = some known ∧ fingerprint.path = known.path

theorem Amends.trans {last : FingerprintStore} (first : store.Amends amended)
    (second : amended.Amends last) : store.Amends last where
  keys := second.keys.trans first.keys
  paths found := by
    obtain ⟨middle, found, same⟩ := second.paths found
    obtain ⟨known, found, same'⟩ := first.paths found
    exact ⟨known, found, same.trans same'⟩

theorem Amends.keyed (amends : store.Amends amended) (keyed : Keyed store) : Keyed amended := by
  intro path fingerprint found
  obtain ⟨known, found, same⟩ := amends.paths found
  rw [same]
  exact keyed path known found

theorem amends_modify (store : FingerprintStore) (path : Path) {change : Fingerprint → Fingerprint}
    (keeps : ∀ known, (change known).path = known.path) : store.Amends (store.modify path change) := by
  unfold modify
  split
  · rename_i known found
    refine ⟨?_, fun {other fingerprint} look => ?_⟩
    · rw [Assoc.keys_put, Assoc.has_eq_isSome, found]
      rfl
    · rw [Assoc.get?_put] at look
      split at look
      · rename_i same
        cases look
        exact ⟨known, (Assoc.get?_congr same store).symm.trans found, keeps known⟩
      · exact ⟨fingerprint, look, rfl⟩
  · exact ⟨rfl, fun {_ fingerprint} look => ⟨fingerprint, look, rfl⟩⟩

end FingerprintStore

namespace Coordinator

variable {coordinator after : Coordinator} {path other : Path}

/-- What an analysis of a path can do to the memory: nothing if it fails, hardly anything if a result is
used again, and else it takes over what was extracted. -/
inductive Analyzes (coordinator : Coordinator) (path : Path) (after : Coordinator) :
    Except Failure Analysis → Prop
  | failed (cause : Failure) (methods : after.methods = coordinator.methods)
      (results : after.results = coordinator.results) (store : after.store = coordinator.store) :
      Analyzes coordinator path after (.error cause)
  | reused (analysis : Analysis) (found : coordinator.resultOf? path = some analysis.dependencies)
      (methods : after.methods = coordinator.methods)
      (results : after.results = coordinator.results) (store : coordinator.store.Amends after.store) :
      Analyzes coordinator path after (.ok analysis)
  | adopted (analysis : Analysis) (fingerprint : Fingerprint) (keyed : fingerprint.path = path)
      (methods : after.methods = (coordinator.methods.ingest path analysis.dependencies).1)
      (results : after.results = coordinator.results.put path analysis.dependencies)
      (store : after.store = coordinator.store.put path fingerprint) :
      Analyzes coordinator path after (.ok analysis)

theorem recordChange_frame (coordinator : Coordinator) (path : Path)
    (previous current : List Dependency) :
    (coordinator.recordChange path previous current).1.methods = coordinator.methods ∧
      (coordinator.recordChange path previous current).1.results = coordinator.results ∧
      (coordinator.recordChange path previous current).1.store = coordinator.store := by
  unfold recordChange
  split <;> exact ⟨rfl, rfl, rfl⟩

theorem readContent_frame (coordinator : Coordinator) (fs : FileSystem) (path : Path) :
    (coordinator.readContent fs path).1.methods = coordinator.methods ∧
      (coordinator.readContent fs path).1.results = coordinator.results ∧
      (coordinator.readContent fs path).1.store = coordinator.store := by
  unfold readContent
  split
  · exact ⟨rfl, rfl, rfl⟩
  · split
    · exact ⟨rfl, rfl, rfl⟩
    · split <;> exact ⟨rfl, rfl, rfl⟩

theorem analyzes_adopt (coordinator : Coordinator) (path : Path) (stamp : Stamp) (contentHash : UInt64)
    (state : FileState) (dependencies : List Dependency) :
    Analyzes coordinator path (coordinator.adopt path stamp contentHash state dependencies).1
      (.ok (coordinator.adopt path stamp contentHash state dependencies).2) := by
  unfold adopt
  dsimp only
  split
  · rename_i previous _
    obtain ⟨methods, results, store⟩ := recordChange_frame _ path previous dependencies
    exact .adopted _ _ rfl methods results store
  · exact .adopted _ _ rfl rfl rfl rfl

theorem analyzes_extractAnew (coordinator : Coordinator) (path : Path) (language : Language)
    (content : String) (stamp : Stamp) (contentHash : UInt64) (state : FileState) :
    Analyzes coordinator path
      (coordinator.extractAnew path language content stamp contentHash state).1
      (coordinator.extractAnew path language content stamp contentHash state).2 := by
  unfold extractAnew
  split
  · exact .failed _ rfl rfl rfl
  · exact analyzes_adopt coordinator path stamp contentHash state _

theorem reuse_frame {analysis : Analysis}
    (reused : coordinator.reuse? path = some (after, analysis)) :
    coordinator.resultOf? path = some analysis.dependencies ∧ after.methods = coordinator.methods ∧
      after.results = coordinator.results ∧ coordinator.store.Amends after.store := by
  obtain ⟨dependencies, found, same⟩ := Option.map_eq_some_iff.mp reused
  cases same
  exact ⟨found, rfl, rfl, FingerprintStore.amends_modify _ path fun _ => rfl⟩

theorem Analyzes.of_frame {reader : Coordinator} {answer : Except Failure Analysis}
    (analyzes : Analyzes reader path after answer) (methods : reader.methods = coordinator.methods)
    (results : reader.results = coordinator.results) (store : reader.store = coordinator.store) :
    Analyzes coordinator path after answer := by
  cases analyzes with
  | failed cause methods' results' store' =>
    exact .failed cause (methods'.trans methods) (results'.trans results) (store'.trans store)
  | reused analysis found methods' results' store' =>
    refine .reused analysis ?_ (methods'.trans methods) (results'.trans results) (store ▸ store')
    rw [resultOf?, ← results]
    exact found
  | adopted analysis fingerprint keyed methods' results' store' =>
    rw [methods] at methods'
    rw [results] at results'
    rw [store] at store'
    exact .adopted analysis fingerprint keyed methods' results' store'

theorem analyzes_analyzeContent (coordinator : Coordinator) (fs : FileSystem) (path : Path)
    (language : Language) (stampState : FileState) :
    Analyzes coordinator path (coordinator.analyzeContent fs path language stampState).1
      (coordinator.analyzeContent fs path language stampState).2 := by
  obtain ⟨methods, results, store⟩ := readContent_frame coordinator fs path
  unfold analyzeContent
  split
  case h_1 reader cause failed =>
    rw [failed] at methods results store
    exact .failed _ methods results store
  case h_2 reader content stamp found =>
    rw [found] at methods results store
    dsimp only at methods results store ⊢
    refine Analyzes.of_frame ?_ methods results store
    split
    · split
      -- A result that is used again for its content also gets the new stamp.
      case h_1 next analysis reused =>
        split at reused
        · obtain ⟨found, methods, results, amends⟩ := reuse_frame reused
          exact .reused analysis found methods results
            (amends.trans (FingerprintStore.amends_modify _ path fun _ => rfl))
        · cases reused
      · exact analyzes_extractAnew reader path language content stamp _ _
    · exact analyzes_extractAnew reader path language content stamp _ _

theorem analyzes_analyze (coordinator : Coordinator) (fs : FileSystem) (path : Path)
    (language : Language) :
    Analyzes coordinator path (coordinator.analyze fs path language).1
      (coordinator.analyze fs path language).2 := by
  unfold analyze
  dsimp only
  split
  case h_1 next analysis reused =>
    split at reused
    · obtain ⟨found, methods, results, amends⟩ := reuse_frame reused
      exact .reused analysis found methods results amends
    · cases reused
  case h_2 => exact analyzes_analyzeContent coordinator fs path language _

theorem Analyzes.keyed {answer : Except Failure Analysis}
    (analyzes : Analyzes coordinator path after answer) (keyed : coordinator.store.Keyed) :
    after.store.Keyed := by
  cases analyzes with
  | failed _ _ _ store => exact store ▸ keyed
  | reused _ _ _ _ store => exact store.keyed keyed
  | adopted _ fingerprint same _ _ store =>
    subst same
    exact store ▸ keyed.put fingerprint

/-- Other files are left alone. -/
theorem Analyzes.frame {answer : Except Failure Analysis}
    (analyzes : Analyzes coordinator path after answer) (apart : (path == other) = false) :
    after.resultOf? other = coordinator.resultOf? other ∧
      (other ∈ Assoc.keys after.store ↔ other ∈ Assoc.keys coordinator.store) := by
  cases analyzes with
  | failed _ _ results store => exact ⟨by rw [resultOf?, results, resultOf?], by rw [store]⟩
  | reused _ _ _ results store => exact ⟨by rw [resultOf?, results, resultOf?], by rw [store.keys]⟩
  | adopted _ fingerprint _ _ results store =>
    refine ⟨by rw [resultOf?, results, Assoc.get?_put, apart]; rfl, ?_⟩
    rw [store, Assoc.keys_put]
    split
    · rfl
    · have different : other ≠ path := by
        rintro rfl
        rw [BEq.rfl] at apart
        cases apart
      simp [different]

/-- The method table holds what the results say. -/
def InStep (coordinator : Coordinator) : Prop :=
  ∃ ledger, coordinator.methods.Tracks ledger ∧
    ∀ path, ledger.latest path = (coordinator.resultOf? path).getD []

/-- A method table in step with the results is the one of a ledger of just these results. -/
theorem InStep.tracks_results (inStep : coordinator.InStep) :
    ∃ definers, coordinator.methods.Tracks ⟨coordinator.results, definers⟩ := by
  obtain ⟨ledger, tracks, latest⟩ := inStep
  refine ⟨ledger.definers, tracks.of_methods_eq (fun path => ?_) rfl⟩
  rw [latest]
  rfl

theorem InStep.mentions_iff (inStep : coordinator.InStep) (path : Path) :
    coordinator.methods.Mentions path ↔ ∃ dependencies,
      coordinator.resultOf? path = some dependencies ∧ Dependency.methods dependencies ≠ [] := by
  obtain ⟨definers, tracks⟩ := inStep.tracks_results
  rw [tracks.mentions_iff]
  show Dependency.methods ((coordinator.resultOf? path).getD []) ≠ [] ↔ _
  cases coordinator.resultOf? path with
  | none => simp [Dependency.methods]
  | some dependencies => simp

theorem InStep.ingest (inStep : coordinator.InStep) {dependencies : List Dependency}
    (methods : after.methods = (coordinator.methods.ingest path dependencies).1)
    (results : after.results = coordinator.results.put path dependencies) : after.InStep := by
  obtain ⟨ledger, tracks, latest⟩ := inStep
  refine ⟨_, methods ▸ tracks.ingest path dependencies, fun other => ?_⟩
  have found : after.resultOf? other =
      if path == other then some dependencies else coordinator.resultOf? other := by
    rw [resultOf?, results, Assoc.get?_put, resultOf?]
  rw [Ledger.latest_ingest, latest, found]
  split <;> rfl

theorem InStep.of_eq (inStep : coordinator.InStep) (methods : after.methods = coordinator.methods)
    (results : after.results = coordinator.results) : after.InStep := by
  obtain ⟨ledger, tracks, latest⟩ := inStep
  refine ⟨ledger, methods ▸ tracks, fun path => ?_⟩
  rw [latest, resultOf?, resultOf?, results]

theorem Analyzes.inStep {answer : Except Failure Analysis}
    (analyzes : Analyzes coordinator path after answer) (inStep : coordinator.InStep) :
    after.InStep := by
  cases analyzes with
  | failed _ methods results _ => exact inStep.of_eq methods results
  | reused _ _ methods results _ => exact inStep.of_eq methods results
  | adopted _ _ _ methods results _ => exact inStep.ingest methods results

theorem restore_spec (inStep : coordinator.InStep) (result : SavedResult) :
    (coordinator.restore result).InStep ∧ (coordinator.restore result).store = coordinator.store := by
  unfold restore
  split
  · exact ⟨inStep.ingest rfl rfl, rfl⟩
  · exact ⟨inStep, rfl⟩

theorem ofState_spec (begun : coordinator.methods = {}) (state : SavedState) :
    (coordinator.ofState state).InStep ∧ (coordinator.ofState state).store.Keyed := by
  suffices restored : (coordinator.ofState state).InStep ∧
      (coordinator.ofState state).store = FingerprintStore.ofList state.fingerprints by
    refine ⟨restored.1, ?_⟩
    rw [restored.2]
    exact fun _ _ tracked => (FingerprintStore.mem_of_get?_ofList tracked).2
  have empty : InStep { coordinator with
      store := FingerprintStore.ofList state.fingerprints, results := [] } :=
    ⟨{}, begun ▸ MethodTable.tracks_empty, fun _ => rfl⟩
  refine List.foldlRecOn
    (motive := fun (restored : Coordinator) => restored.InStep ∧
      restored.store = FingerprintStore.ofList state.fingerprints)
    state.results _ ⟨empty, rfl⟩ ?_
  rintro earlier ⟨inStep, same⟩ result -
  obtain ⟨inStep, same'⟩ := restore_spec inStep result
  exact ⟨inStep, same'.trans same⟩

theorem forget_eq (coordinator : Coordinator) (fingerprint : Fingerprint) :
    coordinator.forget fingerprint = { coordinator with
      methods := (coordinator.methods.remove fingerprint.path).1
      files := coordinator.files.map fun (cache : FileCache) => (cache.invalidate fingerprint.path).1
      results := coordinator.results.erase fingerprint.path
      changes := (coordinator.forget fingerprint).changes
      deleted := (coordinator.forget fingerprint).deleted
      counts := (coordinator.forget fingerprint).counts } := by
  unfold forget recordChange
  dsimp only
  split <;> rfl

theorem forget_tracks {ledger : Ledger} (tracks : coordinator.methods.Tracks ledger)
    (fingerprint : Fingerprint) :
    (coordinator.forget fingerprint).methods.Tracks (ledger.apply (.remove fingerprint.path)) := by
  rw [forget_eq]
  exact tracks.apply (.remove fingerprint.path)

theorem foldl_forget_tracks {ledger : Ledger} (tracks : coordinator.methods.Tracks ledger)
    (gone : List Fingerprint) :
    ∃ later, (gone.foldl forget coordinator).methods.Tracks later ∧ ∀ path, later.latest path =
      if gone.any (·.path == path) then [] else ledger.latest path := by
  induction gone generalizing coordinator ledger with
  | nil => exact ⟨ledger, tracks, fun _ => rfl⟩
  | cons fingerprint gone ih =>
    obtain ⟨later, tracks, latest⟩ := ih (forget_tracks tracks fingerprint)
    refine ⟨later, tracks, fun path => ?_⟩
    rw [latest, Ledger.latest_remove, List.any_cons]
    cases fingerprint.path == path <;> simp

theorem resultOf?_foldl_forget (coordinator : Coordinator) (gone : List Fingerprint) (path : Path) :
    (gone.foldl forget coordinator).resultOf? path =
      if gone.any (·.path == path) then none else coordinator.resultOf? path := by
  induction gone generalizing coordinator with
  | nil => rfl
  | cons fingerprint gone ih =>
    have first : (coordinator.forget fingerprint).resultOf? path =
        if fingerprint.path == path then none else coordinator.resultOf? path := by
      rw [forget_eq]
      exact Assoc.get?_erase ..
    rw [List.foldl_cons, ih, first, List.any_cons]
    cases fingerprint.path == path <;> simp

theorem foldl_forget_spec (inStep : coordinator.InStep) (gone : List Fingerprint) :
    (gone.foldl forget coordinator).InStep ∧
      ∀ path, (gone.foldl forget coordinator).resultOf? path =
        if gone.any (·.path == path) then none else coordinator.resultOf? path := by
  have found := resultOf?_foldl_forget coordinator gone
  obtain ⟨ledger, tracks, latest⟩ := inStep
  obtain ⟨later, tracks, latest'⟩ := foldl_forget_tracks tracks gone
  refine ⟨⟨later, tracks, fun path => ?_⟩, found⟩
  rw [latest', latest, found]
  split <;> rfl

/-- A file that is tracked, was not seen and is not there. -/
def Misses (coordinator : Coordinator) (fs : FileSystem) (seen : List Path) (path : Path) : Prop :=
  ∃ key ∈ Assoc.keys coordinator.store, (key == path) = true ∧ seen.contains key = false ∧
    fs.exists? key = false

theorem any_goneFiles (keyed : coordinator.store.Keyed) (fs : FileSystem) (seen : List Path)
    (path : Path) :
    (coordinator.goneFiles fs seen).any (·.path == path) = true ↔ coordinator.Misses fs seen path := by
  rw [List.any_eq_true]
  constructor
  · rintro ⟨fingerprint, member, same⟩
    obtain ⟨key, isGone, found⟩ := List.mem_filterMap.mp member
    obtain ⟨isKey, gone⟩ := List.mem_filter.mp isGone
    simp only [Bool.and_eq_true, Bool.not_eq_true'] at gone
    have isPath := BEq.trans (BEq.symm (keyed key fingerprint found)) same
    exact ⟨key, mem_sortByPath.mp isKey, isPath, gone⟩
  · rintro ⟨key, isKey, same, unseen, absent⟩
    have tracked : (coordinator.store.get? key).isSome = true := by
      obtain ⟨entry, member, rfl⟩ := List.mem_map.mp isKey
      rw [← Assoc.has_eq_isSome]
      exact List.any_eq_true.mpr ⟨entry, member, BEq.rfl⟩
    obtain ⟨fingerprint, found⟩ := Option.isSome_iff_exists.mp tracked
    have isPath := BEq.trans (keyed key fingerprint found) same
    refine ⟨fingerprint, List.mem_filterMap.mpr ⟨key, ?_, found⟩, isPath⟩
    refine List.mem_filter.mpr ⟨mem_sortByPath.mpr isKey, ?_⟩
    rw [unseen, absent]
    rfl

open Classical in
/-- Files that are gone are forgotten, and no other files. -/
theorem detectDeleted_spec (inStep : coordinator.InStep) (keyed : coordinator.store.Keyed)
    (fs : FileSystem) (seen : List Path) :
    (coordinator.detectDeleted fs seen).1.InStep ∧
      ∀ path, (coordinator.detectDeleted fs seen).1.resultOf? path =
        if coordinator.Misses fs seen path then none else coordinator.resultOf? path := by
  let gone := coordinator.goneFiles fs seen
  let untracked : Coordinator := { coordinator with
    store := gone.foldl (fun store fingerprint => Assoc.erase fingerprint.path store) coordinator.store }
  have begun : untracked.InStep := inStep.of_eq rfl rfl
  obtain ⟨last, found⟩ := foldl_forget_spec begun gone
  refine ⟨last, fun path => (found path).trans ?_⟩
  by_cases misses : coordinator.Misses fs seen path
  · rw [if_pos misses, if_pos ((any_goneFiles keyed fs seen path).mpr misses)]
  · rw [if_neg misses, if_neg fun any => misses ((any_goneFiles keyed fs seen path).mp any)]
    rfl

theorem detectMoves_frame (coordinator : Coordinator) :
    coordinator.detectMoves.1.methods = coordinator.methods := by
  refine List.foldlRecOn
    (motive := fun (state : Coordinator × List (Path × Path)) => state.1.methods = coordinator.methods)
    coordinator.store.paths _ rfl ?_
  rintro ⟨earlier, moves⟩ same path -
  unfold detectMove
  dsimp only at same ⊢
  repeat' split
  all_goals exact same

end Coordinator

end DepAtlas
