import DepAtlas.Proofs.CallGraph.Fresh
import DepAtlas.Proofs.Incremental.Restart

/-!
Who owns a name after a restart. A state file does not tell in which order files began to define a name:
the files are taken in again in the order of their paths, so that of all definers the first one in that
order becomes the owner.
-/

namespace DepAtlas

namespace MethodTable

variable {table other : MethodTable} {ledger ledger' : Ledger}

/-- Where the definers of every name stand in path order in one ledger, the owners are those of another
one exactly if each owner comes before the files that it overrules. -/
theorem Tracks.sameOwners_iff (tracks : Tracks table ledger) (tracks' : Tracks other ledger')
    (latest : ∀ path, ledger'.latest path = ledger.latest path)
    (increasing : ∀ name, PathSet.Increasing (ledger'.definers name)) :
    SameOwners ledger' ledger ↔
      ∀ conflict ∈ table.conflicts, conflict.owner.Before conflict.rejected := by
  have present (name : String) (path : Path) :
      (ledger'.definers name).contains path = (ledger.definers name).contains path :=
    tracks'.contains_congr tracks latest name path
  constructor
  · intro owners conflict member
    obtain ⟨owner, rest, queue, isOwner, waits⟩ := (tracks.mem_conflicts_iff conflict).mp
      (List.contains_iff_exists_mem_beq.mpr
        ⟨conflict, member, (conflict_beq_iff _ _).mpr ⟨rfl, BEq.rfl, BEq.rfl⟩⟩)
    obtain ⟨inside, apart⟩ := (tracks.contains_rest queue conflict.rejected).mp waits
    cases queue' : ledger'.definers conflict.name with
    | nil =>
      rw [← present, queue'] at inside
      cases inside
    | cons first others =>
      have same : (first == owner) = true :=
        owners conflict.name first owner (by simp [queue']) (by simp [queue])
      have behind : others.contains conflict.rejected = true := by
        rw [tracks'.contains_rest queue', present, BEq.congr_left same]
        exact ⟨inside, apart⟩
      have before := (queue' ▸ increasing conflict.name).before_of_contains behind
      exact before.congr_left (BEq.trans same isOwner)
  · intro ordered name head head' first first'
    obtain ⟨others, queue⟩ := List.head?_eq_some_iff.mp first
    obtain ⟨rest, queue'⟩ := List.head?_eq_some_iff.mp first'
    cases same : head == head' with
    | true => rfl
    | false =>
      -- Each would come before the other one.
      have ahead : head.Before head' := by
        refine (queue ▸ increasing name).before_of_contains ?_
        rw [tracks'.contains_rest queue, present, queue', List.contains_cons, BEq.rfl, Bool.true_or]
        exact ⟨rfl, same⟩
      have waits : rest.contains head = true := by
        rw [tracks.contains_rest queue', ← present, queue, List.contains_cons, BEq.rfl, Bool.true_or,
          BEq.comm]
        exact ⟨rfl, same⟩
      have listed : table.conflicts.contains ⟨name, head', head⟩ = true :=
        (tracks.mem_conflicts_iff _).mpr ⟨head', rest, queue', BEq.rfl, waits⟩
      obtain ⟨conflict, member, alike⟩ := List.contains_iff_exists_mem_beq.mp listed
      obtain ⟨-, isOwner, isRejected⟩ := (conflict_beq_iff _ _).mp alike
      have behind := ((ordered conflict member).congr_left (BEq.symm isOwner)).congr_right
        (BEq.symm isRejected)
      exact absurd behind ahead.asymm

theorem increasing_definers {files : Assoc Path (List Dependency)}
    (sorted : files.Pairwise fun a b => a.1.Before b.1) (name : String) :
    PathSet.Increasing ((Ledger.ingestAll {} files).definers name) := by
  have distinct : Assoc.Distinct files := sorted.imp fun before => before.beq_eq_false
  rw [Ledger.definers_ingestAll distinct _ _ fun _ _ => rfl]
  exact List.pairwise_map.mpr (sorted.filter _)

end MethodTable

namespace Use

/-- Uses that keep the method table in step with the results: all but those by which a coordinator forgets
results, or takes over a memory or a table from elsewhere. -/
def keepsStep : Use → Bool
  | .analyze .. | .detectDeleted .. | .detectMoves | .takeChanges | .setTime _ => true
  | .invalidate _ | .clear | .loadState .. | .share .. => false

end Use

namespace Coordinator

variable {coordinator : Coordinator}

theorem results_detectMoves (coordinator : Coordinator) :
    coordinator.detectMoves.1.results = coordinator.results := by
  refine List.foldlRecOn
    (motive := fun (state : Coordinator × List (Path × Path)) => state.1.results = coordinator.results)
    coordinator.store.paths _ rfl ?_
  rintro ⟨earlier, moves⟩ same path -
  unfold detectMove
  dsimp only at same ⊢
  repeat' split
  all_goals exact same

theorem InStep.use (inStep : coordinator.InStep) (keyed : coordinator.store.Keyed) {use : Use}
    (keeps : use.keepsStep = true) : (coordinator.use use).InStep := by
  cases use with
  | analyze fs path language => exact (analyzes_analyze coordinator fs path language).inStep inStep
  | detectDeleted fs seen => exact (detectDeleted_spec inStep keyed fs seen).1
  | detectMoves => exact inStep.of_eq (detectMoves_frame coordinator) (results_detectMoves coordinator)
  | takeChanges => exact inStep.of_eq rfl rfl
  | setTime now => exact inStep.of_eq rfl rfl
  | invalidate | clear | loadState | share => cases keeps

theorem InStep.afterUses (inStep : coordinator.InStep) (savable : coordinator.Savable) {uses : List Use}
    (fits : ∀ use ∈ uses, use.Fits) (keeps : ∀ use ∈ uses, use.keepsStep = true) :
    (coordinator.afterUses uses).InStep := by
  suffices both : (coordinator.afterUses uses).InStep ∧ (coordinator.afterUses uses).Savable from both.1
  refine List.foldlRecOn (motive := fun (coordinator : Coordinator) =>
    coordinator.InStep ∧ coordinator.Savable) uses _ ⟨inStep, savable⟩ ?_
  rintro earlier ⟨inStep, savable⟩ use member
  exact ⟨inStep.use savable.storable.keyed (keeps use member), savable.use (fits use member)⟩

/-- A coordinator that loads a saved state takes the results in afresh, in path order. The call graph is
then the one at the time of saving exactly if each owner of a name comes before the files that define it
too. -/
theorem reloaded_methods_match_iff (patterns : PatternStore) (options : IncrementalOptions)
    (files : Option FileCache) (uses : List Use) (fits : ∀ use ∈ uses, use.Fits)
    (keeps : ∀ use ∈ uses, use.keepsStep = true) (fs after : FileSystem) (path : Path)
    (tree : fs.IsTree) (unlinked : SavedState.Unlinked fs path)
    (saved : (Coordinator.afterUses { patterns, options, files } uses).saveState fs path =
      (after, .ok ()))
    (other : Coordinator) (new : other.methods = {}) :
    let coordinator := Coordinator.afterUses { patterns, options, files } uses
    let loaded := (other.loadState after path).1
    loaded.methods = MethodTable.fresh (sortByPath (·.1) coordinator.results) ∧
      (loaded.methods.Matches coordinator.methods ↔
        ∀ conflict ∈ coordinator.methods.conflicts, conflict.owner.Before conflict.rejected) := by
  intro coordinator loaded
  have begun := Savable.begin patterns options {} files
  have savable : coordinator.Savable := begun.afterUses fits
  have first : InStep { patterns, options, files } := ⟨{}, MethodTable.tracks_empty, fun _ => rfl⟩
  obtain ⟨ledger, tracks, latest⟩ := first.afterUses begun fits keeps
  have tidy := savable.tidy_toState
  have isLoaded : loaded.methods = MethodTable.fresh coordinator.toState.files := by
    have whole : loaded = other.ofState coordinator.toState :=
      loadState_saveState savable tree unlinked saved other
    rw [whole, ofState_eq tidy, MethodTable.fresh, MethodTable.run, List.foldl_map, new]
    rfl
  refine ⟨coordinator.files_toState ▸ isLoaded, ?_⟩
  rw [isLoaded]
  have sorted : coordinator.toState.files.Pairwise fun a b => a.1.Before b.1 :=
    List.pairwise_map.mpr tidy.results
  have same (path : Path) :
      (Ledger.ingestAll {} coordinator.toState.files).latest path = ledger.latest path := by
    rw [Ledger.latest_ingestAll tidy.distinct_files, savable.get?_files, latest]
    rfl
  have fresh := MethodTable.tracks_fresh coordinator.toState.files
  exact (fresh.matches_iff tracks same).trans
    (tracks.sameOwners_iff fresh same (MethodTable.increasing_definers sorted))

/-- Two files that define the same method. -/
def twoDefiners : FileSystem where
  nodes := [([], .directory), (["a.rs"], .file "fn f() {}\n".toUTF8.toList {}),
    (["b.rs"], .file "fn f() {}\n".toUTF8.toList {})]
  current := []

/-- The second file is analysed first. -/
def secondFirst : List Use :=
  [.analyze twoDefiners ⟨"b.rs"⟩ .rust, .analyze twoDefiners ⟨"a.rs"⟩ .rust]

theorem reloaded_methods_match_iff_secondFirst :
    (∀ use ∈ secondFirst, use.Fits) ∧ (∀ use ∈ secondFirst, use.keepsStep = true) ∧
      twoDefiners.IsTree ∧ SavedState.Unlinked twoDefiners ⟨"s.json"⟩ ∧ ∃ after,
        let coordinator := Coordinator.afterUses { patterns := .filled } secondFirst
        let loaded := (Coordinator.loadState { patterns := .filled } after ⟨"s.json"⟩).1
        coordinator.saveState twoDefiners ⟨"s.json"⟩ = (after, .ok ()) ∧
        (coordinator.methods.get? "f").map (·.definedIn.text) = some "b.rs" ∧
        loaded.methods = MethodTable.fresh (sortByPath (·.1) coordinator.results) ∧
        ¬ loaded.methods.Matches coordinator.methods := by
  have fitting : twoDefiners.Fits := FileSystem.fits_of_forall_mem (by decide +kernel)
  have fits : ∀ use ∈ secondFirst, use.Fits := by
    intro use member
    rcases List.mem_cons.mp member with rfl | member
    · exact fitting
    · cases List.mem_singleton.mp member
      exact fitting
  have keeps : ∀ use ∈ secondFirst, use.keepsStep = true := by decide +kernel
  have tree : twoDefiners.IsTree :=
    FileSystem.isTree_of_isPlaced (by decide) rfl rfl (by decide +kernel)
  have unlinked : SavedState.Unlinked twoDefiners ⟨"s.json"⟩ := ⟨by decide +kernel, by decide +kernel⟩
  have isSaved : ((Coordinator.afterUses { patterns := .filled } secondFirst).saveState twoDefiners
      ⟨"s.json"⟩).2.toOption = some () := by decide +kernel
  have conflict : (Coordinator.afterUses { patterns := .filled } secondFirst).methods.conflicts.any
      (fun conflict => Ord.compare conflict.owner conflict.rejected != .lt) = true := by decide +kernel
  obtain ⟨after, saved⟩ : ∃ after, (Coordinator.afterUses { patterns := .filled } secondFirst).saveState
      twoDefiners ⟨"s.json"⟩ = (after, .ok ()) := ⟨_, eq_of_snd isSaved⟩
  obtain ⟨fresh, isMatch⟩ := reloaded_methods_match_iff .filled {} none secondFirst fits keeps
    twoDefiners after ⟨"s.json"⟩ tree unlinked saved { patterns := .filled } rfl
  refine ⟨fits, keeps, tree, unlinked, after, saved, by decide +kernel, fresh, fun same => ?_⟩
  obtain ⟨listed, member, unordered⟩ := List.any_eq_true.mp conflict
  have ordered := isMatch.mp same listed member
  rw [Path.Before] at ordered
  rw [ordered] at unordered
  cases unordered

end Coordinator

end DepAtlas
