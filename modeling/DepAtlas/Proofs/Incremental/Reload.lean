import DepAtlas.Proofs.Crawl.Scope
import DepAtlas.Proofs.Incremental.Regularity

/-!
What a coordinator with a history keeps when it loads a state. Fingerprints and results are those of the
state, but the method table still holds what other files contributed, and who came first in it; a state
file that is missing or cannot be used leaves everything as it was.
-/

namespace DepAtlas

namespace Coordinator

variable {coordinator : Coordinator} {fs : FileSystem} {path : Path} {state : SavedState}

theorem loadState_of_unusable (unusable : ∀ state, SavedState.read fs path ≠ .ok (some state)) :
    coordinator.loadState fs path = (coordinator, 0) := by
  unfold loadState
  split
  case h_1 state read => exact absurd read (unusable state)
  case h_2 => rfl

/-- The method table after a load is the one of the state alone exactly if nothing else was in it and the
same files own the names. -/
theorem matches_fresh_iff {ledger : Ledger} (tracks : coordinator.methods.Tracks ledger)
    (state : SavedState) :
    (coordinator.ofState state).methods.Matches (MethodTable.fresh state.kept) ↔
      (∀ file, coordinator.methods.Mentions file → state.kept.has file = true) ∧
        (coordinator.ofState state).methods.OwnersAgree (MethodTable.fresh state.kept) := by
  have loaded := loadState_tracks tracks state
  have fresh := MethodTable.tracks_fresh state.kept
  -- What the state does not keep contributes as before the load, and nothing to the new table.
  have left {file : Path} (other : state.kept.has file = false) :
      (ledger.ingestAll state.kept).latest file = ledger.latest file ∧
        (Ledger.ingestAll {} state.kept).latest file = [] := by
    have absent (entry) (member : entry ∈ state.kept) : (entry.1 == file) = false := by
      simpa using List.any_eq_false.mp other entry member
    exact ⟨Ledger.latest_ingestAll_of_absent absent ledger, Ledger.latest_ingestAll_of_absent absent {}⟩
  have same (covered : ∀ file, coordinator.methods.Mentions file → state.kept.has file = true) :
      (coordinator.ofState state).methods.Matches (MethodTable.fresh state.kept) ↔
        (coordinator.ofState state).methods.OwnersAgree (MethodTable.fresh state.kept) := by
    apply loaded.matches_iff_ownersAgree fresh
    intro file
    cases has : state.kept.has file with
    | true => rw [Ledger.latest_ingestAll_of_has has ledger {}]
    | false =>
      obtain ⟨kept, gone⟩ := left has
      have silent : ¬ coordinator.methods.Mentions file := by
        intro mentions
        rw [covered file mentions] at has
        cases has
      rw [tracks.mentions_iff, not_not] at silent
      rw [kept, gone, silent]
      rfl
  constructor
  · intro isMatch
    have covered : ∀ file, coordinator.methods.Mentions file → state.kept.has file = true := by
      intro file mentions
      by_contra other
      obtain ⟨kept, gone⟩ := left (Bool.not_eq_true _ ▸ other)
      have stays : (coordinator.ofState state).methods.Mentions file := by
        rw [loaded.mentions_iff, kept]
        exact tracks.mentions_iff.mp mentions
      have new := fresh.mentions_iff.mp (isMatch.mentions stays)
      rw [gone] at new
      exact new rfl
    exact ⟨covered, (same covered).mp isMatch⟩
  · rintro ⟨covered, owners⟩
    exact (same covered).mpr owners

/-- Whatever happened before, the fingerprints and results after a load are those of the state. The method
table is too if it spoke of no other files and the same files own the names. Without a usable state nothing
changes. -/
theorem loadState_replaces (patterns : PatternStore) (options : IncrementalOptions)
    (files : Option FileCache) (uses : List Use) (sound : ∀ use ∈ uses, use.Sound) (fs : FileSystem)
    (path : Path) :
    let coordinator := Coordinator.afterUses { patterns, options, files } uses
    let loaded := (coordinator.loadState fs path).1
    (∀ state, SavedState.read fs path = .ok (some state) →
      loaded.store = FingerprintStore.ofList state.fingerprints ∧
      loaded.results = state.kept.foldl (fun results file => Assoc.put file.1 file.2 results) [] ∧
      (loaded.methods.Matches (MethodTable.fresh state.kept) ↔
        (∀ file, coordinator.methods.Mentions file → state.kept.has file = true) ∧
          loaded.methods.OwnersAgree (MethodTable.fresh state.kept))) ∧
    ((∀ state, SavedState.read fs path ≠ .ok (some state)) →
      coordinator.loadState fs path = (coordinator, 0)) := by
  intro coordinator loaded
  refine ⟨fun state read => ?_, loadState_of_unusable⟩
  have isLoaded : loaded = coordinator.ofState state := loadState_of_read read
  obtain ⟨ledger, tracks⟩ : ∃ ledger, coordinator.methods.Tracks ledger :=
    exists_tracks_afterUses ⟨{}, MethodTable.tracks_empty⟩ sound
  rw [isLoaded]
  refine ⟨?_, ?_, matches_fresh_iff tracks state⟩
  · rw [ofState_eq_kept]
  · rw [ofState_eq_kept]

/-- The analysis of a file that the state does not know. -/
def elsewhere : List Use := [.analyze Crawler.withStateOfCallee ⟨"a.rs"⟩ .rust]

/-- The method of that file is still there after the state is loaded, and where there is no state file its
result too. -/
theorem loadState_replaces_elsewhere :
    (∀ use ∈ elsewhere, use.Sound) ∧
      let coordinator := Coordinator.afterUses { patterns := .filled } elsewhere
      let loaded := (coordinator.loadState Crawler.withStateOfCallee ⟨"state.json"⟩).1
      SavedState.read Crawler.withStateOfCallee ⟨"state.json"⟩ = .ok (some Crawler.stateOfCallee) ∧
      loaded.results.has ⟨"a.rs"⟩ = false ∧
      ¬ loaded.methods.Matches (MethodTable.fresh Crawler.stateOfCallee.kept) ∧
      coordinator.loadState Crawler.withStateOfCallee ⟨"none.json"⟩ = (coordinator, 0) ∧
      (coordinator.resultOf? ⟨"a.rs"⟩).isSome = true := by
  have sound : ∀ use ∈ elsewhere, use.Sound := by
    intro use member
    cases List.mem_singleton.mp member
    trivial
  have defines : (Coordinator.afterUses { patterns := .filled } elsewhere).methods.methods.any
      (·.definedIn == ⟨"a.rs"⟩) = true := by decide +kernel
  have unknown : Crawler.stateOfCallee.kept.has ⟨"a.rs"⟩ = false := by decide +kernel
  have absent : SavedState.read Crawler.withStateOfCallee ⟨"none.json"⟩ = .ok none := by rfl
  obtain ⟨usable, -⟩ := loadState_replaces .filled {} none elsewhere sound Crawler.withStateOfCallee
    ⟨"state.json"⟩
  obtain ⟨-, results, isMatch⟩ := usable Crawler.stateOfCallee Crawler.read_stateOfCallee
  obtain ⟨-, unusable⟩ := loadState_replaces .filled {} none elsewhere sound
    Crawler.withStateOfCallee ⟨"none.json"⟩
  refine ⟨sound, Crawler.read_stateOfCallee, ?_, ?_, unusable fun state read => ?_, by decide +kernel⟩
  · rw [results]
    decide +kernel
  · intro same
    obtain ⟨method, member, here⟩ := List.any_eq_true.mp defines
    have covered := (isMatch.mp same).1 ⟨"a.rs"⟩ (.inl ⟨method, member, .inl here⟩)
    rw [unknown] at covered
    cases covered
  · cases absent.symm.trans read

end Coordinator

end DepAtlas
