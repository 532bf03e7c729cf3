import DepAtlas.Proofs.Extract.WellFormed
import DepAtlas.Proofs.Incremental.Bookkeeping
import DepAtlas.Proofs.Incremental.Stock

/-!
Whose dependencies a coordinator remembers. What is extracted from a file names that file as its source. A
coordinator hands out what it extracted for a path for that path alone, also where the result has been in a
state file in the meantime, as long as a coordinator has written that file.
-/

namespace DepAtlas

/-- All dependencies were found in one file. -/
def Dependency.From (path : Path) (dependencies : List Dependency) : Prop :=
  ∀ dependency ∈ dependencies, (dependency.source == path) = true

theorem Dependency.from_nil (path : Path) : From path [] :=
  fun _ impossible => absurd impossible List.not_mem_nil

theorem Dependency.From.congr {path other : Path} {dependencies : List Dependency}
    (found : From path dependencies) (same : (path == other) = true) : From other dependencies :=
  fun dependency member => BEq.trans (found dependency member) same

namespace Extract

variable {store : PatternStore} {source : Source} {dependencies : List Dependency}

theorem source_of_layers {parts : List Layer} (extracted : layers store source parts = .ok dependencies) :
    ∀ dependency ∈ dependencies, dependency.source = source.path := by
  intro dependency member
  obtain ⟨part, here, isLayer, member⟩ := exists_layer_of_mem_layers extracted member
  obtain ⟨target, offset, detail, rfl⟩ := exists_of_mem_layer isLayer member
  rfl

end Extract

theorem from_of_extractAs {store : PatternStore} {language : Language} {path : Path} {content : String}
    {mask : LayerMask} {dependencies : List Dependency}
    (extracted : extractAs store language path content mask = .ok dependencies) :
    Dependency.From path dependencies := by
  intro dependency member
  rw [Extract.source_of_layers extracted dependency member]
  exact BEq.rfl

namespace Coordinator

variable {coordinator after saver : Coordinator} {fs : FileSystem} {path : Path} {language : Language}
  {dependencies : List Dependency}

/-- Each result is remembered under the path of the file that it was found in. -/
def Sourced (coordinator : Coordinator) : Prop :=
  ∀ path dependencies, coordinator.resultOf? path = some dependencies → Dependency.From path dependencies

namespace Sourced

theorem nothing (none : coordinator.results = []) : coordinator.Sourced := by
  intro path dependencies found
  rw [resultOf?, none] at found
  cases found

theorem of_eq (sourced : coordinator.Sourced) (same : after.results = coordinator.results) :
    after.Sourced := by
  intro path dependencies found
  rw [resultOf?, same] at found
  exact sourced path dependencies found

theorem put (sourced : coordinator.Sourced) (found : Dependency.From path dependencies)
    (adds : after.results = coordinator.results.put path dependencies) : after.Sourced := by
  intro other others isResult
  rw [resultOf?, adds, Assoc.get?_put] at isResult
  split at isResult
  case isTrue same =>
    cases isResult
    exact found.congr same
  case isFalse => exact sourced other others isResult

theorem erase (sourced : coordinator.Sourced) (drops : after.results = coordinator.results.erase path) :
    after.Sourced := by
  intro other others isResult
  rw [resultOf?, drops, Assoc.get?_erase] at isResult
  split at isResult
  · cases isResult
  · exact sourced other others isResult

/-- An analysis keeps to this, and its answer is about its file. -/
theorem analyze (sourced : coordinator.Sourced) (fs : FileSystem) (path : Path) (language : Language) :
    (coordinator.analyze fs path language).1.Sourced ∧
      ∀ analysis, (coordinator.analyze fs path language).2 = .ok analysis →
        Dependency.From path analysis.dependencies := by
  have answers := answers_analyze coordinator fs path language
  generalize coordinator.analyze fs path language = outcome at answers ⊢
  obtain ⟨after, answer⟩ := outcome
  have kept {reader : Coordinator} (hasRead : HasRead coordinator reader) : reader.Sourced :=
    sourced.of_eq hasRead.results
  have reused {reader next : Coordinator} {analysis : Analysis} (sourced : reader.Sourced)
      (reused : reader.reuse? path = some (next, analysis)) :
      next.Sourced ∧ Dependency.From path analysis.dependencies := by
    obtain ⟨found, -, results, -⟩ := reuse_frame reused
    exact ⟨sourced.of_eq results, sourced path _ found⟩
  cases answers with
  | unread read => exact ⟨kept (readContent_spec read).1, nofun⟩
  | unextracted read => exact ⟨kept (readContent_spec read).1, nofun⟩
  | byStamp _ _ isReused =>
    obtain ⟨next, found⟩ := reused sourced isReused
    refine ⟨next, ?_⟩
    rintro _ ⟨⟩
    exact found
  | byContent _ read _ isReused =>
    obtain ⟨next, found⟩ := reused (kept (readContent_spec read).1) isReused
    refine ⟨next.of_eq rfl, ?_⟩
    rintro _ ⟨⟩
    exact found
  | extracted read extracted adopted =>
    have found := from_of_extractAs extracted
    obtain ⟨fingerprint, -, -, -, -, isAfter, same, -⟩ := adopt_spec adopted
    refine ⟨(kept (readContent_spec read).1).put found (by rw [isAfter]), ?_⟩
    rintro _ ⟨⟩
    rwa [same]

theorem detectDeleted (sourced : coordinator.Sourced) (fs : FileSystem) (seen : List Path) :
    (coordinator.detectDeleted fs seen).1.Sourced := by
  intro path dependencies found
  have found := (resultOf?_foldl_forget _ (coordinator.goneFiles fs seen) path).symm.trans found
  split at found
  · cases found
  · exact sourced path dependencies found

/-- A state that such a coordinator has left is taken over. -/
theorem ofState (sourced : saver.Sourced) (distinct : Assoc.Distinct saver.results)
    (coordinator : Coordinator) : (coordinator.ofState saver.toState).Sourced := by
  refine List.foldlRecOn (motive := Sourced) _ _ (nothing rfl) ?_
  intro earlier kept result member
  have found : Dependency.From result.path result.dependencies := by
    obtain ⟨entry, isEntry, rfl⟩ := List.mem_map.mp member
    exact sourced entry.1 entry.2 (distinct.get?_of_mem (mem_sortByPath.mp isEntry))
  unfold restore
  split
  · exact kept.put found rfl
  · exact kept

end Sourced

/-- All coordinators that come about with state files of such ones keep to it. -/
theorem Arises.sourced (arises : coordinator.Arises) : coordinator.Sourced := by
  induction arises with
  | begin => exact .nothing rfl
  | @work coordinator _ use loads sourced =>
    cases use with
    | analyze fs path language => exact (sourced.analyze fs path language).1
    | detectDeleted fs seen => exact sourced.detectDeleted fs seen
    | detectMoves => exact sourced.of_eq (notes_detectMoves true coordinator).results
    | invalidate path => exact sourced.erase rfl
    | clear => exact .nothing rfl
    | loadState fs path =>
      -- Such a file is used in no way but the next one.
      show (coordinator.loadState fs path).1.Sourced
      unfold Coordinator.loadState
      split
      case h_1 state read => exact (loads state read).elim
      case h_2 => exact sourced
    | takeChanges | setTime | share => exact sourced.of_eq rfl
  | @load coordinator saver _ saves fs path stored sourced sourcedSaver =>
    unfold Coordinator.loadState
    split
    case h_1 state read =>
      obtain ⟨bytes, readable, decoded, -⟩ := SavedState.exists_of_read read
      cases readable.symm.trans stored
      rw [SavedState.eq_of_decode?_encode decoded]
      have paired : Paired (fun _ _ => True) saver.store saver.results := saves.paired fun _ => trivial
      exact sourcedSaver.ofState paired.distinctResults coordinator
    case h_2 => exact sourced

end Coordinator

end DepAtlas
