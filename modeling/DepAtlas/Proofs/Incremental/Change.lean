import Mathlib.Data.Finset.Basic
import Mathlib.Data.String.Basic
import DepAtlas.Proofs.Config.Validation
import DepAtlas.Proofs.Incremental.Failure
import DepAtlas.Proofs.Incremental.Upkeep

/-!
What a recorded change says: the keys that came and the keys that went between two results of a file, so
that it leads from the keys of the one to the keys of the other. A change is recorded when a file with a
result is extracted anew or is gone, and only where the keys differ.
-/

namespace DepAtlas

theorem nodup_eraseDups {α : Type} [BEq α] [LawfulBEq α] (items : List α) : items.eraseDups.Nodup := by
  match items with
  | [] => exact List.nodup_nil
  | first :: rest =>
    rw [List.eraseDups_cons, List.nodup_cons]
    refine ⟨?_, nodup_eraseDups _⟩
    rw [List.mem_eraseDups]
    simp
termination_by items.length
decreasing_by exact Nat.lt_succ_of_le (List.length_filter_le _ _)

namespace Dependency

def keys (dependencies : List Dependency) : Finset String :=
  (dependencies.map (·.key)).toFinset

theorem mem_keys {dependencies : List Dependency} {key : String} :
    key ∈ keys dependencies ↔ key ∈ dependencies.map (·.key) :=
  List.mem_toFinset

end Dependency

theorem LayerMask.ofList_toList (layers : List Layer) :
    ofList (ofList layers).toList = ofList layers := by
  have small : (ofList layers).bits ∈ [(0 : UInt8), 1, 2, 3, 4, 5, 6, 7] := by
    apply List.foldlRecOn
      (motive := fun (mask : LayerMask) => mask.bits ∈ [(0 : UInt8), 1, 2, 3, 4, 5, 6, 7]) layers
    · decide
    · intro mask small layer _
      have step : ∀ bits ∈ [(0 : UInt8), 1, 2, 3, 4, 5, 6, 7],
          bits ||| layer.bit ∈ [(0 : UInt8), 1, 2, 3, 4, 5, 6, 7] := by
        cases layer <;> decide +kernel
      exact step mask.bits small
  have each : ∀ bits ∈ [(0 : UInt8), 1, 2, 3, 4, 5, 6, 7],
      ofList (LayerMask.mk bits).toList = LayerMask.mk bits := by decide +kernel
  exact each _ small

/-- The key of a dependency tells its layer. -/
theorem Layer.eq_of_key {layer other : Layer} {target target' : String}
    (same : layer.name ++ ":" ++ target = other.name ++ ":" ++ target') : layer = other := by
  have letters := congrArg (fun text => text.toList.take 2) same
  simp only [String.toList_append, List.append_assoc] at letters
  cases layer <;> cases other <;> first | rfl | (revert letters; simp [Layer.name])

namespace DependencyChange

open Dependency (keys mem_keys)

variable {path : Path} {previous current : List Dependency} {timestamp : Nat}
  {change : DependencyChange}

theorem mem_keysBeyond {keys others : List String} {key : String} :
    key ∈ keysBeyond keys others ↔ key ∈ keys ∧ key ∉ others := by
  rw [keysBeyond, (List.mergeSort_perm _ _).mem_iff, List.mem_filter, List.mem_eraseDups]
  simp

theorem increasing_keysBeyond (keys others : List String) :
    (keysBeyond keys others).Pairwise (· < ·) := by
  have sorted : (keysBeyond keys others).Pairwise fun a b => decide (a ≤ b) = true := by
    refine List.pairwise_mergeSort (fun a b c first second => ?_) (fun a b => ?_) _
    · rw [decide_eq_true_eq] at first second ⊢
      exact le_trans first second
    · simpa using le_total a b
  have apart : (keysBeyond keys others).Pairwise (· ≠ ·) :=
    (List.mergeSort_perm _ _).nodup_iff.mpr ((nodup_eraseDups keys).filter _)
  exact sorted.imp₂ (fun a b below apart => lt_of_le_of_ne (of_decide_eq_true below) apart) apart

theorem keysBeyond_eq_nil {keys others : List String} :
    keysBeyond keys others = [] ↔ ∀ key ∈ keys, key ∈ others := by
  rw [List.eq_nil_iff_forall_not_mem]
  simp only [mem_keysBeyond, not_and, not_not]

/-- What a change makes of a set of keys. -/
def replay (keys : Finset String) (change : DependencyChange) : Finset String :=
  (keys \ change.removed.toFinset) ∪ change.added.toFinset

/-- A change tells all that there is between its two results. -/
structure Telling (change : DependencyChange) : Prop where
  mem_added : ∀ key, key ∈ change.added ↔ key ∈ keys change.current ∧ key ∉ keys change.previous
  mem_removed : ∀ key, key ∈ change.removed ↔ key ∈ keys change.previous ∧ key ∉ keys change.current
  increasing_added : change.added.Pairwise (· < ·)
  increasing_removed : change.removed.Pairwise (· < ·)
  disjoint : change.added.Disjoint change.removed
  nonempty : ¬ (change.added = [] ∧ change.removed = [])
  layers : ∀ layer : Layer, change.layers.contains layer = true ↔
    ∃ target, layer.name ++ ":" ++ target ∈ change.added ++ change.removed
  onlyLayers : change.layers = LayerMask.ofList change.layers.toList

theorem Telling.replay (telling : change.Telling) :
    replay (keys change.previous) change = keys change.current := by
  ext key
  rw [DependencyChange.replay, Finset.mem_union, Finset.mem_sdiff, List.mem_toFinset, List.mem_toFinset,
    telling.mem_added, telling.mem_removed]
  tauto

theorem contains_layersBetween (layer : Layer) :
    (layersBetween (previous.map (·.key)) (current.map (·.key)) (previous ++ current)).contains layer
        = true ↔
      ∃ target, layer.name ++ ":" ++ target ∈
        keysBeyond (current.map (·.key)) (previous.map (·.key)) ++
          keysBeyond (previous.map (·.key)) (current.map (·.key)) := by
  rw [layersBetween, LayerMask.contains_ofList, List.mem_map]
  simp only [List.mem_filter, List.mem_append, mem_keysBeyond]
  constructor
  · rintro ⟨dependency, ⟨member, differs⟩, rfl⟩
    have occurs : dependency.key ∈ previous.map (·.key) ∨ dependency.key ∈ current.map (·.key) :=
      member.imp (fun here => List.mem_map.mpr ⟨dependency, here, rfl⟩)
        fun here => List.mem_map.mpr ⟨dependency, here, rfl⟩
    refine ⟨dependency.target, ?_⟩
    rw [bne_iff_ne, ne_eq, Bool.eq_iff_iff, List.contains_iff_mem, List.contains_iff_mem] at differs
    show (dependency.key ∈ _ ∧ dependency.key ∉ _) ∨ (dependency.key ∈ _ ∧ dependency.key ∉ _)
    tauto
  · rintro ⟨target, member⟩
    obtain ⟨dependency, isDependency, isKey⟩ :
        ∃ dependency, (dependency ∈ previous ∨ dependency ∈ current) ∧
          dependency.key = layer.name ++ ":" ++ target := by
      rcases member with ⟨occurs, -⟩ | ⟨occurs, -⟩
      · obtain ⟨dependency, here, isKey⟩ := List.mem_map.mp occurs
        exact ⟨dependency, .inr here, isKey⟩
      · obtain ⟨dependency, here, isKey⟩ := List.mem_map.mp occurs
        exact ⟨dependency, .inl here, isKey⟩
    refine ⟨dependency, ⟨isDependency, ?_⟩, Layer.eq_of_key isKey⟩
    rw [isKey, bne_iff_ne, ne_eq, Bool.eq_iff_iff, List.contains_iff_mem, List.contains_iff_mem]
    tauto

theorem between?_eq_none_iff :
    between? path previous current timestamp = none ↔ keys previous = keys current := by
  have differ : (keysBeyond (current.map (·.key)) (previous.map (·.key)) = [] ∧
      keysBeyond (previous.map (·.key)) (current.map (·.key)) = []) ↔ keys previous = keys current := by
    rw [keysBeyond_eq_nil, keysBeyond_eq_nil, Finset.ext_iff]
    simp only [mem_keys]
    constructor
    · rintro ⟨back, forth⟩ key
      exact ⟨forth key, back key⟩
    · intro same
      exact ⟨fun key => (same key).mpr, fun key => (same key).mp⟩
  rw [← differ, between?]
  simp only [Bool.and_eq_true, List.isEmpty_iff]
  split <;> simp_all

theorem of_between? (found : between? path previous current timestamp = some change) :
    change.path = path ∧ change.previous = previous ∧ change.current = current ∧ change.Telling := by
  unfold between? at found
  dsimp only at found
  split at found
  · cases found
  case isFalse differ =>
    cases found
    refine ⟨rfl, rfl, rfl, ?_, ?_, increasing_keysBeyond _ _, increasing_keysBeyond _ _, ?_, ?_,
      contains_layersBetween, (LayerMask.ofList_toList _).symm⟩
    · intro key
      rw [mem_keysBeyond, mem_keys, mem_keys]
    · intro key
      rw [mem_keysBeyond, mem_keys, mem_keys]
    · intro key isAdded isRemoved
      exact (mem_keysBeyond.mp isAdded).2 (mem_keysBeyond.mp isRemoved).1
    · rintro ⟨noAdded, noRemoved⟩
      dsimp only at noAdded noRemoved
      rw [noAdded, noRemoved] at differ
      exact differ rfl

end DependencyChange

namespace Coordinator

open Dependency (keys)

variable {coordinator after : Coordinator} {fs : FileSystem} {path : Path} {language : Language}
  {current : List Dependency} {change : DependencyChange}

/-- The change that is recorded when a file gets a new result. -/
def recorded? (coordinator : Coordinator) (path : Path) (current : List Dependency) :
    Option DependencyChange :=
  (coordinator.resultOf? path).bind fun previous =>
    DependencyChange.between? path previous current coordinator.timestamp

theorem of_recorded? (found : coordinator.recorded? path current = some change) :
    coordinator.resultOf? path = some change.previous ∧ change.path = path ∧
      change.current = current ∧ change.Telling := by
  obtain ⟨previous, isResult, isChange⟩ := Option.bind_eq_some_iff.mp found
  obtain ⟨isPath, rfl, isCurrent, telling⟩ := DependencyChange.of_between? isChange
  exact ⟨isResult, isPath, isCurrent, telling⟩

theorem recorded?_self (isResult : coordinator.resultOf? path = some current) :
    coordinator.recorded? path current = none := by
  rw [recorded?, isResult]
  exact DependencyChange.between?_eq_none_iff.mpr rfl

theorem recorded?_of_none (isResult : coordinator.resultOf? path = none) (current : List Dependency) :
    coordinator.recorded? path current = none := by
  rw [recorded?, isResult]
  rfl

theorem recorded?_nil_eq_none_iff :
    coordinator.recorded? path [] = none ↔ (coordinator.resultOf? path).getD [] = [] := by
  rw [recorded?]
  cases coordinator.resultOf? path with
  | none => simp
  | some previous =>
    rw [Option.bind_some, DependencyChange.between?_eq_none_iff, Option.getD_some]
    simp [keys]

theorem filter_recorded? (coordinator : Coordinator) (path : Path) (current : List Dependency)
    (other : Path) :
    (coordinator.recorded? path current).toList.filter (·.path == other) =
      if path == other then (coordinator.recorded? path current).toList else [] := by
  cases found : coordinator.recorded? path current with
  | none => simp
  | some change =>
    rw [Option.toList_some, List.filter_singleton, (of_recorded? found).2.1]
    cases path == other <;> rfl

theorem foldl_replay_recorded? {previous : List Dependency}
    (isResult : coordinator.resultOf? path = some previous) (current : List Dependency) :
    (coordinator.recorded? path current).toList.foldl DependencyChange.replay (keys previous) =
      keys current := by
  cases found : coordinator.recorded? path current with
  | none =>
    rw [recorded?, isResult] at found
    exact DependencyChange.between?_eq_none_iff.mp found
  | some change =>
    obtain ⟨isPrevious, -, rfl, telling⟩ := of_recorded? found
    cases isResult.symm.trans isPrevious
    exact telling.replay

theorem recordChange_spec (coordinator : Coordinator) (path : Path)
    (previous current : List Dependency) :
    let recorded := DependencyChange.between? path previous current coordinator.timestamp
    (coordinator.recordChange path previous current).1.changes =
        coordinator.changes ++ recorded.toList ∧
      (coordinator.recordChange path previous current).1.results = coordinator.results ∧
      (coordinator.recordChange path previous current).2 = recorded.isSome := by
  intro recorded
  unfold recordChange
  split
  case h_1 none =>
    rw [show recorded = Option.none from none]
    exact ⟨(List.append_nil _).symm, rfl, rfl⟩
  case h_2 change some =>
    rw [show recorded = Option.some change from some]
    exact ⟨rfl, rfl, rfl⟩

theorem resultOf?_forget (coordinator : Coordinator) (fingerprint : Fingerprint) (other : Path) :
    (coordinator.forget fingerprint).resultOf? other =
      if fingerprint.path == other then none else coordinator.resultOf? other := by
  rw [forget_eq]
  exact Assoc.get?_erase ..

theorem changes_forget (coordinator : Coordinator) (fingerprint : Fingerprint) :
    (coordinator.forget fingerprint).changes =
      coordinator.changes ++ (coordinator.recorded? fingerprint.path []).toList := by
  unfold forget
  dsimp only
  rw [(recordChange_spec _ _ _ _).1, recorded?]
  cases isResult : coordinator.resultOf? fingerprint.path with
  | some previous => rfl
  | none =>
    rw [Option.getD_none, DependencyChange.between?_eq_none_iff.mpr rfl]
    rfl

theorem recorded?_forget {fingerprint : Fingerprint} (apart : (fingerprint.path == path) = false)
    (current : List Dependency) :
    (coordinator.forget fingerprint).recorded? path current = coordinator.recorded? path current := by
  have sameTime : (coordinator.forget fingerprint).timestamp = coordinator.timestamp := by
    rw [forget_eq]
    rfl
  rw [recorded?, recorded?, resultOf?_forget, apart, if_neg Bool.false_ne_true, sameTime]

/-- Each of several files that are forgotten has its change recorded, as if it were the only one. -/
theorem changes_foldl_forget (coordinator : Coordinator) {gone : List Fingerprint}
    (apart : gone.Pairwise fun a b => (a.path == b.path) = false) :
    (gone.foldl forget coordinator).changes = coordinator.changes ++
      gone.flatMap fun fingerprint => (coordinator.recorded? fingerprint.path []).toList := by
  induction gone generalizing coordinator with
  | nil => exact (List.append_nil _).symm
  | cons fingerprint gone ih =>
    obtain ⟨distinct, restApart⟩ := List.pairwise_cons.mp apart
    have same : gone.flatMap (fun other =>
          ((coordinator.forget fingerprint).recorded? other.path []).toList) =
        gone.flatMap fun other => (coordinator.recorded? other.path []).toList :=
      List.flatMap_congr fun other member => congrArg _ (recorded?_forget (distinct other member) [])
    rw [List.foldl_cons, ih _ restApart, same, changes_forget, List.flatMap_cons, List.append_assoc]

/-- What an analysis with an answer makes of the results and of the recorded changes. -/
structure Renews (coordinator : Coordinator) (path : Path) (after : Coordinator) (analysis : Analysis) :
    Prop where
  results : ∀ other, after.resultOf? other =
    if path == other then some analysis.dependencies else coordinator.resultOf? other
  changes : after.changes =
    coordinator.changes ++ (coordinator.recorded? path analysis.dependencies).toList
  changed : analysis.changed = (coordinator.recorded? path analysis.dependencies).isSome

theorem recorded_adopt {stamp : Stamp} {contentHash : UInt64} {state : FileState}
    {analysis : Analysis}
    (adopted : coordinator.adopt path stamp contentHash state current = (after, analysis)) :
    after.changes = coordinator.changes ++ (coordinator.recorded? path current).toList ∧
      analysis.changed = (coordinator.recorded? path current).isSome := by
  unfold adopt at adopted
  dsimp only at adopted
  rw [recorded?]
  split at adopted
  case h_1 previous isResult =>
    cases adopted
    rw [isResult]
    exact ⟨(recordChange_spec ..).1, (recordChange_spec ..).2.2⟩
  case h_2 isResult =>
    cases adopted
    rw [isResult]
    exact ⟨(List.append_nil _).symm, rfl⟩

theorem renews_adopt {stamp : Stamp} {contentHash : UInt64} {state : FileState} {analysis : Analysis}
    (adopted : coordinator.adopt path stamp contentHash state current = (after, analysis)) :
    coordinator.Renews path after analysis := by
  obtain ⟨fingerprint, -, -, -, -, isAfter, isAnswer, -⟩ := adopt_spec adopted
  obtain ⟨changes, changed⟩ := recorded_adopt adopted
  rw [← isAnswer] at changes changed
  refine ⟨fun other => ?_, changes, changed⟩
  rw [isAfter, resultOf?, Assoc.get?_put, isAnswer]
  rfl

theorem renews_reuse {analysis : Analysis}
    (reused : coordinator.reuse? path = some (after, analysis)) :
    coordinator.Renews path after analysis := by
  obtain ⟨dependencies, found, isAnswer⟩ := Option.map_eq_some_iff.mp reused
  cases isAnswer
  have silent := recorded?_self found
  refine ⟨fun other => ?_, ?_, ?_⟩
  · dsimp only
    split
    case isTrue here => exact (Assoc.get?_congr here _).symm.trans found
    case isFalse => rfl
  · rw [silent]
    exact (List.append_nil _).symm
  · rw [silent]
    rfl

theorem HasRead.renews {reader : Coordinator} (hasRead : HasRead coordinator reader)
    {analysis : Analysis} (renews : reader.Renews path after analysis) :
    coordinator.Renews path after analysis := by
  rw [hasRead] at renews
  exact ⟨renews.results, renews.changes, renews.changed⟩

theorem renews_analyze {analysis : Analysis}
    (answered : coordinator.analyze fs path language = (after, .ok analysis)) :
    coordinator.Renews path after analysis := by
  have answers := answers_analyze coordinator fs path language
  rw [answered] at answers
  generalize isLast : (after, Except.ok analysis).1 = last at answers
  obtain rfl : after = last := isLast
  cases answers with
  | byStamp _ _ reused => exact renews_reuse reused
  | byContent _ read _ reused =>
    -- The fingerprint gets a new stamp, the results and the changes stay.
    have renews := (readContent_spec read).1.renews (renews_reuse reused)
    exact ⟨renews.results, renews.changes, renews.changed⟩
  | extracted read _ adopted => exact (readContent_spec read).1.renews (renews_adopt adopted)

theorem unrecorded_analyze {cause : Failure}
    (failed : coordinator.analyze fs path language = (after, .error cause)) :
    after.results = coordinator.results ∧ after.changes = coordinator.changes := by
  obtain ⟨outcome, read⟩ := exists_readContent_of_failed failed
  have hasRead := (readContent_spec read).1
  exact ⟨hasRead.results, hasRead.changes⟩

end Coordinator

end DepAtlas
