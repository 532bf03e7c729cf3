import DepAtlas.Proofs.FileCache.Recency
import DepAtlas.Proofs.Incremental.Change
import DepAtlas.Proofs.Incremental.Regularity
import DepAtlas.Proofs.Incremental.Stock

/-!
The search for deleted files. It takes the files that are gone out of every store, records what they leave
behind, and touches nothing of any other file.
-/

namespace DepAtlas

namespace FileCache

variable {cache : FileCache} {path other : Path}

theorem contains_eq_any : cache.contains path = cache.entries.any (·.path == path) :=
  List.isSome_find? ..

theorem contains_erase :
    (cache.erase path).contains other = (cache.contains other && !(path == other)) := by
  rw [contains_eq_any, contains_eq_any, entries_erase, Bool.eq_iff_iff, Bool.and_eq_true,
    List.any_eq_true, List.any_eq_true, Bool.not_eq_true', BEq.comm (a := path)]
  constructor
  · rintro ⟨entry, member, here⟩
    obtain ⟨isEntry, apart⟩ := mem_others member
    rw [BEq.congr_left here] at apart
    exact ⟨⟨entry, isEntry, here⟩, apart⟩
  · rintro ⟨⟨entry, isEntry, here⟩, apart⟩
    rw [← BEq.congr_left here] at apart
    exact ⟨entry, List.mem_filter.mpr ⟨isEntry, by rw [apart]; rfl⟩, here⟩

theorem contains_invalidate :
    (cache.invalidate path).1.contains other = (cache.contains other && !(path == other)) := by
  unfold invalidate
  split
  · exact contains_erase
  case isFalse absent =>
    -- A path without an entry has none under another spelling either.
    rw [Bool.not_eq_true] at absent
    rw [← contains_erase, contains_eq_any, contains_eq_any, entries_erase, others,
      List.filter_eq_self.mpr]
    intro entry member
    rw [contains_eq_any] at absent
    rw [Bool.not_eq_true']
    exact eq_false_of_ne_true (List.any_eq_false.mp absent entry member)

end FileCache

namespace Coordinator

variable {coordinator : Coordinator} {fs : FileSystem} {seen : List Path} {path : Path}

/-- Whether a coordinator has a content of a file in its cache. -/
def caches (coordinator : Coordinator) (path : Path) : Bool :=
  coordinator.files.any (·.contains path)

/-- What a search for deleted files makes of a coordinator when it reports these paths. -/
structure Sweeps (coordinator : Coordinator) (fs : FileSystem) (seen : List Path) (after : Coordinator)
    (paths : List Path) : Prop where
  increasing : PathSet.Increasing paths
  reported : ∀ path, paths.any (· == path) = true ↔ coordinator.Misses fs seen path
  fingerprint : ∀ path, after.fingerprint? path =
    if paths.any (· == path) then none else coordinator.fingerprint? path
  result : ∀ path, after.resultOf? path =
    if paths.any (· == path) then none else coordinator.resultOf? path
  cached : ∀ path, after.caches path = (coordinator.caches path && !paths.any (· == path))
  mentioned : ∀ path, after.methods.Mentions path ↔
    coordinator.methods.Mentions path ∧ paths.any (· == path) = false
  /-- One change for each file with a result that is not empty. -/
  recorded : ∃ changes, after.changes = coordinator.changes ++ changes ∧
    changes.map (·.path) = paths.filter (fun path => !((coordinator.resultOf? path).getD []).isEmpty) ∧
    ∀ change ∈ changes, change.current = [] ∧
      coordinator.resultOf? change.path = some change.previous ∧ change.Telling

theorem caches_forget (coordinator : Coordinator) (fingerprint : Fingerprint) (path : Path) :
    (coordinator.forget fingerprint).caches path =
      (coordinator.caches path && !(fingerprint.path == path)) := by
  rw [forget_eq, caches, caches]
  cases coordinator.files with
  | none => rfl
  | some cache => exact FileCache.contains_invalidate

theorem caches_foldl_forget (coordinator : Coordinator) (gone : List Fingerprint) (path : Path) :
    (gone.foldl forget coordinator).caches path =
      (coordinator.caches path && !gone.any (·.path == path)) := by
  induction gone generalizing coordinator with
  | nil => exact (Bool.and_true _).symm
  | cons fingerprint gone ih =>
    rw [List.foldl_cons, ih, caches_forget, List.any_cons, Bool.not_or, Bool.and_assoc]

theorem increasing_goneFiles (distinct : Assoc.Distinct coordinator.store)
    (keyed : coordinator.store.Keyed) (fs : FileSystem) (seen : List Path) :
    (coordinator.goneFiles fs seen).Pairwise fun a b => a.path.Before b.path := by
  have sorted : coordinator.store.paths.Pairwise Path.Before :=
    pairwise_before_sortByPath id (List.pairwise_map.mpr distinct)
  refine List.pairwise_filterMap.mpr ((sorted.filter _).imp ?_)
  intro key later before fingerprint found other isOther
  exact (before.congr_left (BEq.symm (keyed key fingerprint found))).congr_right
    (BEq.symm (keyed later other isOther))

theorem map_path_recorded (coordinator : Coordinator) (gone : List Fingerprint) :
    (gone.flatMap fun fingerprint => (coordinator.recorded? fingerprint.path []).toList).map (·.path) =
      (gone.map (·.path)).filter fun path => !((coordinator.resultOf? path).getD []).isEmpty := by
  induction gone with
  | nil => rfl
  | cons fingerprint gone ih =>
    rw [List.flatMap_cons, List.map_append, ih, List.map_cons, List.filter_cons]
    cases found : coordinator.recorded? fingerprint.path [] with
    | none =>
      rw [recorded?_nil_eq_none_iff.mp found]
      rfl
    | some change =>
      have nonempty := mt recorded?_nil_eq_none_iff.mpr (by rw [found]; exact nofun)
      rw [if_pos (by simpa using nonempty), ← (of_recorded? found).2.1]
      rfl

/-- In a memory with one fingerprint for each path, and with a method table that comes about by taking
files in and out, exactly the files that are gone are swept. -/
theorem sweeps_detectDeleted
    (tracked : Paired (fun _ _ => True) coordinator.store coordinator.results) {ledger : Ledger}
    (tracks : coordinator.methods.Tracks ledger) (fs : FileSystem) (seen : List Path) :
    coordinator.Sweeps fs seen (coordinator.detectDeleted fs seen).1
      (coordinator.detectDeleted fs seen).2 := by
  let gone := coordinator.goneFiles fs seen
  let untracked : Coordinator := { coordinator with
    store := gone.foldl (fun store fingerprint => Assoc.erase fingerprint.path store) coordinator.store }
  have among (path : Path) : (gone.map (·.path)).any (· == path) = gone.any (·.path == path) :=
    List.any_map
  have increasing := increasing_goneFiles tracked.distinctStore tracked.keyed fs seen
  constructor
  case increasing => exact List.pairwise_map.mpr increasing
  case reported =>
    intro path
    rw [← any_goneFiles tracked.keyed fs seen path]
    exact (among path).symm ▸ Iff.rfl
  case fingerprint =>
    intro path
    obtain ⟨store, -⟩ := foldl_forget_memory untracked gone
    have erased : (gone.foldl forget untracked).fingerprint? path =
        if gone.any (·.path == path) then none else coordinator.fingerprint? path := by
      rw [fingerprint?, store, Assoc.get?_foldl_erase]
      rfl
    exact (among path).symm ▸ erased
  case result =>
    intro path
    exact (among path).symm ▸ resultOf?_foldl_forget untracked gone path
  case cached =>
    intro path
    exact (among path).symm ▸ caches_foldl_forget untracked gone path
  case mentioned =>
    intro path
    obtain ⟨later, tracks', latest⟩ := detectDeleted_tracks tracks fs seen
    have left : (coordinator.detectDeleted fs seen).2.any (· == path) =
        (coordinator.goneFiles fs seen).any (·.path == path) := among path
    rw [tracks'.mentions_iff, tracks.mentions_iff, latest, left]
    split
    case isTrue isGone => simp [isGone, Dependency.methods]
    case isFalse isThere => simp [isThere]
  case recorded =>
    have changes : (coordinator.detectDeleted fs seen).1.changes = coordinator.changes ++
        gone.flatMap fun fingerprint => (coordinator.recorded? fingerprint.path []).toList :=
      changes_foldl_forget untracked (increasing.imp Path.Before.beq_eq_false)
    refine ⟨_, changes, map_path_recorded coordinator gone, fun change member => ?_⟩
    obtain ⟨fingerprint, -, isRecorded⟩ := List.mem_flatMap.mp member
    obtain ⟨isResult, isPath, isCurrent, telling⟩ := of_recorded? (Option.mem_toList.mp isRecorded)
    rw [isPath]
    exact ⟨isCurrent, isResult, telling⟩

/-- A search for deleted files reports the tracked files that were not seen and are not there, forgets them
in every store, and leaves all other files as they are. -/
theorem detectDeleted_sweeps (patterns : PatternStore) (options : IncrementalOptions)
    (files : Option FileCache) (uses : List Use) (sound : ∀ use ∈ uses, use.Sound) (fs : FileSystem)
    (seen : List Path) :
    let coordinator := Coordinator.afterUses { patterns, options, files } uses
    coordinator.Sweeps fs seen (coordinator.detectDeleted fs seen).1
      (coordinator.detectDeleted fs seen).2 := by
  intro coordinator
  obtain ⟨ledger, tracks⟩ : ∃ ledger, coordinator.methods.Tracks ledger :=
    exists_tracks_afterUses ⟨{}, MethodTable.tracks_empty⟩ sound
  exact sweeps_detectDeleted (tracked_afterUses patterns options {} files uses) tracks fs seen

/-- Two files define a method of one name. -/
def twoOwners : FileSystem where
  nodes := [([], .directory), (["a.rs"], .file "fn f() {}\n".toUTF8.toList {}),
    (["b.rs"], .file "fn f() {}\n".toUTF8.toList {})]
  current := []

/-- The first of them is gone. -/
def heir : FileSystem where
  nodes := [([], .directory), (["b.rs"], .file "fn f() {}\n".toUTF8.toList {})]
  current := []

def bothOwners : List Use := [
  .analyze twoOwners ⟨"a.rs"⟩ .rust, .analyze twoOwners ⟨"b.rs"⟩ .rust]

/-- The method goes over to the file that is left, and nothing speaks of the other one any more. -/
theorem detectDeleted_sweeps_owner :
    (∀ use ∈ bothOwners, use.Sound) ∧
      let coordinator := Coordinator.afterUses { patterns := .filled } bothOwners
      let after := (coordinator.detectDeleted heir []).1
      coordinator.Sweeps heir [] after (coordinator.detectDeleted heir []).2 ∧
        after.resultOf? ⟨"a.rs"⟩ = none ∧ ¬ after.methods.Mentions ⟨"a.rs"⟩ ∧
        after.methods.Mentions ⟨"b.rs"⟩ := by
  have sound : ∀ use ∈ bothOwners, use.Sound := by
    intro use member
    simp only [bothOwners, List.mem_cons, List.not_mem_nil, or_false] at member
    rcases member with rfl | rfl <;> trivial
  refine ⟨sound, ?_⟩
  intro coordinator after
  have sweeps : coordinator.Sweeps heir [] after (coordinator.detectDeleted heir []).2 :=
    detectDeleted_sweeps .filled {} none bothOwners sound heir []
  have facts : ((Assoc.keys coordinator.store).any fun key =>
        key == ⟨"a.rs"⟩ && !heir.exists? key) = true ∧
      ((Assoc.keys coordinator.store).any fun key => key == ⟨"b.rs"⟩ && !heir.exists? key) = false ∧
      (coordinator.methods.conflicts.any (·.rejected == ⟨"b.rs"⟩)) = true := by decide +kernel
  obtain ⟨isGone, isThere, isHeir⟩ := facts
  have first : (coordinator.detectDeleted heir []).2.any (· == ⟨"a.rs"⟩) = true := by
    obtain ⟨key, isKey, gone⟩ := List.any_eq_true.mp isGone
    rw [Bool.and_eq_true, Bool.not_eq_true'] at gone
    exact (sweeps.reported _).mpr ⟨key, isKey, gone.1, rfl, gone.2⟩
  have second : (coordinator.detectDeleted heir []).2.any (· == ⟨"b.rs"⟩) = false := by
    refine eq_false_of_ne_true fun reported => ?_
    obtain ⟨key, isKey, same, -, absent⟩ := (sweeps.reported _).mp reported
    exact List.any_eq_false.mp isThere key isKey (by rw [same, absent]; rfl)
  refine ⟨sweeps, ?_, fun mentions => ?_, (sweeps.mentioned _).mpr ⟨?_, second⟩⟩
  · rw [sweeps.result, if_pos first]
  · have kept := ((sweeps.mentioned _).mp mentions).2
    rw [first] at kept
    cases kept
  · obtain ⟨conflict, member, here⟩ := List.any_eq_true.mp isHeir
    exact .inr ⟨conflict, member, .inr here⟩

end Coordinator

end DepAtlas
