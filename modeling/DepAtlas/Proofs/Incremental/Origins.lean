import DepAtlas.Proofs.Incremental.Moves
import DepAtlas.Proofs.Incremental.Regularity
import DepAtlas.Proofs.Incremental.Stock

/-!
Where moves start from. A deletion is remembered until a move or a clearing takes it, also when the file
comes back in the meantime; so a move starts from a file that is tracked exactly if that file was brought
back after its deletion was noticed.
-/

namespace DepAtlas

/-- Whether a use can let a path be tracked that is not. -/
def Use.brings (path : Path) : Use → Bool
  | .analyze _ other _ => other == path
  | .loadState _ _ => true
  | _ => false

namespace Coordinator

variable {begun coordinator : Coordinator} {path : Path} {uses : List Use} {old : Fingerprint}

def tracks (coordinator : Coordinator) (path : Path) : Bool :=
  (coordinator.fingerprint? path).isSome

/-- Whether the deletion of a path is remembered. -/
def mourns (coordinator : Coordinator) (path : Path) : Bool :=
  coordinator.deleted.any (·.path == path)

theorem tracks_congr {other : Path} (same : (path == other) = true) :
    coordinator.tracks path = coordinator.tracks other := by
  rw [tracks, fingerprint?, Assoc.get?_congr same]
  rfl

/-- A path whose deletion is remembered is brought back by one of the uses, and tracked from then on. -/
def Returns (begun : Coordinator) (uses : List Use) (path : Path) : Prop :=
  ∃ before use after, uses = before ++ use :: after ∧ use.brings path = true ∧
    (begun.afterUses before).mourns path = true ∧ (begun.afterUses before).tracks path = false ∧
    ∀ later, later <+: after → (begun.afterUses (before ++ use :: later)).tracks path = true

theorem deleted_analyze (coordinator : Coordinator) (fs : FileSystem) (path : Path)
    (language : Language) : (coordinator.analyze fs path language).1.deleted = coordinator.deleted := by
  have answers := answers_analyze coordinator fs path language
  generalize coordinator.analyze fs path language = outcome at answers ⊢
  obtain ⟨after, answer⟩ := outcome
  have reused {reader next : Coordinator} {analysis : Analysis}
      (reused : reader.reuse? path = some (next, analysis)) : next.deleted = reader.deleted := by
    obtain ⟨dependencies, -, same⟩ := Option.map_eq_some_iff.mp reused
    cases same
    rfl
  cases answers with
  | unread read => exact (readContent_spec read).1.deleted
  | unextracted read => exact (readContent_spec read).1.deleted
  | byStamp _ _ isReused => exact reused isReused
  | byContent _ read _ isReused => exact (reused isReused).trans (readContent_spec read).1.deleted
  | extracted read _ adopted =>
    obtain ⟨fingerprint, -, -, -, -, isAfter, -⟩ := adopt_spec adopted
    rw [isAfter]
    exact (readContent_spec read).1.deleted

theorem deleted_ofState (coordinator : Coordinator) (state : SavedState) :
    (coordinator.ofState state).deleted = coordinator.deleted := by
  refine List.foldlRecOn
    (motive := fun (restored : Coordinator) => restored.deleted = coordinator.deleted)
    state.results _ rfl fun earlier same result _ => ?_
  unfold restore
  split <;> exact same

theorem deleted_foldl_forget (coordinator : Coordinator) (gone : List Fingerprint) :
    (gone.foldl forget coordinator).deleted =
      coordinator.deleted ++ gone.map fun fingerprint => { fingerprint with state := .deleted } := by
  induction gone generalizing coordinator with
  | nil => exact (List.append_nil _).symm
  | cons fingerprint gone ih =>
    have first : (coordinator.forget fingerprint).deleted =
        coordinator.deleted ++ [{ fingerprint with state := .deleted }] := by
      unfold forget recordChange
      dsimp only
      split <;> rfl
    rw [List.foldl_cons, ih, first, List.map_cons, List.append_assoc]
    rfl

theorem deleted_detectDeleted (coordinator : Coordinator) (fs : FileSystem) (seen : List Path) :
    (coordinator.detectDeleted fs seen).1.deleted = coordinator.deleted ++
      (coordinator.goneFiles fs seen).map fun fingerprint => { fingerprint with state := .deleted } :=
  deleted_foldl_forget _ _

section Step

variable (paired : Paired (fun _ _ => True) coordinator.store coordinator.results)
include paired

/-- A path whose deletion is noticed now is not tracked any more. -/
theorem mourns_use {use : Use} (mourned : (coordinator.use use).mourns path = true) :
    coordinator.mourns path = true ∨ (coordinator.use use).tracks path = false := by
  have kept (same : (coordinator.use use).deleted = coordinator.deleted) :
      coordinator.mourns path = true := by rwa [mourns, same] at mourned
  cases use with
  | analyze fs other language => exact .inl (kept (deleted_analyze coordinator fs other language))
  | detectDeleted fs seen =>
    have mourned : (coordinator.detectDeleted fs seen).1.mourns path = true := mourned
    rw [mourns, deleted_detectDeleted, List.any_append, Bool.or_eq_true, List.any_map] at mourned
    refine mourned.imp_right fun gone => ?_
    have missed := (any_goneFiles paired.keyed fs seen path).mp gone
    show (coordinator.detectDeleted fs seen).1.tracks path = false
    rw [tracks, fingerprint?_detectDeleted paired.keyed, if_pos missed]
    rfl
  | detectMoves =>
    obtain ⟨pairs, rest, noted, result⟩ :=
      exists_noted paired.distinctStore (FingerprintStore.apart_paths paired.distinctStore)
    have left : coordinator.detectMoves.1.deleted = rest := congrArg (·.1.deleted) result
    have mourned : coordinator.detectMoves.1.mourns path = true := mourned
    rw [mourns, left] at mourned
    obtain ⟨old, member, same⟩ := List.any_eq_true.mp mourned
    exact .inl (List.any_eq_true.mpr ⟨old, noted.order.subset member, same⟩)
  | clear => cases mourned
  | loadState fs other =>
    refine .inl (kept ?_)
    show (coordinator.loadState fs other).1.deleted = coordinator.deleted
    unfold loadState
    split
    case h_1 state _ => exact deleted_ofState coordinator state
    case h_2 => rfl
  | takeChanges | invalidate | setTime | share => exact .inl mourned

/-- A path comes to be tracked by an analysis of it or by a state that is loaded. -/
theorem brings_of_tracks {use : Use} (untracked : coordinator.tracks path = false)
    (tracked : (coordinator.use use).tracks path = true) : use.brings path = true := by
  have absent : coordinator.store.get? path = none := by
    simpa [tracks, fingerprint?] using untracked
  have amended {after : FingerprintStore} (amends : coordinator.store.Amends after) :
      after.get? path = none := by
    refine Option.eq_none_iff_forall_ne_some.mpr fun fingerprint found => ?_
    obtain ⟨known, isKnown, -⟩ := amends.paths found
    cases absent.symm.trans isKnown
  obtain ⟨fingerprint, found⟩ := Option.isSome_iff_exists.mp tracked
  by_contra other
  rw [Bool.not_eq_true] at other
  cases use with
  | analyze fs elsewhere language =>
    have analyzes := analyzes_analyze coordinator fs elsewhere language
    have found : (coordinator.analyze fs elsewhere language).1.store.get? path = some fingerprint := found
    generalize coordinator.analyze fs elsewhere language = outcome at analyzes found
    obtain ⟨after, answer⟩ := outcome
    cases analyzes with
    | failed _ _ _ store => cases (store ▸ absent).symm.trans found
    | reused _ _ _ _ amends => cases (amended amends).symm.trans found
    | adopted _ _ _ _ _ store =>
      have apart : (elsewhere == path) = false := other
      rw [store, Assoc.get?_put, apart] at found
      cases absent.symm.trans found
  | detectDeleted fs seen =>
    have found : (coordinator.detectDeleted fs seen).1.fingerprint? path = some fingerprint := found
    rw [fingerprint?_detectDeleted paired.keyed] at found
    split at found
    · cases found
    · cases absent.symm.trans found
  | detectMoves => cases (amended (notes_detectMoves true coordinator).amends).symm.trans found
  | invalidate elsewhere =>
    have found : (coordinator.store.erase elsewhere).get? path = some fingerprint := found
    rw [Assoc.get?_erase] at found
    split at found
    · cases found
    · cases absent.symm.trans found
  | clear => cases found
  | loadState => cases other
  | takeChanges | setTime | share => cases absent.symm.trans found

end Step

theorem Returns.concat (returns : Returns begun uses path) {use : Use}
    (tracked : (begun.afterUses (uses ++ [use])).tracks path = true) :
    Returns begun (uses ++ [use]) path := by
  obtain ⟨before, bringer, after, rfl, brings, mourned, untracked, stays⟩ := returns
  refine ⟨before, bringer, after ++ [use], by simp, brings, mourned, untracked, fun later isPrefix => ?_⟩
  rcases List.prefix_concat_iff.mp isPrefix with rfl | isPrefix
  · simpa using tracked
  · exact stays later isPrefix

/-- A path that is tracked while its deletion is remembered was brought back. -/
theorem returns_of_mourns (patterns : PatternStore) (options : IncrementalOptions)
    (methods : MethodTable) (files : Option FileCache) {uses : List Use} :
    let begun : Coordinator := { patterns, options, methods, files }
    (begun.afterUses uses).mourns path = true → (begun.afterUses uses).tracks path = true →
      Returns begun uses path := by
  intro begun mourned tracked
  induction uses using List.reverseRecOn with
  | nil => cases mourned
  | append_singleton uses use ih =>
    have paired := tracked_afterUses patterns options methods files uses
    have last : begun.afterUses (uses ++ [use]) = (begun.afterUses uses).use use := List.foldl_concat ..
    rw [last] at mourned
    have mourned : (begun.afterUses uses).mourns path = true := by
      rcases mourns_use paired mourned with mourned | untracked
      · exact mourned
      · cases untracked.symm.trans (last ▸ tracked)
    cases before : (begun.afterUses uses).tracks path with
    | true => exact (ih mourned before).concat tracked
    | false =>
      -- The last use brings the path back.
      refine ⟨uses, use, [], rfl, brings_of_tracks paired before (last ▸ tracked), mourned, before, ?_⟩
      intro later isPrefix
      rw [List.prefix_nil.mp isPrefix]
      exact tracked

/-- A reported move starts from a path whose deletion is remembered, and ends at a tracked one. -/
theorem of_mem_detectMoves (distinct : Assoc.Distinct coordinator.store) {move : Path × Path}
    (reported : move ∈ coordinator.detectMoves.2) :
    coordinator.mourns move.1 = true ∧ coordinator.tracks move.2 = true := by
  obtain ⟨pairs, rest, noted, result⟩ :=
    exists_noted distinct (FingerprintStore.apart_paths distinct)
  have moves : coordinator.detectMoves.2 = moveEnds pairs := congrArg (·.2) result
  rw [moves] at reported
  obtain ⟨⟨old, path⟩, member, rfl⟩ := List.mem_map.mp reported
  refine ⟨List.any_eq_true.mpr ⟨old, ?_, BEq.rfl⟩, ?_⟩
  · exact noted.pairing.deletions.subset (List.mem_map_of_mem member)
  · obtain ⟨known, found, -⟩ := noted.alike member
    exact Option.isSome_iff_exists.mpr ⟨known, found⟩

/-- A move starts from a path that is still tracked exactly if the file was brought back after its deletion
was noticed; only then can it end where it starts. -/
theorem tracks_origin_iff (patterns : PatternStore) (options : IncrementalOptions)
    (methods : MethodTable) (files : Option FileCache) (uses : List Use) {move : Path × Path} :
    let begun : Coordinator := { patterns, options, methods, files }
    let coordinator := begun.afterUses uses
    move ∈ coordinator.detectMoves.2 →
      (coordinator.tracks move.1 = true ↔ Returns begun uses move.1) ∧
        ((move.1 == move.2) = true → Returns begun uses move.1) := by
  intro begun coordinator reported
  have distinct := (tracked_afterUses patterns options methods files uses).distinctStore
  obtain ⟨mourned, tracked⟩ := of_mem_detectMoves distinct reported
  have returns : coordinator.tracks move.1 = true → Returns begun uses move.1 :=
    returns_of_mourns patterns options methods files mourned
  refine ⟨⟨returns, ?_⟩, fun same => returns ((tracks_congr same).trans tracked)⟩
  rintro ⟨before, use, after, rfl, -, -, -, stays⟩
  exact stays after (List.prefix_refl after)

def kept : FileSystem where
  nodes := [([], .directory), (["a.rs"], .file "fn a() {}\n".toUTF8.toList {})]
  current := []

def emptied : FileSystem where
  nodes := [([], .directory)]
  current := []

/-- A file is deleted, and analyzed again when it is back. -/
def recreated : List Use := [
  .analyze kept ⟨"a.rs"⟩ .rust, .detectDeleted emptied [], .analyze kept ⟨"a.rs"⟩ .rust]

/-- It is reported to have moved to where it was. -/
theorem tracks_origin_iff_recreated :
    let begun : Coordinator := { patterns := .filled }
    (⟨"a.rs"⟩, ⟨"a.rs"⟩) ∈ (begun.afterUses recreated).detectMoves.2 ∧
      (begun.afterUses recreated).tracks ⟨"a.rs"⟩ = true ∧ Returns begun recreated ⟨"a.rs"⟩ := by
  intro begun
  have reported : (⟨"a.rs"⟩, ⟨"a.rs"⟩) ∈ (begun.afterUses recreated).detectMoves.2 := by
    have texts : (begun.afterUses recreated).detectMoves.2.map (fun move => (move.1.text, move.2.text)) =
        [("a.rs", "a.rs")] := by decide +kernel
    obtain ⟨⟨⟨origin⟩, ⟨goal⟩⟩, moves, same⟩ := List.map_eq_singleton_iff.mp texts
    cases same
    rw [moves]
    exact List.mem_singleton.mpr rfl
  obtain ⟨tracked, same⟩ := tracks_origin_iff .filled {} {} none recreated reported
  have returns := same (by decide)
  exact ⟨reported, tracked.mpr returns, returns⟩

end Coordinator

end DepAtlas
