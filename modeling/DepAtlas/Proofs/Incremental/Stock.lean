import DepAtlas.Crawl
import DepAtlas.Proofs.Incremental.Reuse

/-!
Taking stock after the work. Files that are gone are forgotten and moves are noted; every other file stays
as settled as it was.
-/

namespace DepAtlas

theorem Assoc.get?_foldl_erase {κ α β : Type} [BEq κ] [EquivBEq κ] (key : β → κ) (items : List β)
    (entries : Assoc κ α) (other : κ) :
    (items.foldl (fun entries item => erase (key item) entries) entries).get? other =
      if items.any (key · == other) then none else entries.get? other := by
  induction items generalizing entries with
  | nil => rfl
  | cons item rest ih =>
    rw [List.foldl_cons, ih, get?_erase, List.any_cons]
    cases key item == other <;> simp

theorem FingerprintStore.Amends.refl (store : FingerprintStore) : store.Amends store :=
  ⟨rfl, fun found => ⟨_, found, rfl⟩⟩

namespace Coordinator

variable {coordinator : Coordinator} {fs : FileSystem} {seen : List Path} {path : Path}

open Classical in
theorem fingerprint?_detectDeleted (keyed : coordinator.store.Keyed) (fs : FileSystem) (seen : List Path)
    (path : Path) :
    (coordinator.detectDeleted fs seen).1.fingerprint? path =
      if coordinator.Misses fs seen path then none else coordinator.fingerprint? path := by
  obtain ⟨store, -⟩ := foldl_forget_memory
    { coordinator with
      store := (coordinator.goneFiles fs seen).foldl
        (fun store fingerprint => Assoc.erase fingerprint.path store) coordinator.store }
    (coordinator.goneFiles fs seen)
  rw [fingerprint?, detectDeleted]
  dsimp only
  rw [store, Assoc.get?_foldl_erase]
  exact if_congr (any_goneFiles keyed fs seen path) rfl rfl

theorem foldl_forget_options (coordinator : Coordinator) (gone : List Fingerprint) :
    (gone.foldl forget coordinator).options = coordinator.options := by
  induction gone generalizing coordinator with
  | nil => rfl
  | cons fingerprint gone ih => rw [List.foldl_cons, ih, forget_eq]

theorem goneFiles_eq_nil (keyed : coordinator.store.Keyed)
    (present : ∀ path, ¬ coordinator.Misses fs seen path) : coordinator.goneFiles fs seen = [] := by
  refine List.eq_nil_iff_forall_not_mem.mpr fun fingerprint member => present fingerprint.path ?_
  exact (any_goneFiles keyed fs seen _).mp (List.any_eq_true.mpr ⟨fingerprint, member, BEq.rfl⟩)

/-- What noting moves leaves alone. -/
structure Notes (verifies : Bool) (coordinator after : Coordinator) : Prop where
  amends : coordinator.store.Amends after.store
  keeps : coordinator.store.Keeps verifies after.store
  results : after.results = coordinator.results
  options : after.options = coordinator.options
  changes : after.changes = coordinator.changes
  savable : coordinator.Savable → after.Savable

theorem Notes.refl (verifies : Bool) (coordinator : Coordinator) : coordinator.Notes verifies coordinator :=
  ⟨.refl _, .refl _ _, rfl, rfl, rfl, id⟩

theorem Notes.detectMove {verifies : Bool} {earlier : Coordinator × List (Path × Path)}
    (notes : coordinator.Notes verifies earlier.1) (path : Path) :
    coordinator.Notes verifies (detectMove earlier path).1 := by
  obtain ⟨earlier, moves⟩ := earlier
  unfold Coordinator.detectMove
  dsimp only at notes ⊢
  split
  · exact notes
  case h_2 known found =>
    split
    · exact notes
    split
    · exact notes
    split
    · exact notes
    case h_2 old _ =>
      let change (known : Fingerprint) : Fingerprint :=
        { known with state := .moved, movedFrom := some old.path }
      have noted : earlier.store.put path (change known) = earlier.store.modify path change := by
        rw [FingerprintStore.modify, found]
      rw [noted]
      refine ⟨notes.amends.trans (FingerprintStore.amends_modify _ path fun _ => rfl),
        notes.keeps.trans (FingerprintStore.keeps_modify _ path (fun _ => rfl) fun _ _ => rfl),
        notes.results, notes.options, notes.changes, fun savable => ?_⟩
      have begun := notes.savable savable
      exact ⟨begun.storable.modify path (fun _ => rfl) fun _ fits => ⟨fits.stamp, fits.lastAnalyzed⟩,
        begun.time⟩

theorem notes_detectMoves (verifies : Bool) (coordinator : Coordinator) :
    coordinator.Notes verifies coordinator.detectMoves.1 :=
  List.foldlRecOn
    (motive := fun (state : Coordinator × List (Path × Path)) => coordinator.Notes verifies state.1)
    coordinator.store.paths _ (.refl _ _) fun _ notes path _ => notes.detectMove path

end Coordinator

namespace Crawler

open Coordinator (Notes notes_detectMoves)

variable {coordinator : Coordinator} {fs : FileSystem} {seen : List Path} {path : Path}
  {results : List WorkResult}

theorem notes_takeStock (verifies : Bool) (coordinator : Coordinator) (fs : FileSystem) (seen : List Path)
    (results : List WorkResult) :
    let counted := (coordinator.detectDeleted fs seen).1
    ∃ noted, Notes verifies counted noted ∧
      (takeStock coordinator fs seen results).1 = { noted with changes := [] } ∧
      (takeStock coordinator fs seen results).2.changes = noted.changes := by
  intro counted
  cases tracks : counted.options.trackMoves with
  | true =>
    refine ⟨counted.detectMoves.1, notes_detectMoves verifies counted, ?_, ?_⟩
    all_goals
      rw [takeStock]
      dsimp only [counted] at tracks ⊢
      rw [if_pos tracks]
      rfl
  | false =>
    refine ⟨counted, .refl _ _, ?_, ?_⟩
    all_goals
      rw [takeStock]
      dsimp only [counted] at tracks ⊢
      rw [if_neg (by simp [tracks])]
      rfl

theorem settled_takeStock {verifies : Bool} {dependencies : List Dependency}
    (inStep : coordinator.InStep) (keyed : coordinator.store.Keyed)
    (settled : coordinator.Settled verifies fs path dependencies)
    (present : ¬ coordinator.Misses fs seen path) (results : List WorkResult) :
    (takeStock coordinator fs seen results).1.Settled verifies fs path dependencies := by
  obtain ⟨noted, notes, isFinal, -⟩ := notes_takeStock verifies coordinator fs seen results
  have result := (Coordinator.detectDeleted_spec inStep keyed fs seen).2 path
  have fingerprint := Coordinator.fingerprint?_detectDeleted keyed fs seen path
  rw [if_neg present] at result fingerprint
  have counted := settled.congr result fingerprint rfl rfl
  rw [isFinal]
  exact counted.keep notes.keeps (by rw [Coordinator.resultOf?, notes.results]; rfl)

/-- What is still tracked was tracked before, and is there or was seen. -/
theorem exists_of_takeStock {known : Fingerprint} (keyed : coordinator.store.Keyed)
    (found : (takeStock coordinator fs seen results).1.fingerprint? path = some known) :
    ∃ earlier, coordinator.fingerprint? path = some earlier ∧ known.path = earlier.path ∧
      ¬ coordinator.Misses fs seen path := by
  obtain ⟨noted, notes, isFinal, -⟩ := notes_takeStock true coordinator fs seen results
  rw [isFinal] at found
  obtain ⟨earlier, counted, same⟩ := notes.amends.paths found
  have fingerprint := Coordinator.fingerprint?_detectDeleted keyed fs seen path
  rw [Coordinator.fingerprint?, counted] at fingerprint
  split at fingerprint
  · cases fingerprint
  case isFalse present => exact ⟨earlier, fingerprint.symm, same, present⟩

theorem savable_takeStock (savable : coordinator.Savable) (fs : FileSystem) (seen : List Path)
    (results : List WorkResult) : (takeStock coordinator fs seen results).1.Savable := by
  obtain ⟨noted, notes, isFinal, -⟩ := notes_takeStock true coordinator fs seen results
  have last := notes.savable (savable.detectDeleted fs seen)
  rw [isFinal]
  exact ⟨last.storable, last.time⟩

theorem options_takeStock (coordinator : Coordinator) (fs : FileSystem) (seen : List Path)
    (results : List WorkResult) :
    (takeStock coordinator fs seen results).1.options = coordinator.options := by
  obtain ⟨noted, notes, isFinal, -⟩ := notes_takeStock true coordinator fs seen results
  rw [isFinal]
  exact notes.options.trans (Coordinator.foldl_forget_options _ _)

/-- Nothing is reported of files that are all there. -/
theorem takeStock_of_present (keyed : coordinator.store.Keyed)
    (present : ∀ path, ¬ coordinator.Misses fs seen path) (results : List WorkResult) :
    (takeStock coordinator fs seen results).2.changes = coordinator.changes ∧
      (takeStock coordinator fs seen results).2.deleted = 0 := by
  obtain ⟨noted, notes, -, changes⟩ := notes_takeStock true coordinator fs seen results
  have none := Coordinator.goneFiles_eq_nil keyed present
  refine ⟨?_, ?_⟩
  · rw [changes, notes.changes, Coordinator.detectDeleted, none]
    rfl
  · rw [takeStock, Coordinator.detectDeleted, none]
    rfl

end Crawler

end DepAtlas
