import Mathlib.Data.List.Pairwise
import DepAtlas.Proofs.Path

/-!
Entries sorted by their paths.
-/

namespace DepAtlas

variable {α β : Type}

theorem mem_sortByPath {path : α → Path} {entries : List α} {entry : α} :
    entry ∈ sortByPath path entries ↔ entry ∈ entries :=
  (List.mergeSort_perm entries _).mem_iff

theorem map_sortByPath (path : β → Path) (view : α → β) (entries : List α) :
    (sortByPath (fun entry => path (view entry)) entries).map view =
      sortByPath path (entries.map view) :=
  List.map_mergeSort fun _ _ _ _ => rfl

theorem pairwise_sortByPath (path : α → Path) (entries : List α) :
    (sortByPath path entries).Pairwise fun a b => (Ord.compare (path a) (path b)).isLE = true := by
  refine List.pairwise_mergeSort (fun a b c => Std.TransCmp.isLE_trans) (fun a b => ?_) entries
  have swapped : Ord.compare (path b) (path a) = (Ord.compare (path a) (path b)).swap :=
    Std.OrientedCmp.eq_swap
  rw [swapped]
  cases Ord.compare (path a) (path b) <;> rfl

theorem sortByPath_eq_self {path : α → Path} {entries : List α}
    (sorted : entries.Pairwise fun a b => (Ord.compare (path a) (path b)).isLE = true) :
    sortByPath path entries = entries :=
  List.mergeSort_of_pairwise sorted

theorem apart_sortByPath {path : α → Path} {entries : List α}
    (apart : entries.Pairwise fun a b => (path a == path b) = false) :
    (sortByPath path entries).Pairwise fun a b => (path a == path b) = false :=
  ((List.mergeSort_perm entries _).symm.pairwise_iff fun apart => BEq.comm.trans apart).mp apart

/-- Entries with different paths are in strictly increasing order when sorted. -/
theorem pairwise_before_sortByPath (path : α → Path) {entries : List α}
    (apart : entries.Pairwise fun a b => (path a == path b) = false) :
    (sortByPath path entries).Pairwise fun a b => (path a).Before (path b) := by
  refine (pairwise_sortByPath path entries).imp₂ ?_ (apart_sortByPath apart)
  intro a b le apart
  cases order : Ord.compare (path a) (path b) with
  | lt => exact order
  | eq =>
    rw [Std.LawfulBEqCmp.compare_eq_iff_beq.mp order] at apart
    cases apart
  | gt =>
    rw [order] at le
    cases le

/-- Entries with different paths are sorted into one order, whatever order they come in. -/
theorem sortByPath_eq_of_perm {path : α → Path} {entries other : List α}
    (apart : entries.Pairwise fun a b => (path a == path b) = false) (perm : entries.Perm other) :
    sortByPath path entries = sortByPath path other := by
  have : Std.Symm fun a b : α => (path a == path b) = false := ⟨fun _ _ apart => BEq.comm.trans apart⟩
  have left : (sortByPath path entries).Perm entries := List.mergeSort_perm _ _
  have right : (sortByPath path other).Perm other := List.mergeSort_perm _ _
  refine List.Perm.eq_of_pairwise ?_ (pairwise_sortByPath path entries) (pairwise_sortByPath path other)
    (left.trans (perm.trans right.symm))
  intro a b first second below above
  -- Neither comes after the other, so their paths are equal, and equal paths stand for one entry.
  by_contra different
  have distinct := apart.forall (left.mem_iff.mp first)
    (perm.mem_iff.mpr (right.mem_iff.mp second)) different
  have equal : Ord.compare (path a) (path b) = .eq := Std.OrientedCmp.isLE_antisymm below above
  rw [Std.LawfulBEqCmp.compare_eq_iff_beq.mp equal] at distinct
  cases distinct

/-- What is left of sorted entries does not depend on the others. -/
theorem filter_sortByPath_eq {path : α → Path} {entries other : List α} {kept : α → Bool}
    (apart : entries.Pairwise fun a b => (path a == path b) = false)
    (perm : (entries.filter kept).Perm (other.filter kept)) :
    (sortByPath path entries).filter kept = (sortByPath path other).filter kept := by
  have left : ((sortByPath path entries).filter kept).Perm (entries.filter kept) :=
    (List.mergeSort_perm _ _).filter kept
  have right : ((sortByPath path other).filter kept).Perm (other.filter kept) :=
    (List.mergeSort_perm _ _).filter kept
  calc (sortByPath path entries).filter kept
    _ = sortByPath path ((sortByPath path entries).filter kept) :=
      (sortByPath_eq_self ((pairwise_sortByPath path entries).filter kept)).symm
    _ = sortByPath path ((sortByPath path other).filter kept) :=
      sortByPath_eq_of_perm ((apart_sortByPath apart).filter kept) (left.trans (perm.trans right.symm))
    _ = (sortByPath path other).filter kept :=
      sortByPath_eq_self ((pairwise_sortByPath path other).filter kept)

end DepAtlas
