import DepAtlas.Assoc

/-!
Association lists seen through the look-up of a key, for keys that are compared by an equivalence.
-/

namespace DepAtlas.Assoc

variable {κ α : Type} [BEq κ]

theorem get?_nil (key : κ) : get? key ([] : Assoc κ α) = none := rfl

theorem get?_cons (key : κ) (entry : κ × α) (rest : Assoc κ α) :
    get? key (entry :: rest) = if entry.1 == key then some entry.2 else get? key rest := by
  unfold get?
  rw [List.find?_cons]
  cases entry.1 == key <;> rfl

theorem has_eq_isSome (key : κ) (entries : Assoc κ α) : has key entries = (get? key entries).isSome := by
  induction entries with
  | nil => rfl
  | cons entry rest ih =>
    rw [get?_cons]
    simp only [has, List.any_cons] at ih ⊢
    cases entry.1 == key
    · simpa using ih
    · simp

theorem exists_mem_of_get? {key : κ} {value : α} {entries : Assoc κ α}
    (found : get? key entries = some value) :
    ∃ entry ∈ entries, (entry.1 == key) = true ∧ entry.2 = value := by
  obtain ⟨entry, first, rfl⟩ := Option.map_eq_some_iff.mp found
  have matched := List.find?_some first
  exact ⟨entry, List.mem_of_find?_eq_some first, matched, rfl⟩

/-- No key stands twice. -/
def Distinct (entries : Assoc κ α) : Prop :=
  entries.Pairwise fun a b => (a.1 == b.1) = false

theorem Distinct.erase {entries : Assoc κ α} (distinct : Distinct entries) (key : κ) :
    Distinct (erase key entries) :=
  List.Pairwise.filter _ distinct

section Equivalence

variable [EquivBEq κ]

theorem get?_congr {key other : κ} (same : (key == other) = true) (entries : Assoc κ α) :
    get? key entries = get? other entries := by
  induction entries with
  | nil => rfl
  | cons entry rest ih => rw [get?_cons, get?_cons, ih, BEq.congr_right same]

@[simp] theorem get?_put (key other : κ) (value : α) (entries : Assoc κ α) :
    get? other (put key value entries) = if key == other then some value else get? other entries := by
  induction entries with
  | nil => simp [put, get?_cons, get?_nil]
  | cons entry rest ih =>
    by_cases here : (entry.1 == key) = true
    · have same : (entry.1 == other) = (key == other) := BEq.congr_left here
      simp only [put, here, if_true, get?_cons, same]
      split <;> rfl
    · simp only [put, here, if_false, get?_cons, ih, Bool.false_eq_true]
      by_cases atEntry : (entry.1 == other) = true
      · have apart : ¬ (key == other) = true := fun h => here (BEq.trans atEntry (BEq.symm h))
        simp [atEntry, apart]
      · simp [atEntry]

@[simp] theorem get?_erase (key other : κ) (entries : Assoc κ α) :
    get? other (erase key entries) = if key == other then none else get? other entries := by
  induction entries with
  | nil => simp [erase, get?_nil]
  | cons entry rest ih =>
    simp only [erase] at ih
    by_cases here : (entry.1 == key) = true
    · have same : (entry.1 == other) = (key == other) := BEq.congr_left here
      rw [erase, List.filter_cons_of_neg (by simp [here]), ih, get?_cons, same]
      split <;> rfl
    · rw [erase, List.filter_cons_of_pos (by simp [here]), get?_cons, get?_cons, ih]
      by_cases atEntry : (entry.1 == other) = true
      · have apart : ¬ (key == other) = true := fun h => here (BEq.trans atEntry (BEq.symm h))
        simp [atEntry, apart]
      · simp [atEntry]

theorem has_congr {key other : κ} (same : (key == other) = true) (entries : Assoc κ α) :
    has key entries = has other entries := by
  rw [has_eq_isSome, has_eq_isSome, get?_congr same]

theorem has_put (key other : κ) (value : α) (entries : Assoc κ α) :
    has other (put key value entries) = (key == other || has other entries) := by
  rw [has_eq_isSome, has_eq_isSome, get?_put]
  cases key == other <;> rfl

theorem mem_put_key {key : κ} {value : α} {entries : Assoc κ α} {entry : κ × α}
    (member : entry ∈ put key value entries) :
    (entry.1 == key) = true ∨ entry ∈ entries := by
  induction entries with
  | nil =>
    left
    rw [List.mem_singleton.mp member]
    exact BEq.rfl
  | cons first rest ih =>
    by_cases here : (first.1 == key) = true
    · simp only [put, here, if_true, List.mem_cons] at member
      rcases member with rfl | member
      · exact .inl here
      · exact .inr (List.mem_cons_of_mem _ member)
    · simp only [put, here, if_false, Bool.false_eq_true, List.mem_cons] at member
      rcases member with rfl | member
      · exact .inr List.mem_cons_self
      · exact (ih member).imp_right (List.mem_cons_of_mem _)

theorem Distinct.put {entries : Assoc κ α} (distinct : Distinct entries) (key : κ) (value : α) :
    Distinct (put key value entries) := by
  induction entries with
  | nil => exact List.pairwise_singleton _ _
  | cons first rest ih =>
    obtain ⟨apart, restDistinct⟩ := List.pairwise_cons.mp distinct
    by_cases here : (first.1 == key) = true
    · simp only [Assoc.put, here, if_true]
      exact List.pairwise_cons.mpr ⟨apart, restDistinct⟩
    · simp only [Assoc.put, here, if_false, Bool.false_eq_true]
      refine List.pairwise_cons.mpr ⟨fun entry member => ?_, ih restDistinct⟩
      rcases mem_put_key member with atKey | old
      · cases same : first.1 == entry.1
        · rfl
        · exact absurd (BEq.trans same atKey) here
      · exact apart entry old

theorem Distinct.get?_of_mem {entries : Assoc κ α} (distinct : Distinct entries) {entry : κ × α}
    (member : entry ∈ entries) : get? entry.1 entries = some entry.2 := by
  induction entries with
  | nil => cases member
  | cons first rest ih =>
    obtain ⟨apart, restDistinct⟩ := List.pairwise_cons.mp distinct
    rw [get?_cons]
    rcases List.mem_cons.mp member with rfl | member
    · simp
    · simp [apart entry member, ih restDistinct member]

theorem Distinct.get?_tail {entry : κ × α} {rest : Assoc κ α} (distinct : Distinct (entry :: rest))
    {key : κ} (same : (entry.1 == key) = true) : get? key rest = none := by
  cases found : get? key rest with
  | none => rfl
  | some value =>
    obtain ⟨other, member, here, -⟩ := exists_mem_of_get? found
    have apart := (List.pairwise_cons.mp distinct).1 other member
    rw [BEq.trans same (BEq.symm here)] at apart
    cases apart

theorem Distinct.perm {entries other : Assoc κ α} (distinct : Distinct entries)
    (perm : entries.Perm other) : Distinct other :=
  (perm.pairwise_iff fun apart => BEq.comm.trans apart).mp distinct

theorem Distinct.get?_perm {entries other : Assoc κ α}
    (distinct : Distinct entries) (perm : entries.Perm other) (key : κ) :
    get? key entries = get? key other := by
  have distinct' : Distinct other := (perm.pairwise_iff fun apart => BEq.comm.trans apart).mp distinct
  cases found : get? key other with
  | some value =>
    obtain ⟨entry, member, same, rfl⟩ := exists_mem_of_get? found
    rw [← get?_congr same, distinct.get?_of_mem (perm.mem_iff.mpr member)]
  | none =>
    cases found' : get? key entries with
    | none => rfl
    | some value =>
      obtain ⟨entry, member, same, rfl⟩ := exists_mem_of_get? found'
      rw [← get?_congr same, distinct'.get?_of_mem (perm.mem_iff.mp member)] at found
      cases found

end Equivalence

end DepAtlas.Assoc
