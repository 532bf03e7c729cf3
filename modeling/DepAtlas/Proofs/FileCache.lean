import DepAtlas.FileCache
import DepAtlas.Proofs.Path

/-!
What a cache holds after each operation: entries that it held before, and the one that was put in.
-/

namespace DepAtlas.FileCache

variable {cache : FileCache} {path : Path} {entry : CachedFile}

theorem entries_of_create {maxEntries maxBytes : Nat} (created : create maxEntries maxBytes = .ok cache) :
    cache.entries = [] := by
  unfold create at created
  split at created
  · cases created
  · cases created
    rfl

theorem mem_of_mem_erase (member : entry ∈ (cache.erase path).entries) : entry ∈ cache.entries := by
  unfold erase at member
  split at member
  · exact (List.mem_filter.mp member).1
  · exact member

theorem mem_of_mem_evict {bound : Nat} (member : entry ∈ (evict bound cache).entries) :
    entry ∈ cache.entries := by
  induction bound generalizing cache with
  | zero => exact member
  | succ bound ih =>
    rw [evict] at member
    split at member
    · exact member
    · split at member
      · exact member
      · exact List.dropLast_subset _ (ih member)

theorem mem_put {content : String} {stamp : Stamp}
    (member : entry ∈ (cache.put path content stamp).1.entries) :
    entry = { path, content, stamp } ∨ entry ∈ cache.entries := by
  simp only [put] at member
  split at member
  · exact .inr member
  · rcases List.mem_cons.mp (mem_of_mem_evict member) with same | old
    · exact .inl same
    · exact .inr (mem_of_mem_erase old)

theorem mem_of_mem_invalidate (member : entry ∈ (cache.invalidate path).1.entries) :
    entry ∈ cache.entries := by
  unfold invalidate at member
  split at member
  · exact mem_of_mem_erase member
  · exact member

theorem mem_of_mem_get {fs : FileSystem} (member : entry ∈ (cache.get fs path).1.entries) :
    entry ∈ cache.entries := by
  unfold get at member
  split at member
  · exact member
  case h_2 found isFound =>
    split at member
    · exact mem_of_mem_erase member
    · rcases List.mem_cons.mp member with rfl | other
      · exact List.mem_of_find?_eq_some isFound
      · exact (List.mem_filter.mp other).1

/-- What is handed out is the entry for the path, if the file still has its stamp. -/
theorem get_eq_some_iff {fs : FileSystem} {content : String} {stamp : Stamp} :
    (cache.get fs path).2 = some (content, stamp) ↔
      ∃ entry, cache.find? path = some entry ∧ entry.content = content ∧ entry.stamp = stamp ∧
        Stamp.read fs path = .ok stamp := by
  unfold get
  cases cache.find? path with
  | none => simp
  | some entry =>
    have current : entry.stamp.isStale fs path = false ↔ Stamp.read fs path = .ok entry.stamp := by
      unfold Stamp.isStale
      cases Stamp.read fs path <;> simp
    dsimp only
    split
    case isTrue stale =>
      simp only [stale, Bool.true_eq_false, false_iff] at current
      constructor
      · nofun
      · rintro ⟨_, ⟨⟩, -, rfl, stamped⟩
        exact absurd stamped current
    case isFalse fresh =>
      have stamped := current.mp (Bool.not_eq_true _ ▸ fresh)
      constructor
      · intro found
        obtain ⟨rfl, rfl⟩ := Prod.mk.inj (Option.some.inj found)
        exact ⟨entry, rfl, rfl, rfl, stamped⟩
      · rintro ⟨_, ⟨⟩, rfl, rfl, -⟩
        rfl

theorem exists_of_get {fs : FileSystem} {content : String} {stamp : Stamp}
    (found : (cache.get fs path).2 = some (content, stamp)) :
    ∃ entry ∈ cache.entries, (entry.path == path) = true ∧ entry.content = content ∧
      entry.stamp = stamp ∧ Stamp.read fs path = .ok stamp := by
  obtain ⟨entry, isFound, isContent, isStamp, stamped⟩ := get_eq_some_iff.mp found
  unfold find? at isFound
  have matched := List.find?_some isFound
  exact ⟨entry, List.mem_of_find?_eq_some isFound, matched, isContent, isStamp, stamped⟩

end DepAtlas.FileCache
