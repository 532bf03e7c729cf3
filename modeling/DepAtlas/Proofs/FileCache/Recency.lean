import Mathlib.Data.List.Basic
import DepAtlas.Proofs.FileCache
import DepAtlas.Ratio

/-!
A file cache keeps two limits at once and drops what was used longest ago. Its entries stand in the order
of their last use, its byte count is the sum of their sizes, and a content that is put in drives out the
fewest of the oldest entries.
-/

namespace DepAtlas

theorem total_append {α : Type} (measure : α → Nat) (front back : List α) :
    total measure (front ++ back) = total measure front + total measure back := by
  induction front with
  | nil => simp [total]
  | cons item rest ih => simp only [List.cons_append, total, ih, Nat.add_assoc]

/-- A call on a file cache. -/
inductive CacheCall
  | get (path : Path)
  | put (path : Path) (content : String) (stamp : Stamp)
  | readThrough (path : Path)
  | invalidate (path : Path)
  | clear

namespace FileCache

/-- The cache after a call. -/
def apply (cache : FileCache) (fs : FileSystem) : CacheCall → FileCache
  | .get path => (cache.get fs path).1
  | .put path content stamp => (cache.put path content stamp).1
  | .readThrough path => (cache.readThrough fs path).1
  | .invalidate path => (cache.invalidate path).1
  | .clear => cache.clear

/-- The path that a call uses: the one whose content it finds or puts in. -/
def used (cache : FileCache) (fs : FileSystem) : CacheCall → List Path
  | .get path => if (cache.get fs path).2.isSome then [path] else []
  | .put path content stamp => if (cache.put path content stamp).2.isOk then [path] else []
  | .readThrough path =>
    match cache.get fs path, readStamped fs path with
    | (_, some _), _ => [path]
    | (missed, none), .ok (content, stamp) =>
      if (missed.put path content stamp).2.isOk then [path] else []
    | (_, none), .error _ => []
  | .invalidate _ => []
  | .clear => []

/-- A cache with the paths used so far, the last one first. -/
structure History where
  cache : FileCache
  uses : List Path := []

/-- One call, on the file system as it is at that moment. -/
def History.step (history : History) (call : FileSystem × CacheCall) : History where
  cache := history.cache.apply call.1 call.2
  uses := history.cache.used call.1 call.2 ++ history.uses

/-- Calls one after the other, each on a file system of its own. -/
def History.run (history : History) (calls : List (FileSystem × CacheCall)) : History :=
  calls.foldl History.step history

/-- A path was used again after the last use of another one. -/
def UsedAfter (uses : List Path) (later earlier : Path) : Prop :=
  uses.findIdx (· == later) < uses.findIdx (· == earlier)

/-- Entries keep the limits of a cache. -/
def Within (cache : FileCache) (entries : List CachedFile) : Prop :=
  entries.length ≤ cache.maxEntries ∧ total CachedFile.size entries ≤ cache.maxBytes

/-- The count of bytes is right, both limits are kept, and the entries stand in the order of their last
use. -/
structure Orderly (maxEntries maxBytes : Nat) (cache : FileCache) (uses : List Path) : Prop where
  limits : cache.maxEntries = maxEntries ∧ cache.maxBytes = maxBytes
  accounted : cache.bytes = total CachedFile.size cache.entries
  within : cache.Within cache.entries
  ordered : cache.entries.Pairwise fun a b => UsedAfter uses a.path b.path
  used : ∀ entry ∈ cache.entries, uses.contains entry.path = true

/-- What putting a content in does: the content is the entry used last, and the entries driven out are the
fewest of the oldest other ones without which both limits are kept. -/
def Admits (cache : FileCache) (entry : CachedFile) (after : FileCache) : Prop :=
  ∃ kept evicted, cache.others entry.path = kept ++ evicted ∧ cache.Within (entry :: kept) ∧
    (∀ kept' evicted', cache.others entry.path = kept' ++ evicted' →
      evicted'.length < evicted.length → ¬ cache.Within (entry :: kept')) ∧
    after = { cache with
      entries := entry :: kept
      bytes := total CachedFile.size (entry :: kept)
      counts := { cache.counts with evictions := cache.counts.evictions + evicted.length } }

section Entries

variable {cache : FileCache} {path : Path} {uses : List Path}

theorem UsedAfter.beq_eq_false {a b : Path} (after : UsedAfter uses a b) : (a == b) = false := by
  cases same : a == b with
  | false => rfl
  | true =>
    have equal : (fun use : Path => use == a) = fun use => use == b := by
      funext use
      exact BEq.congr_right same
    rw [UsedAfter, equal] at after
    exact absurd after (Nat.lt_irrefl _)

theorem UsedAfter.cons {a b : Path} (after : UsedAfter uses a b) (apart : (a == path) = false)
    (apart' : (b == path) = false) : UsedAfter (path :: uses) a b := by
  unfold UsedAfter at after ⊢
  rw [BEq.comm] at apart apart'
  simp only [List.findIdx_cons, apart, apart', cond_false]
  omega

theorem usedAfter_cons_self {a b : Path} (same : (a == path) = true) (apart : (b == path) = false) :
    UsedAfter (path :: uses) a b := by
  unfold UsedAfter
  rw [BEq.comm] at same apart
  simp [List.findIdx_cons, same, apart]

theorem entries_erase : (cache.erase path).entries = cache.others path := by
  unfold erase
  split
  · rfl
  · rename_i absent
    symm
    apply List.filter_eq_self.mpr
    intro entry member
    simpa using List.find?_eq_none.mp absent entry member

theorem limits_erase : (cache.erase path).maxEntries = cache.maxEntries ∧
    (cache.erase path).maxBytes = cache.maxBytes := by
  unfold erase
  split <;> exact ⟨rfl, rfl⟩

theorem sublist_others : (cache.others path).Sublist cache.entries :=
  List.filter_sublist

theorem mem_others {entry : CachedFile} (member : entry ∈ cache.others path) :
    entry ∈ cache.entries ∧ (entry.path == path) = false := by
  simpa [others] using member

/-- Where no path stands twice, only the entry that is found is not among the others. -/
theorem total_others {entry : CachedFile}
    (apart : cache.entries.Pairwise fun a b => (a.path == b.path) = false)
    (found : cache.find? path = some entry) :
    total CachedFile.size cache.entries = entry.size + total CachedFile.size (cache.others path) := by
  unfold find? at found
  unfold others
  generalize cache.entries = entries at apart found
  induction entries with
  | nil => cases found
  | cons first rest ih =>
    obtain ⟨apartFirst, apartRest⟩ := List.pairwise_cons.mp apart
    by_cases here : (first.path == path) = true
    · rw [List.find?_cons_of_pos (p := fun entry : CachedFile => entry.path == path) here] at found
      cases found
      have kept : rest.filter (fun entry => !(entry.path == path)) = rest := by
        apply List.filter_eq_self.mpr
        intro entry member
        have distinct := apartFirst entry member
        rw [BEq.congr_left here, BEq.comm] at distinct
        simp [distinct]
      rw [List.filter_cons_of_neg (by simp [here]), kept]
      rfl
    · rw [List.find?_cons_of_neg (p := fun entry : CachedFile => entry.path == path) here] at found
      rw [List.filter_cons_of_pos (by simpa using here)]
      simp only [total, ih apartRest found]
      omega

end Entries

/-- Dropping the oldest entries one at a time stops at the first point at which both limits are kept. -/
theorem evict_eq {cache : FileCache} {entry : CachedFile} {rest : List CachedFile} {bound : Nat}
    (entries : cache.entries = entry :: rest)
    (accounted : cache.bytes = total CachedFile.size cache.entries)
    (alone : cache.Within [entry]) (enough : rest.length < bound) :
    ∃ kept evicted, rest = kept ++ evicted ∧ cache.Within (entry :: kept) ∧
      (∀ kept' evicted', rest = kept' ++ evicted' → evicted'.length < evicted.length →
        ¬ cache.Within (entry :: kept')) ∧
      evict bound cache = { cache with
        entries := entry :: kept
        bytes := total CachedFile.size (entry :: kept)
        counts := { cache.counts with evictions := cache.counts.evictions + evicted.length } } := by
  induction bound generalizing cache rest with
  | zero => omega
  | succ bound ih =>
    have fits : cache.fits = true ↔ cache.Within (entry :: rest) := by
      simp [fits, Within, size, accounted, entries]
    rw [evict]
    by_cases within : cache.Within (entry :: rest)
    · refine ⟨rest, [], by simp, within, by simp, ?_⟩
      rw [if_pos (fits.mpr within), ← entries, ← accounted]
      rfl
    · rw [if_neg fun holds => within (fits.mp holds)]
      -- The entry alone keeps both limits, so there is an oldest other one to drop.
      obtain rfl | ⟨front, oldest, rfl⟩ := List.eq_nil_or_concat' rest
      · exact absurd alone within
      · rw [← List.cons_append] at entries
        have oldestIs : cache.entries.getLast? = some oldest := by
          rw [entries, List.getLast?_concat]
        have shorter : cache.entries.dropLast = entry :: front := by
          rw [entries, List.dropLast_concat]
        have dropped : cache.bytes - oldest.size = total CachedFile.size cache.entries.dropLast := by
          rw [accounted, shorter, entries, total_append]
          exact Nat.add_sub_cancel _ _
        rw [List.length_append, List.length_singleton] at enough
        let smaller : FileCache := { cache with
          entries := cache.entries.dropLast
          bytes := cache.bytes - oldest.size
          counts := { cache.counts with evictions := cache.counts.evictions + 1 } }
        obtain ⟨kept, evicted, rfl, within', fewest, ended⟩ :=
          @ih smaller front shorter dropped alone (by omega)
        refine ⟨kept, evicted ++ [oldest], by simp, within', ?_, ?_⟩
        · intro kept' evicted' parts fewer
          obtain rfl | ⟨evicted', oldest', rfl⟩ := List.eq_nil_or_concat' evicted'
          · rw [List.append_nil] at parts
            exact parts ▸ within
          · rw [← List.append_assoc] at parts
            refine fewest kept' evicted' (List.append_inj' parts rfl).1 ?_
            simpa using fewer
        · rw [oldestIs]
          refine ended.trans ?_
          simp only [smaller, List.length_append, List.length_singleton, Nat.add_assoc,
            Nat.add_comm 1]

namespace Orderly

variable {maxEntries maxBytes : Nat} {cache : FileCache} {path : Path} {uses : List Path}

theorem apart (orderly : Orderly maxEntries maxBytes cache uses) :
    cache.entries.Pairwise fun a b => (a.path == b.path) = false :=
  orderly.ordered.imp UsedAfter.beq_eq_false

theorem bytes_erase (orderly : Orderly maxEntries maxBytes cache uses) (path : Path) :
    (cache.erase path).bytes = total CachedFile.size (cache.others path) := by
  rw [← entries_erase]
  have accounted := orderly.accounted
  unfold erase
  split
  · rename_i entry found
    have sizes := total_others orderly.apart found
    simp only
    omega
  · exact accounted

/-- Entries that go leave the others in order. -/
theorem of_sublist (orderly : Orderly maxEntries maxBytes cache uses) {after : FileCache}
    (limits : after.maxEntries = cache.maxEntries ∧ after.maxBytes = cache.maxBytes)
    (fewer : after.entries.Sublist cache.entries)
    (accounted : after.bytes = total CachedFile.size after.entries)
    (lighter : after.bytes ≤ cache.bytes) : Orderly maxEntries maxBytes after uses where
  limits := ⟨limits.1.trans orderly.limits.1, limits.2.trans orderly.limits.2⟩
  accounted := accounted
  within := by
    obtain ⟨entries, bytes⟩ := orderly.within
    have shorter := fewer.length_le
    rw [← orderly.accounted] at bytes
    exact ⟨by omega, by omega⟩
  ordered := orderly.ordered.sublist fewer
  used entry member := orderly.used entry (fewer.subset member)

/-- An entry that is used goes in front of the others. -/
theorem renewed (orderly : Orderly maxEntries maxBytes cache uses) {entry : CachedFile}
    {kept : List CachedFile} {after : FileCache} (same : (entry.path == path) = true)
    (limits : after.maxEntries = cache.maxEntries ∧ after.maxBytes = cache.maxBytes)
    (entries : after.entries = entry :: kept) (fewer : kept.Sublist (cache.others path))
    (accounted : after.bytes = total CachedFile.size after.entries)
    (within : after.Within after.entries) : Orderly maxEntries maxBytes after (path :: uses) where
  limits := ⟨limits.1.trans orderly.limits.1, limits.2.trans orderly.limits.2⟩
  accounted := accounted
  within := within
  ordered := by
    have distinct (other : CachedFile) (member : other ∈ kept) : (other.path == path) = false :=
      (mem_others (fewer.subset member)).2
    rw [entries]
    refine List.pairwise_cons.mpr ⟨fun other member => ?_, ?_⟩
    · exact usedAfter_cons_self same (distinct other member)
    · have before := orderly.ordered.sublist (fewer.trans sublist_others)
      exact before.imp_of_mem fun here there after =>
        after.cons (distinct _ here) (distinct _ there)
  used other member := by
    rw [entries, List.mem_cons] at member
    rw [List.contains_cons, Bool.or_eq_true]
    rcases member with rfl | member
    · exact .inl same
    · exact .inr (orderly.used other (mem_others (fewer.subset member)).1)

theorem erase (orderly : Orderly maxEntries maxBytes cache uses) (path : Path) :
    Orderly maxEntries maxBytes (cache.erase path) uses := by
  have bytes := orderly.bytes_erase path
  refine orderly.of_sublist limits_erase ?_ ?_ ?_
  · rw [entries_erase]
    exact sublist_others
  · rw [entries_erase, bytes]
  · unfold FileCache.erase
    split
    · exact Nat.sub_le _ _
    · exact Nat.le_refl _

theorem withCounts (orderly : Orderly maxEntries maxBytes cache uses) (counts : FileCacheStats) :
    Orderly maxEntries maxBytes { cache with counts } uses :=
  orderly.of_sublist ⟨rfl, rfl⟩ (List.Sublist.refl _) orderly.accounted (Nat.le_refl _)

theorem get (orderly : Orderly maxEntries maxBytes cache uses) (fs : FileSystem) (path : Path) :
    Orderly maxEntries maxBytes (cache.get fs path).1
      ((if (cache.get fs path).2.isSome then [path] else []) ++ uses) := by
  unfold FileCache.get
  split
  · exact orderly.withCounts _
  · rename_i entry found
    split
    · exact (orderly.erase path).withCounts _
    · have matched := List.find?_some found
      have sizes := total_others orderly.apart found
      obtain ⟨entries, bytes⟩ := orderly.within
      have fewer : (cache.others path).length < cache.entries.length :=
        List.length_filter_lt_length_iff_exists.mpr
          ⟨entry, List.mem_of_find?_eq_some found, by simpa using matched⟩
      rw [sizes] at bytes
      exact orderly.renewed matched ⟨rfl, rfl⟩ rfl (List.Sublist.refl _)
        (orderly.accounted.trans sizes) ⟨Nat.le_trans fewer entries, bytes⟩

theorem put_admits (orderly : Orderly maxEntries maxBytes cache uses) (positive : 0 < maxEntries)
    {content : String} (small : content.utf8ByteSize ≤ maxBytes) (path : Path) (stamp : Stamp) :
    (cache.put path content stamp).2 = .ok () ∧
      cache.Admits { path, content, stamp } (cache.put path content stamp).1 := by
  let entry : CachedFile := { path, content, stamp }
  let filled : FileCache := { cache.erase path with
    entries := entry :: (cache.erase path).entries
    bytes := (cache.erase path).bytes + entry.size }
  have fits : ¬ cache.maxBytes < entry.size := by
    rw [orderly.limits.2]
    exact Nat.not_lt.mpr small
  have put : cache.put path content stamp = (evict filled.size filled, .ok ()) := if_neg fits
  have others : filled.entries = entry :: cache.others path :=
    congrArg (entry :: ·) entries_erase
  have accounted : filled.bytes = total CachedFile.size filled.entries := by
    rw [others]
    change (cache.erase path).bytes + entry.size = entry.size + total CachedFile.size _
    rw [orderly.bytes_erase, Nat.add_comm]
  obtain ⟨limitEntries, limitBytes⟩ : filled.maxEntries = cache.maxEntries ∧
    filled.maxBytes = cache.maxBytes := limits_erase
  have within (entries : List CachedFile) : filled.Within entries ↔ cache.Within entries := by
    rw [Within, Within, limitEntries, limitBytes]
  have alone : cache.Within [entry] := by
    refine ⟨?_, by simpa [total] using Nat.not_lt.mp fits⟩
    rw [orderly.limits.1]
    exact positive
  have enough : (cache.others path).length < filled.size := by
    rw [size, others]
    exact Nat.lt_succ_self _
  obtain ⟨kept, evicted, parts, kept', fewest, ended⟩ :=
    evict_eq others accounted ((within _).mpr alone) enough
  rw [put]
  refine ⟨rfl, kept, evicted, parts, (within _).mp kept', ?_, ?_⟩
  · intro kept' evicted' parts' fewer holds
    exact fewest kept' evicted' parts' fewer ((within _).mpr holds)
  · have counts : filled.counts = cache.counts := by
      unfold filled FileCache.erase
      split <;> rfl
    rw [ended, limitEntries, limitBytes, counts]

theorem put_refused (orderly : Orderly maxEntries maxBytes cache uses) {content : String}
    (large : maxBytes < content.utf8ByteSize) (path : Path) (stamp : Stamp) :
    cache.put path content stamp =
      ({ cache with counts := { cache.counts with rejected := cache.counts.rejected + 1 } },
        .error (.entryTooLarge path content.utf8ByteSize maxBytes)) := by
  rw [← orderly.limits.2] at large ⊢
  exact if_pos large

theorem put (orderly : Orderly maxEntries maxBytes cache uses) (positive : 0 < maxEntries)
    (path : Path) (content : String) (stamp : Stamp) :
    Orderly maxEntries maxBytes (cache.put path content stamp).1
      ((if (cache.put path content stamp).2.isOk then [path] else []) ++ uses) := by
  by_cases large : maxBytes < content.utf8ByteSize
  · rw [orderly.put_refused large]
    exact orderly.withCounts _
  · obtain ⟨accepted, kept, evicted, parts, within, -, after⟩ :=
      orderly.put_admits positive (Nat.not_lt.mp large) path stamp
    rw [accepted, after]
    exact orderly.renewed BEq.rfl ⟨rfl, rfl⟩ rfl (parts ▸ List.sublist_append_left _ _) rfl within

theorem readThrough (orderly : Orderly maxEntries maxBytes cache uses) (positive : 0 < maxEntries)
    (fs : FileSystem) (path : Path) :
    Orderly maxEntries maxBytes (cache.apply fs (.readThrough path))
      (cache.used fs (.readThrough path) ++ uses) := by
  have looked := orderly.get fs path
  simp only [apply, FileCache.used, FileCache.readThrough]
  cases found : cache.get fs path with
  | mk after content =>
    rw [found] at looked
    cases content with
    | some content => exact looked
    | none =>
      cases FileCache.readStamped fs path with
      | error failure => exact looked
      | ok read => exact looked.put positive path read.1 read.2

theorem invalidate (orderly : Orderly maxEntries maxBytes cache uses) (path : Path) :
    Orderly maxEntries maxBytes (cache.invalidate path).1 uses := by
  unfold FileCache.invalidate
  split
  · exact (orderly.erase path).withCounts _
  · exact orderly

theorem clear (orderly : Orderly maxEntries maxBytes cache uses) :
    Orderly maxEntries maxBytes cache.clear uses :=
  orderly.of_sublist ⟨rfl, rfl⟩ (List.nil_sublist _) rfl (Nat.zero_le _)

theorem step {history : History} (orderly : Orderly maxEntries maxBytes history.cache history.uses)
    (positive : 0 < maxEntries) (call : FileSystem × CacheCall) :
    Orderly maxEntries maxBytes (history.step call).cache (history.step call).uses := by
  obtain ⟨fs, call⟩ := call
  cases call with
  | get path => exact orderly.get fs path
  | put path content stamp => exact orderly.put positive path content stamp
  | readThrough path => exact orderly.readThrough positive fs path
  | invalidate path => exact orderly.invalidate path
  | clear => exact orderly.clear

theorem run {history : History} (orderly : Orderly maxEntries maxBytes history.cache history.uses)
    (positive : 0 < maxEntries) (calls : List (FileSystem × CacheCall)) :
    Orderly maxEntries maxBytes (history.run calls).cache (history.run calls).uses := by
  induction calls generalizing history with
  | nil => exact orderly
  | cons call rest ih => exact ih (orderly.step positive call)

end Orderly

/-- What is promised of a cache at any moment. -/
structure LeastRecentlyUsed (maxEntries maxBytes : Nat) (history : History) : Prop where
  orderly : Orderly maxEntries maxBytes history.cache history.uses
  /-- A content that does not exceed the byte limit is always put in. -/
  admits : ∀ path content stamp, content.utf8ByteSize ≤ maxBytes →
    (history.cache.put path content stamp).2 = .ok () ∧
      history.cache.Admits { path, content, stamp } (history.cache.put path content stamp).1
  /-- A longer one is refused and only counted. -/
  refuses : ∀ path content stamp, maxBytes < content.utf8ByteSize →
    let counts := history.cache.counts
    history.cache.put path content stamp =
      ({ history.cache with counts := { counts with rejected := counts.rejected + 1 } },
        .error (.entryTooLarge path content.utf8ByteSize maxBytes))

/-- Whatever calls are made on a new cache, and however the file system changes between them, the cache
keeps both limits and drops what was used longest ago. -/
theorem run_keeps_both_limits {maxEntries maxBytes : Nat} (positive : 0 < maxEntries)
    (positive' : 0 < maxBytes) :
    ∃ empty, create maxEntries maxBytes = .ok empty ∧
      ∀ calls, LeastRecentlyUsed maxEntries maxBytes (History.run { cache := empty } calls) := by
  let empty : FileCache := { maxEntries, maxBytes }
  have created : create maxEntries maxBytes = .ok empty := if_neg (by omega)
  refine ⟨empty, created, fun calls => ?_⟩
  have begins : Orderly maxEntries maxBytes empty [] :=
    ⟨⟨rfl, rfl⟩, rfl, ⟨Nat.zero_le _, Nat.zero_le _⟩, List.Pairwise.nil, fun _ member => nomatch member⟩
  have orderly := @Orderly.run maxEntries maxBytes { cache := empty } begins positive calls
  exact ⟨orderly, fun path _ stamp small => orderly.put_admits positive small path stamp,
    fun path _ stamp large => orderly.put_refused large path stamp⟩

/-- Three contents of which two fit, and one that is too long. -/
def crowding : List (FileSystem × CacheCall) :=
  [(.empty, .put ⟨"a.rs"⟩ "fn" {}), (.empty, .put ⟨"b.rs"⟩ "mod" {}), (.empty, .put ⟨"a.rs"⟩ "use" {}),
    (.empty, .put ⟨"long.rs"⟩ "impl impl impl" {}), (.empty, .put ⟨"c.rs"⟩ "let" {})]

theorem run_keeps_both_limits_crowding :
    ∃ empty, create 2 8 = .ok empty ∧
      (History.run { cache := empty } crowding).cache.entries.map (·.path.text) = ["c.rs", "a.rs"] ∧
      LeastRecentlyUsed 2 8 (History.run { cache := empty } crowding) := by
  obtain ⟨empty, created, keeps⟩ := run_keeps_both_limits (by decide : 0 < 2) (by decide : 0 < 8)
  refine ⟨empty, created, ?_, keeps crowding⟩
  cases created
  decide +kernel

end FileCache

end DepAtlas
