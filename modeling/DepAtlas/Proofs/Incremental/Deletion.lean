import DepAtlas.Proofs.Incremental.Regularity

/-!
What the call graph still says of deleted files. A file that is found to be gone leaves the method table,
but only tracked files are looked for, and there are other ways for a file not to be tracked any more.
-/

namespace DepAtlas.Coordinator

/-- When deletions are detected, the files that leave the method table are the tracked ones that are gone.
In the course of a crawl no other file can be gone. -/
theorem mentions_detectDeleted_iff (patterns : PatternStore) (options : IncrementalOptions)
    (files : Option FileCache) (uses : List Use) (sound : ∀ use ∈ uses, use.Sound) (fs : FileSystem)
    (seen : List Path) :
    let coordinator := Coordinator.afterUses { patterns, options, files } uses
    let after := (coordinator.detectDeleted fs seen).1
    (∀ path, after.methods.Mentions path ↔
      coordinator.methods.Mentions path ∧ ¬ coordinator.Misses fs seen path) ∧
    (Use.crawls uses = true → ∀ path, after.methods.Mentions path →
      ∃ key, (key == path) = true ∧ (seen.contains key = true ∨ fs.exists? key = true)) := by
  intro coordinator after
  have tracked := tracked_afterUses patterns options {} files uses
  have leaves (path : Path) : after.methods.Mentions path ↔
      coordinator.methods.Mentions path ∧ ¬ coordinator.Misses fs seen path := by
    obtain ⟨ledger, tracks⟩ : ∃ ledger, coordinator.methods.Tracks ledger :=
      exists_tracks_afterUses ⟨{}, MethodTable.tracks_empty⟩ sound
    obtain ⟨later, tracks', latest⟩ := detectDeleted_tracks tracks fs seen
    have gone := any_goneFiles tracked.keyed fs seen path
    rw [tracks'.mentions_iff, tracks.mentions_iff, latest]
    by_cases misses : coordinator.Misses fs seen path
    · rw [if_pos (gone.mpr misses)]
      simp [misses, Dependency.methods]
    · rw [if_neg (mt gone.mp misses)]
      simp [misses]
  refine ⟨leaves, ?_⟩
  intro crawls path mentions
  obtain ⟨mentioned, present⟩ := (leaves path).mp mentions
  obtain ⟨dependencies, isResult, -⟩ :=
    ((inStep_of_crawls patterns options files crawls).mentions_iff path).mp mentioned
  obtain ⟨fingerprint, found, -⟩ := tracked.partner isResult
  obtain ⟨entry, member, same, -⟩ := Assoc.exists_mem_of_get? found
  refine ⟨entry.1, same, ?_⟩
  -- A tracked file that was not seen and is not there would have been found to be gone.
  by_contra gone
  rw [not_or, Bool.not_eq_true, Bool.not_eq_true] at gone
  exact present ⟨entry.1, List.mem_map.mpr ⟨entry, member, rfl⟩, same, gone⟩

/-- A file whose method calls the one of another file. -/
def callerBesideCallee : FileSystem where
  nodes := [([], .directory), (["a.rs"], .file "fn alpha() { beta(); }\n".toUTF8.toList {}),
    (["b.rs"], .file "fn beta() {}\n".toUTF8.toList {})]
  current := []

/-- The file is deleted later. -/
def calleeOnly : FileSystem where
  nodes := [([], .directory), (["b.rs"], .file "fn beta() {}\n".toUTF8.toList {})]
  current := []

/-- Both files are analysed, and the fingerprint of the first one is dropped. -/
def callerInvalidated : List Use := [
  .analyze callerBesideCallee ⟨"a.rs"⟩ .rust, .analyze callerBesideCallee ⟨"b.rs"⟩ .rust,
  .invalidate ⟨"a.rs"⟩]

/-- The method table still speaks of the deleted file. -/
theorem mentions_detectDeleted_iff_invalidated :
    (∀ use ∈ callerInvalidated, use.Sound) ∧ calleeOnly.exists? ⟨"a.rs"⟩ = false ∧
      let coordinator := Coordinator.afterUses { patterns := .filled } callerInvalidated
      (coordinator.detectDeleted calleeOnly [⟨"b.rs"⟩]).1.methods.Mentions ⟨"a.rs"⟩ := by
  have sound : ∀ use ∈ callerInvalidated, use.Sound := by
    intro use member
    simp only [callerInvalidated, List.mem_cons, List.not_mem_nil, or_false] at member
    rcases member with rfl | rfl | rfl <;> trivial
  refine ⟨sound, by decide +kernel, ?_⟩
  intro coordinator
  have defines : coordinator.methods.methods.any (·.definedIn == ⟨"a.rs"⟩) = true := by decide +kernel
  have untracked : (Assoc.keys coordinator.store).any (· == ⟨"a.rs"⟩) = false := by decide +kernel
  obtain ⟨leaves, -⟩ :=
    mentions_detectDeleted_iff .filled {} none callerInvalidated sound calleeOnly [⟨"b.rs"⟩]
  apply (leaves ⟨"a.rs"⟩).mpr
  refine ⟨?_, ?_⟩
  · obtain ⟨method, member, here⟩ := List.any_eq_true.mp defines
    exact .inl ⟨method, member, .inl here⟩
  · rintro ⟨key, isKey, same, -⟩
    exact List.any_eq_false.mp untracked key isKey same

end DepAtlas.Coordinator
