import DepAtlas.Proofs.Incremental.History

/-!
Analyses that fail. Whether the file cannot be read or there are no patterns for it, the memory is as it
was before; only the file cache has been consulted, and perhaps filled.
-/

namespace DepAtlas.Coordinator

variable {coordinator after : Coordinator} {fs : FileSystem} {path : Path} {language : Language}

theorem cacheHits_readContent {outcome : Except CacheError (String × Stamp)}
    (read : coordinator.readContent fs path = (after, outcome)) :
    (after.counts.cacheHits = coordinator.counts.cacheHits ∨
      after.counts.cacheHits = coordinator.counts.cacheHits + 1) ∧
    (coordinator.files = none → after = coordinator) := by
  unfold readContent at read
  split at read
  · cases read
    exact ⟨.inl rfl, fun _ => rfl⟩
  case h_2 cache isCache =>
    refine ⟨?_, fun absent => by cases isCache.symm.trans absent⟩
    split at read
    · cases read
      exact .inr rfl
    · split at read <;> cases read <;> exact .inl rfl

theorem exists_readContent_of_failed {cause : Failure}
    (failed : coordinator.analyze fs path language = (after, .error cause)) :
    ∃ outcome, coordinator.readContent fs path = (after, outcome) := by
  have answers := answers_analyze coordinator fs path language
  rw [failed] at answers
  cases answers with
  | unread read => exact ⟨_, read⟩
  | unextracted read => exact ⟨_, read⟩

/-- A failed analysis changes nothing but the file cache and the number of its hits, which grows by one
at most. -/
theorem failed_analyze_keeps_memory {cause : Failure}
    (failed : coordinator.analyze fs path language = (after, .error cause)) :
    after = { coordinator with
      files := after.files
      counts := { coordinator.counts with cacheHits := after.counts.cacheHits } } ∧
    (after.counts.cacheHits = coordinator.counts.cacheHits ∨
      after.counts.cacheHits = coordinator.counts.cacheHits + 1) ∧
    (coordinator.files = none → after = coordinator) := by
  obtain ⟨outcome, read⟩ := exists_readContent_of_failed failed
  exact ⟨(readContent_spec read).1, cacheHits_readContent read⟩

def readable : FileSystem where
  nodes := [([], .directory), (["a.rs"], .file "use std::fmt;\n".toUTF8.toList {})]
  current := []

/-- Without patterns the first analysis fails after it has filled the cache, so a second one has a hit. -/
def unpatterned : Coordinator :=
  afterUses { patterns := PatternStore.filled.release, files := some { maxEntries := 4, maxBytes := 100 } }
    [.analyze readable ⟨"a.rs"⟩ .rust]

theorem failed_analyze_keeps_memory_cached :
    ∃ after cause, unpatterned.analyze readable ⟨"a.rs"⟩ .rust = (after, .error cause) ∧
      after.counts.cacheHits = 1 ∧
      after = { unpatterned with
        files := after.files
        counts := { unpatterned.counts with cacheHits := 1 } } := by
  have fails : (unpatterned.analyze readable ⟨"a.rs"⟩ .rust).2.isOk = false := by decide +kernel
  have hits : (unpatterned.analyze readable ⟨"a.rs"⟩ .rust).1.counts.cacheHits = 1 := by decide +kernel
  cases isOutcome : unpatterned.analyze readable ⟨"a.rs"⟩ .rust with
  | mk after outcome =>
    rw [isOutcome] at fails hits
    cases outcome with
    | ok analysis => cases fails
    | error cause =>
      obtain ⟨keeps, -⟩ := failed_analyze_keeps_memory isOutcome
      dsimp only at hits
      rw [hits] at keeps
      exact ⟨after, cause, rfl, hits, keeps⟩

end DepAtlas.Coordinator
