import DepAtlas.Proofs.Incremental.Reuse
import DepAtlas.Proofs.Incremental.Transparency

/-!
Analyses where contents decide. Each one answers for the content that it reads, and from memory exactly if
that is the content of the last extraction. But what it reads need not be what the file holds: a cached
content is taken for current as long as the file has the stamp that it had.
-/

namespace DepAtlas

/-- An analysis to be done, with the files as they are at that moment. -/
structure Visit where
  fs : FileSystem
  path : Path
  language : Language

/-- What the result of a file was extracted from. -/
structure Origin where
  language : Language
  content : String
deriving DecidableEq

namespace Coordinator

/-- The content that an analysis reads. -/
def contentAt? (coordinator : Coordinator) (visit : Visit) : Option String :=
  (coordinator.readContent visit.fs visit.path).2.toOption.map (·.1)

/-- The cache has another content than the file, under the stamp that the file has. -/
def Outdated (coordinator : Coordinator) (fs : FileSystem) (path : Path) : Prop :=
  ∃ cache ∈ coordinator.files, ∃ entry, cache.find? path = some entry ∧
    Stamp.read fs path = .ok entry.stamp ∧ fs.readText path ≠ .ok entry.content

/-- What is remembered of a path was extracted from its origin. -/
structure Stems (coordinator : Coordinator) (path : Path) (origin : Origin) : Prop where
  fingerprint : ∃ known, coordinator.fingerprint? path = some known ∧
    known.contentHash = Digest.ofString origin.content
  result : ∃ spelling dependencies, (spelling == path) = true ∧
    coordinator.resultOf? path = some dependencies ∧
    extractAs coordinator.patterns origin.language spelling origin.content
      coordinator.options.layers = .ok dependencies

variable {coordinator reader after : Coordinator} {fs : FileSystem} {path other : Path}
  {content : String} {stamp : Stamp} {origin : Origin} {dependencies : List Dependency}

theorem contentAt?_of_read {visit : Visit} {outcome : Except CacheError (String × Stamp)}
    (read : coordinator.readContent visit.fs visit.path = (reader, outcome)) :
    coordinator.contentAt? visit = outcome.toOption.map (·.1) := by
  rw [contentAt?, read]

/-- A cached content is read as long as the file has its stamp. -/
theorem contentAt?_of_cached {visit : Visit} {cache : FileCache} {entry : CachedFile}
    (held : coordinator.files = some cache) (isEntry : cache.find? visit.path = some entry)
    (stamped : Stamp.read visit.fs visit.path = .ok entry.stamp) :
    coordinator.contentAt? visit = some entry.content := by
  have looked := FileCache.get_eq_some_iff.mpr ⟨entry, isEntry, rfl, rfl, stamped⟩
  unfold contentAt? readContent
  rw [held]
  dsimp only
  split
  case h_1 next found isFound =>
    rw [isFound] at looked
    cases looked
    rfl
  case h_2 next missed =>
    rw [missed] at looked
    cases looked

theorem exists_read_of_contentAt? {visit : Visit} (reads : coordinator.contentAt? visit = some content) :
    ∃ reader stamp,
      coordinator.readContent visit.fs visit.path = (reader, .ok (content, stamp)) := by
  obtain ⟨⟨text, stamp⟩, found, rfl⟩ := Option.map_eq_some_iff.mp reads
  exact ⟨_, stamp, Prod.ext rfl (eq_ok_of_toOption found)⟩

/-- What is read is what the file holds, unless the cache is outdated. -/
theorem readText_iff_not_outdated
    (read : coordinator.readContent fs path = (reader, .ok (content, stamp))) :
    fs.readText path = .ok content ↔ ¬ coordinator.Outdated fs path := by
  unfold readContent at read
  split at read
  case h_1 uncached =>
    have found := FileCache.readStamped_eq_ok_iff.mp (congrArg Prod.snd read)
    have current : ¬ coordinator.Outdated fs path := by
      rintro ⟨cache, held, -⟩
      rw [uncached] at held
      cases held
    exact iff_of_true found.2 current
  case h_2 cache held =>
    split at read
    case h_1 next found looked =>
      cases read
      -- A cached text that is answered with has the stamp that the file has now.
      obtain ⟨entry, isFound, isContent, isStamp, stamped⟩ :=
        FileCache.get_eq_some_iff.mp (congrArg Prod.snd looked)
      rw [← isContent]
      constructor
      · rintro same ⟨_, isCache, _, isEntry, -, differs⟩
        cases held.symm.trans isCache
        cases isFound.symm.trans isEntry
        exact differs same
      · intro current
        by_contra differs
        exact current ⟨cache, held, entry, isFound, isStamp ▸ stamped, differs⟩
    case h_2 next missed =>
      split at read
      · cases read
      case h_2 text isStamp found =>
        cases read
        have current : ¬ coordinator.Outdated fs path := by
          rintro ⟨_, isCache, entry, isEntry, stamped, -⟩
          cases held.symm.trans isCache
          have looked := FileCache.get_eq_some_iff.mpr ⟨entry, isEntry, rfl, rfl, stamped⟩
          rw [missed] at looked
          cases looked
        exact iff_of_true (FileCache.readStamped_eq_ok_iff.mp found).2 current

theorem uncached_analyze (uncached : coordinator.files = none) (fs : FileSystem) (path : Path)
    (language : Language) : (coordinator.analyze fs path language).1.files = none := by
  have answers := answers_analyze coordinator fs path language
  generalize coordinator.analyze fs path language = outcome at answers ⊢
  obtain ⟨after, answer⟩ := outcome
  have kept {reader : Coordinator} {outcome : Except CacheError (String × Stamp)}
      (read : coordinator.readContent fs path = (reader, outcome)) : reader.files = none := by
    unfold readContent at read
    rw [uncached] at read
    cases read
    exact uncached
  cases answers with
  | unread read => exact kept read
  | unextracted read => exact kept read
  | byStamp _ _ reused =>
    rw [(reuse_spec reused).2]
    exact uncached
  | byContent _ read _ reused =>
    have readerUncached := kept read
    rw [(reuse_spec reused).2]
    exact readerUncached
  | extracted read _ adopts =>
    have readerUncached := kept read
    obtain ⟨_, -, -, -, -, isAfter, -⟩ := adopt_spec adopts
    rw [isAfter]
    exact readerUncached

namespace Stems

theorem congr (stems : coordinator.Stems path origin) (same : (path == other) = true) :
    coordinator.Stems other origin := by
  obtain ⟨⟨known, tracked, hash⟩, spelling, dependencies, spelled, result, extracted⟩ := stems
  rw [fingerprint?, Assoc.get?_congr same] at tracked
  rw [resultOf?, Assoc.get?_congr same] at result
  exact ⟨⟨known, tracked, hash⟩, spelling, dependencies, BEq.trans spelled same, result, extracted⟩

theorem keep (stems : coordinator.Stems path origin) (keeps : coordinator.store.Keeps true after.store)
    (results : after.results = coordinator.results) (patterns : after.patterns = coordinator.patterns)
    (options : after.options = coordinator.options) : after.Stems path origin := by
  obtain ⟨⟨known, tracked, hash⟩, result⟩ := stems
  obtain ⟨renewed, tracked', hash', -⟩ := keeps path known tracked
  refine ⟨⟨renewed, tracked', hash'.trans hash⟩, ?_⟩
  rw [resultOf?, results, patterns, options]
  exact result

theorem adopted {language : Language} {state : FileState} {analysis : Analysis}
    (extracted : extractAs coordinator.patterns language path content coordinator.options.layers =
      .ok dependencies)
    (adopts : coordinator.adopt path stamp (Digest.ofString content) state dependencies =
      (after, analysis)) : after.Stems path ⟨language, content⟩ := by
  obtain ⟨fingerprint, -, -, isHash, -, isAfter, -⟩ := adopt_spec adopts
  rw [isAfter]
  refine ⟨⟨fingerprint, ?_, isHash⟩, path, dependencies, BEq.rfl, ?_, extracted⟩
  · rw [fingerprint?, Assoc.get?_put, if_pos BEq.rfl]
  · rw [resultOf?, Assoc.get?_put, if_pos BEq.rfl]

theorem unadopted {contentHash : UInt64} {state : FileState} {analysis : Analysis}
    (stems : coordinator.Stems other origin)
    (adopts : coordinator.adopt path stamp contentHash state dependencies = (after, analysis))
    (apart : ¬ (path == other) = true) : after.Stems other origin := by
  obtain ⟨⟨known, tracked, hash⟩, spelling, found, spelled, result, extracted⟩ := stems
  obtain ⟨fingerprint, -, -, -, -, isAfter, -⟩ := adopt_spec adopts
  rw [isAfter]
  refine ⟨⟨known, ?_, hash⟩, spelling, found, spelled, ?_, extracted⟩
  · rw [fingerprint?, Assoc.get?_put, if_neg apart]
    exact tracked
  · rw [resultOf?, Assoc.get?_put, if_neg apart]
    exact result

end Stems

end Coordinator

/-- A coordinator with what can be seen of its analyses: where the result of each path comes from, and which
contents were answered for. -/
structure Watch where
  coordinator : Coordinator
  origins : Assoc Path Origin := []
  contents : List String := []

namespace Watch

def visit (watch : Watch) (visit : Visit) : Watch :=
  let outcome := watch.coordinator.analyze visit.fs visit.path visit.language
  match watch.coordinator.contentAt? visit, outcome.2 with
  | some content, .ok analysis => {
      coordinator := outcome.1
      origins := if analysis.reused then watch.origins
        else watch.origins.put visit.path ⟨visit.language, content⟩
      contents := content :: watch.contents }
  | _, _ => { watch with coordinator := outcome.1 }

def follow (watch : Watch) (visits : List Visit) : Watch :=
  visits.foldl Watch.visit watch

/-- Contents decide, the results come from their origins, and the origins are among the contents. -/
structure Sound (patterns : PatternStore) (options : IncrementalOptions) (watch : Watch) : Prop where
  samePatterns : watch.coordinator.patterns = patterns
  sameOptions : watch.coordinator.options = options
  verifies : options.verifyContent = true
  unknown : ∀ {path}, watch.origins.get? path = none → watch.coordinator.resultOf? path = none
  stems : ∀ {path origin}, watch.origins.get? path = some origin → watch.coordinator.Stems path origin
  contents : ∀ {path origin}, watch.origins.get? path = some origin → origin.content ∈ watch.contents

variable {patterns : PatternStore} {options : IncrementalOptions} {watch : Watch}

theorem sound_begin (patterns : PatternStore) {options : IncrementalOptions}
    (verifies : options.verifyContent = true) (methods : MethodTable) (files : Option FileCache) :
    Sound patterns options { coordinator := { patterns, options, methods, files } } where
  samePatterns := rfl
  sameOptions := rfl
  verifies := verifies
  unknown _ := rfl
  stems found := nomatch found
  contents found := nomatch found

namespace Sound

variable (sound : watch.Sound patterns options)
include sound

/-- Where nothing new is adopted, the origins stay what they are. -/
theorem keep {after : Coordinator} (keeps : watch.coordinator.store.Keeps true after.store)
    (results : after.results = watch.coordinator.results)
    (isPatterns : after.patterns = watch.coordinator.patterns)
    (isOptions : after.options = watch.coordinator.options) {contents : List String}
    (more : watch.contents ⊆ contents) : Sound patterns options ⟨after, watch.origins, contents⟩ where
  samePatterns := isPatterns.trans sound.samePatterns
  sameOptions := isOptions.trans sound.sameOptions
  verifies := sound.verifies
  unknown absent := by
    rw [Coordinator.resultOf?, results]
    exact sound.unknown absent
  stems found := (sound.stems found).keep keeps results isPatterns isOptions
  contents found := more (sound.contents found)

theorem adopt {reader after : Coordinator} {path : Path} {language : Language} {content : String}
    {stamp : Stamp} {state : FileState} {dependencies : List Dependency} {analysis : Analysis}
    (hasRead : Coordinator.HasRead watch.coordinator reader)
    (extracted : extractAs watch.coordinator.patterns language path content
      watch.coordinator.options.layers = .ok dependencies)
    (adopts : reader.adopt path stamp (Digest.ofString content) state dependencies =
      (after, analysis)) :
    Sound patterns options
      ⟨after, watch.origins.put path ⟨language, content⟩, content :: watch.contents⟩ := by
  have begun : Sound patterns options ⟨reader, watch.origins, watch.contents⟩ :=
    sound.keep (hasRead.store ▸ .refl true _) hasRead.results hasRead.patterns hasRead.options
      (List.Subset.refl _)
  obtain ⟨_, -, -, -, -, isAfter, -⟩ := Coordinator.adopt_spec adopts
  refine ⟨?_, ?_, sound.verifies, ?_, ?_, ?_⟩
  · rw [isAfter]
    exact begun.samePatterns
  · rw [isAfter]
    exact begun.sameOptions
  · intro other absent
    rw [Assoc.get?_put] at absent
    split at absent
    case isTrue => cases absent
    case isFalse apart =>
      rw [isAfter, Coordinator.resultOf?, Assoc.get?_put, if_neg apart]
      exact begun.unknown absent
  · intro other origin found
    rw [Assoc.get?_put] at found
    split at found
    case isTrue here =>
      cases found
      rw [← hasRead.patterns, ← hasRead.options] at extracted
      exact (Coordinator.Stems.adopted extracted adopts).congr here
    case isFalse apart => exact (begun.stems found).unadopted adopts apart
  · intro other origin found
    rw [Assoc.get?_put] at found
    split at found
    case isTrue =>
      cases found
      exact List.mem_cons_self
    case isFalse => exact List.mem_cons_of_mem _ (sound.contents found)

theorem visit (visit : Visit) : Sound patterns options (watch.visit visit) := by
  have answers :=
    Coordinator.answers_analyze watch.coordinator visit.fs visit.path visit.language
  unfold Watch.visit
  generalize watch.coordinator.analyze visit.fs visit.path visit.language = outcome at answers ⊢
  obtain ⟨after, answer⟩ := outcome
  have failed {reader : Coordinator} (hasRead : Coordinator.HasRead watch.coordinator reader) :
      Sound patterns options { watch with coordinator := reader } :=
    sound.keep (hasRead.store ▸ .refl true _) hasRead.results hasRead.patterns hasRead.options
      (List.Subset.refl _)
  cases answers with
  | unread read =>
    rw [Coordinator.contentAt?_of_read read]
    exact failed (Coordinator.readContent_spec read).1
  | unextracted read =>
    rw [Coordinator.contentAt?_of_read read]
    exact failed (Coordinator.readContent_spec read).1
  | byStamp rule =>
    rw [sound.sameOptions, sound.verifies] at rule
    cases rule
  | @byContent reader next content stamp analysis _ read _ reused =>
    obtain ⟨hasRead, -⟩ := Coordinator.readContent_spec read
    obtain ⟨⟨dependencies, -, rfl⟩, isNext⟩ := Coordinator.reuse_spec reused
    have keeps := (Coordinator.keeps_of_reuse reused true).trans
      (FingerprintStore.keeps_touch next.store visit.path stamp .unchanged)
    rw [Coordinator.contentAt?_of_read read]
    apply sound.keep (hasRead.store ▸ keeps)
    · rw [isNext]
      exact hasRead.results
    · rw [isNext]
      exact hasRead.patterns
    · rw [isNext]
      exact hasRead.options
    · exact List.subset_cons_self ..
  | extracted read extracted adopts =>
    obtain ⟨hasRead, -⟩ := Coordinator.readContent_spec read
    obtain ⟨_, -, -, -, -, -, -, isNew, -⟩ := Coordinator.adopt_spec adopts
    rw [Coordinator.contentAt?_of_read read]
    simp only [Except.toOption, Option.map_some, isNew, Bool.false_eq_true, if_false]
    exact sound.adopt hasRead extracted adopts

theorem follow (visits : List Visit) : Sound patterns options (watch.follow visits) := by
  apply List.foldlRecOn (motive := Sound patterns options) visits Watch.visit sound
  intro earlier sound visit _
  exact sound.visit visit

/-- A result that is used again was extracted from a content with the digest of the one that was read. -/
theorem exists_origin {path : Path} {content : String} {dependencies : List Dependency}
    (unchanged : watch.coordinator.store.stateByHash path (Digest.ofString content) = .unchanged)
    (result : watch.coordinator.resultOf? path = some dependencies) :
    ∃ origin, watch.origins.get? path = some origin ∧
      Digest.ofString origin.content = Digest.ofString content ∧
      ∃ found, extractAs patterns origin.language path origin.content options.layers = .ok found ∧
        (dependencies == found) = true := by
  cases isOrigin : watch.origins.get? path with
  | none => cases result.symm.trans (sound.unknown isOrigin)
  | some origin =>
    obtain ⟨known, tracked, hash⟩ := FingerprintStore.exists_of_stateByHash_eq_unchanged unchanged
    obtain ⟨⟨known', tracked', hash'⟩, spelling, _, spelled, result', extracted⟩ := sound.stems isOrigin
    cases tracked.symm.trans tracked'
    cases result.symm.trans result'
    rw [sound.samePatterns, sound.sameOptions] at extracted
    exact ⟨origin, rfl, hash'.symm.trans hash, exists_extractAs spelled extracted⟩

/-- Where the content of the last extraction is read again, the answer comes from memory. -/
theorem exists_reused {visit : Visit} {origin : Origin}
    (isOrigin : watch.origins.get? visit.path = some origin)
    (reads : watch.coordinator.contentAt? visit = some origin.content) :
    ∃ dependencies, (watch.coordinator.analyze visit.fs visit.path visit.language).2 =
      .ok { path := visit.path, state := .unchanged, dependencies, reused := true, changed := false } := by
  obtain ⟨reader, stamp, read⟩ := Coordinator.exists_read_of_contentAt? reads
  obtain ⟨⟨known, tracked, hash⟩, _, dependencies, -, result, -⟩ := sound.stems isOrigin
  have rule : watch.coordinator.options.verifyContent = true := by
    rw [sound.sameOptions, sound.verifies]
  obtain ⟨after, analyzed, -⟩ :=
    Coordinator.exists_analyze_of_hash rule read tracked hash result visit.language
  exact ⟨dependencies, congrArg Prod.snd analyzed⟩

end Sound

theorem coordinator_visit (watch : Watch) (visit : Visit) : (watch.visit visit).coordinator =
    (watch.coordinator.analyze visit.fs visit.path visit.language).1 := by
  unfold Watch.visit
  dsimp only
  split <;> rfl

theorem contents_visit {visit : Visit} {content : String} {analysis : Analysis}
    (reads : watch.coordinator.contentAt? visit = some content)
    (answered : (watch.coordinator.analyze visit.fs visit.path visit.language).2 = .ok analysis) :
    (watch.visit visit).contents = content :: watch.contents := by
  unfold Watch.visit
  dsimp only
  rw [reads, answered]

theorem uncached_follow (uncached : watch.coordinator.files = none) (visits : List Visit) :
    (watch.follow visits).coordinator.files = none := by
  apply List.foldlRecOn (motive := fun (watch : Watch) => watch.coordinator.files = none) visits
    Watch.visit uncached
  intro earlier uncached visit _
  rw [coordinator_visit]
  exact Coordinator.uncached_analyze uncached visit.fs visit.path visit.language

/-- Where contents decide, an analysis answers for the content that it reads, and from memory exactly if
that is what the result was extracted from, whatever language is asked for. Without a cache this is what the
file holds; with one it is unless the cache is outdated. -/
theorem answers_by_content (patterns : PatternStore) (options : IncrementalOptions)
    (verifies : options.verifyContent = true) (methods : MethodTable) (files : Option FileCache)
    (visits : List Visit) (visit : Visit) (analysis : Analysis) :
    let watch := Watch.follow { coordinator := { patterns, options, methods, files } } visits
    (∀ content ∈ (watch.visit visit).contents, ∀ other ∈ (watch.visit visit).contents,
      Digest.ofString content = Digest.ofString other → content = other) →
    (watch.coordinator.analyze visit.fs visit.path visit.language).2 = .ok analysis →
    ∃ content language dependencies, watch.coordinator.contentAt? visit = some content ∧
      extractAs patterns language visit.path content options.layers = .ok dependencies ∧
      (analysis.dependencies == dependencies) = true ∧
      (language = visit.language ∨
        analysis.reused = true ∧ watch.origins.get? visit.path = some ⟨language, content⟩) ∧
      (analysis.reused = true ↔
        ∃ origin, watch.origins.get? visit.path = some origin ∧ origin.content = content) ∧
      (visit.fs.readText visit.path = .ok content ↔
        ¬ watch.coordinator.Outdated visit.fs visit.path) ∧
      (files = none → visit.fs.readText visit.path = .ok content) := by
  intro watch distinct answered
  have sound : watch.Sound patterns options := (sound_begin patterns verifies methods files).follow visits
  have answers :=
    Coordinator.answers_analyze watch.coordinator visit.fs visit.path visit.language
  have current {reader : Coordinator} {content : String} {stamp : Stamp}
      (read : watch.coordinator.readContent visit.fs visit.path = (reader, .ok (content, stamp))) :
      (visit.fs.readText visit.path = .ok content ↔
        ¬ watch.coordinator.Outdated visit.fs visit.path) ∧
      (files = none → visit.fs.readText visit.path = .ok content) := by
    have decides := Coordinator.readText_iff_not_outdated read
    refine ⟨decides, fun uncached => decides.mpr ?_⟩
    rintro ⟨cache, held, -⟩
    rw [uncached_follow uncached visits] at held
    cases held
  rw [← Prod.eta (watch.coordinator.analyze visit.fs visit.path visit.language), answered] at answers
  generalize (watch.coordinator.analyze visit.fs visit.path visit.language).1 = after at answers
  cases answers with
  | byStamp rule =>
    rw [sound.sameOptions, verifies] at rule
    cases rule
  | @byContent reader next content stamp _ _ read unchanged reused =>
    obtain ⟨hasRead, -⟩ := Coordinator.readContent_spec read
    obtain ⟨⟨dependencies, result, rfl⟩, -⟩ := Coordinator.reuse_spec reused
    have reads := Coordinator.contentAt?_of_read read
    rw [contents_visit reads answered] at distinct
    rw [Coordinator.resultOf?, hasRead.results] at result
    obtain ⟨origin, isOrigin, hash, found, extracted, alike⟩ := sound.exists_origin unchanged result
    -- Both contents were answered for, so the digest tells them apart.
    obtain rfl : origin.content = content :=
      distinct _ (List.mem_cons_of_mem _ (sound.contents isOrigin)) _ List.mem_cons_self hash
    refine ⟨origin.content, origin.language, found, reads, extracted, alike, .inr ⟨rfl, isOrigin⟩, ?_,
      current read⟩
    exact iff_of_true rfl ⟨origin, isOrigin, rfl⟩
  | @extracted reader _ content stamp state dependencies _ read extracted adopts =>
    obtain ⟨_, -, -, -, -, -, isResult, isNew, -⟩ := Coordinator.adopt_spec adopts
    have reads := Coordinator.contentAt?_of_read read
    -- Had the content been the one of the last extraction, the answer would have come from memory.
    have unlike : ¬ ∃ origin, watch.origins.get? visit.path = some origin ∧ origin.content = content := by
      rintro ⟨origin, isOrigin, same⟩
      obtain ⟨_, reused⟩ := sound.exists_reused isOrigin (same ▸ reads)
      rw [reused] at answered
      rw [← Except.ok.inj answered] at isNew
      cases isNew
    rw [sound.samePatterns, sound.sameOptions] at extracted
    obtain ⟨anew, extracted, alike⟩ := exists_extractAs BEq.rfl extracted
    refine ⟨content, visit.language, anew, reads, extracted, isResult ▸ alike, .inl rfl, ?_, current read⟩
    exact iff_of_false (isNew ▸ Bool.false_ne_true) unlike

/-- An analysis of a file with this text, written at one and the same time. -/
def visitOf (text : String) : Visit where
  fs := Workspace.oneFile text 1
  path := ⟨"a.py"⟩
  language := .python

/-- A file is rewritten with a text of the same length at the same time. It is the cached text that is
answered for. -/
theorem answers_by_content_sameStamp :
    ∃ watch analysis, watch = Watch.follow
      { coordinator := {
          patterns := .filled, options := { verifyContent := true }
          files := some { maxEntries := 8, maxBytes := 1000 } } } [visitOf "import numpy\n"] ∧
    (∀ content ∈ (watch.visit (visitOf "import scipy\n")).contents,
      ∀ other ∈ (watch.visit (visitOf "import scipy\n")).contents,
      Digest.ofString content = Digest.ofString other → content = other) ∧
    (watch.coordinator.analyze (visitOf "import scipy\n").fs ⟨"a.py"⟩ .python).2 = .ok analysis ∧
    (visitOf "import scipy\n").fs.readText ⟨"a.py"⟩ = .ok "import scipy\n" ∧
    analysis.reused = true ∧ watch.coordinator.Outdated (visitOf "import scipy\n").fs ⟨"a.py"⟩ ∧
    ∃ dependencies, extractAs .filled .python ⟨"a.py"⟩ "import numpy\n" .all = .ok dependencies ∧
      (analysis.dependencies == dependencies) = true := by
  obtain ⟨watch, isWatch⟩ : ∃ watch, watch = Watch.follow
      { coordinator := {
          patterns := .filled, options := { verifyContent := true }
          files := some { maxEntries := 8, maxBytes := 1000 } } } [visitOf "import numpy\n"] := ⟨_, rfl⟩
  have sound : watch.Sound .filled { verifyContent := true } :=
    isWatch ▸ (sound_begin .filled rfl {} _).follow _
  have seen : watch.contents = ["import numpy\n"] ∧
      watch.origins.get? ⟨"a.py"⟩ = some ⟨.python, "import numpy\n"⟩ ∧
      (watch.coordinator.files.bind (·.find? ⟨"a.py"⟩)).map (fun entry => (entry.content, entry.stamp)) =
        some ("import numpy\n", { size := 13, seconds := 1 }) := by
    rw [isWatch]
    decide +kernel
  obtain ⟨contents, isOrigin, isCached⟩ := seen
  -- The stamp of the rewritten file is the one of the cached entry, so the file is not read again.
  have stamped : (Stamp.read (visitOf "import scipy\n").fs ⟨"a.py"⟩).toOption =
      some { size := 13, seconds := 1 } := by decide +kernel
  have rewritten : ((visitOf "import scipy\n").fs.readText ⟨"a.py"⟩).toOption =
      some "import scipy\n" := by decide +kernel
  have readable := eq_ok_of_toOption rewritten
  obtain ⟨entry, isEntry, parts⟩ := Option.map_eq_some_iff.mp isCached
  obtain ⟨cache, held, isFound⟩ := Option.bind_eq_some_iff.mp isEntry
  obtain ⟨isContent, isStamp⟩ := Prod.mk.inj parts
  have reads : watch.coordinator.contentAt? (visitOf "import scipy\n") = some "import numpy\n" := by
    rw [← isContent]
    exact Coordinator.contentAt?_of_cached held isFound (isStamp ▸ eq_ok_of_toOption stamped)
  obtain ⟨dependencies, answered⟩ := @Sound.exists_reused _ _ _ sound (visitOf "import scipy\n")
    ⟨.python, "import numpy\n"⟩ isOrigin reads
  have distinct : ∀ content ∈ (watch.visit (visitOf "import scipy\n")).contents,
      ∀ other ∈ (watch.visit (visitOf "import scipy\n")).contents,
      Digest.ofString content = Digest.ofString other → content = other := by
    rw [contents_visit reads answered, contents]
    intro content member other member' _
    simp only [List.mem_cons, List.not_mem_nil, or_false, or_self] at member member'
    rw [member, member']
  have spec := answers_by_content .filled { verifyContent := true } rfl {}
    (some { maxEntries := 8, maxBytes := 1000 }) [visitOf "import numpy\n"]
    (visitOf "import scipy\n")
      { path := ⟨"a.py"⟩, state := .unchanged, dependencies, reused := true, changed := false }
  rw [← isWatch] at spec
  obtain ⟨content, language, found, isRead, extracted, alike, asked, -, current, -⟩ :=
    spec distinct answered
  cases reads.symm.trans isRead
  have isPython : language = .python := by
    rcases asked with same | ⟨-, isLast⟩
    · exact same
    · cases isOrigin.symm.trans isLast
      rfl
  refine ⟨watch, _, isWatch, distinct, answered, readable, rfl, ?_, found, isPython ▸ extracted, alike⟩
  by_contra upToDate
  have same := Except.ok.inj (readable.symm.trans (current.mpr upToDate))
  exact absurd same (by decide)

end Watch

end DepAtlas
