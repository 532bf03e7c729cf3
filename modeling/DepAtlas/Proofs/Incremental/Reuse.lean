import DepAtlas.Proofs.Extract.WellFormed
import DepAtlas.Proofs.Incremental.Consistency
import DepAtlas.Proofs.Incremental.Restart

/-!
When an answer comes from memory. An analysis that succeeds settles its file: as long as the file stays as
it is, the next analysis answers the same from memory, also after a restart, and whatever layers are asked
for then.
-/

namespace DepAtlas

namespace FingerprintStore

variable {store next last : FingerprintStore} {path : Path} {change : Fingerprint → Fingerprint}

theorem get?_modify (store : FingerprintStore) (path other : Path)
    (change : Fingerprint → Fingerprint) :
    (store.modify path change).get? other =
      if (path == other) = true then (store.get? other).map change else store.get? other := by
  split
  case isTrue same =>
    rw [← Assoc.get?_congr same, ← Assoc.get?_congr same]
    exact get?_modify_self store path change
  case isFalse apart =>
    unfold modify
    split
    · rw [Assoc.get?_put, if_neg apart]
    · rfl

/-- Another store still has every fingerprint, with the digest of the content, and with the stamp unless
contents decide. -/
def Keeps (verifies : Bool) (store next : FingerprintStore) : Prop :=
  ∀ path known, store.get? path = some known → ∃ renewed, next.get? path = some renewed ∧
    renewed.contentHash = known.contentHash ∧ (verifies = false → renewed.stamp = known.stamp)

theorem Keeps.refl (verifies : Bool) (store : FingerprintStore) : Keeps verifies store store :=
  fun _ known found => ⟨known, found, rfl, fun _ => rfl⟩

theorem Keeps.trans {verifies : Bool} (first : Keeps verifies store next)
    (second : Keeps verifies next last) : Keeps verifies store last := by
  intro path known found
  obtain ⟨middle, found, hash, stamp⟩ := first path known found
  obtain ⟨renewed, found, hash', stamp'⟩ := second path middle found
  exact ⟨renewed, found, hash'.trans hash, fun rule => (stamp' rule).trans (stamp rule)⟩

theorem keeps_modify {verifies : Bool} (store : FingerprintStore) (path : Path)
    (hash : ∀ known, (change known).contentHash = known.contentHash)
    (stamp : verifies = false → ∀ known, (change known).stamp = known.stamp) :
    Keeps verifies store (store.modify path change) := by
  intro other known found
  rw [get?_modify, found]
  split
  · exact ⟨change known, rfl, hash known, fun rule => stamp rule known⟩
  · exact ⟨known, rfl, rfl, fun _ => rfl⟩

/-- A new stamp does not matter where contents decide. -/
theorem keeps_touch (store : FingerprintStore) (path : Path) (stamp : Stamp) (state : FileState) :
    Keeps true store (store.touch path stamp state) := by
  refine keeps_modify store path (fun _ => rfl) ?_
  intro byStamp
  cases byStamp

theorem stateOf_eq_unchanged {fs : FileSystem} {known : Fingerprint}
    (found : store.get? path = some known) (stamped : Stamp.read fs path = .ok known.stamp) :
    store.stateOf fs path = .unchanged := by
  simp [stateOf, found, stamped]

theorem stateByHash_eq_unchanged {known : Fingerprint} (found : store.get? path = some known) :
    store.stateByHash path known.contentHash = .unchanged := by
  simp [stateByHash, found]

end FingerprintStore

/-- Whether a file still is what is remembered of it: by its content if contents decide, else by its
stamp. -/
def Fingerprint.Covers (known : Fingerprint) (verifies : Bool) (fs : FileSystem) (path : Path) : Prop :=
  if verifies then
    ∃ content, fs.readText path = .ok content ∧ known.contentHash = Digest.ofString content
  else Stamp.read fs path = .ok known.stamp

theorem Fingerprint.Covers.congr {known : Fingerprint} {verifies : Bool} {fs later : FileSystem}
    {path other : Path} (covers : known.Covers verifies fs path)
    (stamp : Stamp.read later other = Stamp.read fs path)
    (text : later.readText other = fs.readText path) : known.Covers verifies later other := by
  unfold Fingerprint.Covers
  rw [stamp, text]
  exact covers

namespace Coordinator

variable {coordinator reader after : Coordinator} {fs : FileSystem} {path other : Path}
  {language : Language} {content : String} {stamp : Stamp} {dependencies : List Dependency}
  {analysis : Analysis} {verifies : Bool}

theorem readContent_truthful (truthful : Truthful fs coordinator.files) (path : Path) :
    (coordinator.readContent fs path).2 = FileCache.readStamped fs path ∧
      Truthful fs (coordinator.readContent fs path).1.files := by
  unfold readContent
  split
  · exact ⟨rfl, truthful⟩
  case h_2 cache held =>
    have genuine := truthful cache held
    have kept := genuine.get fs path
    split
    case h_1 next found looked =>
      rw [looked] at kept
      refine ⟨(genuine.readStamped_of_get (stampsTell_singleton fs) (List.mem_singleton_self fs)
        (congrArg Prod.snd looked)).symm, ?_⟩
      rintro _ ⟨⟩
      exact kept
    case h_2 next looked =>
      rw [looked] at kept
      split
      case h_1 failed =>
        refine ⟨failed.symm, ?_⟩
        rintro _ ⟨⟩
        exact kept
      case h_2 text isStamp read =>
        refine ⟨read.symm, ?_⟩
        rintro _ ⟨⟩
        exact kept.putRead (List.mem_singleton_self fs) read

/-- A file is settled when its result is remembered and it still is what is remembered of it. -/
structure Settled (coordinator : Coordinator) (verifies : Bool) (fs : FileSystem) (path : Path)
    (dependencies : List Dependency) : Prop where
  result : coordinator.resultOf? path = some dependencies
  covered : ∃ known, coordinator.fingerprint? path = some known ∧ known.Covers verifies fs path

namespace Settled

theorem keep (settled : coordinator.Settled verifies fs path dependencies)
    (keeps : coordinator.store.Keeps verifies after.store)
    (results : after.resultOf? path = coordinator.resultOf? path) :
    after.Settled verifies fs path dependencies := by
  obtain ⟨known, found, covers⟩ := settled.covered
  obtain ⟨renewed, found, hash, stamp⟩ := keeps path known found
  refine ⟨results.trans settled.result, renewed, found, ?_⟩
  unfold Fingerprint.Covers at covers ⊢
  split
  case isTrue rule =>
    rw [if_pos rule] at covers
    rw [hash]
    exact covers
  case isFalse rule =>
    rw [if_neg rule] at covers
    rw [stamp (eq_false_of_ne_true rule)]
    exact covers

/-- What counts is what is remembered under the path, and what is found there. -/
theorem congr (settled : coordinator.Settled verifies fs path dependencies) {later : FileSystem}
    (result : after.resultOf? other = coordinator.resultOf? path)
    (fingerprint : after.fingerprint? other = coordinator.fingerprint? path)
    (stamp : Stamp.read later other = Stamp.read fs path)
    (text : later.readText other = fs.readText path) :
    after.Settled verifies later other dependencies := by
  obtain ⟨known, found, covers⟩ := settled.covered
  exact ⟨result.trans settled.result, known, fingerprint.trans found, covers.congr stamp text⟩

end Settled

/-- What an analysis leaves alone, and what it does to the cache. -/
structure Proceeds (coordinator after : Coordinator) (fs : FileSystem) : Prop where
  options : after.options = coordinator.options
  now : after.now = coordinator.now
  deleted : after.deleted = coordinator.deleted
  truthful : Truthful fs after.files

/-- What is done with a file whose result is used again. -/
theorem reuse_spec (reused : coordinator.reuse? path = some (after, analysis)) :
    (∃ dependencies, coordinator.resultOf? path = some dependencies ∧
      analysis = { path, state := .unchanged, dependencies, reused := true, changed := false }) ∧
    after = { coordinator with
      store := coordinator.store.modify path fun known => { known with state := .unchanged }
      counts := after.counts } := by
  obtain ⟨dependencies, found, same⟩ := Option.map_eq_some_iff.mp reused
  cases same
  exact ⟨⟨dependencies, found, rfl⟩, rfl⟩

theorem keeps_of_reuse (reused : coordinator.reuse? path = some (after, analysis)) (verifies : Bool) :
    coordinator.store.Keeps verifies after.store := by
  rw [(reuse_spec reused).2]
  exact FingerprintStore.keeps_modify _ _ (fun _ => rfl) fun _ _ => rfl

theorem exists_reuse (found : coordinator.resultOf? path = some dependencies) :
    ∃ after, coordinator.reuse? path =
      some (after, { path, state := .unchanged, dependencies, reused := true, changed := false }) := by
  rw [reuse?, found]
  exact ⟨_, rfl⟩

theorem readContent_eq_ok (truthful : Truthful fs coordinator.files)
    (read : coordinator.readContent fs path = (reader, .ok (content, stamp))) :
    Stamp.read fs path = .ok stamp ∧ fs.readText path = .ok content ∧ Truthful fs reader.files := by
  obtain ⟨outcome, kept⟩ := readContent_truthful truthful path
  rw [read] at outcome kept
  obtain ⟨stamped, readable⟩ := FileCache.readStamped_eq_ok_iff.mp outcome.symm
  exact ⟨stamped, readable, kept⟩

theorem exists_readContent (truthful : Truthful fs coordinator.files)
    (readable : fs.readText path = .ok content) :
    ∃ reader stamp, coordinator.readContent fs path = (reader, .ok (content, stamp)) := by
  obtain ⟨node, isNode⟩ := exists_metadata_of_readText readable
  have stamped : Stamp.read fs path = .ok (.ofNode node) := by
    rw [Stamp.read, isNode]
    rfl
  obtain ⟨outcome, -⟩ := readContent_truthful truthful path
  rw [FileCache.readStamped_eq_ok_iff.mpr ⟨stamped, readable⟩] at outcome
  exact ⟨_, _, Prod.ext rfl outcome⟩

theorem settled_of_adopt {state : FileState} (stamped : Stamp.read fs path = .ok stamp)
    (readable : fs.readText path = .ok content)
    (adopted : coordinator.adopt path stamp (Digest.ofString content) state dependencies =
      (after, analysis)) (verifies : Bool) : after.Settled verifies fs path dependencies := by
  obtain ⟨fingerprint, -, isStamp, isHash, -, isAfter, -⟩ := adopt_spec adopted
  rw [isAfter]
  refine ⟨?_, fingerprint, ?_, ?_⟩
  · rw [resultOf?, Assoc.get?_put, if_pos BEq.rfl]
  · rw [fingerprint?, Assoc.get?_put, if_pos BEq.rfl]
  · unfold Fingerprint.Covers
    split
    · exact ⟨content, readable, isHash⟩
    · rw [isStamp]
      exact stamped

/-- An analysis that succeeds settles its file. -/
theorem settled_of_analyze (truthful : Truthful fs coordinator.files)
    (analyzed : coordinator.analyze fs path language = (after, .ok analysis)) :
    after.Settled coordinator.options.verifyContent fs path analysis.dependencies ∧
      Proceeds coordinator after fs := by
  have answers := answers_analyze coordinator fs path language
  rw [analyzed] at answers
  dsimp only at answers
  cases answers with
  | byStamp rule unchanged reused =>
    obtain ⟨⟨dependencies, found, rfl⟩, isAfter⟩ := reuse_spec reused
    obtain ⟨known, tracked, stamped⟩ := FingerprintStore.exists_of_stateOf_eq_unchanged unchanged
    have settled : coordinator.Settled false fs path dependencies := ⟨found, known, tracked, stamped⟩
    rw [rule]
    refine ⟨settled.keep (keeps_of_reuse reused false) (by rw [isAfter]; rfl), ?_⟩
    rw [isAfter]
    exact ⟨rfl, rfl, rfl, truthful⟩
  | @byContent reader next content stamp _ rule read unchanged reused =>
    obtain ⟨⟨dependencies, found, rfl⟩, isNext⟩ := reuse_spec reused
    obtain ⟨hasRead, -⟩ := readContent_spec read
    obtain ⟨stamped, readable, kept⟩ := readContent_eq_ok truthful read
    obtain ⟨known, tracked, hash⟩ := FingerprintStore.exists_of_stateByHash_eq_unchanged unchanged
    rw [← hasRead.store] at tracked
    have settled : reader.Settled true fs path dependencies :=
      ⟨found, known, tracked, content, readable, hash⟩
    rw [rule]
    have keeps := (keeps_of_reuse reused true).trans
      (FingerprintStore.keeps_touch next.store path stamp .unchanged)
    refine ⟨settled.keep keeps (by rw [isNext]; rfl), ?_⟩
    rw [isNext]
    exact ⟨hasRead.options, hasRead.now, hasRead.deleted, kept⟩
  | extracted read extracted adopted =>
    obtain ⟨hasRead, -⟩ := readContent_spec read
    obtain ⟨stamped, readable, kept⟩ := readContent_eq_ok truthful read
    obtain ⟨_, -, -, -, -, isAfter, isResult, -⟩ := adopt_spec adopted
    rw [isResult]
    refine ⟨settled_of_adopt stamped readable adopted _, ?_⟩
    rw [isAfter]
    exact ⟨hasRead.options, hasRead.now, hasRead.deleted, kept⟩

/-- Where contents decide, a content with the known digest is answered from memory. -/
theorem exists_analyze_of_hash (rule : coordinator.options.verifyContent = true)
    (read : coordinator.readContent fs path = (reader, .ok (content, stamp))) {known : Fingerprint}
    (tracked : coordinator.fingerprint? path = some known)
    (hash : known.contentHash = Digest.ofString content)
    (result : coordinator.resultOf? path = some dependencies) (language : Language) :
    ∃ after, coordinator.analyze fs path language =
        (after, .ok { path, state := .unchanged, dependencies, reused := true, changed := false }) ∧
      coordinator.store.Keeps true after.store ∧
      after.results = coordinator.results ∧ after.changes = coordinator.changes := by
  obtain ⟨hasRead, -⟩ := readContent_spec read
  have result : reader.resultOf? path = some dependencies := by
    rw [resultOf?, hasRead.results]
    exact result
  obtain ⟨after, reused⟩ := exists_reuse result
  obtain ⟨-, isAfter⟩ := reuse_spec reused
  have touched := FingerprintStore.keeps_touch after.store path stamp .unchanged
  refine ⟨{ after with store := after.store.touch path stamp .unchanged }, ?_,
    hasRead.store ▸ (keeps_of_reuse reused true).trans touched, ?_, ?_⟩
  · have state : reader.store.stateByHash path (Digest.ofString content) = .unchanged := by
      rw [← hash, hasRead.store]
      exact FingerprintStore.stateByHash_eq_unchanged tracked
    simp [analyze, analyzeContent, read, hasRead.options, rule, state, reused]
  · rw [isAfter]
    exact hasRead.results
  · rw [isAfter]
    exact hasRead.changes

/-- A settled file is answered from memory, which is kept as it is. -/
theorem analyze_of_settled (truthful : Truthful fs coordinator.files)
    (settled : coordinator.Settled coordinator.options.verifyContent fs path dependencies)
    (language : Language) :
    ∃ after, coordinator.analyze fs path language =
        (after, .ok { path, state := .unchanged, dependencies, reused := true, changed := false }) ∧
      coordinator.store.Keeps coordinator.options.verifyContent after.store ∧
      after.results = coordinator.results ∧ after.changes = coordinator.changes := by
  obtain ⟨known, tracked, covers⟩ := settled.covered
  unfold Fingerprint.Covers at covers
  cases rule : coordinator.options.verifyContent with
  | false =>
    simp only [rule, Bool.false_eq_true, if_false] at covers
    obtain ⟨after, reused⟩ := exists_reuse settled.result
    obtain ⟨-, isAfter⟩ := reuse_spec reused
    refine ⟨after, ?_, keeps_of_reuse reused false, by rw [isAfter], by rw [isAfter]⟩
    simp [analyze, rule, FingerprintStore.stateOf_eq_unchanged tracked covers, reused]
  | true =>
    simp only [rule, if_true] at covers
    obtain ⟨content, readable, hash⟩ := covers
    obtain ⟨reader, stamp, read⟩ := exists_readContent truthful readable
    exact exists_analyze_of_hash rule read tracked hash settled.result language

/-- Other files are left alone. -/
theorem analyze_frame (apart : (path == other) = false) :
    (coordinator.analyze fs path language).1.resultOf? other = coordinator.resultOf? other ∧
      (coordinator.analyze fs path language).1.fingerprint? other = coordinator.fingerprint? other := by
  have answers := answers_analyze coordinator fs path language
  generalize coordinator.analyze fs path language = outcome at answers ⊢
  obtain ⟨after, answer⟩ := outcome
  have modified {reader : Coordinator} (change : Fingerprint → Fingerprint) :
      (reader.store.modify path change).get? other = reader.store.get? other := by
    rw [FingerprintStore.get?_modify, if_neg (by simp [apart])]
  cases answers with
  | unread read =>
    obtain ⟨hasRead, -⟩ := readContent_spec read
    rw [hasRead]
    exact ⟨rfl, rfl⟩
  | unextracted read =>
    obtain ⟨hasRead, -⟩ := readContent_spec read
    rw [hasRead]
    exact ⟨rfl, rfl⟩
  | byStamp _ _ reused =>
    obtain ⟨-, isAfter⟩ := reuse_spec reused
    rw [isAfter]
    exact ⟨rfl, modified _⟩
  | @byContent reader next _ _ _ _ read _ reused =>
    obtain ⟨hasRead, -⟩ := readContent_spec read
    obtain ⟨-, isNext⟩ := reuse_spec reused
    rw [resultOf?, fingerprint?, FingerprintStore.touch, modified, isNext]
    rw [hasRead]
    exact ⟨rfl, modified _⟩
  | extracted read _ adopted =>
    obtain ⟨hasRead, -⟩ := readContent_spec read
    obtain ⟨fingerprint, -, -, -, -, isAfter, -⟩ := adopt_spec adopted
    rw [isAfter, hasRead, resultOf?, fingerprint?, Assoc.get?_put, Assoc.get?_put, if_neg (by simp [apart]),
      if_neg (by simp [apart])]
    exact ⟨rfl, rfl⟩

theorem filter_eq_filter_iff {α : Type} {entries : List α} {p q : α → Bool} :
    entries.filter p = entries.filter q ↔ ∀ entry ∈ entries, p entry = q entry := by
  refine ⟨fun same entry member => ?_, List.filter_congr⟩
  have mem := congrArg (entry ∈ ·) same
  simp only [List.mem_filter, member, true_and, eq_iff_iff] at mem
  exact Bool.eq_iff_iff.mpr mem

/-- A file that is not known yet is extracted, and settled by stamp and content alike. -/
theorem analyze_of_unknown (truthful : Truthful fs coordinator.files)
    (readable : fs.readText path = .ok content) (unknown : coordinator.fingerprint? path = none)
    (extraction : extractAs coordinator.patterns language path content coordinator.options.layers =
      .ok dependencies) (verifies : Bool) :
    (coordinator.analyze fs path language).1.Settled verifies fs path dependencies := by
  have answers := answers_analyze coordinator fs path language
  generalize coordinator.analyze fs path language = outcome at answers ⊢
  obtain ⟨after, answer⟩ := outcome
  have isRead {reader : Coordinator} {outcome : Except CacheError (String × Stamp)}
      (read : coordinator.readContent fs path = (reader, outcome)) :
      ∃ stamp, outcome = .ok (content, stamp) ∧ Stamp.read fs path = .ok stamp := by
    obtain ⟨other, stamp, succeeds⟩ := exists_readContent truthful readable
    cases read.symm.trans succeeds
    exact ⟨stamp, rfl, (readContent_eq_ok truthful succeeds).1⟩
  cases answers with
  | unread read =>
    obtain ⟨_, impossible, -⟩ := isRead read
    cases impossible
  | unextracted read failed =>
    obtain ⟨_, same, -⟩ := isRead read
    cases same
    rw [extraction] at failed
    cases failed
  | byStamp _ unchanged =>
    obtain ⟨known, tracked, -⟩ := FingerprintStore.exists_of_stateOf_eq_unchanged unchanged
    cases unknown.symm.trans tracked
  | byContent _ _ unchanged =>
    obtain ⟨known, tracked, -⟩ := FingerprintStore.exists_of_stateByHash_eq_unchanged unchanged
    cases unknown.symm.trans tracked
  | extracted read extracted adopted =>
    obtain ⟨stamp, same, stamped⟩ := isRead read
    cases same
    cases extraction.symm.trans extracted
    exact settled_of_adopt stamped readable adopted verifies

/-- A coordinator that loads a state answers for a file that has not changed with what was extracted for
the coordinator that saved it. That is what its own layers ask for exactly if both ask for the same of the
layers that the file has dependencies in. -/
theorem reused_layers_match_iff (fs after : FileSystem) (file path : Path) (language : Language)
    (content : String) (options : IncrementalOptions) (files : Option FileCache) (now : Time)
    (tree : fs.IsTree) (fits : fs.Fits) (time : now.seconds.toNat < limit64)
    (unlinked : SavedState.Unlinked fs file) (truthful : Truthful fs files)
    (readable : fs.readText path = .ok content)
    (saved : (Coordinator.analyze { patterns := .filled, options, files, now } fs path
      language).1.saveState fs file = (after, .ok ()))
    (sameStamp : Stamp.read after path = Stamp.read fs path)
    (sameText : after.readText path = fs.readText path) (other : Coordinator)
    (truthful' : Truthful after other.files) :
    ∃ dependencies whole next analysis,
      extractAs .filled language path content options.layers = .ok dependencies ∧
      extractAs .filled language path content .all = .ok whole ∧
      (other.loadState after file).1.analyze after path language = (next, .ok analysis) ∧
      analysis.reused = true ∧ analysis.dependencies = dependencies ∧
      (extractAs .filled language path content other.options.layers = .ok analysis.dependencies ↔
        ∀ dependency ∈ whole,
          options.layers.contains dependency.layer = other.options.layers.contains dependency.layer) := by
  let whole := Layer.all.flatMap (Extract.inLayer (.ofContent language path content))
  let chosen (mask : LayerMask) := whole.filter fun dependency => mask.contains dependency.layer
  have extraction (mask : LayerMask) :
      extractAs .filled language path content mask = .ok (chosen mask) := by
    rw [show chosen mask = _ from Extract.filter_inLayer _ mask.contains Layer.all]
    exact Extract.layers_filled language path content _
  let first : Coordinator := { patterns := .filled, options, files, now }
  let analyzed := (first.analyze fs path language).1
  have begun : first.Savable := ⟨.nothing, time⟩
  have savable : analyzed.Savable := begun.analyze fits path language
  have settled : analyzed.Settled other.options.verifyContent fs path (chosen options.layers) :=
    analyze_of_unknown truthful readable rfl (extraction options.layers) _
  let loaded := (other.loadState after file).1
  have isLoaded : loaded = other.ofState analyzed.toState :=
    loadState_saveState savable tree unlinked saved other
  rw [ofState_eq savable.tidy_toState] at isLoaded
  have recalled : loaded.Settled other.options.verifyContent after path (chosen options.layers) := by
    refine settled.congr ?_ ?_ sameStamp sameText
    · rw [isLoaded]
      exact savable.get?_files path
    · rw [isLoaded]
      exact savable.get?_store path
  have kept : loaded.options = other.options ∧ loaded.files = other.files := by
    rw [isLoaded]
    exact ⟨rfl, rfl⟩
  rw [← kept.1] at recalled
  rw [← kept.2] at truthful'
  obtain ⟨next, answer, -⟩ := analyze_of_settled truthful' recalled language
  refine ⟨chosen options.layers, whole, next, _, extraction options.layers,
    Extract.layers_filled language path content _, answer, rfl, rfl, ?_⟩
  rw [extraction, Except.ok.injEq, eq_comm]
  exact filter_eq_filter_iff

/-- The text of the file that imports a module and defines a method. -/
def plainText : String := "use serde::X;\nfn a() {}\n"

/-- A coordinator that asks for one layer. -/
def onlyLayer (layer : Layer) : Coordinator where
  patterns := .filled
  options := { layers := .ofList [layer] }

/-- The state is saved by a coordinator that asks for methods. -/
def savedMethods : FileSystem × Except StateError Unit :=
  ((onlyLayer .method).analyze plainFile ⟨"a.rs"⟩ .rust).1.saveState plainFile ⟨"s.json"⟩

/-- The one that asks for modules is answered with the method. -/
theorem reused_layers_match_iff_otherLayer :
    plainFile.IsTree ∧ plainFile.Fits ∧ SavedState.Unlinked plainFile ⟨"s.json"⟩ ∧
      plainFile.readText ⟨"a.rs"⟩ = .ok plainText ∧
      Stamp.read savedMethods.1 ⟨"a.rs"⟩ = Stamp.read plainFile ⟨"a.rs"⟩ ∧
      savedMethods.1.readText ⟨"a.rs"⟩ = plainFile.readText ⟨"a.rs"⟩ ∧
      ∃ next analysis,
        ((onlyLayer .module).loadState savedMethods.1 ⟨"s.json"⟩).1.analyze savedMethods.1 ⟨"a.rs"⟩ .rust =
          (next, .ok analysis) ∧
        analysis.reused = true ∧ analysis.dependencies.map (·.target) = ["a"] ∧
        extractAs .filled .rust ⟨"a.rs"⟩ plainText (.ofList [.method]) = .ok analysis.dependencies ∧
        extractAs .filled .rust ⟨"a.rs"⟩ plainText (.ofList [.module]) ≠ .ok analysis.dependencies := by
  have tree : plainFile.IsTree := FileSystem.isTree_of_isPlaced (by decide) rfl rfl (by decide +kernel)
  have fits : plainFile.Fits := FileSystem.fits_of_forall_mem (by decide +kernel)
  have unlinked : SavedState.Unlinked plainFile ⟨"s.json"⟩ := ⟨by decide +kernel, by decide +kernel⟩
  have readable : plainFile.readText ⟨"a.rs"⟩ = .ok plainText := eq_ok_of_toOption (by decide +kernel)
  have stamp : Stamp.read savedMethods.1 ⟨"a.rs"⟩ = Stamp.read plainFile ⟨"a.rs"⟩ := by
    have before : Stamp.read plainFile ⟨"a.rs"⟩ = .ok ⟨24, 7, 0⟩ := eq_ok_of_toOption (by decide +kernel)
    rw [before]
    exact eq_ok_of_toOption (by decide +kernel)
  have text : savedMethods.1.readText ⟨"a.rs"⟩ = plainFile.readText ⟨"a.rs"⟩ := by
    rw [readable]
    exact eq_ok_of_toOption (by decide +kernel)
  have isSaved : savedMethods.2.toOption = some () := by decide +kernel
  have saved := eq_of_snd isSaved
  have noCache : Truthful plainFile none := nofun
  have noCache' : Truthful savedMethods.1 (onlyLayer .module).files := fun _ member => nomatch member
  obtain ⟨dependencies, whole, next, analysis, extraction, all, answer, reused, same, agree⟩ :=
    reused_layers_match_iff plainFile savedMethods.1 ⟨"s.json"⟩ ⟨"a.rs"⟩ .rust plainText
      { layers := .ofList [.method] } none {} tree fits (by decide) unlinked noCache readable saved stamp
      text (onlyLayer .module) noCache'
  have found : ((extractAs .filled .rust ⟨"a.rs"⟩ plainText (.ofList [.method])).toOption.getD []).map
      (·.target) = ["a"] := by decide +kernel
  have mixed : ((extractAs .filled .rust ⟨"a.rs"⟩ plainText .all).toOption.getD []).any
      (·.layer == .module) = true := by decide +kernel
  rw [extraction] at found
  rw [all] at mixed
  refine ⟨tree, fits, unlinked, readable, stamp, text, next, analysis, answer, reused, same ▸ found,
    same ▸ extraction, fun asked => ?_⟩
  obtain ⟨dependency, member, isModule⟩ := List.any_eq_true.mp mixed
  have alike := agree.mp asked dependency member
  rw [eq_of_beq isModule] at alike
  exact absurd alike (by decide)

end Coordinator

end DepAtlas
