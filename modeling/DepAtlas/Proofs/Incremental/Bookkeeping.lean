import DepAtlas.Proofs.Incremental.Regularity

/-!
The books of a coordinator in the course of a crawl: what its fingerprints, results, method table and
counts have to do with one another, where the state that it begins with was saved by a coordinator.
-/

namespace DepAtlas

/-- A digest is the one of the dependencies' keys. -/
def Dependency.Hashed (hash : UInt64) (dependencies : List Dependency) : Prop :=
  hash = Digest.ofStrings (dependencies.map (·.key))

theorem Use.Loads.mono {admits others : SavedState → Prop} {use : Use} (loads : use.Loads admits)
    (weaker : ∀ state, admits state → others state) : use.Loads others := by
  cases use with
  | loadState fs path => exact fun state read => weaker state (loads state read)
  | _ => trivial

namespace Coordinator

variable {coordinator saver reader : Coordinator} {fs : FileSystem} {path : Path}
  {agrees : UInt64 → List Dependency → Prop}

/-- The coordinators that come about where all states that are loaded were saved by such ones. -/
inductive Arises : Coordinator → Prop
  | begin (patterns : PatternStore) (options : IncrementalOptions) (methods : MethodTable)
      (files : Option FileCache) : Arises { patterns, options, methods, files }
  | work {coordinator : Coordinator} (arises : Arises coordinator) {use : Use}
      (loads : use.Loads fun _ => False) : Arises (coordinator.use use)
  | load {coordinator saver : Coordinator} (arises : Arises coordinator) (saves : Arises saver)
      {fs : FileSystem} {path : Path} (stored : fs.read path = .ok saver.toState.encode) :
      Arises (coordinator.loadState fs path).1

theorem loads_stored (paired : Paired agrees saver.store saver.results)
    (stored : fs.read path = .ok saver.toState.encode) :
    (Use.loadState fs path).Loads (SavedState.Agrees agrees) := by
  intro state read
  obtain ⟨bytes, readable, decoded, -⟩ := SavedState.exists_of_read read
  cases readable.symm.trans stored
  rw [SavedState.eq_of_decode?_encode decoded]
  exact paired.agrees_toState

theorem Arises.paired (arises : coordinator.Arises)
    (fresh : ∀ dependencies, agrees (Digest.ofStrings (dependencies.map (·.key))) dependencies) :
    Paired agrees coordinator.store coordinator.results := by
  induction arises with
  | begin => exact .nothing
  | work _ loads ih => exact paired_use ih fresh (loads.mono fun _ impossible => impossible.elim)
  | load _ _ stored ih saves => exact paired_use ih fresh (loads_stored saves stored)

end Coordinator

/-- A state file that is loaded was saved by a coordinator. -/
def Use.Trusted : Use → Prop
  | .loadState fs path => ∀ bytes, fs.read path = .ok bytes →
      ∃ saver : Coordinator, saver.Arises ∧ bytes = saver.toState.encode
  | _ => True

theorem Use.Trusted.loads {use : Use} (trusted : use.Trusted) :
    use.Loads (SavedState.Agrees Dependency.Hashed) := by
  cases use with
  | loadState fs path =>
    intro state read
    obtain ⟨bytes, readable, -, -⟩ := SavedState.exists_of_read read
    obtain ⟨saver, arises, rfl⟩ := trusted bytes readable
    exact Coordinator.loads_stored (arises.paired fun _ => rfl) readable state read
  | _ => trivial

/-- A state file that can be trusted is loaded in the same way of coming about. -/
theorem Coordinator.Arises.loadState {coordinator : Coordinator} (arises : coordinator.Arises)
    {fs : FileSystem} {path : Path} (trusted : (Use.loadState fs path).Trusted) :
    (coordinator.loadState fs path).1.Arises := by
  cases stored : fs.read path with
  | ok bytes =>
    obtain ⟨saver, saves, rfl⟩ := trusted bytes stored
    exact arises.load saves stored
  | error cause =>
    have unusable : (Use.loadState fs path).Loads fun _ => False := by
      intro state read
      obtain ⟨bytes, readable, -⟩ := SavedState.exists_of_read read
      cases readable.symm.trans stored
    exact arises.work unusable

theorem Use.ne_clear_of_crawls {uses : List Use} (crawls : Use.crawls uses = true) {use : Use}
    (member : use ∈ uses) : use ≠ .clear := by
  rintro rfl
  unfold Use.crawls at crawls
  split at crawls
  case h_1 =>
    rcases List.mem_cons.mp member with same | member
    · cases same
    · cases List.all_eq_true.mp crawls .clear member
  case h_2 => cases List.all_eq_true.mp crawls .clear member

namespace Coordinator

variable {coordinator reader : Coordinator} {fs : FileSystem} {path : Path}

/-- The analyses that were answered. -/
def answered (coordinator : Coordinator) : Nat :=
  coordinator.counts.analyzed + coordinator.counts.skipped

/-- The analyses that were answered, anew and from memory. -/
def answeredByKind (coordinator : Coordinator) : Nat × Nat :=
  (coordinator.counts.analyzed, coordinator.counts.skipped)

/-- What an answer adds to these. -/
def kindOf : Except Failure Analysis → Nat × Nat
  | .ok analysis => if analysis.reused then (0, 1) else (1, 0)
  | .error _ => (0, 0)

def succeeds (coordinator : Coordinator) : Use → Bool
  | .analyze fs path language => (coordinator.analyze fs path language).2.isOk
  | _ => false

/-- How many of these uses are analyses that succeed. -/
def successes (coordinator : Coordinator) : List Use → Nat
  | [] => 0
  | use :: uses => (coordinator.succeeds use).toNat + (coordinator.use use).successes uses

theorem answered_of_kinds {after : Coordinator} (same : after.answeredByKind = coordinator.answeredByKind) :
    after.answered = coordinator.answered :=
  congrArg (fun kinds => kinds.1 + kinds.2) same

theorem HasRead.answeredByKind (hasRead : HasRead coordinator reader) :
    reader.answeredByKind = coordinator.answeredByKind := by
  rw [hasRead]
  rfl

theorem answeredByKind_reuse {next : Coordinator} {path : Path} {analysis : Analysis}
    (reused : coordinator.reuse? path = some (next, analysis)) :
    next.answeredByKind = coordinator.answeredByKind + kindOf (.ok analysis) := by
  obtain ⟨dependencies, -, same⟩ := Option.map_eq_some_iff.mp reused
  cases same
  rfl

/-- An analysis that succeeds is counted once, by where its answer comes from. -/
theorem answeredByKind_analyze (coordinator : Coordinator) (fs : FileSystem) (path : Path)
    (language : Language) : (coordinator.analyze fs path language).1.answeredByKind =
      coordinator.answeredByKind + kindOf (coordinator.analyze fs path language).2 := by
  have answers := answers_analyze coordinator fs path language
  generalize coordinator.analyze fs path language = outcome at answers ⊢
  obtain ⟨after, answer⟩ := outcome
  cases answers with
  | unread read => exact (readContent_spec read).1.answeredByKind
  | unextracted read => exact (readContent_spec read).1.answeredByKind
  | byStamp _ _ reused => exact answeredByKind_reuse reused
  | byContent _ read _ reused =>
    have hasRead := (readContent_spec read).1
    exact (answeredByKind_reuse reused).trans (congrArg (· + _) hasRead.answeredByKind)
  | @extracted reader after _ _ _ _ analysis read _ adopted =>
    have hasRead := (readContent_spec read).1
    obtain ⟨-, -, -, -, -, -, -, anew, -, analyzed, skipped⟩ := adopt_spec adopted
    have kind : kindOf (.ok analysis) = (1, 0) := by rw [kindOf, anew]; rfl
    have counted : after.answeredByKind = reader.answeredByKind + (1, 0) := Prod.ext analyzed skipped
    rw [kind, counted, hasRead.answeredByKind]

theorem answered_analyze (coordinator : Coordinator) (fs : FileSystem) (path : Path)
    (language : Language) : (coordinator.analyze fs path language).1.answered =
      coordinator.answered + (coordinator.analyze fs path language).2.isOk.toNat := by
  have kinds := coordinator.answeredByKind_analyze fs path language
  have once (answer : Except Failure Analysis) :
      (kindOf answer).1 + (kindOf answer).2 = answer.isOk.toNat := by
    cases answer with
    | error cause => rfl
    | ok analysis => cases reused : analysis.reused <;> simp [kindOf, reused, Except.isOk, Except.toBool]
  have analyzed := congrArg Prod.fst kinds
  have skipped := congrArg Prod.snd kinds
  have total := once (coordinator.analyze fs path language).2
  simp only [answeredByKind, Prod.fst_add, Prod.snd_add] at analyzed skipped
  rw [answered, answered, analyzed, skipped]
  omega

theorem answeredByKind_forget (coordinator : Coordinator) (fingerprint : Fingerprint) :
    (coordinator.forget fingerprint).answeredByKind = coordinator.answeredByKind := by
  unfold forget recordChange
  dsimp only
  split <;> rfl

theorem answeredByKind_foldl_forget (coordinator : Coordinator) (gone : List Fingerprint) :
    (gone.foldl forget coordinator).answeredByKind = coordinator.answeredByKind := by
  induction gone generalizing coordinator with
  | nil => rfl
  | cons fingerprint gone ih => exact (ih _).trans (coordinator.answeredByKind_forget fingerprint)

theorem answeredByKind_detectMoves (coordinator : Coordinator) :
    coordinator.detectMoves.1.answeredByKind = coordinator.answeredByKind := by
  apply List.foldlRecOn
    (motive := fun (state : Coordinator × List (Path × Path)) =>
      state.1.answeredByKind = coordinator.answeredByKind) coordinator.store.paths _ rfl
  rintro ⟨later, moves⟩ same path -
  unfold detectMove
  dsimp only at same ⊢
  repeat' split
  all_goals exact same

/-- Only an analysis that succeeds is counted, and once. -/
theorem answered_use (coordinator : Coordinator) {use : Use} (lasts : use ≠ .clear) :
    (coordinator.use use).answered = coordinator.answered + (coordinator.succeeds use).toNat := by
  cases use with
  | analyze fs path language => exact answered_analyze coordinator fs path language
  | detectDeleted fs seen =>
    exact answered_of_kinds (answeredByKind_foldl_forget _ (coordinator.goneFiles fs seen))
  | detectMoves => exact answered_of_kinds (answeredByKind_detectMoves coordinator)
  | clear => exact absurd rfl lasts
  | loadState fs path =>
    show (coordinator.loadState fs path).1.answered = coordinator.answered
    unfold loadState
    split
    case h_1 state _ =>
      rw [ofState_eq_kept]
      rfl
    case h_2 => rfl
  | takeChanges | invalidate | setTime | share => rfl

theorem afterUses_cons (coordinator : Coordinator) (use : Use) (uses : List Use) :
    coordinator.afterUses (use :: uses) = (coordinator.use use).afterUses uses := rfl

theorem answered_afterUses (coordinator : Coordinator) {uses : List Use}
    (last : ∀ use ∈ uses, use ≠ .clear) :
    (coordinator.afterUses uses).answered = coordinator.answered + coordinator.successes uses := by
  induction uses generalizing coordinator with
  | nil => rfl
  | cons use uses ih =>
    have first := coordinator.answered_use (last use List.mem_cons_self)
    have rest := ih (coordinator.use use) fun other member =>
      last other (List.mem_cons_of_mem _ member)
    rw [afterUses_cons, rest, first, successes]
    omega

/-- The books are in order: every result has a fingerprint with its digest, the method table holds the
definitions among the results and nothing else, and the counts are those of the successful analyses. -/
structure Accountable (coordinator : Coordinator) (successes : Nat) : Prop where
  hashed : ∀ {path dependencies}, coordinator.resultOf? path = some dependencies →
    ∃ fingerprint, coordinator.fingerprint? path = some fingerprint ∧
      fingerprint.dependencyHash = Digest.ofStrings (dependencies.map (·.key))
  definitions : ∀ path name, (coordinator.methods.definitions.get? path).bind (Assoc.get? name) =
    Dependency.said? ((coordinator.resultOf? path).getD []) name
  calls : ∀ path name, name ∈ (coordinator.methods.calls.get? path).getD [] ↔
    ∃ method ∈ Dependency.methods ((coordinator.resultOf? path).getD []), name ∈ method.calls
  refines : ∃ definers, ∀ name, coordinator.methods.Refines ⟨coordinator.results, definers⟩ name
  mentions : ∀ path, coordinator.methods.Mentions path ↔
    ∃ dependencies, coordinator.resultOf? path = some dependencies ∧
      Dependency.methods dependencies ≠ []
  counted : coordinator.stats.analyzed + coordinator.stats.skipped = successes

theorem accountable_of_inStep (inStep : coordinator.InStep)
    (paired : Paired Dependency.Hashed coordinator.store coordinator.results) :
    coordinator.Accountable coordinator.answered := by
  obtain ⟨definers, tracks⟩ := inStep.tracks_results
  refine ⟨paired.partner, tracks.definitions, tracks.linked.remembers,
    ⟨definers, fun name => (tracks.stands name).refines⟩, inStep.mentions_iff, rfl⟩

/-- In the course of a crawl the books are always in order. -/
theorem crawl_is_accountable (patterns : PatternStore) (options : IncrementalOptions)
    (files : Option FileCache) (uses : List Use) (crawls : Use.crawls uses = true)
    (trusted : ∀ use ∈ uses, use.Trusted) :
    let coordinator : Coordinator := { patterns, options, files }
    (coordinator.afterUses uses).Accountable (coordinator.successes uses) := by
  intro coordinator
  have inStep := inStep_of_crawls patterns options files crawls
  have paired : Paired Dependency.Hashed (coordinator.afterUses uses).store
      (coordinator.afterUses uses).results :=
    paired_afterUses .nothing (fun _ => rfl) fun use member => (trusted use member).loads
  have counted := coordinator.answered_afterUses fun use member =>
    Use.ne_clear_of_crawls crawls member
  have begun : coordinator.answered = 0 := rfl
  rw [begun, Nat.zero_add] at counted
  rw [← counted]
  exact accountable_of_inStep inStep paired

/-- A file, and a state file beside it. -/
def besideState (text : String) (seconds : Int) (saved : Bytes) : FileSystem where
  nodes := [([], .directory), (["a.rs"], .file text.toUTF8.toList { seconds }),
    (["s.json"], .file saved {})]
  current := []

def earlier : Coordinator :=
  afterUses { patterns := .filled } [.analyze (besideState "fn a() {}\n" 1 []) ⟨"a.rs"⟩ .rust]

/-- The file as it was then, beside what was saved. -/
def resumed : FileSystem :=
  besideState "fn a() {}\n" 1 earlier.toState.encode

/-- A crawl that goes on from there: of three analyses the first one answers from memory, the second one
finds no file, and the last one finds the file changed. -/
def resumedUses : List Use := [
  .analyze resumed ⟨"a.rs"⟩ .rust, .analyze resumed ⟨"b.rs"⟩ .rust, .detectDeleted resumed [],
  .detectMoves, .analyze (besideState "fn b() { a(); }\n" 2 []) ⟨"a.rs"⟩ .rust]

theorem read_besideState (text : String) (seconds : Int) (saved : Bytes) :
    (besideState text seconds saved).read ⟨"s.json"⟩ = .ok saved := by rfl

theorem use_loadState {state : SavedState} (read : SavedState.read fs path = .ok (some state)) :
    coordinator.use (.loadState fs path) = coordinator.ofState state :=
  loadState_of_read read

theorem crawl_is_accountable_resumed :
    let uses := .loadState resumed ⟨"s.json"⟩ :: resumedUses
    let coordinator := Coordinator.afterUses { patterns := .filled } uses
    Use.crawls uses = true ∧ (∀ use ∈ uses, use.Trusted) ∧ coordinator.Accountable 2 ∧
      coordinator.stats.skipped = 1 ∧
      (coordinator.resultOf? ⟨"a.rs"⟩).map (·.map (·.target)) = some ["b"] := by
  intro uses coordinator
  have crawls : Use.crawls uses = true := by decide +kernel
  have stored : resumed.read ⟨"s.json"⟩ = .ok earlier.toState.encode := read_besideState ..
  have trusted : ∀ use ∈ uses, use.Trusted := by
    intro use member
    rcases List.mem_cons.mp member with rfl | member
    · intro bytes readable
      rw [stored] at readable
      have arises : earlier.Arises := .work (.begin .filled {} {} none)
        (show Use.Loads _ (.analyze _ _ _) from trivial)
      exact ⟨earlier, arises, (Except.ok.inj readable).symm⟩
    · simp only [resumedUses, List.mem_cons, List.not_mem_nil, or_false] at member
      rcases member with rfl | rfl | rfl | rfl | rfl <;> trivial
  have fits : earlier.toState.Fits := by
    refine Savable.fits_toState (.afterUses (.begin .filled {} {} none) ?_)
    intro use member
    cases List.mem_singleton.mp member
    exact FileSystem.fits_of_forall_mem (by decide +kernel)
  have decoded := SavedState.restores fits
  have loaded : Coordinator.use { patterns := .filled } (.loadState resumed ⟨"s.json"⟩) =
      Coordinator.ofState { patterns := .filled } earlier.toState :=
    use_loadState (SavedState.read_of_encode stored decoded rfl)
  have accountable : coordinator.Accountable (Coordinator.successes { patterns := .filled } uses) :=
    crawl_is_accountable .filled {} none uses crawls trusted
  have course : coordinator =
      (Coordinator.ofState { patterns := .filled } earlier.toState).afterUses resumedUses :=
    (afterUses_cons ..).trans (congrArg (afterUses · resumedUses) loaded)
  have successes : Coordinator.successes { patterns := .filled } uses = 2 := by
    rw [Coordinator.successes, loaded]
    decide +kernel
  have books : (coordinator.stats.skipped,
      (coordinator.resultOf? ⟨"a.rs"⟩).map (·.map (·.target))) = (1, some ["b"]) := by
    rw [course]
    decide +kernel
  rw [successes] at accountable
  exact ⟨crawls, trusted, accountable, (Prod.mk.inj books).1, (Prod.mk.inj books).2⟩

end Coordinator

end DepAtlas
