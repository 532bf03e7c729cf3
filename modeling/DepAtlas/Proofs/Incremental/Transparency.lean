import DepAtlas.Proofs.Incremental.Consistency

/-!
Incremental analysis is transparent: in any run of any number of coordinators every answer holds the
dependencies that extraction finds in the content which the file has at that moment.
-/

namespace DepAtlas.Workspace

/-- All that is remembered, cached or saved comes from contents that files had, and all answers so far
held at their moment. -/
structure Sound (project : Project) (workspace : Workspace) : Prop where
  present : workspace.fs ∈ workspace.moments
  consistent : ∀ coordinator ∈ workspace.coordinators,
    coordinator.Consistent project workspace.moments
  faithful : ∀ state ∈ workspace.saved, state.Faithful project workspace.moments
  answered : ∀ answer ∈ workspace.answers, ∀ analysis, answer.outcome = .ok analysis →
    project.Answers answer.fs answer.path analysis.dependencies

variable {project : Project} {workspace after : Workspace} {coordinator : Coordinator}

theorem sound_begin (project : Project) (fs : FileSystem) : Sound project { fs } where
  present := List.mem_singleton_self fs
  consistent _ member := nomatch member
  faithful _ member := nomatch member
  answered _ member := nomatch member

namespace Sound

theorem edit (sound : workspace.Sound project) (fs : FileSystem) : (workspace.edit fs).Sound project where
  present := List.mem_cons_self
  consistent coordinator member := (sound.consistent coordinator member).mono (List.subset_cons_self _ _)
  faithful state member fingerprint isFingerprint result isResult same :=
    (sound.faithful state member fingerprint isFingerprint result isResult same).mono
      (List.subset_cons_self _ _)
  answered := sound.answered

theorem set (sound : workspace.Sound project) (index : Nat)
    (consistent : coordinator.Consistent project workspace.moments) :
    (workspace.set index coordinator).Sound project where
  present := sound.present
  consistent other member := by
    rcases List.mem_or_eq_of_mem_set member with old | rfl
    · exact sound.consistent other old
    · exact consistent
  faithful := sound.faithful
  answered := sound.answered

theorem saveState (sound : workspace.Sound project)
    (consistent : coordinator.Consistent project workspace.moments) (path : Path) :
    Sound project { workspace.edit (coordinator.saveState workspace.fs path).1 with
      saved := coordinator.toState :: workspace.saved } := by
  have edited := sound.edit (coordinator.saveState workspace.fs path).1
  refine ⟨edited.present, edited.consistent, ?_, edited.answered⟩
  intro state member
  rcases List.mem_cons.mp member with rfl | old
  · exact (consistent.remembers.mono (List.subset_cons_self _ _)).faithful_toState
  · exact edited.faithful state old

theorem analyze (sound : workspace.Sound project) (stable : Stable workspace.moments) (index : Nat)
    (consistent : coordinator.Consistent project workspace.moments) (path : Path) :
    Sound project {
      workspace.set index
        (coordinator.analyze workspace.fs path (project.languageOf path)).1 with
      answers := {
        fs := workspace.fs, path
        outcome := (coordinator.analyze workspace.fs path (project.languageOf path)).2 } ::
          workspace.answers } := by
  have settles := consistent.analyze stable sound.present path
  have kept := sound.set index settles.consistent
  refine ⟨kept.present, kept.consistent, kept.faithful, ?_⟩
  intro answer member
  rcases List.mem_cons.mp member with rfl | old
  · exact settles.answers
  · exact sound.answered answer old

theorem exists_faithful (sound : workspace.Sound project) {path : Path} (saved : workspace.isSaved path)
    (bytes : Bytes) (readable : workspace.fs.read path = .ok bytes) :
    ∃ state : SavedState, state.encode = bytes ∧ state.Faithful project workspace.moments := by
  rw [isSaved, readable] at saved
  obtain ⟨state, isState, same⟩ := List.any_eq_true.mp saved
  exact ⟨state, eq_of_beq same, sound.faithful state isState⟩

theorem call (sound : workspace.Sound project) (stable : Stable workspace.moments) {index : Nat}
    (consistent : coordinator.Consistent project workspace.moments) {call : Call}
    (called : workspace.call? project index coordinator call = some after) : after.Sound project := by
  cases call with
  | analyze path =>
    cases called
    exact sound.analyze stable index consistent path
  | detectDeleted seen =>
    cases called
    exact sound.set index (consistent.detectDeleted workspace.fs seen)
  | detectMoves =>
    cases called
    exact sound.set index consistent.detectMoves
  | invalidate path =>
    cases called
    exact sound.set index (consistent.invalidate path)
  | clear =>
    cases called
    exact sound.set index consistent.clear
  | saveState path =>
    cases called
    exact sound.saveState consistent path
  | loadState path =>
    simp only [call?] at called
    split at called
    case isTrue saved =>
      cases called
      exact sound.set index (consistent.loadState (sound.exists_faithful saved))
    case isFalse => cases called
  | setTime now =>
    cases called
    exact sound.set index
      ⟨consistent.patterns, consistent.layers, consistent.genuine, consistent.remembers⟩

/-- One action keeps the workspace sound. -/
theorem step (sound : workspace.Sound project) (stable : Stable workspace.moments) {action : Action}
    (stepped : workspace.step? project action = some after) : after.Sound project := by
  cases action with
  | edit fs =>
    cases stepped
    exact sound.edit fs
  | create options methods limits =>
    cases stepped
    refine ⟨sound.present, ?_, sound.faithful, sound.answered⟩
    intro coordinator member
    rcases List.mem_append.mp member with old | new
    · exact sound.consistent coordinator old
    · rw [List.mem_singleton.mp new]
      exact Coordinator.consistent_coordinator project _ options methods limits
  | share owner user =>
    obtain ⟨lender, isLender, stepped⟩ := Option.bind_eq_some_iff.mp stepped
    obtain ⟨borrower, isBorrower, stepped⟩ := Option.bind_eq_some_iff.mp stepped
    cases stepped
    have lending := sound.consistent lender (List.mem_of_getElem? isLender)
    have borrowing := sound.consistent borrower (List.mem_of_getElem? isBorrower)
    exact sound.set user
      ⟨borrowing.patterns, borrowing.layers, lending.genuine, borrowing.remembers⟩
  | call index call =>
    obtain ⟨coordinator, isCoordinator, called⟩ := Option.bind_eq_some_iff.mp stepped
    exact sound.call stable (sound.consistent coordinator (List.mem_of_getElem? isCoordinator)) called

end Sound

theorem moments_subset_call {index : Nat} {call : Call}
    (called : workspace.call? project index coordinator call = some after) :
    workspace.moments ⊆ after.moments := by
  cases call with
  | saveState path =>
    cases called
    exact List.subset_cons_self _ _
  | loadState path =>
    simp only [call?] at called
    split at called
    · cases called
      exact List.Subset.refl _
    · cases called
  | analyze | detectDeleted | detectMoves | invalidate | clear | setTime =>
    cases called
    exact List.Subset.refl _

theorem moments_subset_step {action : Action} (stepped : workspace.step? project action = some after) :
    workspace.moments ⊆ after.moments := by
  cases action with
  | edit fs =>
    cases stepped
    exact List.subset_cons_self _ _
  | create options methods limits =>
    cases stepped
    exact List.Subset.refl _
  | share owner user =>
    obtain ⟨lender, -, stepped⟩ := Option.bind_eq_some_iff.mp stepped
    obtain ⟨borrower, -, stepped⟩ := Option.bind_eq_some_iff.mp stepped
    cases stepped
    exact List.Subset.refl _
  | call index call =>
    obtain ⟨coordinator, -, called⟩ := Option.bind_eq_some_iff.mp stepped
    exact moments_subset_call called

theorem moments_subset_run {actions : List Action} (ran : workspace.run? project actions = some after) :
    workspace.moments ⊆ after.moments := by
  induction actions generalizing workspace with
  | nil =>
    cases ran
    exact List.Subset.refl _
  | cons action rest ih =>
    obtain ⟨next, stepped, ran⟩ := Option.bind_eq_some_iff.mp ran
    exact List.Subset.trans (moments_subset_step stepped) (ih ran)

/-- A whole run keeps the workspace sound, if stamps and digests tell contents apart in it. -/
theorem Sound.run (sound : workspace.Sound project) {actions : List Action}
    (ran : workspace.run? project actions = some after) (stable : Stable after.moments) :
    after.Sound project := by
  induction actions generalizing workspace with
  | nil =>
    cases ran
    exact sound
  | cons action rest ih =>
    have kept := moments_subset_run ran
    obtain ⟨next, stepped, ran⟩ := Option.bind_eq_some_iff.mp ran
    exact ih (sound.step (stable.mono kept) stepped) ran

/-- Every answer of a run holds the dependencies that extraction finds in the content which the file has
at that moment, whether or not they come from memory. -/
theorem answers_of_run (project : Project) (fs : FileSystem) (actions : List Action)
    (workspace : Workspace) (ran : run? project { fs } actions = some workspace)
    (stable : Stable workspace.moments) (answer : Answer) (given : answer ∈ workspace.answers)
    (analysis : Analysis) (succeeded : answer.outcome = .ok analysis) :
    ∃ content dependencies, answer.fs.readText answer.path = .ok content ∧
      extractAs project.patterns (project.languageOf answer.path) answer.path content project.layers =
        .ok dependencies ∧
      (analysis.dependencies == dependencies) = true := by
  have sound := (sound_begin project fs).run ran stable
  obtain ⟨content, readable, finds⟩ := sound.answered answer given analysis succeeded
  obtain ⟨dependencies, extracted, same⟩ := finds.extract
  exact ⟨content, dependencies, readable, extracted, same⟩

/-- A file system with one file in its root. -/
def oneFile (text : String) (seconds : Int) : FileSystem where
  nodes := [([], .directory), (["a.py"], .file text.toUTF8.toList { seconds })]
  current := []

theorem outcome_oneFile {text : String} {seconds : Int} {path : Path} {node : Node}
    (found : (oneFile text seconds).metadata path = .ok node) :
    (Stamp.ofNode node, ((oneFile text seconds).readText path).toOption) ∈
      [({}, none), (Stamp.ofNode (.file text.toUTF8.toList { seconds }),
        some (String.ofList (Text.Utf8.decodeLossy text.toUTF8.toList)))] := by
  unfold FileSystem.readText FileSystem.read
  rw [found]
  rcases FileSystem.mem_of_metadata found with rfl | ⟨location, member⟩
  · exact List.mem_cons_self
  · rcases List.mem_cons.mp member with same | rest
    · cases same
      exact List.mem_cons_self
    · cases List.mem_singleton.mp rest
      exact List.mem_cons_of_mem _ List.mem_cons_self

def pythonProject : Project where
  patterns := PatternStore.filled
  layers := LayerMask.all
  languageOf _ := .python
  languageOf_congr _ := rfl

/-- The file is rewritten one second later. -/
def editedMoments : List FileSystem := [oneFile "import numpy\n" 2, oneFile "import os\n" 1]

/-- The stamps and texts that a path can have before and after the edit. -/
def editedOutcomes : List (Stamp × Option String) :=
  [({}, none), ({ size := 10, seconds := 1 }, some "import os\n"),
    ({ size := 13, seconds := 2 }, some "import numpy\n")]

theorem mem_editedOutcomes {fs : FileSystem} (member : fs ∈ editedMoments) {path : Path} {node : Node}
    (found : fs.metadata path = .ok node) :
    (Stamp.ofNode node, (fs.readText path).toOption) ∈ editedOutcomes := by
  rcases List.mem_cons.mp member with rfl | rest
  · refine (show _ ⊆ editedOutcomes from ?_) (outcome_oneFile found)
    decide +kernel
  · cases List.mem_singleton.mp rest
    refine (show _ ⊆ editedOutcomes from ?_) (outcome_oneFile found)
    decide +kernel

theorem stable_editedMoments : Stable editedMoments where
  stamps first isFirst second isSecond path stamp stampedFirst stampedSecond := by
    have tells : ∀ a ∈ editedOutcomes, ∀ b ∈ editedOutcomes, a.1 = b.1 → a.2 = b.2 := by decide
    obtain ⟨node, foundFirst, rfl⟩ := exists_of_map_eq_ok stampedFirst
    obtain ⟨other, foundSecond, same⟩ := exists_of_map_eq_ok stampedSecond
    exact tells _ (mem_editedOutcomes isFirst foundFirst) _ (mem_editedOutcomes isSecond foundSecond)
      same.symm
  digests content other := by
    have tells : ∀ a ∈ editedOutcomes, ∀ b ∈ editedOutcomes,
        a.2.map Digest.ofString = b.2.map Digest.ofString → a.2 = b.2 := by decide +kernel
    rintro ⟨first, isFirst, path, readFirst⟩ ⟨second, isSecond, path', readSecond⟩ same
    obtain ⟨node, foundFirst⟩ := exists_metadata_of_readText readFirst
    obtain ⟨node', foundSecond⟩ := exists_metadata_of_readText readSecond
    have here := mem_editedOutcomes isFirst foundFirst
    have there := mem_editedOutcomes isSecond foundSecond
    rw [readFirst] at here
    rw [readSecond] at there
    exact Option.some.inj (tells _ here _ there (congrArg some same))

/-- The file is analysed before the edit, after it, and once more under another spelling. -/
def editedActions : List Action :=
  [.create {} {} (some (8, 1000)), .call 0 (.analyze ⟨"/a.py"⟩), .edit (oneFile "import numpy\n" 2),
    .call 0 (.analyze ⟨"/a.py"⟩), .call 0 (.analyze ⟨"/./a.py"⟩)]

theorem answers_of_run_edited : ∃ workspace answer analysis,
    run? pythonProject { fs := oneFile "import os\n" 1 } editedActions = some workspace ∧
    Stable workspace.moments ∧ answer ∈ workspace.answers ∧ answer.outcome = .ok analysis ∧
    analysis.reused = true ∧
    ∃ content dependencies, answer.fs.readText answer.path = .ok content ∧
      extractAs .filled .python answer.path content .all = .ok dependencies ∧
      (analysis.dependencies == dependencies) = true := by
  have moments : (run? pythonProject { fs := oneFile "import os\n" 1 } editedActions).map moments =
      some editedMoments := by rfl
  have last : ((run? pythonProject { fs := oneFile "import os\n" 1 } editedActions).bind
      (·.answers.head?)).any (·.outcome.toOption.any (·.reused)) := by decide +kernel
  obtain ⟨workspace, ran, isMoments⟩ := Option.map_eq_some_iff.mp moments
  rw [ran] at last
  obtain ⟨answer, isLast, isReused⟩ := (Option.any_eq_true _ _).mp last
  obtain ⟨analysis, isAnalysis, reused⟩ := (Option.any_eq_true _ _).mp isReused
  have stable : Stable workspace.moments := by
    rw [isMoments]
    exact stable_editedMoments
  have given : answer ∈ workspace.answers := List.mem_of_head? isLast
  have succeeded : answer.outcome = .ok analysis := eq_ok_of_toOption isAnalysis
  exact ⟨workspace, answer, analysis, ran, stable, given, succeeded, reused,
    answers_of_run pythonProject _ editedActions workspace ran stable answer given analysis succeeded⟩

end DepAtlas.Workspace
