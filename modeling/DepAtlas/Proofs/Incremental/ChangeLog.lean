import DepAtlas.Proofs.Incremental.Change

/-!
The recorded changes over whole runs. For each file they lead, one after the other, from its first result
to the one that is stored now, and to nothing once the file was reported to be gone.
-/

namespace DepAtlas

/-- A coordinator in use, with a record of the first result of each file and of the files that were
reported to be gone. -/
structure Logbook where
  coordinator : Coordinator
  firsts : Assoc Path (List Dependency) := []
  reported : List Path := []

namespace Logbook

open Dependency (keys)

/-- One use, with what it adds to the record. -/
def use (book : Logbook) : Use → Logbook
  | .analyze fs path language =>
    match book.coordinator.analyze fs path language with
    | (coordinator, .ok analysis) =>
      let firsts :=
        if book.firsts.has path then book.firsts else book.firsts.put path analysis.dependencies
      { book with coordinator, firsts }
    | (coordinator, .error _) => { book with coordinator }
  | .detectDeleted fs seen =>
    let (coordinator, paths) := book.coordinator.detectDeleted fs seen
    { book with coordinator, reported := book.reported ++ paths }
  | other => { book with coordinator := book.coordinator.use other }

def follow (book : Logbook) (uses : List Use) : Logbook :=
  uses.foldl use book

/-- Whether a use is an analysis of a file that has not been reported to be gone, a search for deleted
files, or the passing of time. -/
def admits (book : Logbook) : Use → Bool
  | .analyze _ path _ => !book.reported.any (· == path)
  | .detectDeleted .. | .setTime _ => true
  | _ => false

def admitsAll (book : Logbook) : List Use → Bool
  | [] => true
  | use :: uses => book.admits use && (book.use use).admitsAll uses

/-- The changes agree with the results: replayed from the first result of a file they give the stored one,
which is there from the first analysis on until the file is reported to be gone. -/
structure Agrees (book : Logbook) : Prop where
  replays : ∀ path, (book.coordinator.changes.filter (·.path == path)).foldl DependencyChange.replay
      (keys ((book.firsts.get? path).getD [])) = keys ((book.coordinator.resultOf? path).getD [])
  stored : ∀ path, (book.coordinator.resultOf? path).isSome =
    (book.firsts.has path && !book.reported.any (· == path))
  recorded : ∀ change ∈ book.coordinator.changes, book.firsts.has change.path = true ∧ change.Telling

variable {book : Logbook} {after : Coordinator} {path : Path}

theorem resultOf?_congr {other : Path} (same : (path == other) = true) :
    book.coordinator.resultOf? path = book.coordinator.resultOf? other :=
  Assoc.get?_congr same _

theorem coordinator_use (book : Logbook) (use : Use) :
    (book.use use).coordinator = book.coordinator.use use := by
  cases use with
  | analyze fs path language =>
    simp only [Logbook.use, Coordinator.use]
    split
    case h_1 isOutcome => rw [isOutcome]
    case h_2 isOutcome => rw [isOutcome]
  | _ => rfl

theorem coordinator_follow (book : Logbook) (uses : List Use) :
    (book.follow uses).coordinator = book.coordinator.afterUses uses := by
  induction uses generalizing book with
  | nil => rfl
  | cons use uses ih =>
    have rest := ih (book.use use)
    rw [coordinator_use] at rest
    exact rest

theorem agrees_begin (patterns : PatternStore) (options : IncrementalOptions) (methods : MethodTable)
    (files : Option FileCache) :
    Agrees { coordinator := { patterns, options, methods, files } } where
  replays _ := rfl
  stored _ := rfl
  recorded _ member := nomatch member

namespace Agrees

theorem has_of_isSome (agrees : book.Agrees) {dependencies : List Dependency}
    (isResult : book.coordinator.resultOf? path = some dependencies) : book.firsts.has path = true := by
  have stored := agrees.stored path
  rw [isResult, Option.isSome_some, eq_comm, Bool.and_eq_true] at stored
  exact stored.1

/-- A result that is replaced or dropped leaves the log in step with the results. -/
theorem replays_renewed (agrees : book.Agrees) {next : Option (List Dependency)}
    (results : ∀ other, after.resultOf? other =
      if path == other then next else book.coordinator.resultOf? other)
    (changes : after.changes =
      book.coordinator.changes ++ (book.coordinator.recorded? path (next.getD [])).toList)
    (continued : book.coordinator.resultOf? path = none → next = none) (other : Path) :
    (after.changes.filter (·.path == other)).foldl DependencyChange.replay
        (keys ((book.firsts.get? other).getD [])) = keys ((after.resultOf? other).getD []) := by
  rw [changes, List.filter_append, List.foldl_append, agrees.replays, results,
    Coordinator.filter_recorded?]
  by_cases here : (path == other) = true
  · rw [if_pos here, if_pos here, ← resultOf?_congr here]
    cases isResult : book.coordinator.resultOf? path with
    | some previous => exact Coordinator.foldl_replay_recorded? isResult _
    | none =>
      rw [Coordinator.recorded?_of_none isResult, continued isResult]
      rfl
  · rw [if_neg here, if_neg here]
    rfl

theorem recorded_renewed (agrees : book.Agrees) {current : List Dependency}
    (changes : after.changes =
      book.coordinator.changes ++ (book.coordinator.recorded? path current).toList) :
    ∀ change ∈ after.changes, book.firsts.has change.path = true ∧ change.Telling := by
  intro change member
  rw [changes] at member
  rcases List.mem_append.mp member with old | new
  · exact agrees.recorded change old
  · obtain ⟨isResult, isPath, -, telling⟩ :=
      Coordinator.of_recorded? (Option.mem_toList.mp new)
    rw [isPath]
    exact ⟨agrees.has_of_isSome isResult, telling⟩

theorem filter_eq_nil (agrees : book.Agrees) (unseen : book.firsts.has path = false) {other : Path}
    (here : (path == other) = true) :
    book.coordinator.changes.filter (·.path == other) = [] := by
  -- A change is only recorded of a file that has had a result.
  refine List.filter_eq_nil_iff.mpr fun change member same => ?_
  have begun := (agrees.recorded change member).1
  rw [Assoc.has_congr (BEq.trans same (BEq.symm here)), unseen] at begun
  cases begun

/-- A file that already has its first result gets another one. -/
theorem continued (agrees : book.Agrees) {analysis : Analysis} (begun : book.firsts.has path = true)
    (known : book.reported.any (· == path) = false)
    (renews : book.coordinator.Renews path after analysis) :
    Agrees { book with coordinator := after } := by
  have isSome := agrees.stored path
  rw [begun, known] at isSome
  refine ⟨agrees.replays_renewed renews.results renews.changes fun absent => ?_, fun other => ?_,
    agrees.recorded_renewed renews.changes⟩
  · rw [absent] at isSome
    cases isSome
  · dsimp only
    rw [renews.results]
    have stored := agrees.stored other
    split
    case isTrue here =>
      rw [← resultOf?_congr here, isSome] at stored
      exact stored
    case isFalse => exact stored

/-- A file gets its first result, from which nothing has been recorded yet. -/
theorem begun (agrees : book.Agrees) {analysis : Analysis} (unseen : book.firsts.has path = false)
    (known : book.reported.any (· == path) = false)
    (renews : book.coordinator.Renews path after analysis) :
    Agrees { book with
      coordinator := after
      firsts := book.firsts.put path analysis.dependencies } := by
  have absent : book.coordinator.resultOf? path = none := by
    have stored := agrees.stored path
    rw [unseen, Bool.false_and] at stored
    exact Option.isSome_eq_false_iff.mp stored |> Option.isNone_iff_eq_none.mp
  have changes := renews.changes
  rw [Coordinator.recorded?_of_none absent, Option.toList_none, List.append_nil] at changes
  refine ⟨fun other => ?_, fun other => ?_, fun change member => ?_⟩
  · dsimp only
    rw [renews.results, Assoc.get?_put, changes]
    by_cases here : (path == other) = true
    · rw [if_pos here, if_pos here, agrees.filter_eq_nil unseen here]
      rfl
    · rw [if_neg here, if_neg here]
      exact agrees.replays other
  · dsimp only
    rw [renews.results, Assoc.has_put]
    by_cases here : (path == other) = true
    · simp only [BEq.congr_right here] at known
      rw [if_pos here, here, known]
      rfl
    · rw [if_neg here, eq_false_of_ne_true here, Bool.false_or]
      exact agrees.stored other
  · rw [changes] at member
    obtain ⟨isFirst, telling⟩ := agrees.recorded change member
    refine ⟨?_, telling⟩
    dsimp only
    rw [Assoc.has_put, isFirst, Bool.or_true]

theorem answered (agrees : book.Agrees) {fs : FileSystem} {language : Language} {analysis : Analysis}
    (known : book.reported.any (· == path) = false)
    (answered : book.coordinator.analyze fs path language = (after, .ok analysis)) :
    Agrees { book with
      coordinator := after
      firsts := if book.firsts.has path then book.firsts
        else book.firsts.put path analysis.dependencies } := by
  have renews := Coordinator.renews_analyze answered
  cases isFirst : book.firsts.has path with
  | true => exact agrees.continued isFirst known renews
  | false => exact agrees.begun isFirst known renews

theorem failed (agrees : book.Agrees) {fs : FileSystem} {language : Language} {cause : Failure}
    (failed : book.coordinator.analyze fs path language = (after, .error cause)) :
    Agrees { book with coordinator := after } := by
  obtain ⟨results, changes⟩ := Coordinator.unrecorded_analyze failed
  refine ⟨fun other => ?_, fun other => ?_, ?_⟩
  · rw [changes, Coordinator.resultOf?, results]
    exact agrees.replays other
  · rw [Coordinator.resultOf?, results]
    exact agrees.stored other
  · rw [changes]
    exact agrees.recorded

theorem forget (agrees : book.Agrees) (fingerprint : Fingerprint) :
    Agrees { book with
      coordinator := book.coordinator.forget fingerprint
      reported := book.reported ++ [fingerprint.path] } := by
  have results := book.coordinator.resultOf?_forget fingerprint
  have changes := book.coordinator.changes_forget fingerprint
  refine ⟨agrees.replays_renewed results changes fun _ => rfl, fun other => ?_,
    agrees.recorded_renewed changes⟩
  dsimp only
  rw [results, List.any_append, List.any_cons, List.any_nil, Bool.or_false]
  by_cases here : (fingerprint.path == other) = true
  · simp [here]
  · rw [if_neg here, eq_false_of_ne_true here, Bool.or_false]
    exact agrees.stored other

theorem foldl_forget (agrees : book.Agrees) (gone : List Fingerprint) :
    Agrees { book with
      coordinator := gone.foldl Coordinator.forget book.coordinator
      reported := book.reported ++ gone.map (·.path) } := by
  induction gone generalizing book with
  | nil => simpa using agrees
  | cons fingerprint gone ih => simpa using ih (agrees.forget fingerprint)

theorem use (agrees : book.Agrees) {use : Use} (admitted : book.admits use = true) :
    (book.use use).Agrees := by
  cases use with
  | analyze fs path language =>
    rw [Logbook.use]
    split
    case h_1 isAnswer =>
      rw [Logbook.admits, Bool.not_eq_true'] at admitted
      exact agrees.answered admitted isAnswer
    case h_2 hasFailed => exact agrees.failed hasFailed
  | detectDeleted fs seen =>
    let gone := book.coordinator.goneFiles fs seen
    let untracked : Logbook := { book with
      coordinator := { book.coordinator with
        store := gone.foldl (fun store fingerprint => Assoc.erase fingerprint.path store)
          book.coordinator.store } }
    have begun : untracked.Agrees := ⟨agrees.replays, agrees.stored, agrees.recorded⟩
    exact begun.foldl_forget gone
  | setTime now => exact ⟨agrees.replays, agrees.stored, agrees.recorded⟩
  | detectMoves | takeChanges | invalidate | clear | loadState | share => cases admitted

theorem follow (agrees : book.Agrees) {uses : List Use} (admitted : book.admitsAll uses = true) :
    (book.follow uses).Agrees := by
  induction uses generalizing book with
  | nil => exact agrees
  | cons use uses ih =>
    obtain ⟨first, rest⟩ := Bool.and_eq_true_iff.mp admitted
    exact ih (agrees.use first) rest

end Agrees

/-- As long as no file is analysed again that was reported to be gone, the recorded changes agree with the
results, and an analysis is marked as a change exactly when it records one: from the stored result to its
own. -/
theorem changes_agree (patterns : PatternStore) (options : IncrementalOptions) (methods : MethodTable)
    (files : Option FileCache) (uses : List Use)
    (admitted : admitsAll { coordinator := { patterns, options, methods, files } } uses = true) :
    let book : Logbook := follow { coordinator := { patterns, options, methods, files } } uses
    book.coordinator = Coordinator.afterUses { patterns, options, methods, files } uses ∧
    book.Agrees ∧
    ∀ {fs path language after analysis},
      book.coordinator.analyze fs path language = (after, .ok analysis) →
      ∃ recorded : Option DependencyChange,
        after.changes = book.coordinator.changes ++ recorded.toList ∧
        analysis.changed = recorded.isSome ∧
        ∀ change ∈ recorded, change.path = path ∧ change.current = analysis.dependencies ∧
          book.coordinator.resultOf? path = some change.previous ∧ change.Telling := by
  intro book
  refine ⟨coordinator_follow _ uses, (agrees_begin patterns options methods files).follow admitted, ?_⟩
  intro fs path language after analysis answered
  obtain ⟨-, changes, changed⟩ := Coordinator.renews_analyze answered
  refine ⟨_, changes, changed, fun change isRecorded => ?_⟩
  obtain ⟨isResult, isPath, isCurrent, telling⟩ := Coordinator.of_recorded? isRecorded
  exact ⟨isPath, isCurrent, isResult, telling⟩

/-- Two files, one of them with this text. -/
def beside (text : String) (seconds : Int) : FileSystem where
  nodes := [([], .directory), (["a.rs"], .file text.toUTF8.toList { seconds }),
    (["b.rs"], .file "fn b() {}\n".toUTF8.toList {})]
  current := []

/-- Only the other file is left. -/
def alone : FileSystem where
  nodes := [([], .directory), (["b.rs"], .file "fn b() {}\n".toUTF8.toList {})]
  current := []

/-- A file is analysed, gets another import in place of its own, is shifted by a line, and is gone in the
end; another one is analysed after that. -/
def comings : List Use := [
  .analyze (beside "use a;\n" 1) ⟨"a.rs"⟩ .rust, .analyze (beside "use b;\n" 2) ⟨"a.rs"⟩ .rust,
  .analyze (beside "\nuse b;\n" 3) ⟨"a.rs"⟩ .rust, .detectDeleted alone [],
  .analyze alone ⟨"b.rs"⟩ .rust]

theorem changes_agree_comings :
    let begun : Logbook := { coordinator := { patterns := .filled, options := { layers := ⟨1⟩ } } }
    let book := begun.follow comings
    begun.admitsAll comings = true ∧ book.Agrees ∧ book.reported.map (·.text) = ["a.rs"] ∧
      book.coordinator.changes.map (fun change => (change.added, change.removed)) =
        [(["module:b"], ["module:a"]), ([], ["module:b"])] := by
  intro begun book
  have course : (begun.admitsAll comings, book.reported.map (·.text),
      book.coordinator.changes.map fun change => (change.added, change.removed)) =
      (true, ["a.rs"], [(["module:b"], ["module:a"]), ([], ["module:b"])]) := by
    decide +kernel
  obtain ⟨admitted, isReported, isChanges⟩ := Prod.mk.inj course |>.imp_right Prod.mk.inj
  have agrees := changes_agree .filled { layers := ⟨1⟩ } {} none comings admitted
  exact ⟨admitted, agrees.2.1, isReported, isChanges⟩

end Logbook

end DepAtlas
