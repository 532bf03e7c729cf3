import DepAtlas.Crawl
import DepAtlas.Proofs.Incremental.Footprint
import DepAtlas.Proofs.Walk.Levels

/-!
What a walk finds once a file was put in its place. Names aside and new directories are passed on the way
without a trace, and every other entry is visited as before, so that two walks enter the same directories
and yield the same files of known languages.
-/

namespace DepAtlas

open FileSystem (Footprint IsName Undisturbed)

namespace Walk

variable {context : Context} {fs after : FileSystem} {goal place : Location} {root path directory : Path}
  {name : String} {node : Node} {depth levels : Nat} {state state' : WalkState}
  {descend descend' : Path → WalkState → Except ScanError WalkState}

/-- Whether a file is one of a known language other than the file at some place. -/
def counts (fs : FileSystem) (goal : Location) (path : Path) : Bool :=
  (Language.ofPath? path).isSome && (fs.canonical path).toOption != some goal

/-- The directories that were entered, and the files that count. -/
def view (fs : FileSystem) (goal : Location) (state : WalkState) : List Location × List Path :=
  (state.visited, state.output.files.filter (counts fs goal))

theorem counts_of_resolve (resolved : fs.resolve path = .ok (place, node)) :
    counts fs goal path = ((Language.ofPath? path).isSome && place != goal) := by
  rw [counts, FileSystem.canonical, resolved]
  rfl

theorem view_considerFile_eq {size : Nat} (silent : counts context.fs goal path = false) :
    view context.fs goal (considerFile context path size state) = view context.fs goal state := by
  unfold considerFile
  split
  · rfl
  · simp [view, silent]

/-- What was done changed nothing that counts. -/
def Idle (fs : FileSystem) (goal : Location) (state : WalkState)
    (outcome : Except ScanError WalkState) : Prop :=
  ∃ next, outcome = .ok next ∧ view fs goal next = view fs goal state

/-- Places without links at which nothing that counts is found, on all ways down. -/
structure Barren (fs : FileSystem) (goal : Location) (region : Location → Prop) : Prop where
  plain : ∀ {location node}, region location → fs.nodeAt? location = some node → node.isLink = false
  file : ∀ {place name content time}, region (place ++ [name]) →
    fs.nodeAt? (place ++ [name]) = some (.file content time) → place ++ [name] = goal ∨ Aside name
  below : ∀ {location}, region location → fs.nodeAt? location = some .directory →
    ∀ name, region (location ++ [name])

theorem visitEntries_idle {paths : List Path}
    (idle : ∀ path ∈ paths, ∀ state,
      Idle context.fs goal state (visitEntry context root depth descend path state)) (state : WalkState) :
    Idle context.fs goal state (visitEntries context root depth descend paths state) := by
  induction paths generalizing state with
  | nil => exact ⟨state, rfl, rfl⟩
  | cons path rest ih =>
    obtain ⟨next, visited, same⟩ := idle path List.mem_cons_self state
    obtain ⟨last, others, same'⟩ :=
      ih (fun path member => idle path (List.mem_cons_of_mem _ member)) next
    refine ⟨last, ?_, same'.trans same⟩
    rw [visitEntries, visited]
    exact others

/-- An entry that is no directory and tells no language. -/
theorem visitEntry_aside_idle (running : context.token.isCancelled = false)
    (unknown : Language.ofPath? path = none) (noDirectory : context.fs.isDirectory path = false)
    (state : WalkState) :
    Idle context.fs goal state (visitEntry context root depth descend path state) := by
  unfold visitEntry
  rw [running]
  dsimp only
  rw [if_neg Bool.false_ne_true]
  split
  · exact ⟨_, rfl, rfl⟩
  split
  · exact ⟨_, rfl, rfl⟩
  split
  · exact ⟨_, rfl, rfl⟩
  rw [FileSystem.isDirectory] at noDirectory
  split
  · exact ⟨_, rfl, rfl⟩
  case h_2 isDirectory =>
    rw [isDirectory] at noDirectory
    cases noDirectory
  case h_3 => exact ⟨_, rfl, view_considerFile_eq (by rw [counts, unknown]; rfl)⟩
  case h_4 => exact ⟨_, rfl, rfl⟩

section Idle

variable {region : Location → Prop} (tree : context.fs.IsTree) (running : context.token.isCancelled = false)
  (barren : Barren context.fs goal region)
include tree running barren

theorem visitEntry_idle (resolved : context.fs.resolve directory = .ok (place, .directory))
    (found : context.fs.nodeAt? (place ++ [name]) = some node) (inside : region (place ++ [name]))
    (descends : ∀ state, context.fs.resolve (directory.join ⟨name⟩) = .ok (place ++ [name], .directory) →
      Idle context.fs goal state (descend (directory.join ⟨name⟩) state)) (state : WalkState) :
    Idle context.fs goal state
      (visitEntry context root depth descend (directory.join ⟨name⟩) state) := by
  unfold visitEntry
  rw [running]
  dsimp only
  rw [if_neg Bool.false_ne_true]
  split
  · exact ⟨_, rfl, rfl⟩
  split
  · exact ⟨_, rfl, rfl⟩
  split
  · exact ⟨_, rfl, rfl⟩
  cases usable : (directory.join ⟨name⟩).isUsable with
  | false =>
    obtain ⟨failure, fails⟩ := exists_metadata_error usable
    rw [fails]
    exact ⟨_, rfl, rfl⟩
  | true =>
    have plain := barren.plain inside found
    have reached := resolve_join tree resolved found usable plain
    rw [isLink_join tree resolved found usable, plain, FileSystem.metadata, reached]
    cases node with
    | directory =>
      dsimp only [Except.map]
      split
      · exact ⟨_, rfl, rfl⟩
      · exact descends state reached
    | file content time =>
      refine ⟨_, rfl, view_considerFile_eq ?_⟩
      rw [counts_of_resolve reached]
      rcases barren.file inside found with here | aside
      · rw [here, bne_self_eq_false, Bool.and_false]
      · have named := Path.fileName?_join (FileSystem.isEmpty_of_resolve resolved) (tree.named found).1
        rw [aside _ named]
        rfl
    | link target => cases plain
    | device => exact ⟨_, rfl, rfl⟩

theorem walkDirectory_idle (resolved : context.fs.resolve directory = .ok (place, .directory))
    (inside : ∀ name, region (place ++ [name])) (state : WalkState) :
    Idle context.fs goal state (walkDirectory context root levels depth directory state) := by
  induction levels generalizing depth directory place state with
  | zero => exact ⟨state, rfl, rfl⟩
  | succ levels ih =>
    rw [walkDirectory, entriesOf_eq resolved]
    refine visitEntries_idle (fun path member => ?_) state
    obtain ⟨name, node, rfl, found⟩ := exists_of_mem_entries tree member
    refine visitEntry_idle tree running barren resolved found (inside name) fun state reached => ?_
    have stands := FileSystem.nodeAt?_of_resolve tree reached
    exact ih reached (barren.below (inside name) stands) state

theorem visitEntry_walkDirectory_idle (resolved : context.fs.resolve directory = .ok (place, .directory))
    (found : context.fs.nodeAt? (place ++ [name]) = some node) (inside : region (place ++ [name]))
    (state : WalkState) :
    Idle context.fs goal state (visitEntry context root depth
      (walkDirectory context root levels (depth + 1)) (directory.join ⟨name⟩) state) := by
  refine visitEntry_idle tree running barren resolved found inside (fun state reached => ?_) state
  have stands := FileSystem.nodeAt?_of_resolve tree reached
  exact walkDirectory_idle tree running barren reached (barren.below inside stands) state

end Idle

section Regions

variable (footprint : Footprint fs after goal)
include footprint

/-- What is new is barren. -/
theorem barren_new : Barren after goal fun location => fs.nodeAt? location = none ∨ location = goal where
  plain {location node} inside found := by
    refine eq_false_of_ne_true fun isLink => ?_
    cases node with
    | link target =>
      have before := footprint.retains.links found
      rcases inside with absent | rfl
      · cases absent.symm.trans before
      · cases footprint.goal_leaf before
    | file | directory | device => cases isLink
  file {place name content time} inside found := by
    cases footprint.change (place ++ [name]) with
    | same kept =>
      rcases inside with absent | here
      · cases (kept.trans absent).symm.trans found
      · exact .inl here
    | goal here => exact .inl here
    | directory _ made => cases made.symm.trans found
    | added isPlace aside =>
      cases (List.append_inj' isPlace rfl).2
      exact .inr aside
    | removed _ _ gone => cases gone.symm.trans found
  below {location} inside found name := by
    rcases inside with absent | rfl
    · refine .inl (Option.eq_none_iff_forall_ne_some.mpr fun node stored => ?_)
      cases absent.symm.trans (footprint.tree.directory_of_append (List.cons_ne_nil _ _) stored)
    · obtain ⟨content, time, placed⟩ := footprint.placed
      cases placed.symm.trans found

/-- What is gone is barren. -/
theorem barren_gone : Barren fs goal fun location => after.nodeAt? location = none ∨ location = goal where
  plain {location node} inside found := by
    refine eq_false_of_ne_true fun isLink => ?_
    rcases inside with gone | rfl
    · have stays := footprint.retains.ways found (by rw [isLink, Bool.or_true])
      cases gone.symm.trans stays
    · have leaf := footprint.goal_leaf found
      rw [isLink, Bool.or_true] at leaf
      cases leaf
  file {place name content time} inside found := by
    rcases inside with gone | here
    · cases footprint.change (place ++ [name]) with
      | same kept => cases (kept.symm.trans gone).symm.trans found
      | goal here => exact .inl here
      | directory absent => cases absent.symm.trans found
      | added _ _ absent => cases absent.symm.trans found
      | removed isPlace aside =>
        cases (List.append_inj' isPlace rfl).2
        exact .inr aside
    · exact .inl here
  below {location} inside found name := by
    rcases inside with gone | rfl
    · cases gone.symm.trans (footprint.retains.ways found rfl)
    · cases footprint.goal_leaf found

end Regions

/-- The walk of another file system. -/
def Context.on (context : Context) (after : FileSystem) : Context :=
  { context with fs := after }

@[simp] theorem Context.on_fs : (context.on after).fs = after := rfl

@[simp] theorem Context.on_options : (context.on after).options = context.options := rfl

@[simp] theorem Context.on_excludes : (context.on after).excludes = context.excludes := rfl

@[simp] theorem Context.on_token : (context.on after).token = context.token := rfl

@[simp] theorem descends_on : descends (context.on after) name depth = descends context name depth := rfl

/-- What a path leads to before and after a file was put in its place. -/
inductive Matches (fs after : FileSystem) (goal : Location) (path : Path) : Prop
  | nowhere {failure failure' : IoFailure} (before : fs.resolve path = .error failure)
      (now : after.resolve path = .error failure')
  | same {location : Location} {node : Node} (apart : location ≠ goal)
      (before : fs.resolve path = .ok (location, node)) (now : after.resolve path = .ok (location, node))
  | goal {node : Node} {content : Bytes} {time : Time} (leaf : node.isDirectory = false)
      (before : fs.resolve path = .ok (goal, node))
      (now : after.resolve path = .ok (goal, .file content time))

/-- A path that tells no language, and leads to no directory. -/
structure Passing (fs after : FileSystem) (path : Path) : Prop where
  unknown : Language.ofPath? path = none
  before : fs.isDirectory path = false
  now : after.isDirectory path = false

/-- Two walks succeed, and do the same as far as it counts. -/
def Alike (fs after : FileSystem) (goal : Location) (outcome outcome' : Except ScanError WalkState) :
    Prop :=
  ∃ state state', outcome = .ok state ∧ outcome' = .ok state' ∧
    view after goal state' = view fs goal state

theorem Alike.ite {outcome outcome' other other' : Except ScanError WalkState} {condition : Prop}
    [Decidable condition] (first : condition → Alike fs after goal outcome outcome')
    (second : ¬ condition → Alike fs after goal other other') :
    Alike fs after goal (if condition then outcome else other)
      (if condition then outcome' else other') := by
  split
  case isTrue holds => exact first holds
  case isFalse fails => exact second fails

theorem view_considerFile {location : Location} (same : view after goal state' = view context.fs goal state)
    (before : context.fs.resolve path = .ok (location, node)) (now : after.resolve path = .ok (location, node))
    (size : Nat) :
    view after goal (considerFile (context.on after) path size state') =
      view context.fs goal (considerFile context path size state) := by
  have agree : counts after goal path = counts context.fs goal path := by
    rw [counts_of_resolve before, counts_of_resolve now]
  obtain ⟨entered, yielded⟩ := Prod.ext_iff.mp same
  unfold considerFile Context.on
  dsimp only
  split
  · exact same
  · refine Prod.ext entered ?_
    simp only [view, List.filter_append, List.filter_cons, List.filter_nil, agree]
    exact congrArg (· ++ _) yielded

/-- A path that leads to something before and after. -/
theorem matches_of_exists (footprint : Footprint fs after goal) {found : Location × Node}
    (resolved : fs.resolve path = .ok found) (there : after.exists? path = true) :
    Matches fs after goal path := by
  obtain ⟨location, node⟩ := found
  obtain ⟨stored, now, same, isFile⟩ := footprint.resolve resolved there
  by_cases here : location = goal
  · subst here
    have leaf := footprint.goal_leaf (FileSystem.nodeAt?_of_resolve footprint.tree resolved)
    cases stored with
    | file content time => exact .goal (Bool.or_eq_false_iff.mp leaf).1 resolved now
    | directory | link | device => cases isFile rfl
  · cases same here
    exact .same here resolved now

theorem enterLink_alike (same : view after goal state' = view context.fs goal state)
    {location : Location} (before : context.fs.resolve path = .ok (location, node))
    (now : after.resolve path = .ok (location, node)) :
    (enterLink? context path state = none ∧ enterLink? (context.on after) path state' = none) ∨
      ∃ next next', enterLink? context path state = some next ∧
        enterLink? (context.on after) path state' = some next' ∧
        view after goal next' = view context.fs goal next := by
  obtain ⟨entered, yielded⟩ := Prod.ext_iff.mp same
  have entered : state'.visited = state.visited := entered
  have canonical : context.fs.canonical path = .ok location := by rw [FileSystem.canonical, before]; rfl
  have canonical' : (context.on after).fs.canonical path = .ok location := by
    rw [Context.on, FileSystem.canonical, now]
    rfl
  rw [enterLink?, enterLink?, canonical, canonical']
  dsimp only
  rw [entered]
  split
  · exact .inl ⟨rfl, rfl⟩
  · exact .inr ⟨_, _, rfl, rfl, Prod.ext rfl yielded⟩

/-- Entries that lead to the same are visited alike. -/
theorem visitEntry_alike (running : context.token.isCancelled = false)
    (same : view after goal state' = view context.fs goal state)
    (isSame : isLink (context.on after) path = isLink context path)
    (leads : Matches context.fs after goal path)
    (descends : ∀ {location state state'}, context.fs.resolve path = .ok (location, .directory) →
      after.resolve path = .ok (location, .directory) →
      view after goal state' = view context.fs goal state →
      Alike context.fs after goal (descend path state) (descend' path state')) :
    Alike context.fs after goal (visitEntry context root depth descend path state)
      (visitEntry (context.on after) root depth descend' path state') := by
  rw [visitEntry, visitEntry, isSame]
  simp only [Context.on_fs, Context.on_options, Context.on_excludes, Context.on_token, descends_on, running,
    Bool.false_eq_true, if_false]
  have quiet : Alike context.fs after goal (.ok state) (.ok state') := ⟨_, _, rfl, rfl, same⟩
  refine .ite (fun _ => quiet) fun _ => .ite (fun _ => ⟨_, _, rfl, rfl, same⟩) fun _ =>
    .ite (fun _ => quiet) fun _ => ?_
  rw [FileSystem.metadata, FileSystem.metadata]
  cases leads with
  | nowhere before now =>
    rw [before, now]
    exact ⟨_, _, rfl, rfl, same⟩
  | @same location node apart before now =>
    rw [before, now]
    cases node with
    | directory =>
      refine .ite (fun _ => quiet) fun _ => .ite (fun _ => ?_) fun _ => descends before now same
      rcases enterLink_alike same before now with ⟨fails, fails'⟩ | ⟨next, next', enters, enters', same⟩
      · rw [fails, fails']
        exact quiet
      · rw [enters, enters']
        exact descends before now same
    | file content time => exact ⟨_, _, rfl, rfl, view_considerFile same before now _⟩
    | link | device => exact quiet
  | @goal node content time leaf before now =>
    have silent : counts context.fs goal path = false := by
      rw [counts_of_resolve before, bne_self_eq_false, Bool.and_false]
    have silent' : counts (context.on after).fs goal path = false := by
      rw [Context.on_fs, counts_of_resolve now, bne_self_eq_false, Bool.and_false]
    have after' : view after goal (considerFile (context.on after) path content.length state') =
        view context.fs goal state := (view_considerFile_eq silent').trans same
    rw [before, now]
    cases node with
    | directory => cases leaf
    | file => exact ⟨_, _, rfl, rfl, after'.trans (view_considerFile_eq silent).symm⟩
    | link | device => exact ⟨_, _, rfl, rfl, after'⟩

theorem visitEntry_passing (running : context.token.isCancelled = false)
    (same : view after goal state' = view context.fs goal state) (passing : Passing context.fs after path) :
    Alike context.fs after goal (visitEntry context root depth descend path state)
      (visitEntry (context.on after) root depth descend' path state') := by
  obtain ⟨next, visited, unchanged⟩ := visitEntry_aside_idle running passing.unknown passing.before state
  have runningAfter : (context.on after).token.isCancelled = false := running
  obtain ⟨next', visited', unchanged'⟩ :=
    visitEntry_aside_idle runningAfter passing.unknown passing.now state'
  exact ⟨next, next', visited, visited', unchanged'.trans (same.trans unchanged.symm)⟩

theorem visitEntries_append (first second : List Path) (state : WalkState) :
    visitEntries context root depth descend (first ++ second) state =
      (visitEntries context root depth descend first state).bind
        (visitEntries context root depth descend second) := by
  induction first generalizing state with
  | nil => rfl
  | cons path rest ih =>
    rw [List.cons_append, visitEntries, visitEntries]
    cases visitEntry context root depth descend path state with
    | error cause => rfl
    | ok next => exact ih next

/-- Entries that are visited alike, with idle ones between them. -/
theorem visitEntries_alike {paths paths' : List Path} {kept : Path → Bool}
    (agree : paths.filter kept = paths'.filter kept)
    (same : view after goal state' = view context.fs goal state)
    (alike : ∀ path ∈ paths, kept path = true → ∀ {state state'},
      view after goal state' = view context.fs goal state →
      Alike context.fs after goal (visitEntry context root depth descend path state)
        (visitEntry (context.on after) root depth descend' path state'))
    (idle : ∀ path ∈ paths, kept path = false → ∀ state,
      Idle context.fs goal state (visitEntry context root depth descend path state))
    (idle' : ∀ path ∈ paths', kept path = false → ∀ state,
      Idle after goal state (visitEntry (context.on after) root depth descend' path state)) :
    Alike context.fs after goal (visitEntries context root depth descend paths state)
      (visitEntries (context.on after) root depth descend' paths' state') := by
  induction paths generalizing paths' state state' with
  | nil =>
    have quiet (path : Path) (member : path ∈ paths') : kept path = false :=
      eq_false_of_ne_true (List.filter_eq_nil_iff.mp agree.symm path member)
    obtain ⟨last, visited, unchanged⟩ := visitEntries_idle
      (fun path member => idle' path member (quiet path member)) state'
    exact ⟨state, last, rfl, visited, unchanged.trans same⟩
  | cons path rest ih =>
    have alikeRest := fun path member => alike path (List.mem_cons_of_mem _ member)
    have idleRest := fun path member => idle path (List.mem_cons_of_mem _ member)
    cases isKept : kept path with
    | false =>
      obtain ⟨next, visited, unchanged⟩ := idle path List.mem_cons_self isKept state
      rw [List.filter_cons_of_neg (by simp [isKept])] at agree
      rw [visitEntries, visited]
      exact ih agree (same.trans unchanged.symm) alikeRest idleRest idle'
    | true =>
      rw [List.filter_cons_of_pos isKept] at agree
      obtain ⟨quiet, others, rfl, silent, -, agree⟩ := List.filter_eq_cons_iff.mp agree.symm
      obtain ⟨next', visited', unchanged⟩ := visitEntries_idle
        (fun path member => idle' path (List.mem_append_left _ member)
          (eq_false_of_ne_true (silent path member))) state'
      obtain ⟨next, last', visited, visitedToo, same⟩ :=
        alike path List.mem_cons_self isKept (unchanged.trans same)
      rw [visitEntries_append, visited', visitEntries, visited]
      simp only [Except.bind, visitEntries, visitedToo]
      refine ih agree.symm same alikeRest idleRest fun path member => ?_
      exact idle' path (List.mem_append_right _ (List.mem_cons_of_mem _ member))

/-- Whether an entry of a directory is there before and after, and not the file that was put there. -/
def stays (fs after : FileSystem) (goal place : Location) (path : Path) : Bool :=
  let location := place ++ [path.fileName?.getD ""]
  (fs.nodeAt? location).isSome && (after.nodeAt? location).isSome && location != goal

theorem stays_join (resolved : fs.resolve directory = .ok (place, .directory)) (isName : IsName name) :
    stays fs after goal place (directory.join ⟨name⟩) = true ↔
      (∃ node, fs.nodeAt? (place ++ [name]) = some node) ∧
        (∃ node, after.nodeAt? (place ++ [name]) = some node) ∧ place ++ [name] ≠ goal := by
  rw [stays, Path.fileName?_join (FileSystem.isEmpty_of_resolve resolved) isName]
  simp [Option.isSome_iff_exists, and_assoc]

theorem walkRoot_of_file {location : Location} {content : Bytes} {time : Time}
    (resolved : context.fs.resolve root = .ok (location, .file content time)) :
    walkRoot context state root = .ok (considerFile context root content.length state) := by
  rw [walkRoot, FileSystem.metadata, resolved]
  rfl

/-- A directory is walked as a root with as many levels as one likes, if they are enough. -/
theorem walkRoot_of_directory (tree : context.fs.IsTree)
    (resolved : context.fs.resolve root = .ok (place, .directory))
    (entered : Entered context.fs 0 (enterRoot context root state)) (enough : maxLevels context.fs ≤ levels) :
    walkRoot context state root =
      walkDirectory context root levels 0 root (enterRoot context root state) := by
  have most := need_le_maxLevels context.fs (enterRoot context root state) place
  rw [← walkDirectory_levels tree resolved entered most (Nat.le_trans most enough), walkRoot,
    FileSystem.metadata, resolved, entriesOf_eq resolved]
  rfl

theorem exists_of_walkRoot {next : WalkState} (walked : walkRoot context state root = .ok next) :
    ∃ location node, context.fs.resolve root = .ok (location, node) ∧
      (node.isFile || node.isDirectory) = true := by
  unfold walkRoot at walked
  split at walked
  · cases walked
  case h_2 isFile =>
    obtain ⟨location, resolved⟩ := resolve_of_metadata isFile
    exact ⟨location, _, resolved, rfl⟩
  case h_3 =>
    split at walked
    · cases walked
    case h_2 entries =>
      obtain ⟨place, resolved⟩ := exists_of_entriesOf entries
      exact ⟨place, _, resolved, rfl⟩

theorem view_enterRoot (same : view after goal state' = view context.fs goal state)
    (resolved : context.fs.resolve root = .ok (place, .directory))
    (resolved' : after.resolve root = .ok (place, .directory)) :
    view after goal (enterRoot (context.on after) root state') =
      view context.fs goal (enterRoot context root state) := by
  obtain ⟨entered, yielded⟩ := Prod.ext_iff.mp same
  have entered : state'.visited = state.visited := entered
  unfold enterRoot
  rw [Context.on_fs, Context.on_options, FileSystem.canonical, FileSystem.canonical, resolved, resolved']
  dsimp only [Except.map]
  cases context.options.followSymlinks with
  | false => exact same
  | true =>
    dsimp only
    rw [entered]
    split
    · exact same
    · exact Prod.ext rfl yielded

theorem entered_of_view (footprint : Footprint fs after goal) (entered : Entered fs 0 state)
    (same : view after goal state' = view fs goal state) : Entered after 0 state' := by
  have visited : state'.visited = state.visited := (Prod.ext_iff.mp same).1
  obtain ⟨nodup, stored, atLeast⟩ := entered
  rw [← visited] at nodup stored atLeast
  exact ⟨nodup, fun location member => footprint.retains.ways (stored location member) rfl, atLeast⟩

section Alike

variable (undisturbed : Undisturbed context.fs after goal)
include undisturbed

/-- A link that stays leads to the same, or is passed. -/
theorem matches_of_isLink (link : context.fs.isLink path = true) :
    Matches context.fs after goal path ∨ Passing context.fs after path := by
  cases matters : (Language.ofPath? path).isSome || after.isDirectory path with
  | false =>
    obtain ⟨unknown, noDirectory⟩ := Bool.or_eq_false_iff.mp matters
    refine .inr ⟨Option.not_isSome_iff_eq_none.mp (ne_true_of_eq_false unknown), ?_, noDirectory⟩
    refine eq_false_of_ne_true fun isDirectory => ?_
    obtain ⟨location, resolved⟩ := FileSystem.isDirectory_iff.mp isDirectory
    have now := FileSystem.isDirectory_iff.mpr ⟨location, undisturbed.resolve_directory resolved⟩
    cases noDirectory.symm.trans now
  | true =>
    have leads := undisturbed.leads path link matters
    rw [FileSystem.canonical, FileSystem.canonical] at leads
    refine .inl ?_
    cases before : context.fs.resolve path with
    | error failure =>
      rw [before] at leads
      cases now : after.resolve path with
      | error failure' => exact .nowhere before now
      | ok stored =>
        rw [now] at leads
        cases leads
    | ok stored =>
      refine matches_of_exists undisturbed.toFootprint before (FileSystem.exists?_iff.mpr ?_)
      rw [before] at leads
      cases now : after.resolve path with
      | error failure =>
        rw [now] at leads
        cases leads
      | ok stored' => exact ⟨stored', rfl⟩

/-- An entry that stays is the same link, and leads to the same or is passed. -/
theorem matches_join (resolved : context.fs.resolve directory = .ok (place, .directory))
    (resolved' : after.resolve directory = .ok (place, .directory)) (apart : place ++ [name] ≠ goal)
    (found : context.fs.nodeAt? (place ++ [name]) = some node)
    (found' : after.nodeAt? (place ++ [name]) = some node) :
    isLink (context.on after) (directory.join ⟨name⟩) = isLink context (directory.join ⟨name⟩) ∧
      (Matches context.fs after goal (directory.join ⟨name⟩) ∨
        Passing context.fs after (directory.join ⟨name⟩)) := by
  cases usable : (directory.join ⟨name⟩).isUsable with
  | false =>
    obtain ⟨failure, fails⟩ := FileSystem.exists_locate_error usable
    have lost (fs : FileSystem) (rule : FileSystem.LinkRule) :
        fs.find rule (directory.join ⟨name⟩) = .error failure := by
      rw [FileSystem.find, fails]
    refine ⟨?_, .inl (.nowhere (lost _ _) (lost _ _))⟩
    rw [isLink, isLink, FileSystem.linkMetadata, FileSystem.linkMetadata, lost, lost]
  | true =>
    refine ⟨?_, ?_⟩
    · rw [isLink_join undisturbed.tree resolved found usable]
      exact isLink_join undisturbed.grown resolved' found' usable
    cases plain : node.isLink with
    | false =>
      exact .inl (.same apart (resolve_join undisturbed.tree resolved found usable plain)
        (FileSystem.find_join undisturbed.grown resolved' found' usable (by simp [plain])))
    | true =>
      refine matches_of_isLink undisturbed ?_
      rw [FileSystem.isLink, FileSystem.find_join undisturbed.tree resolved found usable fun _ => rfl]
      exact plain

/-- The entries that stay are the same before and after. -/
theorem filter_stays (resolved : context.fs.resolve directory = .ok (place, .directory)) :
    (sortByPath id ((context.fs.namesAt place).map fun name => directory.join ⟨name⟩)).filter
        (stays context.fs after goal place) =
      (sortByPath id ((after.namesAt place).map fun name => directory.join ⟨name⟩)).filter
        (stays context.fs after goal place) := by
  have some := FileSystem.isEmpty_of_resolve resolved
  have apart := apart_entries undisturbed.tree some place
  have apart' := apart_entries undisturbed.grown some place
  have nodup {paths : List Path} (apart : paths.Pairwise fun a b => (id a == id b) = false) :
      paths.Nodup := by
    refine apart.imp fun distinct same => ?_
    rw [same, BEq.rfl] at distinct
    cases distinct
  refine filter_sortByPath_eq apart
    ((List.perm_ext_iff_of_nodup ((nodup apart).filter _) ((nodup apart').filter _)).mpr fun path => ?_)
  simp only [List.mem_filter, List.mem_map]
  constructor
  · rintro ⟨⟨name, member, rfl⟩, kept⟩
    obtain ⟨node, found⟩ := (FileSystem.mem_namesAt_iff undisturbed.tree).mp member
    obtain ⟨-, there, -⟩ := (stays_join resolved (undisturbed.tree.named found).1).mp kept
    exact ⟨⟨name, (FileSystem.mem_namesAt_iff undisturbed.grown).mpr there, rfl⟩, kept⟩
  · rintro ⟨⟨name, member, rfl⟩, kept⟩
    obtain ⟨node, found⟩ := (FileSystem.mem_namesAt_iff undisturbed.grown).mp member
    obtain ⟨there, -, -⟩ := (stays_join resolved (undisturbed.grown.named found).1).mp kept
    exact ⟨⟨name, (FileSystem.mem_namesAt_iff undisturbed.tree).mpr there, rfl⟩, kept⟩

variable (running : context.token.isCancelled = false)
include running

/-- A directory is walked alike before and after. -/
theorem walkDirectory_alike (resolved : context.fs.resolve directory = .ok (place, .directory))
    (resolved' : after.resolve directory = .ok (place, .directory))
    (same : view after goal state' = view context.fs goal state) :
    Alike context.fs after goal (walkDirectory context root levels depth directory state)
      (walkDirectory (context.on after) root levels depth directory state') := by
  induction levels generalizing depth directory place state state' with
  | zero => exact ⟨state, state', rfl, rfl, same⟩
  | succ levels ih =>
    rw [walkDirectory, walkDirectory, entriesOf_eq resolved, Context.on_fs, entriesOf_eq resolved']
    refine visitEntries_alike (filter_stays undisturbed resolved) same ?_ ?_ ?_
    · intro path member kept state state' same
      obtain ⟨name, node, rfl, found⟩ := exists_of_mem_entries undisturbed.tree member
      obtain ⟨-, ⟨stored, there⟩, apart⟩ := (stays_join resolved (undisturbed.tree.named found).1).mp kept
      cases undisturbed.nodeAt?_eq apart found there
      obtain ⟨isSame, leads⟩ := matches_join undisturbed resolved resolved' apart found there
      rcases leads with leads | passing
      · exact visitEntry_alike running same isSame leads fun before now same => ih before now same
      · exact visitEntry_passing running same passing
    · intro path member lost
      obtain ⟨name, node, rfl, found⟩ := exists_of_mem_entries undisturbed.tree member
      refine visitEntry_walkDirectory_idle undisturbed.tree running (barren_gone undisturbed.toFootprint)
        resolved found ?_
      by_contra outside
      obtain ⟨there, apart⟩ := not_or.mp outside
      have kept := (stays_join resolved (undisturbed.tree.named found).1).mpr
        ⟨⟨node, found⟩, Option.ne_none_iff_exists'.mp there, apart⟩
      cases lost.symm.trans kept
    · intro path member lost
      obtain ⟨name, node, rfl, found⟩ := exists_of_mem_entries undisturbed.grown member
      have tree : (context.on after).fs.IsTree := undisturbed.grown
      refine visitEntry_walkDirectory_idle tree running (barren_new undisturbed.toFootprint) resolved' found ?_
      by_contra outside
      obtain ⟨there, apart⟩ := not_or.mp outside
      have kept := (stays_join resolved (undisturbed.grown.named found).1).mpr
        ⟨Option.ne_none_iff_exists'.mp there, ⟨node, found⟩, apart⟩
      cases lost.symm.trans kept

/-- Roots that are still there are walked alike. -/
theorem walkRoot_alike (there : after.exists? root = true) (entered : Entered context.fs 0 state)
    (same : view after goal state' = view context.fs goal state) {next : WalkState}
    (walked : walkRoot context state root = .ok next) :
    ∃ next', walkRoot (context.on after) state' root = .ok next' ∧
      view after goal next' = view context.fs goal next := by
  obtain ⟨location, node, resolved, kind⟩ := exists_of_walkRoot walked
  -- A root leads where it led, unless it is the file that is written: that one counts in neither walk.
  cases matches_of_exists undisturbed.toFootprint resolved there with
  | nowhere before => cases before.symm.trans resolved
  | same apart before now =>
    cases before.symm.trans resolved
    cases node with
    | file content time =>
      rw [walkRoot_of_file resolved] at walked
      cases walked
      exact ⟨_, walkRoot_of_file now, view_considerFile same resolved now _⟩
    | directory =>
      have begun := (keeps_entered undisturbed.tree 0).enterRoot resolved entered
      have same := view_enterRoot same resolved now
      have begun' := entered_of_view undisturbed.toFootprint begun same
      have tree : (context.on after).fs.IsTree := undisturbed.grown
      rw [walkRoot_of_directory undisturbed.tree resolved begun (Nat.le_max_left _ (maxLevels after))]
        at walked
      rw [walkRoot_of_directory tree now begun' (Nat.le_max_right (maxLevels context.fs) _)]
      obtain ⟨last, last', ends, ends', same⟩ := walkDirectory_alike undisturbed running resolved now same
      cases ends.symm.trans walked
      exact ⟨last', ends', same⟩
    | link | device => cases kind
  | goal leaf before now =>
    cases before.symm.trans resolved
    have silent : counts context.fs goal root = false := by
      rw [counts_of_resolve before, bne_self_eq_false, Bool.and_false]
    have silent' : counts (context.on after).fs goal root = false := by
      rw [Context.on_fs, counts_of_resolve now, bne_self_eq_false, Bool.and_false]
    cases node with
    | file content time =>
      rw [walkRoot_of_file resolved] at walked
      cases walked
      refine ⟨_, walkRoot_of_file now, ?_⟩
      exact (view_considerFile_eq silent').trans (same.trans (view_considerFile_eq silent).symm)
    | directory => cases leaf
    | link | device => cases kind

theorem walkRoots_alike {roots : List Path} (there : ∀ root ∈ roots, after.exists? root = true)
    (entered : Entered context.fs 0 state) (same : view after goal state' = view context.fs goal state)
    {last : WalkState} (walked : walkRoots context roots state = .ok last) :
    ∃ last', walkRoots (context.on after) roots state' = .ok last' ∧
      view after goal last' = view context.fs goal last := by
  induction roots generalizing state state' with
  | nil =>
    cases walked
    exact ⟨state', rfl, same⟩
  | cons root rest ih =>
    obtain ⟨next, first, walked⟩ := exists_of_bind_eq_ok walked
    obtain ⟨next', first', same⟩ :=
      walkRoot_alike undisturbed running (there root List.mem_cons_self) entered same first
    have entered := (keeps_entered undisturbed.tree 0).walkRoot entered first
    obtain ⟨last', walked', same⟩ :=
      ih (fun root member => there root (List.mem_cons_of_mem _ member)) entered same walked
    refine ⟨last', ?_, same⟩
    rw [walkRoots, first']
    exact walked'

end Alike

/-- The files that a walk yields lead to files. -/
def Yields (fs : FileSystem) (state : WalkState) : Prop :=
  ∀ path ∈ state.output.files, ∃ location content time, fs.resolve path = .ok (location, .file content time)

theorem keeps_yields (tree : context.fs.IsTree) : Keeps context (Yields context.fs) where
  tree := tree
  output same yields path member := yields path (same ▸ member)
  file isFile yields path member := by
    rcases List.mem_append.mp member with earlier | new
    · exact yields path earlier
    · cases List.mem_singleton.mp new
      obtain ⟨location, resolved⟩ := resolve_of_metadata isFile
      exact ⟨location, _, _, resolved⟩
  enter _ _ yields := yields

end Walk

namespace Crawler

variable {crawler : Crawler} {fs after : FileSystem} {goal : Location} {found : Discovered}

/-- How the files of a crawl are walked once its globs are read. -/
def walking (crawler : Crawler) (globs : List Glob) (fs : FileSystem) : Walk.Context where
  fs
  options := ScanOptions.ofConfig crawler.config.scan
  token := crawler.token
  excludes path := globs.any (·.accepts path.text)

/-- The files of known languages among those that were walked. -/
def workOf (files : List Path) : List (Path × Language) :=
  files.filterMap fun path => (Language.ofPath? path).map fun language => (path, language)

theorem discover_eq_ok_iff : crawler.discover fs = .ok found ↔ ∃ globs state,
    Walk.readExcludes crawler.config.scan.exclude = .ok globs ∧
      Walk.walkRoots (crawler.walking globs fs) crawler.roots {} = .ok state ∧
      found = { walked := state.output, work := workOf state.output.files } := by
  have walked : walk fs crawler.roots (ScanOptions.ofConfig crawler.config.scan) crawler.token =
      (Walk.readExcludes crawler.config.scan.exclude).bind fun globs =>
        (Walk.walkRoots (crawler.walking globs fs) crawler.roots {}).map (·.output) := rfl
  rw [discover, walked]
  constructor
  · intro discovered
    split at discovered
    · cases discovered
    · cases discovered
    case h_3 output isOutput =>
      obtain ⟨globs, read, isWalk⟩ := exists_of_bind_eq_ok isOutput
      obtain ⟨state, walked, rfl⟩ := exists_of_map_eq_ok isWalk
      cases discovered
      exact ⟨globs, state, read, walked, rfl⟩
  · rintro ⟨globs, state, read, walked, rfl⟩
    rw [read]
    simp only [Except.bind, walked, Except.map]
    rfl

/-- A crawl does not work on the file at some place. -/
def Spares (crawler : Crawler) (fs : FileSystem) (goal : Location) : Prop :=
  ∀ found, crawler.discover fs = .ok found →
    ∀ file ∈ found.work, (fs.canonical file.1).toOption ≠ some goal

theorem workOf_filter_counts {files : List Path}
    (spares : ∀ file ∈ workOf files, (fs.canonical file.1).toOption ≠ some goal) :
    workOf (files.filter (Walk.counts fs goal)) = workOf files := by
  rw [workOf, List.filterMap_filter]
  refine List.filterMap_congr fun path member => ?_
  cases isLanguage : Language.ofPath? path with
  | none => simp
  | some language =>
    have inWork : (path, language) ∈ workOf files :=
      List.mem_filterMap.mpr ⟨path, member, by rw [isLanguage]; rfl⟩
    simp [Walk.counts, isLanguage, spares _ inWork]

/-- Everything that a crawl works on leads to a file. -/
theorem exists_file_of_mem_work (tree : fs.IsTree) (discovered : crawler.discover fs = .ok found)
    {file : Path × Language} (member : file ∈ found.work) :
    Language.ofPath? file.1 = some file.2 ∧
      ∃ location content time, fs.resolve file.1 = .ok (location, .file content time) := by
  obtain ⟨globs, state, -, walked, rfl⟩ := discover_eq_ok_iff.mp discovered
  obtain ⟨path, inFiles, isLanguage⟩ := List.mem_filterMap.mp member
  obtain ⟨language, known, rfl⟩ := Option.map_eq_some_iff.mp isLanguage
  have keeps : Walk.Keeps (crawler.walking globs fs) (Walk.Yields fs) := Walk.keeps_yields tree
  have nothing : Walk.Yields fs {} := fun _ impossible => nomatch impossible
  exact ⟨known, keeps.walkRoots nothing walked path inFiles⟩

/-- Once a file was put into its place, a crawl finds the same files to work on. -/
theorem exists_discover (undisturbed : FileSystem.Undisturbed fs after goal)
    (running : crawler.token.isCancelled = false)
    (there : ∀ root ∈ crawler.roots, after.exists? root = true) (spares : crawler.Spares fs goal)
    (spares' : crawler.Spares after goal) (discovered : crawler.discover fs = .ok found) :
    ∃ found', crawler.discover after = .ok found' ∧ found'.work = found.work := by
  obtain ⟨globs, state, read, walked, rfl⟩ := discover_eq_ok_iff.mp discovered
  have nothing : Walk.Entered fs 0 {} :=
    ⟨List.nodup_nil, fun _ impossible => (nomatch impossible), Nat.le_refl _⟩
  have undisturbed : FileSystem.Undisturbed (crawler.walking globs fs).fs after goal := undisturbed
  obtain ⟨last, walked', same⟩ := Walk.walkRoots_alike undisturbed running there nothing rfl walked
  have discovered' := discover_eq_ok_iff.mpr ⟨globs, last, read, walked', rfl⟩
  refine ⟨_, discovered', ?_⟩
  have yielded := (Prod.ext_iff.mp same).2
  calc workOf last.output.files
    _ = workOf (last.output.files.filter (Walk.counts after goal)) :=
      (workOf_filter_counts (spares' _ discovered')).symm
    _ = workOf (state.output.files.filter (Walk.counts fs goal)) := congrArg workOf yielded
    _ = workOf state.output.files := workOf_filter_counts (spares _ discovered)

end Crawler

end DepAtlas
