import Mathlib.Data.List.Nodup
import Mathlib.Data.List.Perm.Subperm
import DepAtlas.Proofs.FileSystem.Entries
import DepAtlas.Proofs.Path.Sorting
import DepAtlas.Walk

/-!
How deep a walk goes. Between two links the way goes down the tree, and a link is only followed to a
directory that was not entered before, so that the number of levels that a walk is given is never used up.
-/

namespace DepAtlas

namespace FileSystem

variable {fs : FileSystem} {location : Location}

theorem length_le_of_nodup {locations : List Location} (nodup : locations.Nodup)
    (stored : ∀ location ∈ locations, fs.nodeAt? location = some .directory) :
    locations.length ≤ fs.nodes.length := by
  have inside : locations ⊆ fs.nodes.map (·.1) := by
    intro location member
    obtain ⟨entry, isEntry, same, -⟩ := Assoc.exists_mem_of_get? (stored location member)
    exact List.mem_map.mpr ⟨entry, isEntry, eq_of_beq same⟩
  have length := (List.subperm_of_subset nodup inside).length_le
  rwa [List.length_map] at length

/-- All directories that lead to a directory are stored. -/
theorem IsTree.length_lt (tree : fs.IsTree) (found : fs.nodeAt? location = some .directory) :
    location.length < fs.nodes.length := by
  let above := (List.range (location.length + 1)).map location.take
  have nodup : above.Nodup := by
    refine List.Nodup.map_on ?_ List.nodup_range
    intro a first b second same
    have length := congrArg List.length same
    rw [List.length_take, List.length_take] at length
    have := List.mem_range.mp first
    have := List.mem_range.mp second
    omega
  have stored : ∀ other ∈ above, fs.nodeAt? other = some .directory := by
    intro other member
    obtain ⟨count, -, rfl⟩ := List.mem_map.mp member
    by_cases whole : location.drop count = []
    · have same := List.take_append_drop count location
      rw [whole, List.append_nil] at same
      rw [same]
      exact found
    · rw [← List.take_append_drop count location] at found
      exact tree.directory_of_append whole found
  have length := length_le_of_nodup nodup stored
  rwa [List.length_map, List.length_range] at length

end FileSystem

namespace Walk

variable {context : Context} {root path directory : Path} {place : Location} {name : String}
  {depth levels : Nat} {state after : WalkState} {inv : WalkState → Prop}
  {descend : Path → WalkState → Except ScanError WalkState}

/-- The entries of a directory are the names in it, in order. -/
theorem entriesOf_eq {fs : FileSystem} (resolved : fs.resolve directory = .ok (place, .directory)) :
    entriesOf fs directory =
      .ok (sortByPath id ((fs.namesAt place).map fun name => directory.join ⟨name⟩)) := by
  rw [entriesOf, FileSystem.readDirectory, resolved]
  rfl

theorem exists_of_entriesOf {fs : FileSystem} {entries : List Path}
    (found : entriesOf fs directory = .ok entries) :
    ∃ place, fs.resolve directory = .ok (place, .directory) := by
  obtain ⟨names, read, -⟩ := exists_of_map_eq_ok found
  unfold FileSystem.readDirectory at read
  split at read
  case h_1 resolved => exact ⟨_, resolved⟩
  all_goals cases read

theorem exists_of_mem_entries {fs : FileSystem} (tree : fs.IsTree)
    (member : path ∈ sortByPath id ((fs.namesAt place).map fun name => directory.join ⟨name⟩)) :
    ∃ name node, path = directory.join ⟨name⟩ ∧ fs.nodeAt? (place ++ [name]) = some node := by
  obtain ⟨name, isName, rfl⟩ := List.mem_map.mp (mem_sortByPath.mp member)
  obtain ⟨node, found⟩ := (FileSystem.mem_namesAt_iff tree).mp isName
  exact ⟨name, node, rfl, found⟩

theorem apart_entries {fs : FileSystem} (tree : fs.IsTree) (some : directory.isEmpty = false)
    (place : Location) :
    ((fs.namesAt place).map fun name => directory.join ⟨name⟩).Pairwise
      fun a b => (id a == id b) = false := by
  have isName {name : String} (member : name ∈ fs.namesAt place) : FileSystem.IsName name := by
    obtain ⟨node, found⟩ := (FileSystem.mem_namesAt_iff tree).mp member
    exact (tree.named found).1
  refine List.pairwise_map.mpr ((FileSystem.nodup_namesAt tree place).imp_of_mem ?_)
  intro first second isFirst isSecond apart
  rw [id, id, Path.join_beq_join some (isName isFirst) (isName isSecond)]
  exact beq_eq_false_iff_ne.mpr apart

theorem exists_of_enterLink (entered : enterLink? context path state = some after) :
    ∃ location, context.fs.canonical path = .ok location ∧ location ∉ state.visited ∧
      after = { state with visited := location :: state.visited } := by
  unfold enterLink? at entered
  split at entered
  · cases entered
  case h_2 location canonical =>
    split at entered
    · cases entered
    case isFalse new =>
      cases entered
      exact ⟨location, canonical, by simpa using new, rfl⟩

theorem resolve_of_metadata {fs : FileSystem} {node : Node} (isNode : fs.metadata path = .ok node) :
    ∃ location, fs.resolve path = .ok (location, node) := by
  obtain ⟨⟨location, other⟩, resolved, rfl⟩ := exists_of_map_eq_ok isNode
  exact ⟨location, resolved⟩

/-- What every step of a walk keeps. -/
structure Keeps (context : Context) (inv : WalkState → Prop) : Prop where
  tree : context.fs.IsTree
  output : ∀ {state : WalkState} {output : WalkOutput}, output.files = state.output.files → inv state →
    inv { state with output }
  file : ∀ {state : WalkState} {path content time}, context.fs.metadata path = .ok (.file content time) →
    inv state → inv { state with output := { state.output with files := state.output.files ++ [path] } }
  enter : ∀ {state : WalkState} {location}, context.fs.nodeAt? location = some .directory →
    location ∉ state.visited → inv state → inv { state with visited := location :: state.visited }

namespace Keeps

variable (keeps : Keeps context inv)
include keeps

theorem considerFile {content : Bytes} {time : Time}
    (isFile : context.fs.metadata path = .ok (.file content time)) (size : Nat) (held : inv state) :
    inv (considerFile context path size state) := by
  unfold Walk.considerFile
  split
  · exact keeps.output rfl held
  · exact keeps.file isFile held

theorem enterLink (isDirectory : context.fs.metadata path = .ok .directory)
    (entered : enterLink? context path state = some after) (held : inv state) : inv after := by
  obtain ⟨location, canonical, new, rfl⟩ := exists_of_enterLink entered
  obtain ⟨found, resolved, rfl⟩ := exists_of_map_eq_ok canonical
  obtain ⟨goal, reached⟩ := resolve_of_metadata isDirectory
  cases resolved.symm.trans reached
  exact keeps.enter (FileSystem.nodeAt?_of_resolve keeps.tree reached) new held

theorem visitEntry
    (descends : ∀ {path state after}, inv state → descend path state = .ok after → inv after)
    (held : inv state) (visited : visitEntry context root depth descend path state = .ok after) :
    inv after := by
  unfold Walk.visitEntry at visited
  dsimp only at visited
  split at visited
  · cases visited
  split at visited
  · cases visited
    exact held
  split at visited
  · cases visited
    exact keeps.output rfl held
  split at visited
  · cases visited
    exact held
  split at visited
  · cases visited
    exact keeps.output rfl held
  case h_2 isDirectory =>
    split at visited
    · cases visited
      exact held
    split at visited
    · split at visited
      case h_1 entered => exact descends (keeps.enterLink isDirectory entered held) visited
      case h_2 =>
        cases visited
        exact held
    · exact descends held visited
  case h_3 isFile =>
    cases visited
    exact keeps.considerFile isFile _ held
  case h_4 =>
    cases visited
    exact held

theorem visitEntries
    (descends : ∀ {path state after}, inv state → descend path state = .ok after → inv after)
    {paths : List Path} (held : inv state)
    (visited : visitEntries context root depth descend paths state = .ok after) : inv after := by
  induction paths generalizing state with
  | nil =>
    cases visited
    exact held
  | cons path rest ih =>
    obtain ⟨next, first, visited⟩ := exists_of_bind_eq_ok visited
    exact ih (keeps.visitEntry descends held first) visited

theorem walkDirectory (held : inv state)
    (walked : walkDirectory context root levels depth directory state = .ok after) : inv after := by
  induction levels generalizing depth directory state after with
  | zero =>
    cases walked
    exact held
  | succ levels ih =>
    rw [Walk.walkDirectory] at walked
    split at walked
    · cases walked
      exact keeps.output rfl held
    · exact keeps.visitEntries (fun held walked => ih held walked) held walked

theorem enterRoot (resolved : context.fs.resolve root = .ok (place, .directory)) (held : inv state) :
    inv (enterRoot context root state) := by
  unfold Walk.enterRoot
  split
  case h_1 canonical =>
    obtain ⟨found, resolved', rfl⟩ := exists_of_map_eq_ok canonical
    cases resolved.symm.trans resolved'
    split
    · exact held
    case isFalse new =>
      exact keeps.enter (FileSystem.nodeAt?_of_resolve keeps.tree resolved) (by simpa using new) held
  case h_2 => exact held

theorem walkRoot (held : inv state) (walked : walkRoot context state root = .ok after) : inv after := by
  unfold Walk.walkRoot at walked
  split at walked
  · cases walked
  case h_2 isFile =>
    cases walked
    exact keeps.considerFile isFile _ held
  case h_3 =>
    split at walked
    · cases walked
    case h_2 entries =>
      obtain ⟨place, resolved⟩ := exists_of_entriesOf entries
      exact keeps.walkDirectory (keeps.enterRoot resolved held) walked

theorem walkRoots {roots : List Path} (held : inv state)
    (walked : walkRoots context roots state = .ok after) : inv after := by
  induction roots generalizing state with
  | nil =>
    cases walked
    exact held
  | cons root rest ih =>
    obtain ⟨next, first, walked⟩ := exists_of_bind_eq_ok walked
    exact ih (keeps.walkRoot held first) walked

end Keeps

section Entry

variable {node : Node} (tree : context.fs.IsTree)
  (resolved : context.fs.resolve directory = .ok (place, .directory))
  (found : context.fs.nodeAt? (place ++ [name]) = some node)
  (usable : (directory.join ⟨name⟩).isUsable = true)
include tree resolved found usable

theorem isLink_join : isLink context (directory.join ⟨name⟩) = node.isLink := by
  rw [isLink, FileSystem.linkMetadata, FileSystem.find_join tree resolved found usable fun _ => rfl]
  rfl

theorem resolve_join (plain : node.isLink = false) :
    context.fs.resolve (directory.join ⟨name⟩) = .ok (place ++ [name], node) :=
  FileSystem.find_join tree resolved found usable (by simp [plain])

end Entry

theorem exists_metadata_error (unusable : path.isUsable = false) :
    ∃ failure, ∀ fs : FileSystem, fs.metadata path = .error failure := by
  obtain ⟨failure, fails⟩ := FileSystem.exists_locate_error unusable
  refine ⟨failure, fun fs => ?_⟩
  rw [FileSystem.metadata, FileSystem.resolve, FileSystem.find, fails]
  rfl

/-- Without a link, an entry of a directory stands in it. -/
theorem place_of_plain {node : Node} {goal : Location} (tree : context.fs.IsTree)
    (resolved : context.fs.resolve directory = .ok (place, .directory))
    (found : context.fs.nodeAt? (place ++ [name]) = some node)
    (reached : context.fs.resolve (directory.join ⟨name⟩) = .ok (goal, .directory))
    (plain : ¬ isLink context (directory.join ⟨name⟩) = true) : goal = place ++ [name] := by
  cases usable : (directory.join ⟨name⟩).isUsable with
  | false =>
    obtain ⟨failure, fails⟩ := exists_metadata_error usable
    have isDirectory := congrArg (Except.map (·.2)) reached
    cases (fails context.fs).symm.trans isDirectory
  | true =>
    rw [isLink_join tree resolved found usable, Bool.not_eq_true] at plain
    cases reached.symm.trans (resolve_join tree resolved found usable plain)
    rfl

/-- The state in which a directory is walked: a link to it is noted before. -/
def Enters (context : Context) (path : Path) (state next : WalkState) : Prop :=
  if isLink context path then enterLink? context path state = some next else next = state

theorem visitEntry_congr {other : Path → WalkState → Except ScanError WalkState}
    (same : ∀ {next}, context.fs.metadata path = .ok .directory → Enters context path state next →
      descend path next = other path next) :
    visitEntry context root depth descend path state = visitEntry context root depth other path state := by
  unfold visitEntry
  dsimp only
  split
  · rfl
  split
  · rfl
  split
  · rfl
  split
  · rfl
  split
  · rfl
  case h_2 isDirectory =>
    split
    · rfl
    split
    case isTrue link =>
      split
      case h_1 next entered => exact same isDirectory (by rw [Enters, if_pos link, entered])
      case h_2 => rfl
    case isFalse plain => exact same isDirectory (by rw [Enters, if_neg plain])
  · rfl
  · rfl

theorem visitEntries_congr {other : Path → WalkState → Except ScanError WalkState} {paths : List Path}
    (kept : ∀ {path state after}, inv state → other path state = .ok after → inv after)
    (keeps : Keeps context inv) (held : inv state)
    (same : ∀ path ∈ paths, ∀ {state next}, inv state → context.fs.metadata path = .ok .directory →
      Enters context path state next → descend path next = other path next) :
    visitEntries context root depth descend paths state =
      visitEntries context root depth other paths state := by
  induction paths generalizing state with
  | nil => rfl
  | cons path rest ih =>
    rw [visitEntries, visitEntries, visitEntry_congr fun isDirectory enters =>
      same path List.mem_cons_self held isDirectory enters]
    cases visited : visitEntry context root depth other path state with
    | error cause => rfl
    | ok next =>
      refine ih (keeps.visitEntry kept held visited) fun path member => ?_
      exact same path (List.mem_cons_of_mem _ member)

/-- The directories that were entered through links or as roots, each once. -/
structure Entered (fs : FileSystem) (least : Nat) (state : WalkState) : Prop where
  nodup : state.visited.Nodup
  stored : ∀ location ∈ state.visited, fs.nodeAt? location = some .directory
  atLeast : least ≤ state.visited.length

theorem Entered.length_le {fs : FileSystem} {least : Nat} (entered : Entered fs least state) :
    state.visited.length ≤ fs.nodes.length :=
  FileSystem.length_le_of_nodup entered.nodup entered.stored

theorem Entered.push {fs : FileSystem} {least : Nat} {location : Location}
    (entered : Entered fs least state) (found : fs.nodeAt? location = some .directory)
    (new : location ∉ state.visited) :
    Entered fs (least + 1) { state with visited := location :: state.visited } where
  nodup := List.nodup_cons.mpr ⟨new, entered.nodup⟩
  stored other member := by
    rcases List.mem_cons.mp member with rfl | member
    · exact found
    · exact entered.stored other member
  atLeast := Nat.succ_le_succ entered.atLeast

theorem keeps_entered (tree : context.fs.IsTree) (least : Nat) :
    Keeps context (Entered context.fs least) where
  tree := tree
  output _ entered := ⟨entered.nodup, entered.stored, entered.atLeast⟩
  file _ entered := ⟨entered.nodup, entered.stored, entered.atLeast⟩
  enter found new entered := by
    have next := entered.push found new
    exact ⟨next.nodup, next.stored, Nat.le_of_succ_le next.atLeast⟩

/-- Levels that a walk needs from a directory on: for every directory that a link may still lead to the
whole height of the tree, and the rest of the way down. -/
def need (fs : FileSystem) (state : WalkState) (place : Location) : Nat :=
  (fs.nodes.length - state.visited.length) * fs.nodes.length + (fs.nodes.length - place.length)

theorem need_pos {fs : FileSystem} (height : place.length < fs.nodes.length) (state : WalkState) :
    0 < need fs state place := by
  unfold need
  omega

/-- On the way down one level less is needed. -/
theorem need_down {fs : FileSystem} (height : place.length < fs.nodes.length)
    (entered : Entered fs state.visited.length after) (name : String) :
    need fs after (place ++ [name]) < need fs state place := by
  have fewer : (fs.nodes.length - after.visited.length) * fs.nodes.length ≤
      (fs.nodes.length - state.visited.length) * fs.nodes.length :=
    Nat.mul_le_mul_right _ (Nat.sub_le_sub_left entered.atLeast _)
  unfold need
  rw [List.length_append, List.length_singleton]
  omega

/-- Behind a link there is one directory less that a link may lead to. -/
theorem need_link {fs : FileSystem} (height : place.length < fs.nodes.length)
    (entered : Entered fs (state.visited.length + 1) after) (goal : Location) :
    need fs after goal < need fs state place := by
  have bound := entered.length_le
  have fewer : (fs.nodes.length - after.visited.length) * fs.nodes.length ≤
      (fs.nodes.length - (state.visited.length + 1)) * fs.nodes.length :=
    Nat.mul_le_mul_right _ (Nat.sub_le_sub_left entered.atLeast _)
  have room : fs.nodes.length - state.visited.length =
      fs.nodes.length - (state.visited.length + 1) + 1 := by
    have := entered.atLeast
    omega
  unfold need
  rw [room, Nat.add_mul, Nat.one_mul]
  omega

/-- From an entry on fewer levels are needed than from the directory it stands in. -/
theorem need_of_enters (tree : context.fs.IsTree)
    (resolved : context.fs.resolve directory = .ok (place, .directory)) {node : Node}
    (found : context.fs.nodeAt? (place ++ [name]) = some node) {goal : Location}
    (reached : context.fs.resolve (directory.join ⟨name⟩) = .ok (goal, .directory))
    (height : place.length < context.fs.nodes.length) {earlier next : WalkState}
    (held : Entered context.fs state.visited.length earlier)
    (enters : Enters context (directory.join ⟨name⟩) earlier next) :
    Entered context.fs 0 next ∧ need context.fs next goal < need context.fs state place := by
  unfold Enters at enters
  split at enters
  case isTrue =>
    obtain ⟨location, canonical, new, rfl⟩ := exists_of_enterLink enters
    obtain ⟨other, resolved', rfl⟩ := exists_of_map_eq_ok canonical
    cases reached.symm.trans resolved'
    have next := held.push (FileSystem.nodeAt?_of_resolve tree reached) new
    exact ⟨⟨next.nodup, next.stored, Nat.zero_le _⟩, need_link height next goal⟩
  case isFalse plain =>
    subst enters
    rw [place_of_plain tree resolved found reached plain]
    exact ⟨⟨held.nodup, held.stored, Nat.zero_le _⟩, need_down height held name⟩

/-- More levels than are needed make no difference. -/
theorem walkDirectory_levels (tree : context.fs.IsTree) {levels' : Nat}
    (resolved : context.fs.resolve directory = .ok (place, .directory))
    (entered : Entered context.fs 0 state) (enough : need context.fs state place ≤ levels)
    (enough' : need context.fs state place ≤ levels') :
    walkDirectory context root levels depth directory state =
      walkDirectory context root levels' depth directory state := by
  have height : place.length < context.fs.nodes.length :=
    tree.length_lt (FileSystem.nodeAt?_of_resolve tree resolved)
  have positive : 0 < need context.fs state place := need_pos height state
  induction levels generalizing levels' depth directory place state with
  | zero => omega
  | succ levels ih =>
    cases levels' with
    | zero => omega
    | succ levels' =>
      rw [walkDirectory, walkDirectory, entriesOf_eq resolved]
      dsimp only
      let keeps := keeps_entered tree state.visited.length
      have begun : Entered context.fs state.visited.length state :=
        ⟨entered.nodup, entered.stored, Nat.le_refl _⟩
      refine visitEntries_congr (fun held walked => keeps.walkDirectory held walked) keeps begun ?_
      intro path member earlier next held isDirectory enters
      obtain ⟨name, node, rfl, found⟩ := exists_of_mem_entries tree member
      obtain ⟨goal, reached⟩ := resolve_of_metadata isDirectory
      have height' : goal.length < context.fs.nodes.length :=
        tree.length_lt (FileSystem.nodeAt?_of_resolve tree reached)
      obtain ⟨entered', lower⟩ := need_of_enters tree resolved found reached height held enters
      exact ih reached entered' (by omega) (by omega) height' (need_pos height' next)

/-- The number of levels that a walk is given is enough. -/
theorem need_le_maxLevels (fs : FileSystem) (state : WalkState) (place : Location) :
    need fs state place ≤ maxLevels fs := by
  have whole : (fs.nodes.length - state.visited.length) * fs.nodes.length ≤
      fs.nodes.length * fs.nodes.length := Nat.mul_le_mul_right _ (Nat.sub_le _ _)
  unfold need maxLevels
  rw [Nat.add_mul, Nat.mul_add]
  omega

/-- Once its globs are read, a walk is one of its roots. -/
theorem walk_eq {globs : List Glob} (read : readExcludes context.options.exclude = .ok globs)
    (excludes : context.excludes = fun path => globs.any (·.accepts path.text)) (roots : List Path) :
    walk context.fs roots context.options context.token = (walkRoots context roots {}).map (·.output) := by
  have same : context = {
      fs := context.fs, options := context.options, token := context.token
      excludes := fun path => globs.any (·.accepts path.text) } := by
    rw [← excludes]
  rw [same, walk, read]
  rfl

end Walk

end DepAtlas
