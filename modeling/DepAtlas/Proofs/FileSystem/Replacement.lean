import DepAtlas.Proofs.FileSystem.Tree

/-!
What the steps by which a file is replaced do to a tree: directories are created where nothing stands, a
file is written, and a file is moved in place of another one.
-/

namespace DepAtlas.FileSystem

variable {fs after last : FileSystem} {location source goal : Location} {name : String} {node : Node}
  {rule : LinkRule} {path target : Path} {time : Time}

section Ends

variable {again again' : Location → List String → Except IoFailure Goal}

/-- A place at which a look-up stops if links stand for themselves: its goal, or a link that the rule
follows. -/
inductive Goal.Stops (fs : FileSystem) (rule : LinkRule) (goal : Goal) : Goal → Prop
  | here : Stops fs rule goal goal
  | link {parent : Location} {name : String} {slashed : Bool} {target : Path}
      (followed : rule slashed = true)
      (found : fs.nodeAt? (parent ++ [name]) = some (.link target)) :
      Stops fs rule goal (.entry parent name slashed)

theorem walkSegments_exists_keep
    (keeps : ∀ {location segments goal}, again location segments = .ok goal →
      ∃ kept, again' location segments = .ok kept ∧ goal.Stops fs rule kept)
    {segments : List String} {goal : Goal}
    (walked : fs.walkSegments rule again location segments = .ok goal) :
    ∃ kept, fs.walkSegments .keep again' location segments = .ok kept ∧ goal.Stops fs rule kept := by
  simp only [walkSegments_eq_ok_iff] at walked ⊢
  induction walked with
  | stop isGoal => exact ⟨goal, .stop isGoal, .here⟩
  | void isVoid _ ih => exact ih.imp fun _ => .imp_left (.void isVoid)
  | up _ ih => exact ih.imp fun _ => .imp_left .up
  | entry named proper last _ isGoal =>
    exact ⟨goal, .entry named proper last (fun _ _ => rfl) isGoal, .here⟩
  | follow named proper last found followed _ =>
    exact ⟨_, .entry named proper last (fun _ _ => rfl) rfl, .link followed found⟩
  | into named proper more looked _ ih =>
    exact ih.imp fun _ => .imp_left (.into named proper more looked)
  | through named proper more looked entered =>
    exact (keeps entered).imp fun _ => .imp_left (.through named proper more looked)

theorem walkLinks_exists_keep {links : Nat} {segments : List String} {goal : Goal}
    (walked : fs.walkLinks rule links location segments = .ok goal) :
    ∃ kept, fs.walkLinks .keep links location segments = .ok kept ∧ goal.Stops fs rule kept := by
  induction links generalizing location segments goal with
  | zero => exact walkSegments_exists_keep (fun impossible => by cases impossible) walked
  | succ links ih => exact walkSegments_exists_keep (fun walked => ih walked) walked

theorem exists_locate_keep {goal : Goal} (located : fs.locate rule path = .ok goal) :
    ∃ kept, fs.locate .keep path = .ok kept ∧ goal.Stops fs rule kept := by
  rw [locate_eq_walkLinks located]
  exact walkLinks_exists_keep ((locate_eq located fs).symm.trans located)

theorem walkSegments_rule
    (stops : ∀ {location segments parent name slashed target},
      again location segments = .ok (.entry parent name slashed) →
      fs.nodeAt? (parent ++ [name]) = some (.link target) → rule slashed = false)
    {segments : List String} {parent : Location} {slashed : Bool} {target : Path}
    (walked : fs.walkSegments rule again location segments = .ok (.entry parent name slashed))
    (link : fs.nodeAt? (parent ++ [name]) = some (.link target)) : rule slashed = false := by
  rw [walkSegments_eq_ok_iff] at walked
  induction walked with
  | stop isGoal => cases isGoal
  | void _ _ ih | up _ ih | into _ _ _ _ _ ih => exact ih
  | entry _ _ _ kept isGoal =>
    cases isGoal
    exact kept target link
  | follow _ _ _ _ _ entered | through _ _ _ _ entered => exact stops entered link

theorem walkLinks_rule {links : Nat} {segments : List String} {parent : Location} {slashed : Bool}
    {target : Path}
    (walked : fs.walkLinks rule links location segments = .ok (.entry parent name slashed))
    (link : fs.nodeAt? (parent ++ [name]) = some (.link target)) : rule slashed = false := by
  induction links generalizing location segments parent name slashed target with
  | zero => exact walkSegments_rule (fun impossible _ => by cases impossible) walked link
  | succ links ih => exact walkSegments_rule (fun walked link => ih walked link) walked link

/-- Segments that end in a name, and whether separators stand behind it. -/
def EndsIn (segments : List String) (name : String) (slashed : Bool) : Prop :=
  ∃ front voids, segments = front ++ name :: voids ∧ voids.all String.isEmpty = true ∧
    slashed = !voids.isEmpty

theorem EndsIn.cons {segments : List String} {slashed : Bool} (ends : EndsIn segments name slashed)
    (segment : String) : EndsIn (segment :: segments) name slashed := by
  obtain ⟨front, voids, rfl, same⟩ := ends
  exact ⟨segment :: front, voids, rfl, same⟩

/-- The name stands in the last part, if there is anything but separators in it. -/
theorem EndsIn.of_append {before segments : List String} {slashed : Bool}
    (ends : EndsIn (before ++ segments) name slashed) (more : segments.all String.isEmpty = false) :
    EndsIn segments name slashed := by
  obtain ⟨front, voids, whole, empty, same⟩ := ends
  rcases List.append_eq_append_iff.mp whole with ⟨rest, -, isRest⟩ | ⟨rest, -, isRest⟩
  · exact ⟨rest, voids, isRest, empty, same⟩
  · cases rest with
    | nil => exact ⟨[], voids, isRest.symm, empty, same⟩
    | cons first rest =>
      have isVoids : voids = rest ++ segments := (List.cons.inj isRest).2
      rw [isVoids, List.all_append, more, Bool.and_false] at empty
      cases empty

/-- Where links stand for themselves, a look-up ends in the name that the segments end in. -/
theorem walkSegments_keep_ends
    (ends : ∀ {location segments parent name slashed},
      again location segments = .ok (.entry parent name slashed) → EndsIn segments name slashed)
    {segments : List String} {parent : Location} {slashed : Bool}
    (walked : fs.walkSegments .keep again location segments = .ok (.entry parent name slashed)) :
    EndsIn segments name slashed := by
  rw [walkSegments_eq_ok_iff] at walked
  induction walked with
  | stop isGoal => cases isGoal
  | void _ _ ih | up _ ih | into _ _ _ _ _ ih => exact ih.cons _
  | entry _ _ last _ isGoal =>
    cases isGoal
    exact ⟨[], _, rfl, last, rfl⟩
  | follow _ _ _ _ followed _ => cases followed
  | through _ _ more _ entered => exact ((ends entered).of_append more).cons _

theorem walkLinks_keep_ends {links : Nat} {segments : List String} {parent : Location} {slashed : Bool}
    (walked : fs.walkLinks .keep links location segments = .ok (.entry parent name slashed)) :
    EndsIn segments name slashed := by
  induction links generalizing location segments parent name slashed with
  | zero => exact walkSegments_keep_ends (fun impossible => by cases impossible) walked
  | succ links ih => exact walkSegments_keep_ends (fun walked => ih walked) walked

theorem locate_keep_ends {parent : Location} {slashed : Bool}
    (located : fs.locate .keep path = .ok (.entry parent name slashed)) :
    EndsIn path.segments name slashed :=
  walkLinks_keep_ends ((locate_eq located fs).symm.trans located)

/-- A look-up ends at a link only if the rule lets it. -/
theorem locate_rule {parent : Location} {slashed : Bool} {target : Path}
    (located : fs.locate rule path = .ok (.entry parent name slashed))
    (link : fs.nodeAt? (parent ++ [name]) = some (.link target)) : rule slashed = false :=
  walkLinks_rule ((locate_eq located fs).symm.trans located) link

end Ends

/-- Whether a symbolic link stands at the end of a path. -/
def isLink (fs : FileSystem) (path : Path) : Bool :=
  (fs.find .keep path).toOption.any (·.2.isLink)

theorem isLink_of_locate {parent : Location} (located : fs.locate .keep path = .ok (.entry parent name false))
    (looked : fs.lookup parent name = .ok (some node)) : fs.isLink path = node.isLink := by
  rw [isLink, find, located]
  simp only [looked, Bool.false_and, Bool.false_eq_true, if_false]
  rfl

theorem lookup_eq_ok_iff {parent : Location} {found : Option Node} :
    fs.lookup parent name = .ok found ↔
      name.utf8ByteSize ≤ longestName ∧ fs.nodeAt? (parent ++ [name]) = found := by
  unfold lookup
  split
  case isTrue long => simp [Nat.not_le.mpr long]
  case isFalse short => simp [Nat.not_lt.mp short]

/-- What is no link is what a path to its place leads to. -/
theorem resolve_of_locate {parent : Location} (located : fs.locate rule path = .ok (.entry parent name false))
    (looked : fs.lookup parent name = .ok (some node)) (noLink : node.isLink = false) :
    fs.resolve path = .ok (parent ++ [name], node) := by
  have plain : Goal.Plain fs (.entry parent name false) := by
    intro target link
    cases (nodeAt?_of_lookup looked).symm.trans link
    cases noLink
  have followed : fs.locate .follow path = .ok (.entry parent name false) :=
    locate_of_plain (fun _ => rfl) located plain
  rw [resolve, find, followed]
  simp only [looked, Bool.false_and, Bool.false_eq_true, if_false]

/-- A file that is to be written to a path without a link at its end has its place there. -/
theorem locate_keep_of_bare (tree : fs.IsTree) {parent : Location}
    (located : fs.locate .followBare path = .ok (.entry parent name false))
    (noLink : fs.isLink path = false) : fs.locate .keep path = .ok (.entry parent name false) := by
  obtain ⟨kept, isKept, stops⟩ := exists_locate_keep located
  cases stops with
  | here => exact isKept
  | @link holder other slashed target followed found =>
    cases slashed with
    | true => cases followed
    | false =>
      have looked := lookup_eq_ok_iff.mpr ⟨(tree.named found).2, found⟩
      rw [isLink_of_locate isKept looked] at noLink
      cases noLink

/-- All nodes are kept, and only directories are added. -/
structure Grows (fs after : FileSystem) : Prop where
  current : after.current = fs.current
  kept : ∀ {location node}, fs.nodeAt? location = some node → after.nodeAt? location = some node
  added : ∀ {location node}, after.nodeAt? location = some node →
    fs.nodeAt? location = some node ∨ (fs.nodeAt? location = none ∧ node = .directory)

namespace Grows

theorem refl (fs : FileSystem) : Grows fs fs :=
  ⟨rfl, fun found => found, .inl⟩

theorem trans (first : Grows fs after) (second : Grows after last) : Grows fs last where
  current := second.current.trans first.current
  kept found := second.kept (first.kept found)
  added {location node} found := by
    rcases second.added found with found | ⟨absent, rfl⟩
    · exact first.added found
    · refine .inr ⟨?_, rfl⟩
      cases earlier : fs.nodeAt? location with
      | none => rfl
      | some node =>
        rw [first.kept earlier] at absent
        cases absent

theorem put (absent : fs.nodeAt? location = none) : Grows fs (fs.put location .directory) where
  current := rfl
  kept {other node} found := by
    rw [nodeAt?_put, if_neg]
    · exact found
    · rintro rfl
      rw [absent] at found
      cases found
  added {other node} found := by
    rw [nodeAt?_put] at found
    split at found
    case isTrue same =>
      cases found
      exact .inr ⟨same ▸ absent, rfl⟩
    case isFalse => exact .inl found

theorem retains (grows : Grows fs after) : Retains fs after where
  current := grows.current
  ways found _ := grows.kept found
  links found := (grows.added found).resolve_right fun ⟨_, impossible⟩ => nomatch impossible

end Grows

theorem createDirectory_spec (tree : fs.IsTree) (created : fs.createDirectory path = .ok after) :
    after.IsTree ∧ Grows fs after := by
  unfold createDirectory at created
  split at created
  · cases created
  · cases created
  case h_3 parent name slashed located =>
    obtain ⟨above, isName⟩ := locate_stands tree located
    split at created
    · cases created
    · cases created
    case h_3 looked =>
      cases created
      obtain ⟨short, absent⟩ := lookup_eq_ok_iff.mp looked
      refine ⟨tree.put above ?_ ⟨isName, short⟩ _, .put absent⟩
      rw [absent]
      exact nofun

theorem createInner_spec (tree : fs.IsTree) (paths : List Path) :
    (fs.createInner paths).1.IsTree ∧ Grows fs (fs.createInner paths).1 := by
  induction paths with
  | nil => exact ⟨tree, .refl fs⟩
  | cons path outer ih =>
    rw [createInner]
    split
    case h_1 created made => exact createDirectory_spec tree made
    case h_2 failure _ =>
      split
      · split
        case h_1 inner cause found =>
          rw [found] at ih
          exact ih
        case h_2 inner found =>
          rw [found] at ih
          split
          case h_1 created made =>
            obtain ⟨grown, grows⟩ := createDirectory_spec ih.1 made
            exact ⟨grown, ih.2.trans grows⟩
          case h_2 => exact ih
      · exact ⟨tree, .refl fs⟩

theorem createParents_spec (tree : fs.IsTree) (path : Path) :
    (fs.createParents path).1.IsTree ∧ Grows fs (fs.createParents path).1 := by
  unfold createParents
  split
  · exact createInner_spec tree _
  · exact ⟨tree, .refl fs⟩

/-- A place in a directory where a file may be written. -/
structure Writable (fs : FileSystem) (parent : Location) (name : String) : Prop where
  above : fs.nodeAt? parent = some .directory
  named : IsName name ∧ name.utf8ByteSize ≤ longestName
  free : ∀ {node}, fs.nodeAt? (parent ++ [name]) = some node →
    (node.isDirectory || node.isLink) = false

theorem Writable.isTree_put {parent : Location} (writable : fs.Writable parent name) (tree : fs.IsTree)
    (node : Node) : (fs.put (parent ++ [name]) node).IsTree := by
  refine tree.put writable.above ?_ writable.named node
  intro directory
  cases writable.free directory

theorem exists_of_openFile (tree : fs.IsTree) {found : Option Node}
    (opened : fs.openFile path = .ok (location, found)) :
    ∃ parent name, location = parent ++ [name] ∧ fs.Writable parent name ∧
      fs.locate .followBare path = .ok (.entry parent name false) ∧
      fs.lookup parent name = .ok found := by
  unfold openFile at opened
  split at opened
  · cases opened
  · cases opened
  case h_3 parent name slashed located =>
    cases slashed with
    | true => cases opened
    | false =>
      simp only [Bool.false_eq_true, if_false] at opened
      split at opened
      · cases opened
      · cases opened
      case h_3 node noDirectory looked =>
        cases opened
        obtain ⟨above, isName⟩ := locate_stands tree located
        obtain ⟨short, isFound⟩ := lookup_eq_ok_iff.mp looked
        refine ⟨parent, name, rfl, ⟨above, ⟨isName, short⟩, ?_⟩, located, looked⟩
        intro stored isStored
        rw [isFound] at isStored
        cases stored with
        | directory => exact absurd isStored noDirectory
        | link target => cases locate_rule located (isFound.trans isStored)
        | file | device => rfl

/-- The place of a file that is made sure to be there, if it has to be created. -/
structure Ensured (fs after : FileSystem) (path : Path) (time : Time) (place : Option Location) : Prop where
  tree : after.IsTree
  retains : Retains fs after
  retained : Retains after fs
  located : ∀ location ∈ place, ∃ parent name, location = parent ++ [name] ∧
    fs.locate .followBare path = .ok (.entry parent name false) ∧ fs.lookup parent name = .ok none
  nodeAt? : ∀ location, after.nodeAt? location =
    if place = some location then some (.file [] time) else fs.nodeAt? location

theorem Ensured.absent {place : Option Location} (ensured : Ensured fs after path time place) :
    ∀ location ∈ place, fs.nodeAt? location = none := by
  intro location member
  obtain ⟨parent, name, rfl, -, looked⟩ := ensured.located location member
  exact nodeAt?_of_lookup looked

theorem exists_ensured (tree : fs.IsTree) (ensured : fs.ensureFile path time = .ok after) :
    ∃ place, Ensured fs after path time place := by
  unfold ensureFile at ensured
  split at ensured
  · cases ensured
  · cases ensured
    exact ⟨none, tree, .refl fs, .refl fs, nofun, fun _ => rfl⟩
  case h_3 location opened =>
    cases ensured
    obtain ⟨parent, name, rfl, writable, located, looked⟩ := exists_of_openFile tree opened
    refine ⟨some (parent ++ [name]), writable.isTree_put tree _, .put writable.free rfl,
      .of_put writable.free rfl, ?_, fun other => ?_⟩
    · rintro _ ⟨⟩
      exact ⟨parent, name, rfl, located, looked⟩
    · rw [nodeAt?_put]
      simp only [Option.some.injEq]

/-- What is written to a device does not come to rest. -/
theorem flush_device (tree : fs.IsTree) (opened : fs.openFile path = .ok (location, some .device)) :
    fs.flush path = .error .invalidArgument := by
  obtain ⟨parent, name, rfl, -, located, looked⟩ := exists_of_openFile tree opened
  rw [flush, metadata, resolve_of_locate located looked rfl]
  rfl

/-- What is written stands in its place and comes to rest, unless a device swallows it. -/
theorem write_cases (tree : fs.IsTree) {content : Bytes}
    (written : fs.write path content time = .ok after) :
    (after = fs ∧ fs.flush path = .error .invalidArgument) ∨
      ∃ parent name, fs.Writable parent name ∧
        fs.locate .followBare path = .ok (.entry parent name false) ∧
        after = fs.put (parent ++ [name]) (.file content time) ∧ after.flush path = .ok () := by
  unfold write at written
  split at written
  · cases written
  case h_2 location opened =>
    cases written
    exact .inl ⟨rfl, flush_device tree opened⟩
  case h_3 location found _ opened =>
    cases written
    obtain ⟨parent, name, rfl, writable, located, -⟩ := exists_of_openFile tree opened
    refine .inr ⟨parent, name, writable, located, rfl, ?_⟩
    have stored : (fs.put (parent ++ [name]) (.file content time)).nodeAt? (parent ++ [name]) =
        some (.file content time) := by rw [nodeAt?_put, if_pos rfl]
    have retains : Retains fs (fs.put (parent ++ [name]) (.file content time)) := .put writable.free rfl
    rw [flush, metadata, resolve_of_locate (retains.locate located)
      (lookup_eq_ok_iff.mpr ⟨writable.named.2, stored⟩) rfl]
    rfl

theorem exists_of_write (tree : fs.IsTree) {content : Bytes}
    (written : fs.write path content time = .ok after) (flushed : after.flush path = .ok ()) :
    ∃ parent name, fs.Writable parent name ∧
      fs.locate .followBare path = .ok (.entry parent name false) ∧
      after = fs.put (parent ++ [name]) (.file content time) := by
  rcases write_cases tree written with ⟨rfl, failed⟩ | ⟨parent, name, writable, located, isAfter, -⟩
  · cases failed.symm.trans flushed
  · exact ⟨parent, name, writable, located, isAfter⟩

theorem mem_nodes_iff (distinct : Assoc.Distinct fs.nodes) :
    (location, node) ∈ fs.nodes ↔ fs.nodeAt? location = some node := by
  constructor
  · exact fun member => distinct.get?_of_mem member
  · intro found
    obtain ⟨entry, member, same, rfl⟩ := Assoc.exists_mem_of_get? found
    cases eq_of_beq same
    exact member

/-- Below what is no directory nothing stands. -/
theorem IsTree.eq_of_isPrefixOf (tree : fs.IsTree) (leaf : fs.nodeAt? location ≠ some .directory)
    {other : Location} (found : fs.nodeAt? other = some node)
    (below : location.isPrefixOf other = true) : other = location := by
  obtain ⟨rest, rfl⟩ := List.isPrefixOf_iff_prefix.mp below
  by_cases here : rest = []
  · rw [here, List.append_nil]
  · exact absurd (tree.directory_of_append here found) leaf

theorem isPrefixOf_self (location : Location) : location.isPrefixOf location = true :=
  List.isPrefixOf_iff_prefix.mpr (List.prefix_refl location)

/-- A node may be moved to a free place, or to one that is no directory, if it is none either. -/
structure Movable (fs : FileSystem) (source goal : Location) (node : Node) : Prop where
  found : fs.nodeAt? source = some node
  leaf : node.isDirectory = false
  free : fs.nodeAt? goal ≠ some .directory
  apart : source ≠ goal

namespace Movable

variable (movable : Movable fs source goal node)
include movable

theorem source_ne : fs.nodeAt? source ≠ some .directory := by
  rw [movable.found]
  rintro ⟨⟩
  cases movable.leaf

theorem mem_move (tree : fs.IsTree) {other : Location} {stored : Node} :
    (other, stored) ∈ (fs.move source goal).nodes ↔
      (other = goal ∧ stored = node) ∨
        (other ≠ goal ∧ other ≠ source ∧ fs.nodeAt? other = some stored) := by
  simp only [move, drop, List.mem_map, List.mem_filter, Bool.not_eq_eq_eq_not, Bool.not_true]
  constructor
  · rintro ⟨⟨origin, kept⟩, ⟨member, outside⟩, moved⟩
    have found := (mem_nodes_iff tree.distinct).mp member
    split at moved
    case isTrue below =>
      have same := tree.eq_of_isPrefixOf movable.source_ne found below
      subst same
      rw [movable.found] at found
      cases found
      cases moved
      left
      simp
    case isFalse notBelow =>
      cases moved
      refine .inr ⟨?_, ?_, found⟩
      · rintro rfl
        rw [isPrefixOf_self] at outside
        cases outside
      · rintro rfl
        exact notBelow (isPrefixOf_self _)
  · rintro (⟨rfl, rfl⟩ | ⟨notGoal, notSource, found⟩)
    · refine ⟨(source, stored), ⟨(mem_nodes_iff tree.distinct).mpr movable.found, ?_⟩, ?_⟩
      · refine eq_false_of_ne_true fun below => movable.apart ?_
        exact tree.eq_of_isPrefixOf movable.free movable.found below
      · simp
    · refine ⟨(other, stored), ⟨(mem_nodes_iff tree.distinct).mpr found, ?_⟩, ?_⟩
      · refine eq_false_of_ne_true fun below => notGoal ?_
        exact tree.eq_of_isPrefixOf movable.free found below
      · rw [if_neg]
        exact fun below => notSource (tree.eq_of_isPrefixOf movable.source_ne found below)

theorem distinct_move (tree : fs.IsTree) : Assoc.Distinct (fs.move source goal).nodes := by
  refine List.pairwise_map.mpr ((List.Pairwise.filter _ tree.distinct).imp_of_mem ?_)
  rintro ⟨first, node'⟩ ⟨second, other⟩ isFirst isSecond apart
  obtain ⟨isFirst, outsideFirst⟩ := List.mem_filter.mp isFirst
  obtain ⟨isSecond, outsideSecond⟩ := List.mem_filter.mp isSecond
  have atSource {other : Location} {stored : Node} (member : (other, stored) ∈ fs.nodes)
      (below : source.isPrefixOf other = true) : other = source :=
    tree.eq_of_isPrefixOf movable.source_ne ((mem_nodes_iff tree.distinct).mp member) below
  have notGoal {other : Location} (outside : (!goal.isPrefixOf other) = true) : other ≠ goal := by
    rintro rfl
    rw [isPrefixOf_self] at outside
    cases outside
  rw [beq_eq_false_iff_ne] at apart ⊢
  dsimp only at *
  split <;> split
  case isTrue.isTrue below below' =>
    exact absurd ((atSource isFirst below).trans (atSource isSecond below').symm) apart
  case isTrue.isFalse below _ =>
    cases atSource isFirst below
    simpa using (notGoal outsideSecond).symm
  case isFalse.isTrue _ below =>
    cases atSource isSecond below
    simpa using notGoal outsideFirst
  case isFalse.isFalse => exact apart

theorem nodeAt?_move (tree : fs.IsTree) (other : Location) :
    (fs.move source goal).nodeAt? other =
      if other = goal then some node else if other = source then none else fs.nodeAt? other := by
  refine Option.ext fun stored => ?_
  rw [← mem_nodes_iff (movable.distinct_move tree), movable.mem_move tree]
  by_cases here : other = goal
  · simp [here, eq_comm]
  · by_cases gone : other = source
    · simp [gone, movable.apart]
    · simp [here, gone]

theorem directory_move (tree : fs.IsTree) {other : Location}
    (directory : fs.nodeAt? other = some .directory) :
    (fs.move source goal).nodeAt? other = some .directory := by
  have notGoal : other ≠ goal := fun same => movable.free (same ▸ directory)
  have notSource : other ≠ source := fun same => movable.source_ne (same ▸ directory)
  rw [movable.nodeAt?_move tree, if_neg notGoal, if_neg notSource]
  exact directory

/-- What is moved into a directory leaves a tree. -/
theorem isTree_move (tree : fs.IsTree) {parent : Location} (isGoal : goal = parent ++ [name])
    (above : fs.nodeAt? parent = some .directory)
    (named : IsName name ∧ name.utf8ByteSize ≤ longestName) : (fs.move source goal).IsTree where
  distinct := movable.distinct_move tree
  root := movable.directory_move tree tree.root
  current := movable.directory_move tree tree.current
  inside {holder other stored} inside := by
    apply movable.directory_move tree
    rw [movable.nodeAt?_move tree] at inside
    split at inside
    case isTrue here =>
      rw [(List.append_inj' (here.trans isGoal) rfl).1]
      exact above
    case isFalse =>
      split at inside
      · cases inside
      · exact tree.inside inside
  named {holder other stored} inside := by
    rw [movable.nodeAt?_move tree] at inside
    split at inside
    case isTrue here =>
      cases (List.append_inj' (here.trans isGoal) rfl).2
      exact named
    case isFalse =>
      split at inside
      · cases inside
      · exact tree.named inside

end Movable

theorem exists_of_rename (renamed : fs.rename path target = .ok after) :
    ∃ parent name slashed goalParent goalName goalSlashed node occupant,
      fs.locate .keep path = .ok (.entry parent name slashed) ∧
      fs.locate .keep target = .ok (.entry goalParent goalName goalSlashed) ∧
      fs.lookup parent name = .ok (some node) ∧
      fs.lookup goalParent goalName = .ok occupant ∧
      (node.isDirectory = false → slashed = false ∧ goalSlashed = false) ∧
      fs.hindrance? (parent ++ [name]) node (goalParent ++ [goalName]) occupant = none ∧
      after = if parent ++ [name] = goalParent ++ [goalName] then fs
        else fs.move (parent ++ [name]) (goalParent ++ [goalName]) := by
  unfold rename at renamed
  simp only [bind, Except.bind] at renamed
  split at renamed
  · cases renamed
  case h_2 first isFirst =>
  split at renamed
  · cases renamed
  case h_2 second isSecond =>
  split at renamed
  case h_2 => cases renamed
  case h_1 parent name slashed goalParent goalName goalSlashed =>
  split at renamed
  · cases renamed
  case h_2 found isFound =>
  split at renamed
  · cases renamed
  case h_2 node =>
  split at renamed
  · cases renamed
  case h_2 occupant isOccupant =>
  split at renamed
  · cases renamed
  case isFalse unslashed =>
  split at renamed
  · cases renamed
  case h_2 free =>
    refine ⟨parent, name, slashed, goalParent, goalName, goalSlashed, node, occupant, isFirst, isSecond,
      isFound, isOccupant, ?_, free, ?_⟩
    · intro leaf
      simpa [leaf] using unslashed
    · simp only [beq_iff_eq] at renamed
      split at renamed
      case isTrue same =>
        cases renamed
        rw [if_pos same]
      case isFalse apart =>
        cases renamed
        rw [if_neg apart]

theorem hindrance?_leaf {occupant : Option Node} (leaf : node.isDirectory = false)
    (free : fs.hindrance? source node goal occupant = none) (apart : source ≠ goal) :
    occupant ≠ some .directory := by
  rintro rfl
  have isDirectory : Node.directory.isDirectory = true := rfl
  simp only [hindrance?, beq_iff_eq, apart, if_false, leaf, isDirectory, Bool.false_and, Bool.not_false,
    Bool.true_and, Bool.false_eq_true, if_true] at free
  split at free
  · cases free
  · split at free <;> cases free

/-- How a file system looks after a file was moved to a place where no directory stands: a lock may have
been added, and what was drafted at one place stands at the other one. -/
structure Exchanged (fs after : FileSystem) (file : Node) (time : Time) (lock : Option Location)
    (draft goal : Location) : Prop where
  tree : after.IsTree
  current : after.current = fs.current
  added : ∀ location ∈ lock, fs.nodeAt? location = none
  drafted : ∀ {node}, fs.nodeAt? draft = some node → (node.isDirectory || node.isLink) = false
  free : fs.nodeAt? goal ≠ some .directory
  nodeAt? : ∀ location, after.nodeAt? location =
    if location = goal then some file
    else if location = draft then none
    else if lock = some location then some (.file [] time)
    else fs.nodeAt? location

/-- A file was replaced if no link stood in its place. -/
structure Replaced (fs after : FileSystem) (file : Node) (time : Time) (lock : Option Location)
    (draft goal : Location) : Prop extends Exchanged fs after file time lock draft goal where
  retains : Retains fs after

theorem Exchanged.nodeAt?_eq {file : Node} {lock : Option Location} {draft : Location}
    (exchanged : Exchanged fs after file time lock draft goal) (found : fs.nodeAt? location = some node)
    (isWay : (node.isDirectory || node.isLink) = true) (apart : location ≠ goal) :
    after.nodeAt? location = some node := by
  rw [exchanged.nodeAt?, if_neg apart, if_neg, if_neg]
  · exact found
  · intro isLock
    cases (exchanged.added location isLock).symm.trans found
  · rintro rfl
    cases (exchanged.drafted found).symm.trans isWay

theorem Exchanged.of_nodeAt? {file : Node} {lock : Option Location} {draft : Location}
    (exchanged : Exchanged fs after file time lock draft goal) (leaf : file.isFile = true)
    (found : after.nodeAt? location = some node) (isWay : (node.isDirectory || node.isLink) = true) :
    location ≠ goal ∧ fs.nodeAt? location = some node := by
  rw [exchanged.nodeAt?] at found
  split at found
  · cases found
    cases node <;> cases isWay <;> cases leaf
  case isFalse apart =>
  split at found
  · cases found
  split at found
  · cases found
    cases isWay
  · exact ⟨apart, found⟩

theorem exists_of_isLink (link : fs.isLink path = true) :
    ∃ parent name target, fs.locate .keep path = .ok (.entry parent name false) ∧
      fs.lookup parent name = .ok (some (.link target)) := by
  obtain ⟨⟨location, node⟩, found, isLink⟩ := (Option.any_eq_true _ _).mp link
  obtain ⟨goal, located, settled⟩ := find_eq_ok_iff.mp (eq_ok_of_toOption found)
  cases goal with
  | directory =>
    cases settled
    cases isLink
  | entry parent name slashed =>
    simp only [settle] at settled
    split at settled
    · cases settled
    · cases settled
    case h_3 stored looked =>
      split at settled
      · cases settled
      case isFalse unslashed =>
        cases settled
        cases node with
        | link target =>
          cases slashed with
          | true => exact absurd rfl unslashed
          | false => exact ⟨parent, name, target, located, looked⟩
        | file | directory | device => cases isLink

theorem isLink_eq_false (plain : ∀ entry ∈ fs.nodes, entry.2.isLink = false) (path : Path) :
    fs.isLink path = false := by
  refine eq_false_of_ne_true fun link => ?_
  obtain ⟨parent, name, target, -, looked⟩ := exists_of_isLink link
  obtain ⟨entry, member, -, isLink⟩ := Assoc.exists_mem_of_get? (nodeAt?_of_lookup looked)
  have isPlain := plain entry member
  rw [isLink] at isPlain
  cases isPlain

theorem Retains.isLink (retains : Retains fs after) (link : fs.isLink path = true) :
    after.isLink path = true := by
  obtain ⟨parent, name, target, located, looked⟩ := exists_of_isLink link
  exact isLink_of_locate (retains.locate located) (retains.toWays.lookup looked rfl)

/-- The file that was replaced can be read. -/
theorem Replaced.resolve {file : Node} {lock : Option Location} {draft parent : Location}
    (replaced : Replaced fs after file time lock draft (parent ++ [name]))
    (located : fs.locate .keep path = .ok (.entry parent name false)) (isFile : file.isFile = true) :
    after.resolve path = .ok (parent ++ [name], file) := by
  have found : after.nodeAt? (parent ++ [name]) = some file := by rw [replaced.nodeAt?, if_pos rfl]
  refine resolve_of_locate (replaced.retains.locate located)
    (lookup_eq_ok_iff.mpr ⟨(replaced.tree.named found).2, found⟩) ?_
  cases file <;> first | rfl | cases isFile

/-- A file that is renamed leaves its place for the other one, where no directory stands. -/
theorem exists_moved (tree : fs.IsTree) {parent : Location}
    (located : fs.locate .keep path = .ok (.entry parent name false))
    (found : fs.nodeAt? (parent ++ [name]) = some node) (leaf : node.isDirectory = false)
    (renamed : fs.rename path target = .ok after) :
    ∃ goalParent goalName, fs.locate .keep target = .ok (.entry goalParent goalName false) ∧
      goalName.utf8ByteSize ≤ longestName ∧
      fs.nodeAt? (goalParent ++ [goalName]) ≠ some .directory ∧
      after.IsTree ∧ after.current = fs.current ∧ ∀ location, after.nodeAt? location =
        if location = goalParent ++ [goalName] then some node
        else if location = parent ++ [name] then none else fs.nodeAt? location := by
  obtain ⟨_, _, _, goalParent, goalName, goalSlashed, stored, occupant, atSource, atGoal, looked,
    goalLooked, unslashed, free, isAfter⟩ := exists_of_rename renamed
  cases located.symm.trans atSource
  cases found.symm.trans (nodeAt?_of_lookup looked)
  obtain ⟨-, rfl⟩ := unslashed leaf
  obtain ⟨short, goalFound⟩ := lookup_eq_ok_iff.mp goalLooked
  refine ⟨goalParent, goalName, atGoal, short, ?_⟩
  split at isAfter
  case isTrue same =>
    subst isAfter
    refine ⟨?_, tree, rfl, fun location => ?_⟩
    · rw [← same, found]
      rintro ⟨⟩
      cases leaf
    rw [← same]
    split
    case isTrue here => rw [here, found]
    case isFalse => rfl
  case isFalse apart =>
    subst isAfter
    have noDirectory : fs.nodeAt? (goalParent ++ [goalName]) ≠ some .directory := by
      rw [goalFound]
      exact hindrance?_leaf leaf free apart
    have movable : Movable fs (parent ++ [name]) (goalParent ++ [goalName]) node :=
      ⟨found, leaf, noDirectory, apart⟩
    obtain ⟨above, isName⟩ := locate_stands tree atGoal
    exact ⟨noDirectory, movable.isTree_move tree rfl above ⟨isName, short⟩, rfl, movable.nodeAt?_move tree⟩

/-- What was written beside a path is moved to its place. -/
theorem exchanged_of_steps (tree : fs.IsTree) {lock draft : Path} {content : Bytes}
    {locked drafted : FileSystem} (ensured : fs.ensureFile lock time = .ok locked)
    (written : locked.write draft content time = .ok drafted) (flushed : drafted.flush draft = .ok ())
    (renamed : drafted.rename draft path = .ok after) (plainDraft : fs.isLink draft = false) :
    ∃ place draftParent draftName goalParent goalName,
      Ensured fs locked lock time place ∧
      fs.locate .keep draft = .ok (.entry draftParent draftName false) ∧
      fs.locate .keep path = .ok (.entry goalParent goalName false) ∧
      goalName.utf8ByteSize ≤ longestName ∧
      Exchanged fs after (.file content time) time place (draftParent ++ [draftName])
        (goalParent ++ [goalName]) := by
  obtain ⟨place, isEnsured⟩ := exists_ensured tree ensured
  obtain ⟨draftParent, draftName, writable, isPlace, rfl⟩ :=
    exists_of_write isEnsured.tree written flushed
  let file : Node := .file content time
  have toDrafted : Retains locked (locked.put (draftParent ++ [draftName]) file) :=
    .put writable.free rfl
  have ofDrafted : Retains (locked.put (draftParent ++ [draftName]) file) locked :=
    .of_put writable.free rfl
  -- The draft is not at the end of a link, so that the content itself is moved.
  have atDraft : locked.locate .keep draft = .ok (.entry draftParent draftName false) := by
    refine locate_keep_of_bare isEnsured.tree isPlace (eq_false_of_ne_true fun link => ?_)
    rw [isEnsured.retained.isLink link] at plainDraft
    cases plainDraft
  have found : (locked.put (draftParent ++ [draftName]) file).nodeAt? (draftParent ++ [draftName]) =
      some file := by
    rw [nodeAt?_put, if_pos rfl]
  obtain ⟨goalParent, goalName, atGoal, short, free, isTree, current, nodes⟩ :=
    exists_moved (writable.isTree_put isEnsured.tree file) (toDrafted.locate atDraft) found rfl renamed
  refine ⟨place, draftParent, draftName, goalParent, goalName, isEnsured,
    isEnsured.retained.locate atDraft, isEnsured.retained.locate (ofDrafted.locate atGoal), short,
    isTree, current.trans isEnsured.retains.current, isEnsured.absent, fun stored => ?_, fun directory => ?_,
    fun location => ?_⟩
  · refine eq_false_of_ne_true fun isWay => ?_
    cases (writable.free (isEnsured.retains.ways stored isWay)).symm.trans isWay
  · exact free (toDrafted.ways (isEnsured.retains.ways directory rfl) rfl)
  · rw [nodes, nodeAt?_put, isEnsured.nodeAt?]
    split
    · rfl
    · split
      · rfl
      case isFalse away => rw [if_neg (Ne.symm away)]

/-- What was written beside a file is moved over it. -/
theorem replaced_of_steps (tree : fs.IsTree) {lock draft : Path} {content : Bytes}
    {locked drafted : FileSystem} (ensured : fs.ensureFile lock time = .ok locked)
    (written : locked.write draft content time = .ok drafted) (flushed : drafted.flush draft = .ok ())
    (renamed : drafted.rename draft path = .ok after) (plainDraft : fs.isLink draft = false)
    (plainPath : fs.isLink path = false) :
    ∃ place draftParent draftName goalParent goalName,
      Ensured fs locked lock time place ∧
      fs.locate .keep draft = .ok (.entry draftParent draftName false) ∧
      fs.locate .keep path = .ok (.entry goalParent goalName false) ∧
      Replaced fs after (.file content time) time place (draftParent ++ [draftName])
        (goalParent ++ [goalName]) := by
  obtain ⟨place, draftParent, draftName, goalParent, goalName, isEnsured, atDraft, atGoal, short,
    exchanged⟩ := exchanged_of_steps tree ensured written flushed renamed plainDraft
  refine ⟨place, draftParent, draftName, goalParent, goalName, isEnsured, atDraft, atGoal, exchanged,
    exchanged.current, fun {location node} found isWay => ?_,
    fun link => (exchanged.of_nodeAt? rfl link rfl).2⟩
  refine exchanged.nodeAt?_eq found isWay ?_
  rintro rfl
  cases node with
  | directory => exact exchanged.free found
  | link =>
    rw [isLink_of_locate atGoal (lookup_eq_ok_iff.mpr ⟨short, found⟩)] at plainPath
    cases plainPath
  | file | device => cases isWay

end DepAtlas.FileSystem
