import DepAtlas.FileSystem.Edit
import DepAtlas.Proofs.FileSystem.Spelling
import DepAtlas.Proofs.Text.Basic

/-!
File systems as trees. Every look-up starts in a directory and goes from directory to directory, so that
what it finds stands in one. A look-up passes directories and links only: it ends as before in a file
system that has the same of both.
-/

namespace DepAtlas.FileSystem

variable {fs after last : FileSystem} {location : Location} {name : String} {node : Node}
  {rule : LinkRule}

theorem nodeAt?_put (fs : FileSystem) (location other : Location) (node : Node) :
    (fs.put location node).nodeAt? other =
      if location = other then some node else fs.nodeAt? other := by
  rw [nodeAt?, put, Assoc.get?_put]
  simp only [beq_iff_eq]
  rfl

/-- A segment of a path that names something. -/
structure IsName (segment : String) : Prop where
  named : isVoid segment = false
  proper : segment ≠ ".."
  whole : '/' ∉ segment.toList

/-- Nodes are stored once, the root and the current directory are directories, and every other node
stands in one under a name that can be looked up. -/
structure IsTree (fs : FileSystem) : Prop where
  distinct : Assoc.Distinct fs.nodes
  root : fs.nodeAt? [] = some .directory
  current : fs.nodeAt? fs.current = some .directory
  inside : ∀ {parent name node}, fs.nodeAt? (parent ++ [name]) = some node →
    fs.nodeAt? parent = some .directory
  named : ∀ {parent name node}, fs.nodeAt? (parent ++ [name]) = some node →
    IsName name ∧ name.utf8ByteSize ≤ longestName

namespace IsTree

theorem dropLast (tree : fs.IsTree) (found : fs.nodeAt? location = some .directory) :
    fs.nodeAt? location.dropLast = some .directory := by
  rcases List.eq_nil_or_concat location with rfl | ⟨parent, name, rfl⟩
  · exact found
  · rw [List.concat_eq_append] at found ⊢
    rw [List.dropLast_concat]
    exact tree.inside found

/-- What stands below another location stands below a directory. -/
theorem directory_of_append (tree : fs.IsTree) {rest : Location} (below : rest ≠ [])
    (found : fs.nodeAt? (location ++ rest) = some node) : fs.nodeAt? location = some .directory := by
  induction rest generalizing location with
  | nil => exact absurd rfl below
  | cons first more ih =>
    have direct : ∃ stored, fs.nodeAt? (location ++ [first]) = some stored := by
      by_cases deeper : more = []
      · exact ⟨node, deeper ▸ found⟩
      · rw [← List.singleton_append, ← List.append_assoc] at found
        exact ⟨_, ih deeper found⟩
    obtain ⟨stored, found⟩ := direct
    exact tree.inside found

/-- A node may be put into a directory, unless a directory stands in its place. -/
theorem put (tree : fs.IsTree) (found : fs.nodeAt? location = some .directory)
    (free : fs.nodeAt? (location ++ [name]) ≠ some .directory)
    (named : IsName name ∧ name.utf8ByteSize ≤ longestName) (node : Node) :
    (fs.put (location ++ [name]) node).IsTree := by
  have kept {other : Location} (directory : fs.nodeAt? other = some .directory) :
      (fs.put (location ++ [name]) node).nodeAt? other = some .directory := by
    rw [nodeAt?_put, if_neg]
    · exact directory
    · rintro rfl
      exact free directory
  refine ⟨tree.distinct.put _ _, kept tree.root, kept tree.current, ?_, ?_⟩
  · intro parent other stored inside
    rw [nodeAt?_put] at inside
    split at inside
    case isTrue same =>
      rw [← (List.append_inj' same rfl).1]
      exact kept found
    case isFalse => exact kept (tree.inside inside)
  · intro parent other stored inside
    rw [nodeAt?_put] at inside
    split at inside
    case isTrue same =>
      cases (List.append_inj' same rfl).2
      exact named
    case isFalse => exact tree.named inside

end IsTree

/-- Whether a location is the root, or has a name that can be looked up and stands in a directory. -/
def isPlaced (fs : FileSystem) (location : Location) : Bool :=
  location.getLast?.all fun name =>
    !isVoid name && name != ".." && !name.toList.contains '/' && name.utf8ByteSize ≤ longestName &&
      (fs.nodeAt? location.dropLast).any Node.isDirectory

theorem Node.eq_directory_of_any {stored : Option Node} (isDirectory : stored.any Node.isDirectory) :
    stored = some .directory := by
  cases stored with
  | none => cases isDirectory
  | some node =>
    cases node with
    | directory => rfl
    | file | link | device => cases isDirectory

/-- A file system is a tree if all its nodes have a place. -/
theorem isTree_of_isPlaced (distinct : (fs.nodes.map (·.1)).Nodup)
    (root : (fs.nodeAt? []).any Node.isDirectory) (current : (fs.nodeAt? fs.current).any Node.isDirectory)
    (placed : (fs.nodes.map (·.1)).all fs.isPlaced) : fs.IsTree := by
  have place {parent : Location} {name : String} {node : Node}
      (found : fs.nodeAt? (parent ++ [name]) = some node) : fs.isPlaced (parent ++ [name]) = true := by
    obtain ⟨entry, member, same, -⟩ := Assoc.exists_mem_of_get? found
    rw [← eq_of_beq same]
    exact List.all_eq_true.mp placed entry.1 (List.mem_map.mpr ⟨entry, member, rfl⟩)
  simp only [isPlaced, List.getLast?_concat, List.dropLast_concat, Option.all_some, Bool.and_eq_true,
    Bool.not_eq_true', bne_iff_ne, decide_eq_true_eq] at place
  refine ⟨?_, Node.eq_directory_of_any root, Node.eq_directory_of_any current, ?_, ?_⟩
  · exact (List.pairwise_map.mp distinct).imp fun apart => beq_eq_false_iff_ne.mpr apart
  · intro parent name node found
    exact Node.eq_directory_of_any (place found).2
  · intro parent name node found
    obtain ⟨⟨⟨⟨void, proper⟩, whole⟩, short⟩, -⟩ := place found
    exact ⟨⟨void, proper, by simpa using whole⟩, short⟩

/-- Whether a look-up has come to a directory, and to a name if it ends in one. -/
def Goal.Stands (fs : FileSystem) : Goal → Prop
  | .directory location => fs.nodeAt? location = some .directory
  | .entry parent name _ => fs.nodeAt? parent = some .directory ∧ IsName name

section Landing

variable {again : Location → List String → Except IoFailure Goal}

/-- No separator stands in a segment. -/
def Whole (segments : List String) : Prop :=
  ∀ segment ∈ segments, '/' ∉ segment.toList

theorem whole_segments (path : Path) : Whole path.segments := by
  intro segment member
  obtain ⟨piece, isPiece, rfl⟩ := List.mem_map.mp member
  rw [String.toList_ofList]
  intro slash
  exact absurd (Text.splitWhere_avoids isPiece _ slash) (by decide)

theorem Whole.append {first second : List String} (whole : Whole first) (more : Whole second) :
    Whole (first ++ second) :=
  fun segment member => (List.mem_append.mp member).elim (whole segment) (more segment)

theorem walkSegments_stands (tree : fs.IsTree)
    (stands : ∀ {location segments goal}, fs.nodeAt? location = some .directory → Whole segments →
      again location segments = .ok goal → goal.Stands fs)
    {segments : List String} {goal : Goal} (start : fs.nodeAt? location = some .directory)
    (whole : Whole segments) (walked : fs.walkSegments rule again location segments = .ok goal) :
    goal.Stands fs := by
  have after {segment : String} {rest : List String} (whole : Whole (segment :: rest)) : Whole rest :=
    fun other member => whole other (List.mem_cons_of_mem _ member)
  have enter {location : Location} {target : Path} {rest : List String}
      (start : fs.nodeAt? location = some .directory) (whole : Whole rest)
      (entered : again (if target.isAbsolute then [] else location) (target.segments ++ rest) = .ok goal) :
      goal.Stands fs := by
    refine stands ?_ ((whole_segments target).append whole) entered
    split
    · exact tree.root
    · exact start
  rw [walkSegments_eq_ok_iff] at walked
  induction walked with
  | stop isGoal => exact isGoal ▸ start
  | void _ _ ih => exact ih start (after whole)
  | up _ ih => exact ih (tree.dropLast start) (after whole)
  | entry named proper _ _ isGoal => exact isGoal ▸ ⟨start, named, proper, whole _ List.mem_cons_self⟩
  | into _ _ _ looked _ ih => exact ih (nodeAt?_of_lookup looked) (after whole)
  | follow _ _ _ _ _ entered | through _ _ _ _ entered => exact enter start (after whole) entered

theorem walkLinks_stands (tree : fs.IsTree) {links : Nat} {segments : List String} {goal : Goal}
    (start : fs.nodeAt? location = some .directory) (whole : Whole segments)
    (walked : fs.walkLinks rule links location segments = .ok goal) : goal.Stands fs := by
  induction links generalizing location segments goal with
  | zero =>
    exact walkSegments_stands tree (fun _ _ impossible => by cases impossible) start whole walked
  | succ links ih =>
    exact walkSegments_stands tree (fun start whole walked => ih start whole walked) start whole walked

/-- What a path leads to stands in a directory. -/
theorem locate_stands (tree : fs.IsTree) {path : Path} {goal : Goal}
    (located : fs.locate rule path = .ok goal) : goal.Stands fs := by
  have walked := (locate_eq located fs).symm.trans located
  refine walkLinks_stands tree ?_ (whole_segments path) walked
  split
  · exact tree.root
  · exact tree.current

end Landing

/-- Directories and links of one file system are in another one, which may have more of both. -/
structure Ways (fs after : FileSystem) : Prop where
  current : after.current = fs.current
  ways : ∀ {location node}, fs.nodeAt? location = some node →
    (node.isDirectory || node.isLink) = true → after.nodeAt? location = some node

theorem Ways.lookup (ways : Ways fs after) (looked : fs.lookup location name = .ok (some node))
    (isWay : (node.isDirectory || node.isLink) = true) :
    after.lookup location name = .ok (some node) := by
  have found := ways.ways (nodeAt?_of_lookup looked) isWay
  unfold FileSystem.lookup at looked ⊢
  split at looked
  · cases looked
  case isFalse short => rw [if_neg short, found]

/-- The other file system has no other links, or the rule stops at them. -/
def Ways.Stops (fs after : FileSystem) (rule : LinkRule) : Prop :=
  ∀ {location target slashed}, after.nodeAt? location = some (.link target) →
    fs.nodeAt? location = some (.link target) ∨ rule slashed = false

namespace Ways

variable {again again' : Location → List String → Except IoFailure Goal}

theorem walkSegments (ways : Ways fs after) (stops : Stops fs after rule)
    (follows : ∀ {location segments goal}, again location segments = .ok goal →
      again' location segments = .ok goal)
    {segments : List String} {goal : Goal}
    (walked : fs.walkSegments rule again location segments = .ok goal) :
    after.walkSegments rule again' location segments = .ok goal := by
  rw [walkSegments_eq_ok_iff] at walked ⊢
  induction walked with
  | stop isGoal => exact .stop isGoal
  | void isVoid _ ih => exact .void isVoid ih
  | up _ ih => exact .up ih
  | entry named proper last kept isGoal =>
    exact .entry named proper last (fun target found => (stops found).elim (kept target) id) isGoal
  | follow named proper last found followed entered =>
    exact .follow named proper last (ways.ways found rfl) followed (follows entered)
  | into named proper more looked _ ih => exact .into named proper more (ways.lookup looked rfl) ih
  | through named proper more looked entered =>
    exact .through named proper more (ways.lookup looked rfl) (follows entered)

theorem walkLinks (ways : Ways fs after) (stops : Stops fs after rule) {links : Nat}
    {segments : List String} {goal : Goal}
    (walked : fs.walkLinks rule links location segments = .ok goal) :
    after.walkLinks rule links location segments = .ok goal := by
  induction links generalizing location segments goal with
  | zero => exact ways.walkSegments stops (fun impossible => by cases impossible) walked
  | succ links ih => exact ways.walkSegments stops (fun walked => ih walked) walked

theorem locate (ways : Ways fs after) (stops : Stops fs after rule) {path : Path} {goal : Goal}
    (located : fs.locate rule path = .ok goal) : after.locate rule path = .ok goal := by
  have walked := (locate_eq located fs).symm.trans located
  rw [locate_eq located after, ways.current]
  exact ways.walkLinks stops walked

/-- Where links stand for themselves, more ways do no harm to a path that leads somewhere. -/
theorem locate_keep (ways : Ways fs after) {path : Path} {goal : Goal}
    (located : fs.locate .keep path = .ok goal) : after.locate .keep path = .ok goal :=
  ways.locate (fun _ => .inr rfl) located

end Ways

/-- Directories and links of one file system are in another one, which has no other links. -/
structure Retains (fs after : FileSystem) : Prop where
  current : after.current = fs.current
  ways : ∀ {location node}, fs.nodeAt? location = some node →
    (node.isDirectory || node.isLink) = true → after.nodeAt? location = some node
  links : ∀ {location target}, after.nodeAt? location = some (.link target) →
    fs.nodeAt? location = some (.link target)

namespace Retains

theorem refl (fs : FileSystem) : Retains fs fs :=
  ⟨rfl, fun found _ => found, fun found => found⟩

theorem trans (first : Retains fs after) (second : Retains after last) : Retains fs last where
  current := second.current.trans first.current
  ways found isWay := second.ways (first.ways found isWay) isWay
  links found := first.links (second.links found)

/-- A file may be put where neither a directory nor a link stands, and a directory where nothing does. -/
theorem put (free : ∀ {stored}, fs.nodeAt? location = some stored →
      (stored.isDirectory || stored.isLink) = false) (noLink : node.isLink = false) :
    Retains fs (fs.put location node) where
  current := rfl
  ways {other stored} found isWay := by
    rw [nodeAt?_put, if_neg]
    · exact found
    · rintro rfl
      rw [free found] at isWay
      cases isWay
  links {other target} found := by
    rw [nodeAt?_put] at found
    split at found
    · cases found
      cases noLink
    · exact found

/-- What is put in without hiding a directory or a link can be taken out again. -/
theorem of_put (free : ∀ {stored}, fs.nodeAt? location = some stored →
      (stored.isDirectory || stored.isLink) = false)
    (noWay : (node.isDirectory || node.isLink) = false) : Retains (fs.put location node) fs where
  current := rfl
  ways {other stored} found isWay := by
    rw [nodeAt?_put] at found
    split at found
    · cases found
      rw [noWay] at isWay
      cases isWay
    · exact found
  links {other target} found := by
    rw [nodeAt?_put, if_neg]
    · exact found
    · rintro rfl
      cases free found

theorem toWays (retains : Retains fs after) : Ways fs after :=
  ⟨retains.current, retains.ways⟩

/-- A path that leads somewhere still leads there. -/
theorem locate (retains : Retains fs after) {path : Path} {goal : Goal}
    (located : fs.locate rule path = .ok goal) : after.locate rule path = .ok goal :=
  retains.toWays.locate (fun found => .inl (retains.links found)) located

end Retains

/-- A goal at which no link stands. -/
def Goal.Plain (fs : FileSystem) : Goal → Prop
  | .directory _ => True
  | .entry parent name _ => ∀ target, fs.nodeAt? (parent ++ [name]) ≠ some (.link target)

/-- The rule follows every link that the other one follows. -/
def LinkRule.FollowsMore (rule other : LinkRule) : Prop :=
  ∀ {slashed}, other slashed = true → rule slashed = true

section Rules

variable {other : LinkRule} {again again' : Location → List String → Except IoFailure Goal}

theorem walkSegments_of_plain (more : rule.FollowsMore other)
    (follows : ∀ {location segments goal}, again location segments = .ok goal → goal.Plain fs →
      again' location segments = .ok goal)
    {segments : List String} {goal : Goal} (plain : goal.Plain fs)
    (walked : fs.walkSegments other again location segments = .ok goal) :
    fs.walkSegments rule again' location segments = .ok goal := by
  rw [walkSegments_eq_ok_iff] at walked ⊢
  induction walked with
  | stop isGoal => exact .stop isGoal
  | void isVoid _ ih => exact .void isVoid ih
  | up _ ih => exact .up ih
  | entry named proper last _ isGoal =>
    subst isGoal
    exact .entry named proper last (fun target found => absurd found (plain target)) rfl
  | follow named proper last found followed entered =>
    exact .follow named proper last found (more followed) (follows entered plain)
  | into named proper inner looked _ ih => exact .into named proper inner looked ih
  | through named proper inner looked entered =>
    exact .through named proper inner looked (follows entered plain)

theorem walkLinks_of_plain (more : rule.FollowsMore other) {links : Nat} {segments : List String}
    {goal : Goal} (plain : goal.Plain fs)
    (walked : fs.walkLinks other links location segments = .ok goal) :
    fs.walkLinks rule links location segments = .ok goal := by
  induction links generalizing location segments goal with
  | zero => exact walkSegments_of_plain more (fun impossible _ => by cases impossible) plain walked
  | succ links ih =>
    exact walkSegments_of_plain more (fun walked plain => ih plain walked) plain walked

/-- A path that some rule can follow leads where its segments lead, whatever the rule. -/
theorem locate_eq_walkLinks {path : Path} {goal : Goal}
    (located : fs.locate other path = .ok goal) :
    fs.locate rule path = fs.walkLinks rule maxLinks
      (if path.isAbsolute then [] else fs.current) path.segments := by
  unfold locate at located ⊢
  split at located
  · cases located
  case isFalse nul =>
  split at located
  · cases located
  case isFalse empty =>
  split at located
  · cases located
  case isFalse short =>
  rw [if_neg nul, if_neg empty, if_neg short]

/-- Where no link stands at its end, a path leads to the same place if more links are followed. -/
theorem locate_of_plain (more : rule.FollowsMore other) {path : Path} {goal : Goal}
    (located : fs.locate other path = .ok goal) (plain : goal.Plain fs) :
    fs.locate rule path = .ok goal := by
  rw [locate_eq_walkLinks located]
  exact walkLinks_of_plain more plain ((locate_eq located fs).symm.trans located)

end Rules

end DepAtlas.FileSystem
