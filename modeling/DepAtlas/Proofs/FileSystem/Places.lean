import DepAtlas.Proofs.FileSystem.Entries

/-!
Places. A path whose links at the end stand for themselves has its place where its last name stands; what
is read there or through a link there can be replaced by renaming a file over it.
-/

namespace DepAtlas

open FileSystem (IsName EndsIn)

theorem Path.fileName?_of_endsIn {path : Path} {name : String} {slashed : Bool} (isName : IsName name)
    (ends : EndsIn path.segments name slashed) : path.fileName? = some name := by
  obtain ⟨front, voids, whole, empty, -⟩ := ends
  have step : stepOf? name = some (.normal name) := by
    have named := isName.named
    rw [isVoid] at named
    simp [stepOf?, named, isName.proper]
  have noSteps : voids.filterMap stepOf? = [] := by
    refine List.filterMap_eq_nil_iff.mpr fun segment member => ?_
    rw [String.isEmpty_iff.mp (List.all_eq_true.mp empty segment member)]
    rfl
  have last (before : List String) :
      ((before ++ name :: voids).filterMap stepOf?).getLast? = some (.normal name) := by
    rw [List.filterMap_append, List.filterMap_cons_some step, noSteps, List.getLast?_concat]
  -- A leading slash or dot is a component of its own, which does not touch the last one.
  suffices ended : path.components.getLast? = some (.normal name) by
    rw [fileName?, ended]
    rfl
  unfold components
  cases front with
  | nil =>
    have relative : path.isAbsolute = false := by
      refine eq_false_of_ne_true fun absolute => ?_
      obtain ⟨rest, slash⟩ := head_segments_of_isAbsolute absolute
      rw [whole] at slash
      have named := isName.named
      rw [(List.cons.inj slash).1] at named
      cases named
    have named : (name == ".") = false := by
      refine eq_false_of_ne_true fun same => ?_
      have named := isName.named
      rw [beq_iff_eq.mp same] at named
      cases named
    rw [whole, relative]
    simp only [List.nil_append, named, Bool.false_eq_true, if_false]
    exact last []
  | cons first front =>
    rw [whole]
    simp only [List.cons_append]
    split
    · rw [List.getLast?_cons, last front]
      rfl
    · split
      · rw [List.getLast?_cons, last front]
        rfl
      · exact last (first :: front)

namespace FileSystem

variable {fs after : FileSystem} {location source goal : Location} {name : String}
  {node stored : Node} {path target : Path} {parent : Location} {slashed : Bool}

/-- The place that a path has, given which links at its end are followed. Whether anything stands there is
left open. -/
def place? (fs : FileSystem) (rule : LinkRule) (path : Path) : Option Location :=
  match fs.locate rule path with
  | .ok (.entry parent name _) => some (parent ++ [name])
  | _ => none

/-- A path that leads to a place where nothing stands. -/
structure Dangles (fs : FileSystem) (path : Path) (location : Location) : Prop where
  leads : fs.place? .follow path = some location
  nothing : fs.exists? path = false

theorem place?_of_locate {rule : LinkRule}
    (located : fs.locate rule path = .ok (.entry parent name slashed)) :
    fs.place? rule path = some (parent ++ [name]) := by
  rw [place?, located]

theorem exists_of_place? {rule : LinkRule} (placed : fs.place? rule path = some location) :
    ∃ parent name slashed, location = parent ++ [name] ∧
      fs.locate rule path = .ok (.entry parent name slashed) := by
  unfold place? at placed
  split at placed
  case h_1 located =>
    cases placed
    exact ⟨_, _, _, rfl, located⟩
  case h_2 => cases placed

theorem Ways.place? (ways : Ways fs after) (placed : fs.place? .keep path = some location) :
    after.place? .keep path = some location := by
  obtain ⟨parent, name, slashed, rfl, located⟩ := exists_of_place? placed
  exact place?_of_locate (ways.locate_keep located)

theorem place?_of_resolve (resolved : fs.resolve path = .ok (location, node))
    (leaf : node.isDirectory = false) : fs.place? .follow path = some location := by
  obtain ⟨reached, located, settled⟩ := find_eq_ok_iff.mp resolved
  cases reached with
  | directory =>
    cases settled
    cases leaf
  | entry parent name slashed =>
    cases fst_eq_entry_of_settle settled
    exact place?_of_locate located

/-- A path is placed under the name of its file. -/
theorem fileName?_of_locate (tree : fs.IsTree)
    (located : fs.locate .keep path = .ok (.entry parent name slashed)) : path.fileName? = some name :=
  Path.fileName?_of_endsIn (locate_stands tree located).2 (locate_keep_ends located)

/-- What is no directory stands at the place of the path that leads to it, or a link to it does. -/
theorem exists_locate_of_resolve (resolved : fs.resolve path = .ok (location, node))
    (leaf : node.isDirectory = false) :
    ∃ parent name, fs.locate .keep path = .ok (.entry parent name false) ∧
      (location = parent ++ [name] ∨
        ∃ target, fs.nodeAt? (parent ++ [name]) = some (.link target)) := by
  obtain ⟨reached, located, settled⟩ := find_eq_ok_iff.mp resolved
  obtain ⟨kept, isKept, stops⟩ := exists_locate_keep located
  have bare {parent : Location} {name : String} {slashed : Bool}
      (isKept : fs.locate .keep path = .ok (.entry parent name slashed)) : slashed = false := by
    obtain ⟨front, voids, whole, empty, rfl⟩ := locate_keep_ends isKept
    rcases List.eq_nil_or_concat voids with rfl | ⟨more, last, rfl⟩
    · rfl
    · -- Separators behind the name would make it a directory.
      have void : isVoid last = true := by
        rw [List.concat_eq_append, List.all_append, Bool.and_eq_true] at empty
        have isEmpty := List.all_eq_true.mp empty.2 last List.mem_cons_self
        rw [String.isEmpty_iff.mp isEmpty]
        rfl
      have walked := (locate_eq located fs).symm.trans located
      rw [whole, List.concat_eq_append, ← List.cons_append, ← List.append_assoc] at walked
      rw [isDirectory_of_walkLinks maxLinks void ⟨reached, walked, settled⟩] at leaf
      cases leaf
  cases stops with
  | here =>
    cases reached with
    | directory =>
      cases settled
      cases leaf
    | entry parent name slashed =>
      cases bare isKept
      exact ⟨_, _, isKept, .inl (fst_eq_entry_of_settle settled)⟩
  | link _ found =>
    cases bare isKept
    exact ⟨_, _, isKept, .inr ⟨_, found⟩⟩

theorem readable_iff : (∃ bytes, fs.read path = .ok bytes) ↔
    ∃ location node, fs.resolve path = .ok (location, node) ∧ node.isDirectory = false := by
  constructor
  · rintro ⟨bytes, readable⟩
    obtain ⟨⟨location, node⟩, resolved, leaf⟩ := exists_resolve_of_read readable
    exact ⟨location, node, resolved, leaf⟩
  · rintro ⟨location, node, resolved, leaf⟩
    rw [read, metadata, resolved]
    cases node with
    | directory => cases leaf
    | file content => exact ⟨content, rfl⟩
    | link | device => exact ⟨[], rfl⟩

theorem read_congr {found : Location × Node} (resolved : fs.resolve path = .ok found)
    (same : after.resolve path = .ok found) : after.read path = fs.read path := by
  rw [read, read, metadata, metadata, resolved, same]

theorem nodeAt?_drop (distinct : Assoc.Distinct fs.nodes) (goal location : Location) :
    (fs.drop goal).nodeAt? location =
      if goal.isPrefixOf location then none else fs.nodeAt? location := by
  have dropped : Assoc.Distinct (fs.drop goal).nodes := List.Pairwise.filter _ distinct
  refine Option.ext fun stored => ?_
  rw [← mem_nodes_iff dropped, drop, List.mem_filter, mem_nodes_iff distinct]
  cases goal.isPrefixOf location <;> simp

theorem nodeAt?_drop_of_ne (tree : fs.IsTree) (leaf : fs.nodeAt? goal ≠ some .directory)
    (apart : location ≠ goal) : (fs.drop goal).nodeAt? location = fs.nodeAt? location := by
  rw [nodeAt?_drop tree.distinct]
  split
  case isTrue below =>
    cases found : fs.nodeAt? location with
    | none => rfl
    | some node => exact absurd (tree.eq_of_isPrefixOf leaf found below) apart
  case isFalse => rfl

theorem ways_drop (tree : fs.IsTree) (goal : Location) : Ways (fs.drop goal) fs where
  current := rfl
  ways found _ := by
    rw [nodeAt?_drop tree.distinct] at found
    split at found
    · cases found
    · exact found

/-- Nothing hinders a file in taking the place of another one. -/
theorem hindrance?_eq_none (tree : fs.IsTree) (found : fs.nodeAt? source = some node)
    (leaf : node.isDirectory = false) (there : fs.nodeAt? goal = some stored)
    (leaf' : stored.isDirectory = false) : fs.hindrance? source node goal (some stored) = none := by
  have notBelow {first second : Location} {above below : Node} (isAbove : fs.nodeAt? first = some above)
      (noDirectory : above.isDirectory = false) (isBelow : fs.nodeAt? second = some below)
      (apart : second ≠ first) : first.isPrefixOf second = false := by
    refine eq_false_of_ne_true fun below => apart (tree.eq_of_isPrefixOf ?_ isBelow below)
    rw [isAbove]
    rintro ⟨⟩
    cases noDirectory
  rw [hindrance?]
  split
  case isTrue => rfl
  case isFalse apart =>
    have apart : source ≠ goal := by simpa using apart
    rw [notBelow found leaf there apart.symm, notBelow there leaf' found apart, leaf, leaf']
    rfl

theorem exists_rename (tree : fs.IsTree) (located : fs.locate .keep path = .ok (.entry parent name false))
    (found : fs.nodeAt? (parent ++ [name]) = some node) (leaf : node.isDirectory = false)
    (readable : ∃ bytes, fs.read target = .ok bytes) : ∃ after, fs.rename path target = .ok after := by
  obtain ⟨location, stored, resolved, leaf'⟩ := readable_iff.mp readable
  obtain ⟨goalParent, goalName, atGoal, stands⟩ := exists_locate_of_resolve resolved leaf'
  obtain ⟨occupant, there, noDirectory⟩ : ∃ occupant, fs.nodeAt? (goalParent ++ [goalName]) =
      some occupant ∧ occupant.isDirectory = false := by
    rcases stands with rfl | ⟨link, found⟩
    · exact ⟨stored, nodeAt?_of_resolve tree resolved, leaf'⟩
    · exact ⟨_, found, rfl⟩
  have looked := lookup_eq_ok_iff.mpr ⟨(tree.named found).2, found⟩
  have goalLooked := lookup_eq_ok_iff.mpr ⟨(tree.named there).2, there⟩
  have free := hindrance?_eq_none tree found leaf there noDirectory
  rw [rename, located, atGoal]
  simp only [bind, Except.bind, looked, goalLooked, free, leaf, Bool.not_false, Bool.or_self,
    Bool.and_false, Bool.false_eq_true, if_false]
  split <;> exact ⟨_, rfl⟩

/-- How a file system looks when files were put at some locations: ways have neither come nor gone, and
what stands elsewhere is the same. -/
structure Overlaid (fs after : FileSystem) (touched : Location → Prop) : Prop where
  retains : Retains fs after
  retained : Retains after fs
  same : ∀ {location}, ¬ touched location → after.nodeAt? location = fs.nodeAt? location
  leaf : ∀ {location node}, touched location → fs.nodeAt? location = some node → node.isDirectory = false

/-- What could be read can be read then, if what was put there can be. -/
theorem Overlaid.still_readable {touched : Location → Prop} (overlaid : Overlaid fs after touched)
    (tree : fs.IsTree) (grown : after.IsTree)
    (files : ∀ {location}, touched location →
      ∃ node, after.nodeAt? location = some node ∧ node.isDirectory = false)
    (readable : ∃ bytes, fs.read path = .ok bytes) : ∃ bytes, after.read path = .ok bytes := by
  obtain ⟨location, node, resolved, leaf⟩ := readable_iff.mp readable
  by_cases isTouched : touched location
  · obtain ⟨stored, found, leaf'⟩ := files isTouched
    have now := overlaid.retains.resolve grown resolved found fun directory =>
      nomatch leaf.symm.trans directory
    exact readable_iff.mpr ⟨_, _, now, leaf'⟩
  · have found := (overlaid.same isTouched).trans (nodeAt?_of_resolve tree resolved)
    exact readable_iff.mpr ⟨_, _, overlaid.retains.resolve grown resolved found id, leaf⟩

/-- What can be read then could be read before, unless the path was a link to a place where a file was put
and nothing stood. -/
theorem Overlaid.readable {touched : Location → Prop} (overlaid : Overlaid fs after touched)
    (tree : fs.IsTree) (grown : after.IsTree)
    (apart : ∀ {location}, fs.place? .keep path = some location → ¬ touched location)
    (leads : fs.isLink path = true → ∀ {location}, fs.Dangles path location → ¬ touched location)
    (readable : ∃ bytes, after.read path = .ok bytes) : ∃ bytes, fs.read path = .ok bytes := by
  obtain ⟨location, node, resolved, leaf⟩ := readable_iff.mp readable
  by_cases isTouched : touched location
  · -- It is not at the place of the path itself, so the path is a link to it.
    obtain ⟨parent, name, located, stands⟩ := exists_locate_of_resolve resolved leaf
    have located := overlaid.retained.locate located
    rcases stands with rfl | ⟨target, link⟩
    · exact absurd isTouched (apart (place?_of_locate located))
    have link := overlaid.retains.links link
    have isLink := isLink_of_locate located (lookup_eq_ok_iff.mpr ⟨(tree.named link).2, link⟩)
    obtain ⟨holder, other, slashed, isPlace, followed⟩ := exists_of_place? (place?_of_resolve resolved leaf)
    have led := place?_of_locate (overlaid.retained.locate followed)
    cases there : fs.exists? path with
    | false => exact absurd isTouched (leads isLink ⟨isPlace ▸ led, there⟩)
    | true =>
      obtain ⟨⟨here, stored⟩, before⟩ := exists?_iff.mp there
      obtain ⟨reached, found, settled⟩ := find_eq_ok_iff.mp before
      cases (overlaid.retains.locate found).symm.trans followed
      cases (fst_eq_entry_of_settle settled).trans isPlace.symm
      exact readable_iff.mpr ⟨_, _, before, overlaid.leaf isTouched (nodeAt?_of_resolve tree before)⟩
  · have found := overlaid.same isTouched ▸ nodeAt?_of_resolve grown resolved
    exact readable_iff.mpr ⟨_, _, overlaid.retained.resolve tree resolved found id, leaf⟩

theorem place?_of_createDirectory (created : fs.createDirectory path = .ok after)
    (absent : fs.nodeAt? location = none) (there : after.nodeAt? location ≠ none) :
    fs.place? .keep path = some location := by
  unfold createDirectory at created
  split at created
  · cases created
  · cases created
  case h_3 parent name slashed located =>
    split at created
    · cases created
    · cases created
    · cases created
      rw [nodeAt?_put] at there
      split at there
      case isTrue here => exact here ▸ place?_of_locate located
      case isFalse => exact absurd absent there

/-- A directory that is created is one of those that were listed. -/
theorem exists_place?_of_createInner (tree : fs.IsTree) {paths : List Path} {outcome : Except IoFailure Unit}
    (created : fs.createInner paths = (after, outcome)) (absent : fs.nodeAt? location = none)
    (there : after.nodeAt? location ≠ none) : ∃ path ∈ paths, after.place? .keep path = some location := by
  have last {path : Path} {before after : FileSystem} (tree : before.IsTree)
      (made : before.createDirectory path = .ok after) (absent : before.nodeAt? location = none)
      (there : after.nodeAt? location ≠ none) : after.place? .keep path = some location :=
    (createDirectory_spec tree made).2.retains.toWays.place? (place?_of_createDirectory made absent there)
  induction paths generalizing after outcome with
  | nil =>
    cases created
    exact absurd absent there
  | cons path outer ih =>
    have grown := createInner_spec tree outer
    rw [createInner] at created
    split at created
    case h_1 made =>
      cases created
      exact ⟨path, List.mem_cons_self, last tree made absent there⟩
    case h_2 =>
      split at created
      case isFalse =>
        cases created
        exact absurd absent there
      case isTrue =>
        split at created
        case h_1 inner cause isInner =>
          cases created
          obtain ⟨directory, member, placed⟩ := ih isInner there
          exact ⟨directory, List.mem_cons_of_mem _ member, placed⟩
        case h_2 inner _ isInner =>
          rw [isInner] at grown
          split at created
          case h_1 made =>
            cases created
            -- A directory that the outer ones brought keeps its place when this one is made.
            by_cases before : inner.nodeAt? location = none
            · exact ⟨path, List.mem_cons_self, last grown.1 made before there⟩
            · obtain ⟨directory, member, placed⟩ := ih isInner before
              refine ⟨directory, List.mem_cons_of_mem _ member, ?_⟩
              exact (createDirectory_spec grown.1 made).2.retains.toWays.place? placed
          case h_2 =>
            cases created
            obtain ⟨directory, member, placed⟩ := ih isInner there
            exact ⟨directory, List.mem_cons_of_mem _ member, placed⟩

/-- The directories that lead to a path, the innermost first. -/
def leading (path : Path) : List Path :=
  (path.parent?.map ancestors).getD []

theorem exists_place?_of_createParents (tree : fs.IsTree) (absent : fs.nodeAt? location = none)
    (there : (fs.createParents path).1.nodeAt? location ≠ none) :
    ∃ directory ∈ leading path, (fs.createParents path).1.place? .keep directory = some location := by
  unfold createParents at there ⊢
  cases parent : path.parent? with
  | none =>
    rw [parent] at there
    exact absurd absent there
  | some directory =>
    rw [parent] at there
    rw [leading, parent]
    exact exists_place?_of_createInner tree (Prod.ext rfl rfl) absent there

end FileSystem

end DepAtlas
