import DepAtlas.Proofs.FileSystem.Replacement

/-!
What stands in a directory. A name appended to a path of the directory leads to it, unless the path is too
long to be looked up, in this file system as in any other one.
-/

namespace DepAtlas

open FileSystem (IsName)

namespace Path

variable {directory : Path} {name other : String}

theorem toList_ne_nil (some : directory.isEmpty = false) : directory.text.toList ≠ [] := by
  intro empty
  have : directory.text = "" := String.toList_inj.mp empty
  rw [isEmpty, this] at some
  cases some

theorem not_isAbsolute_of_isName (isName : IsName name) : isAbsolute ⟨name⟩ = false := by
  refine eq_false_of_ne_true fun absolute => isName.whole ?_
  exact List.mem_of_head? (eq_of_beq absolute)

/-- What a name below a directory is spelled like. -/
theorem toList_join (some : directory.isEmpty = false) (isName : IsName name) :
    ∃ front, (directory.text.toList = front ∨ directory.text.toList = front ++ ['/']) ∧
      (directory.join ⟨name⟩).text.toList = front ++ '/' :: name.toList := by
  rw [join, not_isAbsolute_of_isName isName]
  simp only [Bool.false_eq_true, if_false, some, Bool.false_or, beq_iff_eq]
  split
  case isTrue ends =>
    obtain ⟨front, whole⟩ := List.getLast?_eq_some_iff.mp ends
    refine ⟨front, .inr whole, ?_⟩
    rw [String.toList_append, whole, List.append_assoc]
    rfl
  case isFalse =>
    refine ⟨_, .inl rfl, ?_⟩
    rw [String.toList_append, String.toList_append, List.append_assoc]
    rfl

theorem splitWhere_toList (isName : IsName name) :
    Text.splitWhere (· == '/') name.toList = [name.toList] := by
  refine Text.splitWhere_of_avoids fun c member => beq_eq_false_iff_ne.mpr ?_
  rintro rfl
  exact isName.whole member

theorem segments_of_toList {path : Path} {front : List Char} (isName : IsName name)
    (spelled : path.text.toList = front ++ '/' :: name.toList) :
    path.segments = (Text.splitWhere (· == '/') front).map String.ofList ++ [name] := by
  rw [segments, spelled, Text.splitWhere_append rfl, splitWhere_toList isName, List.map_append,
    List.map_singleton, String.ofList_toList]

/-- The segments of a directory, less a last one without a name, and then the name. -/
theorem exists_segments_join (some : directory.isEmpty = false) (isName : IsName name) :
    ∃ first rest voids, directory.segments = first :: rest ++ voids ∧ voids.all isVoid = true ∧
      (directory.join ⟨name⟩).segments = first :: rest ++ [name] := by
  obtain ⟨front, whole, spelled⟩ := toList_join some isName
  have joined := segments_of_toList isName spelled
  cases pieces : Text.splitWhere (· == '/') front with
  | nil => exact absurd pieces (Text.splitWhere_ne_nil _ _)
  | cons piece more =>
    rw [pieces, List.map_cons] at joined
    rcases whole with whole | whole
    · refine ⟨_, _, [], ?_, rfl, joined⟩
      rw [segments, whole, pieces, List.append_nil]
      rfl
    · refine ⟨_, _, [""], ?_, rfl, joined⟩
      rw [segments, whole, Text.splitWhere_append rfl, pieces, List.map_append]
      rfl

/-- The last segment is the name that was appended. -/
theorem exists_segments_eq_append (isName : IsName name) (directory : Path) :
    ∃ front, (directory.join ⟨name⟩).segments = front ++ [name] := by
  cases empty : directory.isEmpty with
  | false =>
    obtain ⟨first, rest, -, -, -, joined⟩ := exists_segments_join empty isName
    exact ⟨first :: rest, joined⟩
  | true =>
    have same : directory.join ⟨name⟩ = ⟨name⟩ := by
      rw [join, not_isAbsolute_of_isName isName, empty]
      simp [String.isEmpty_iff.mp empty]
    refine ⟨[], ?_⟩
    rw [same, segments, splitWhere_toList isName, List.map_singleton, String.ofList_toList]
    rfl

theorem isAbsolute_join (some : directory.isEmpty = false) (isName : IsName name) :
    (directory.join ⟨name⟩).isAbsolute = directory.isAbsolute := by
  obtain ⟨front, whole, spelled⟩ := toList_join some isName
  have nonempty := toList_ne_nil some
  rw [isAbsolute, isAbsolute, spelled]
  rcases whole with whole | whole
  · rw [whole] at nonempty ⊢
    rw [List.head?_append, Option.or_of_isSome (by simpa using nonempty)]
  · rw [whole]
    cases front <;> rfl

theorem components_join (some : directory.isEmpty = false) (isName : IsName name) :
    (directory.join ⟨name⟩).components = directory.components ++ [.normal name] := by
  obtain ⟨first, rest, voids, whole, areVoid, joined⟩ := exists_segments_join some isName
  have noSteps : voids.filterMap stepOf? = [] := by
    refine List.filterMap_eq_nil_iff.mpr fun segment member => ?_
    exact (stepOf?_eq_none_iff segment).mpr (List.all_eq_true.mp areVoid segment member)
  have step : stepOf? name = Option.some (.normal name) := by
    have named := isName.named
    rw [isVoid] at named
    simp [stepOf?, named, isName.proper]
  rw [components, components, joined, whole, isAbsolute_join some isName]
  simp only [List.cons_append]
  split
  · simp [List.filterMap_append, noSteps, step]
  · split
    · simp [List.filterMap_append, noSteps, step]
    · rw [← List.cons_append, ← List.cons_append, List.filterMap_append, List.filterMap_append, noSteps,
        List.append_nil]
      simp [step]

theorem fileName?_join (some : directory.isEmpty = false) (isName : IsName name) :
    (directory.join ⟨name⟩).fileName? = Option.some name := by
  rw [fileName?, components_join some isName, List.getLast?_concat]
  rfl

theorem join_beq_join (some : directory.isEmpty = false) (isName : IsName name) (isOther : IsName other) :
    (directory.join ⟨name⟩ == directory.join ⟨other⟩) = (name == other) := by
  rw [Bool.eq_iff_iff, beq_iff, components_join some isName, components_join some isOther, beq_iff_eq]
  simp

/-- Whether a path can be looked up at all. -/
def isUsable (path : Path) : Bool :=
  !path.text.toList.contains '\x00' && !path.isEmpty && path.text.utf8ByteSize ≤ FileSystem.longestPath

end Path

namespace FileSystem

variable {fs after : FileSystem} {rule : LinkRule} {location place : Location} {name : String}
  {path directory : Path}
  {again again' : Location → List String → Except IoFailure Goal}

theorem locate_of_isUsable (usable : path.isUsable = true) (fs : FileSystem) (rule : LinkRule) :
    fs.locate rule path =
      fs.walkLinks rule maxLinks (if path.isAbsolute then [] else fs.current) path.segments := by
  simp only [Path.isUsable, Bool.and_eq_true, Bool.not_eq_true', decide_eq_true_eq] at usable
  obtain ⟨⟨noNul, some⟩, short⟩ := usable
  rw [locate, noNul, some]
  simp [Nat.not_lt.mpr short]

theorem exists_locate_error (unusable : path.isUsable = false) :
    ∃ failure, ∀ (fs : FileSystem) (rule : LinkRule), fs.locate rule path = .error failure := by
  unfold locate
  split
  · exact ⟨_, fun _ _ => rfl⟩
  case isFalse noNul =>
  split
  · exact ⟨_, fun _ _ => rfl⟩
  case isFalse some =>
  split
  · exact ⟨_, fun _ _ => rfl⟩
  case isFalse short =>
    rw [Path.isUsable, eq_false_of_ne_true noNul, eq_false_of_ne_true some,
      decide_eq_true (Nat.not_lt.mp short)] at unusable
    cases unusable

theorem IsName.isEmpty (isName : IsName name) : name.isEmpty = false := by
  refine eq_false_of_ne_true fun empty => ?_
  have named := isName.named
  rw [String.isEmpty_iff.mp empty] at named
  cases named

theorem lookup_of_settle_directory {parent : Location} {slashed : Bool}
    (settled : fs.settle (.entry parent name slashed) = .ok (place, .directory)) :
    fs.lookup parent name = .ok (some .directory) ∧ place = parent ++ [name] := by
  simp only [settle] at settled
  split at settled
  · cases settled
  · cases settled
  case h_3 looked =>
    split at settled
    · cases settled
    · cases settled
      exact ⟨looked, rfl⟩

theorem Walks.of_voids {voids segments : List String} {goal : Goal} (void : voids.all isVoid = true)
    (further : Walks fs rule again goal location segments) :
    Walks fs rule again goal location (voids ++ segments) := by
  induction voids with
  | nil => exact further
  | cons segment rest ih =>
    obtain ⟨here, later⟩ := Bool.and_eq_true_iff.mp void
    exact .void here (ih later)

/-- A look-up that comes to a directory goes on there with one more name. -/
theorem walkSegments_append (tree : fs.IsTree) (isName : IsName name)
    (stays : ∀ target, fs.nodeAt? (place ++ [name]) = some (.link target) → rule false = false)
    (arrives : ∀ {location segments}, fs.Reaches (again location segments) (place, .directory) →
      again' location (segments ++ [name]) = .ok (.entry place name false))
    {segments : List String}
    (reached : fs.Reaches (fs.walkSegments .follow again location segments) (place, .directory)) :
    fs.walkSegments rule again' location (segments ++ [name]) = .ok (.entry place name false) := by
  have more (rest : List String) : (rest ++ [name]).all String.isEmpty = false := by
    rw [List.all_append, List.all_cons, isName.isEmpty, Bool.false_and, Bool.and_false]
  have last : Walks fs rule again' (.entry place name false) place [name] :=
    .entry isName.named isName.proper rfl stays rfl
  obtain ⟨goal, walks, settled⟩ := reached
  have enter {start : Location} {target : Path} {rest : List String}
      (entered : again start (target.segments ++ rest) = .ok goal) :
      again' start (target.segments ++ (rest ++ [name])) = .ok (.entry place name false) := by
    rw [← List.append_assoc]
    exact arrives ⟨goal, entered, settled⟩
  rw [walkSegments_eq_ok_iff] at walks ⊢
  induction walks with
  | stop isGoal =>
    subst isGoal
    cases settled
    exact last
  | void isVoid _ ih => exact .void isVoid ih
  | up _ ih => exact .up ih
  | @entry location segment rest named proper ends _ isGoal =>
    subst isGoal
    obtain ⟨looked, rfl⟩ := lookup_of_settle_directory settled
    exact .into named proper (more rest) looked (last.of_voids (all_isVoid_of_isEmpty ends))
  | follow named proper _ link _ entered =>
    have looked := lookup_eq_ok_iff.mpr ⟨(tree.named link).2, link⟩
    exact .through named proper (more _) looked (enter entered)
  | into named proper _ looked _ ih => exact .into named proper (more _) looked ih
  | through named proper _ looked entered => exact .through named proper (more _) looked (enter entered)

theorem walkLinks_append (tree : fs.IsTree) (isName : IsName name)
    (stays : ∀ target, fs.nodeAt? (place ++ [name]) = some (.link target) → rule false = false)
    {links : Nat} {segments : List String}
    (reached : fs.Reaches (fs.walkLinks .follow links location segments) (place, .directory)) :
    fs.walkLinks rule links location (segments ++ [name]) = .ok (.entry place name false) := by
  induction links generalizing location segments with
  | zero =>
    refine walkSegments_append tree isName stays ?_ reached
    rintro _ _ ⟨goal, same, -⟩
    cases same
  | succ links ih => exact walkSegments_append tree isName stays (fun reached => ih reached) reached

theorem isEmpty_of_resolve {found : Location × Node} (resolved : fs.resolve path = .ok found) :
    path.isEmpty = false := by
  refine eq_false_of_ne_true fun empty => ?_
  obtain ⟨goal, located, -⟩ := find_eq_ok_iff.mp resolved
  rw [locate, empty] at located
  split at located <;> cases located

/-- A name below a directory leads to its place there. -/
theorem locate_join (tree : fs.IsTree) (resolved : fs.resolve directory = .ok (place, .directory))
    (isName : IsName name) (usable : (directory.join ⟨name⟩).isUsable = true)
    (stays : ∀ target, fs.nodeAt? (place ++ [name]) = some (.link target) → rule false = false) :
    fs.locate rule (directory.join ⟨name⟩) = .ok (.entry place name false) := by
  have some := isEmpty_of_resolve resolved
  obtain ⟨first, rest, voids, whole, areVoid, joined⟩ := Path.exists_segments_join some isName
  obtain ⟨goal, located, settled⟩ := find_eq_ok_iff.mp resolved
  have reached : fs.Reaches (fs.walkLinks .follow maxLinks
      (if directory.isAbsolute then [] else fs.current) directory.segments) (place, .directory) :=
    ⟨goal, (locate_eq located fs).symm.trans located, settled⟩
  have same : strip (directory.join ⟨name⟩).segments = strip (directory.segments ++ [name]) := by
    have inner : strip (voids ++ [name]) = [name] := by
      rw [strip_eq_filter (List.getLast?_concat ..) isName.named, List.filter_append,
        List.filter_eq_nil_iff.mpr fun segment member => by simp [List.all_eq_true.mp areVoid segment member]]
      simp [isName.named]
    rw [joined, whole, List.append_assoc, ← strip_append_strip _ (voids ++ [name]), inner]
  rw [locate_of_isUsable usable, Path.isAbsolute_join some isName, walkLinks_congr same]
  exact walkLinks_append tree isName stays reached

theorem exists?_iff : fs.exists? path = true ↔ ∃ found, fs.resolve path = .ok found := by
  rw [exists?, metadata]
  cases fs.resolve path with
  | error failure => simp [Except.map, Except.toOption]
  | ok found => simp [Except.map, Except.toOption]

theorem isDirectory_iff :
    fs.isDirectory path = true ↔ ∃ location, fs.resolve path = .ok (location, .directory) := by
  rw [isDirectory, metadata]
  cases fs.resolve path with
  | error failure => simp [Except.map, Except.toOption]
  | ok found =>
    obtain ⟨location, node⟩ := found
    cases node <;> simp [Except.map, Except.toOption, Node.isDirectory]

theorem nodeAt?_of_resolve (tree : fs.IsTree) {found : Location × Node}
    (resolved : fs.resolve path = .ok found) : fs.nodeAt? found.1 = some found.2 := by
  obtain ⟨reached, located, settled⟩ := find_eq_ok_iff.mp resolved
  have stands := locate_stands tree located
  cases reached with
  | directory location =>
    cases settled
    exact stands
  | entry parent name slashed =>
    simp only [settle] at settled
    split at settled
    · cases settled
    · cases settled
    case h_3 looked =>
      split at settled
      · cases settled
      · cases settled
        exact nodeAt?_of_lookup looked

theorem fst_eq_of_settle {reached : Goal} {found other : Location × Node}
    (settled : fs.settle reached = .ok found) (settled' : after.settle reached = .ok other) :
    found.1 = other.1 := by
  cases reached with
  | directory location =>
    cases settled
    cases settled'
    rfl
  | entry parent name slashed =>
    simp only [settle] at settled settled'
    split at settled
    · cases settled
    · cases settled
    split at settled'
    · cases settled'
    · cases settled'
    split at settled
    · cases settled
    split at settled'
    · cases settled'
    cases settled
    cases settled'
    rfl

theorem fst_eq_entry_of_settle {parent : Location} {slashed : Bool} {found : Location × Node}
    (settled : fs.settle (.entry parent name slashed) = .ok found) : found.1 = parent ++ [name] := by
  simp only [settle] at settled
  split at settled
  · cases settled
  · cases settled
  split at settled
  · cases settled
  · cases settled
    rfl

/-- What stands at the end of a path before and after. -/
theorem settle_of_nodeAt? {reached : Goal} {node stored : Node} (tree : after.IsTree)
    (settled : fs.settle reached = .ok (location, node)) (found : after.nodeAt? location = some stored)
    (directory : node.isDirectory = true → stored.isDirectory = true) :
    after.settle reached = .ok (location, stored) := by
  cases reached with
  | directory place =>
    cases settled
    cases Node.eq_directory_of_any (show (some stored).any Node.isDirectory from directory rfl)
    rfl
  | entry parent name slashed =>
    simp only [settle] at settled ⊢
    split at settled
    · cases settled
    · cases settled
    split at settled
    · cases settled
    case isFalse bare =>
      cases settled
      rw [lookup_eq_ok_iff.mpr ⟨(tree.named found).2, found⟩]
      dsimp only
      rw [if_neg]
      intro isSlashed
      simp only [Bool.and_eq_true, Bool.not_eq_true'] at isSlashed bare
      cases kind : node.isDirectory with
      | true => cases isSlashed.2.symm.trans (directory kind)
      | false => exact bare ⟨isSlashed.1, kind⟩

/-- A path that led to something leads to what stands there now. -/
theorem Retains.resolve (retains : Retains fs after) (tree : after.IsTree) {node stored : Node}
    (resolved : fs.resolve path = .ok (location, node)) (found : after.nodeAt? location = some stored)
    (directory : node.isDirectory = true → stored.isDirectory = true) :
    after.resolve path = .ok (location, stored) := by
  obtain ⟨reached, located, settled⟩ := find_eq_ok_iff.mp resolved
  exact find_eq_ok_iff.mpr
    ⟨reached, retains.locate located, settle_of_nodeAt? tree settled found directory⟩

section Entry

variable {node : Node} (tree : fs.IsTree) (resolved : fs.resolve directory = .ok (place, .directory))
  (found : fs.nodeAt? (place ++ [name]) = some node)
include tree resolved found

/-- What stands in a directory is what its name leads to, if that can be looked up. -/
theorem find_join (usable : (directory.join ⟨name⟩).isUsable = true)
    (stays : node.isLink = true → rule false = false) :
    fs.find rule (directory.join ⟨name⟩) = .ok (place ++ [name], node) := by
  obtain ⟨isName, short⟩ := tree.named found
  have located : fs.locate rule (directory.join ⟨name⟩) = .ok (.entry place name false) := by
    refine locate_join tree resolved isName usable fun target link => stays ?_
    rw [found] at link
    cases link
    rfl
  refine find_eq_ok_iff.mpr ⟨_, located, ?_⟩
  rw [settle, lookup_eq_ok_iff.mpr ⟨short, found⟩]
  rfl

end Entry

theorem nameBelow?_eq_some_iff {other : Location} :
    nameBelow? location other = some name ↔ other = location ++ [name] := by
  unfold nameBelow?
  constructor
  · intro below
    split at below
    case isTrue same =>
      obtain ⟨front, rfl⟩ := List.getLast?_eq_some_iff.mp below
      rw [List.dropLast_concat] at same
      rw [eq_of_beq same]
    case isFalse => cases below
  · rintro rfl
    simp

theorem mem_namesAt_iff (tree : fs.IsTree) :
    name ∈ fs.namesAt location ↔ ∃ node, fs.nodeAt? (location ++ [name]) = some node := by
  rw [namesAt, List.mem_filterMap]
  constructor
  · rintro ⟨⟨other, node⟩, member, below⟩
    cases nameBelow?_eq_some_iff.mp below
    exact ⟨node, (mem_nodes_iff tree.distinct).mp member⟩
  · rintro ⟨node, found⟩
    exact ⟨_, (mem_nodes_iff tree.distinct).mpr found, nameBelow?_eq_some_iff.mpr rfl⟩

theorem nodup_namesAt (tree : fs.IsTree) (location : Location) : (fs.namesAt location).Nodup := by
  refine List.Pairwise.filterMap _ ?_ tree.distinct
  rintro ⟨first, _⟩ ⟨second, _⟩ apart name isFirst other isSecond rfl
  cases nameBelow?_eq_some_iff.mp isFirst
  cases nameBelow?_eq_some_iff.mp isSecond
  simp at apart

end FileSystem

end DepAtlas
