import DepAtlas.FileSystem.Basic
import DepAtlas.Proofs.Assoc
import DepAtlas.Proofs.Path
import DepAtlas.Proofs.Text.Basic

/-!
Equal paths that are spelled differently lead to the same file. Segments without a name in the middle
of a path make no difference to a look-up, and at its end they can only make it fail.
-/

namespace DepAtlas

theorem exists_of_map_eq_ok {ε α β : Type} {outcome : Except ε α} {f : α → β} {value : β}
    (mapped : outcome.map f = .ok value) : ∃ found, outcome = .ok found ∧ f found = value := by
  cases outcome with
  | error failure => cases mapped
  | ok found => exact ⟨found, rfl, Except.ok.inj mapped⟩

theorem exists_of_bind_eq_ok {ε α β : Type} {outcome : Except ε α} {f : α → Except ε β} {value : β}
    (found : outcome >>= f = .ok value) : ∃ first, outcome = .ok first ∧ f first = .ok value := by
  cases outcome with
  | error failure => cases found
  | ok first => exact ⟨first, rfl, found⟩

theorem eq_ok_of_toOption {ε α : Type} {outcome : Except ε α} {value : α}
    (found : outcome.toOption = some value) : outcome = .ok value := by
  cases outcome with
  | error failure => cases found
  | ok other => rw [Option.some.inj found]

/-- Whether a segment of a path names no step. -/
def isVoid (segment : String) : Bool :=
  segment == "" || segment == "."

/-- Leaves out the segments without a name that stand in front of others. -/
def strip : List String → List String
  | [] => []
  | segment :: rest =>
    if isVoid segment && !rest.all isVoid then strip rest else segment :: strip rest

theorem strip_eq_self {segments : List String} (void : segments.all isVoid) :
    strip segments = segments := by
  induction segments with
  | nil => rfl
  | cons segment rest ih =>
    simp only [List.all_cons, Bool.and_eq_true] at void
    rw [strip, void.2, ih void.2]
    simp

theorem all_isVoid_strip (segments : List String) :
    (strip segments).all isVoid = segments.all isVoid := by
  induction segments with
  | nil => rfl
  | cons segment rest ih =>
    rw [strip]
    split
    case isTrue inner =>
      simp only [Bool.and_eq_true, Bool.not_eq_true'] at inner
      rw [ih, List.all_cons, inner.2, Bool.and_false]
    case isFalse => rw [List.all_cons, List.all_cons, ih]

theorem strip_strip (segments : List String) : strip (strip segments) = strip segments := by
  induction segments with
  | nil => rfl
  | cons segment rest ih =>
    rw [strip]
    split
    case isTrue => exact ih
    case isFalse outer => rw [strip, all_isVoid_strip, if_neg outer, ih]

theorem strip_append_strip (first second : List String) :
    strip (first ++ strip second) = strip (first ++ second) := by
  have all (segments : List String) :
      (segments ++ strip second).all isVoid = (segments ++ second).all isVoid := by
    rw [List.all_append, List.all_append, all_isVoid_strip]
  induction first with
  | nil => exact strip_strip second
  | cons segment rest ih => rw [List.cons_append, List.cons_append, strip, strip, all, ih]

theorem isEmpty_strip (segments : List String) : (strip segments).isEmpty = segments.isEmpty := by
  induction segments with
  | nil => rfl
  | cons segment rest ih =>
    rw [strip]
    split
    case isTrue inner =>
      cases rest with
      | nil => simp at inner
      | cons => rw [ih]; rfl
    case isFalse => rfl

theorem all_isEmpty_strip (segments : List String) :
    (strip segments).all String.isEmpty = segments.all String.isEmpty := by
  have named {segments : List String} (some : segments.all isVoid = false) :
      segments.all String.isEmpty = false := by
    rw [List.all_eq_false] at some ⊢
    obtain ⟨segment, member, name⟩ := some
    refine ⟨segment, member, ?_⟩
    intro empty
    rw [String.isEmpty_iff] at empty
    exact name (by simp [isVoid, empty])
  cases void : segments.all isVoid with
  | true => rw [strip_eq_self void]
  | false => rw [named void, named (by rw [all_isVoid_strip, void])]

/-- The segments with a name, and then some without. -/
theorem exists_strip_eq (segments : List String) :
    ∃ voids : List String, voids.all isVoid ∧
      strip segments = segments.filter (!isVoid ·) ++ voids := by
  induction segments with
  | nil => exact ⟨[], rfl, rfl⟩
  | cons segment rest ih =>
    obtain ⟨voids, areVoid, split⟩ := ih
    cases void : isVoid segment with
    | false => exact ⟨voids, areVoid, by simp [strip, void, split]⟩
    | true =>
      by_cases last : rest.all isVoid
      · refine ⟨segment :: rest, by simp [void, last], ?_⟩
        have none : (segment :: rest).filter (!isVoid ·) = [] := by
          rw [List.filter_eq_nil_iff]
          intro other member
          simpa using List.all_eq_true.mp (show (segment :: rest).all isVoid by simp [void, last]) other
            member
        rw [none, strip_eq_self (by simp [void, last]), List.nil_append]
      · exact ⟨voids, areVoid, by simp [strip, void, last, split]⟩

theorem strip_eq_filter {segments : List String} {last : String} (ends : segments.getLast? = some last)
    (named : isVoid last = false) : strip segments = segments.filter (!isVoid ·) := by
  induction segments with
  | nil => rfl
  | cons segment rest ih =>
    cases rest with
    | nil =>
      simp only [List.getLast?_singleton, Option.some.injEq] at ends
      simp [strip, ends, named]
    | cons next rest =>
      rw [List.getLast?_cons_cons] at ends
      have some : (next :: rest).all isVoid = false := by
        rw [List.all_eq_false]
        exact ⟨last, List.mem_of_getLast? ends, by simp [named]⟩
      rw [strip, some, ih ends]
      cases void : isVoid segment <;> simp [void]

namespace FileSystem

variable {fs : FileSystem} {rule : LinkRule}
  {again : Location → List String → Except IoFailure Goal}

theorem walkSegments_void {segment : String} (void : isVoid segment) (location : Location)
    (rest : List String) : fs.walkSegments rule again location (segment :: rest) =
      fs.walkSegments rule again location rest := by
  rw [walkSegments]
  exact if_pos void

theorem walkSegments_parent (location : Location) (rest : List String) :
    fs.walkSegments rule again location (".." :: rest) =
      fs.walkSegments rule again location.dropLast rest := by
  rw [walkSegments]
  rfl

theorem walkSegments_last {segment : String} (named : isVoid segment = false) (proper : segment ≠ "..")
    {rest : List String} (last : rest.all String.isEmpty) (location : Location) :
    fs.walkSegments rule again location (segment :: rest) =
      match fs.nodeAt? (location ++ [segment]) with
      | some (.link target) =>
        if rule (!rest.isEmpty) then
          again (if target.isAbsolute then [] else location) (target.segments ++ rest)
        else .ok (.entry location segment (!rest.isEmpty))
      | _ => .ok (.entry location segment (!rest.isEmpty)) := by
  rw [walkSegments]
  have isNamed : ¬ isVoid segment = true := by simp [named]
  have isProper : ¬ (segment == "..") = true := by simpa using proper
  exact (if_neg isNamed).trans ((if_neg isProper).trans (if_pos last))

theorem walkSegments_inner {segment : String} (named : isVoid segment = false) (proper : segment ≠ "..")
    {rest : List String} (more : rest.all String.isEmpty = false) (location : Location) :
    fs.walkSegments rule again location (segment :: rest) =
      match fs.lookup location segment with
      | .error failure => .error failure
      | .ok none => .error .notFound
      | .ok (some .directory) => fs.walkSegments rule again (location ++ [segment]) rest
      | .ok (some (.link target)) =>
        again (if target.isAbsolute then [] else location) (target.segments ++ rest)
      | .ok (some _) => .error .notDirectory := by
  rw [walkSegments]
  have isNamed : ¬ isVoid segment = true := by simp [named]
  have isProper : ¬ (segment == "..") = true := by simpa using proper
  have isInner : ¬ rest.all String.isEmpty = true := by simp [more]
  exact (if_neg isNamed).trans ((if_neg isProper).trans (if_neg isInner))

/-- The steps in which a look-up by segments comes from a directory to its goal, where `again` takes over
at the first link that is followed. -/
inductive Walks (fs : FileSystem) (rule : LinkRule)
    (again : Location → List String → Except IoFailure Goal) (goal : Goal) :
    Location → List String → Prop
  /-- No segment is left. -/
  | stop {location : Location} (isGoal : goal = .directory location) :
      Walks fs rule again goal location []
  | void {location : Location} {segment : String} {rest : List String} (isVoid : isVoid segment)
      (further : Walks fs rule again goal location rest) :
      Walks fs rule again goal location (segment :: rest)
  | up {location : Location} {rest : List String}
      (further : Walks fs rule again goal location.dropLast rest) :
      Walks fs rule again goal location (".." :: rest)
  /-- A name at the end, at which no link is followed. -/
  | entry {location : Location} {segment : String} {rest : List String}
      (named : isVoid segment = false) (proper : segment ≠ "..") (last : rest.all String.isEmpty)
      (kept : ∀ target, fs.nodeAt? (location ++ [segment]) = some (.link target) →
        rule (!rest.isEmpty) = false)
      (isGoal : goal = .entry location segment (!rest.isEmpty)) :
      Walks fs rule again goal location (segment :: rest)
  /-- A name at the end, at which a link is followed. -/
  | follow {location : Location} {segment : String} {rest : List String} {target : Path}
      (named : isVoid segment = false) (proper : segment ≠ "..") (last : rest.all String.isEmpty)
      (found : fs.nodeAt? (location ++ [segment]) = some (.link target))
      (followed : rule (!rest.isEmpty) = true)
      (entered : again (if target.isAbsolute then [] else location) (target.segments ++ rest) = .ok goal) :
      Walks fs rule again goal location (segment :: rest)
  /-- The name of a directory on the way. -/
  | into {location : Location} {segment : String} {rest : List String}
      (named : isVoid segment = false) (proper : segment ≠ "..") (more : rest.all String.isEmpty = false)
      (looked : fs.lookup location segment = .ok (some .directory))
      (further : Walks fs rule again goal (location ++ [segment]) rest) :
      Walks fs rule again goal location (segment :: rest)
  /-- The name of a link on the way. -/
  | through {location : Location} {segment : String} {rest : List String} {target : Path}
      (named : isVoid segment = false) (proper : segment ≠ "..") (more : rest.all String.isEmpty = false)
      (looked : fs.lookup location segment = .ok (some (.link target)))
      (entered : again (if target.isAbsolute then [] else location) (target.segments ++ rest) = .ok goal) :
      Walks fs rule again goal location (segment :: rest)

/-- A look-up comes to a goal just by these steps. -/
theorem walkSegments_eq_ok_iff {location : Location} {segments : List String} {goal : Goal} :
    fs.walkSegments rule again location segments = .ok goal ↔
      Walks fs rule again goal location segments := by
  constructor
  · intro walked
    induction segments generalizing location with
    | nil => exact .stop (Except.ok.inj walked).symm
    | cons segment rest ih =>
      cases void : isVoid segment with
      | true => exact .void void (ih (walkSegments_void void location rest ▸ walked))
      | false =>
        by_cases proper : segment = ".."
        · subst proper
          exact .up (ih (walkSegments_parent location rest ▸ walked))
        cases last : rest.all String.isEmpty with
        | true =>
          rw [walkSegments_last void proper last] at walked
          split at walked
          case h_1 target found =>
            split at walked
            case isTrue followed => exact .follow void proper last found followed walked
            case isFalse kept =>
              exact .entry void proper last (fun _ _ => eq_false_of_ne_true kept)
                (Except.ok.inj walked).symm
          case h_2 unlinked =>
            exact .entry void proper last (fun target found => absurd found (unlinked target))
              (Except.ok.inj walked).symm
        | false =>
          rw [walkSegments_inner void proper last] at walked
          split at walked
          case h_3 looked => exact .into void proper last looked (ih walked)
          case h_4 looked => exact .through void proper last looked walked
          all_goals cases walked
  · intro walks
    induction walks with
    | stop isGoal => rw [isGoal]; rfl
    | void isVoid _ ih => rw [walkSegments_void isVoid, ih]
    | up _ ih => rw [walkSegments_parent, ih]
    | entry named proper last kept isGoal =>
      rw [walkSegments_last named proper last, isGoal]
      split
      case h_1 target found => rw [kept target found]; rfl
      case h_2 => rfl
    | follow named proper last found followed entered =>
      rw [walkSegments_last named proper last, found]
      exact (if_pos followed).trans entered
    | into named proper more looked _ ih => rw [walkSegments_inner named proper more, looked]; exact ih
    | through named proper more looked entered =>
      rw [walkSegments_inner named proper more, looked]
      exact entered

theorem walkSegments_strip
    (respects : ∀ location first second, strip first = strip second →
      again location first = again location second)
    (location : Location) (segments : List String) :
    fs.walkSegments rule again location (strip segments) =
      fs.walkSegments rule again location segments := by
  induction segments generalizing location with
  | nil => rfl
  | cons segment rest ih =>
    cases void : isVoid segment with
    | true =>
      rw [walkSegments_void void, ← ih, strip]
      split
      case isTrue => rfl
      case isFalse => rw [walkSegments_void void]
    | false =>
      have kept : strip (segment :: rest) = segment :: strip rest := by simp [strip, void]
      have enter (target : Path) (location : Location) :
          again location (target.segments ++ strip rest) = again location (target.segments ++ rest) :=
        respects _ _ _ (strip_append_strip _ _)
      rw [kept, walkSegments, walkSegments]
      simp only [isEmpty_strip, all_isEmpty_strip, ih, enter]

theorem walkLinks_congr {first second : List String} (same : strip first = strip second) (links : Nat)
    (location : Location) :
    fs.walkLinks rule links location first = fs.walkLinks rule links location second := by
  induction links generalizing location first second with
  | zero =>
    rw [walkLinks, ← walkSegments_strip (fun _ _ _ _ => rfl), same,
      walkSegments_strip (fun _ _ _ _ => rfl)]
  | succ links ih =>
    have respects (location : Location) (first second : List String)
        (same : strip first = strip second) := ih same location
    rw [walkLinks, ← walkSegments_strip respects, same, walkSegments_strip respects]

/-- What stands where a path leads. -/
def settle (fs : FileSystem) : Goal → Except IoFailure (Location × Node)
  | .directory location => .ok (location, .directory)
  | .entry parent name slashed =>
    match fs.lookup parent name with
    | .error failure => .error failure
    | .ok none => .error .notFound
    | .ok (some node) =>
      if slashed && !node.isDirectory then .error .notDirectory else .ok (parent ++ [name], node)

/-- Whether a look-up ends at a node. -/
def Reaches (fs : FileSystem) (outcome : Except IoFailure Goal) (found : Location × Node) : Prop :=
  ∃ goal, outcome = .ok goal ∧ fs.settle goal = .ok found

theorem find_eq_ok_iff {path : Path} {found : Location × Node} :
    fs.find rule path = .ok found ↔ fs.Reaches (fs.locate rule path) found := by
  rw [find]
  cases located : fs.locate rule path with
  | error failure => simp [Reaches]
  | ok goal =>
    have step : fs.Reaches (.ok goal) found ↔ fs.settle goal = .ok found := by simp [Reaches]
    rw [step]
    cases goal <;> exact Iff.rfl

theorem settle_of_unslashed {parent : Location} {name : String} {slashed : Bool} {found : Location × Node}
    (reached : fs.settle (.entry parent name slashed) = .ok found) :
    fs.settle (.entry parent name false) = .ok found := by
  simp only [settle] at reached ⊢
  split at reached
  · cases reached
  · cases reached
  case h_3 node looked =>
    split at reached
    · cases reached
    · simpa using reached

theorem all_isVoid_of_isEmpty {segments : List String} (empty : segments.all String.isEmpty) :
    segments.all isVoid := by
  refine List.all_eq_true.mpr fun segment member => ?_
  rw [String.isEmpty_iff.mp (List.all_eq_true.mp empty segment member)]
  rfl

theorem walkSegments_all_void {segments : List String} (void : segments.all isVoid)
    (location : Location) : fs.walkSegments rule again location segments = .ok (.directory location) := by
  induction segments with
  | nil => rfl
  | cons segment rest ih =>
    simp only [List.all_cons, Bool.and_eq_true] at void
    rw [walkSegments_void void.1, ih void.2]

theorem nodeAt?_of_lookup {location : Location} {name : String} {node : Option Node}
    (looked : fs.lookup location name = .ok node) : fs.nodeAt? (location ++ [name]) = node := by
  unfold lookup at looked
  split at looked
  · cases looked
  · exact Except.ok.inj looked

theorem walkSegments_drop_voids
    (retracts : ∀ location segments voids found, voids.all isVoid →
      fs.Reaches (again location (segments ++ voids)) found → fs.Reaches (again location segments) found)
    {voids : List String} (void : voids.all isVoid) {location : Location} {segments : List String}
    {found : Location × Node}
    (reached : fs.Reaches (fs.walkSegments .follow again location (segments ++ voids)) found) :
    fs.Reaches (fs.walkSegments .follow again location segments) found := by
  obtain ⟨goal, walks, settled⟩ := reached
  rw [walkSegments_eq_ok_iff] at walks
  simp only [Reaches, walkSegments_eq_ok_iff]
  -- Without the voids a name can be the last one, and is then the end of the walk and not a step of it.
  induction segments generalizing location with
  | nil =>
    rw [List.nil_append, ← walkSegments_eq_ok_iff, walkSegments_all_void void] at walks
    exact ⟨goal, .stop (Except.ok.inj walks).symm, settled⟩
  | cons segment rest ih =>
    have enter {start : Location} {target : Path}
        (entered : again start (target.segments ++ (rest ++ voids)) = .ok goal) :
        fs.Reaches (again start (target.segments ++ rest)) found := by
      rw [← List.append_assoc] at entered
      exact retracts _ _ _ _ void ⟨goal, entered, settled⟩
    have ended (ends : (rest ++ voids).all String.isEmpty) : rest.all String.isEmpty :=
      (Bool.and_eq_true_iff.mp (List.all_append ▸ ends)).1
    rw [List.cons_append] at walks
    cases walks with
    | void isVoid further => exact (ih further).imp fun _ => .imp_left (.void isVoid)
    | up further => exact (ih further).imp fun _ => .imp_left .up
    | entry named proper ends kept isGoal =>
      refine ⟨_, .entry named proper (ended ends) kept rfl, ?_⟩
      rw [isGoal] at settled
      cases rest with
      | nil => exact settle_of_unslashed settled
      | cons => exact settled
    | follow named proper ends found followed entered =>
      exact (enter entered).imp fun _ => .imp_left (.follow named proper (ended ends) found followed)
    | into named proper _ looked further =>
      cases last : rest.all String.isEmpty with
      | false => exact (ih further).imp fun _ => .imp_left (.into named proper last looked)
      | true =>
        have isDirectory := nodeAt?_of_lookup looked
        have all : (rest ++ voids).all isVoid := by
          rw [List.all_append, void, all_isVoid_of_isEmpty last, Bool.and_true]
        rw [← walkSegments_eq_ok_iff, walkSegments_all_void all] at further
        rw [← Except.ok.inj further] at settled
        refine ⟨_, .entry named proper last (fun target link => ?_) rfl, ?_⟩
        · cases isDirectory.symm.trans link
        · rw [← settled]
          simp [settle, looked, Node.isDirectory]
    | through named proper _ looked entered =>
      cases last : rest.all String.isEmpty with
      | false => exact (enter entered).imp fun _ => .imp_left (.through named proper last looked)
      | true =>
        have found := nodeAt?_of_lookup looked
        exact (enter entered).imp fun _ => .imp_left (.follow named proper last found rfl)

theorem walkLinks_drop_voids (links : Nat) {voids : List String} (void : voids.all isVoid)
    {location : Location} {segments : List String} {found : Location × Node}
    (reached : fs.Reaches (fs.walkLinks .follow links location (segments ++ voids)) found) :
    fs.Reaches (fs.walkLinks .follow links location segments) found := by
  induction links generalizing location segments voids found with
  | zero =>
    rw [walkLinks] at reached ⊢
    refine walkSegments_drop_voids ?_ void reached
    intro _ _ _ _ _ ⟨goal, same, _⟩
    cases same
  | succ links ih => exact walkSegments_drop_voids (fun _ _ _ _ void => ih void) void reached

theorem isDirectory_of_slashed {parent : Location} {name : String} {found : Location × Node}
    (reached : fs.settle (.entry parent name true) = .ok found) : found.2.isDirectory := by
  simp only [settle] at reached
  split at reached
  · cases reached
  · cases reached
  case h_3 node looked =>
    cases directory : node.isDirectory with
    | true =>
      simp only [directory, Bool.not_true, Bool.and_false, Bool.false_eq_true, if_false] at reached
      rw [← Except.ok.inj reached]
      exact directory
    | false => simp [directory] at reached

theorem isDirectory_of_walkSegments
    (directs : ∀ location segments last found, isVoid last →
      fs.Reaches (again location (segments ++ [last])) found → found.2.isDirectory)
    {last : String} (void : isVoid last) {location : Location} {segments : List String}
    {found : Location × Node}
    (reached : fs.Reaches (fs.walkSegments .follow again location (segments ++ [last])) found) :
    found.2.isDirectory := by
  obtain ⟨goal, walks, settled⟩ := reached
  rw [walkSegments_eq_ok_iff] at walks
  induction segments generalizing location with
  | nil =>
    rw [List.nil_append, ← walkSegments_eq_ok_iff, walkSegments_all_void (by simp [void])] at walks
    rw [← Except.ok.inj walks] at settled
    rw [← Except.ok.inj settled]
    rfl
  | cons segment rest ih =>
    rw [List.cons_append] at walks
    cases walks with
    | void _ further | up further | into _ _ _ _ further => exact ih further
    | entry _ _ _ _ isGoal =>
      have slashed : (!(rest ++ [last]).isEmpty) = true := by simp
      rw [isGoal] at settled
      exact isDirectory_of_slashed (slashed ▸ settled)
    | follow _ _ _ _ _ entered | through _ _ _ _ entered =>
      rw [← List.append_assoc] at entered
      exact directs _ _ _ _ void ⟨goal, entered, settled⟩

theorem isDirectory_of_walkLinks (links : Nat) {last : String} (void : isVoid last)
    {location : Location} {segments : List String} {found : Location × Node}
    (reached : fs.Reaches (fs.walkLinks .follow links location (segments ++ [last])) found) :
    found.2.isDirectory := by
  induction links generalizing location segments last found with
  | zero =>
    rw [walkLinks] at reached
    refine isDirectory_of_walkSegments ?_ void reached
    intro _ _ _ _ _ ⟨goal, same, _⟩
    cases same
  | succ links ih => exact isDirectory_of_walkSegments (fun _ _ _ _ void => ih void) void reached

end FileSystem

namespace Path

theorem stepOf?_eq_none_iff (segment : String) : stepOf? segment = none ↔ isVoid segment := by
  unfold stepOf? isVoid
  split
  case isTrue void => simp [void]
  case isFalse named =>
    split <;> simp [named]

/-- The segment that a step stands for. -/
def segmentOf : Component → String
  | .root => ""
  | .current => "."
  | .parent => ".."
  | .normal name => name

theorem filter_eq_map_steps (segments : List String) :
    segments.filter (!isVoid ·) = (segments.filterMap stepOf?).map segmentOf := by
  induction segments with
  | nil => rfl
  | cons segment rest ih =>
    cases void : isVoid segment with
    | true => simp [void, (stepOf?_eq_none_iff segment).mpr void, ih]
    | false =>
      have step : (stepOf? segment).map segmentOf = some segment := by
        unfold isVoid at void
        unfold stepOf?
        rw [void]
        simp only [Bool.false_eq_true, if_false]
        split
        case isTrue parent => simp [segmentOf, beq_iff_eq.mp parent]
        case isFalse => rfl
      obtain ⟨component, isStep, isSegment⟩ := Option.map_eq_some_iff.mp step
      simp [void, isStep, isSegment, ih]

def isStep : Component → Bool
  | .root | .current => false
  | .parent | .normal _ => true

theorem isStep_of_stepOf? {segment : String} {step : Component} (found : stepOf? segment = some step) :
    isStep step := by
  unfold stepOf? at found
  split at found
  · cases found
  · split at found <;> cases found <;> rfl

theorem filter_isStep (segments : List String) :
    (segments.filterMap stepOf?).filter isStep = segments.filterMap stepOf? := by
  rw [List.filter_eq_self]
  intro step member
  obtain ⟨segment, -, found⟩ := List.mem_filterMap.mp member
  exact isStep_of_stepOf? found

theorem head_segments_of_isAbsolute {path : Path} (absolute : path.isAbsolute) :
    ∃ rest, path.segments = "" :: rest := by
  unfold isAbsolute at absolute
  unfold segments
  cases text : path.text.toList with
  | nil => simp [text] at absolute
  | cons c rest =>
    have slash : c = '/' := by simpa [text] using absolute
    subst slash
    rw [Text.splitWhere]
    cases pieces : Text.splitWhere (· == '/') rest with
    | nil => exact absurd pieces (Text.splitWhere_ne_nil _ _)
    | cons piece pieces => exact ⟨_, rfl⟩

theorem segments_ne_nil (path : Path) : path.segments ≠ [] := by
  simp [segments, Text.splitWhere_ne_nil]

theorem filter_components (path : Path) :
    path.components.filter isStep = path.segments.filterMap stepOf? := by
  unfold components
  cases segments : path.segments with
  | nil => rfl
  | cons first rest =>
    simp only
    split
    case isTrue absolute =>
      obtain ⟨others, split⟩ := head_segments_of_isAbsolute absolute
      rw [split] at segments
      obtain ⟨rfl, rfl⟩ := List.cons.inj segments
      rw [List.filter_cons_of_neg (by simp [isStep]), filter_isStep]
      rfl
    case isFalse =>
      split
      case isTrue current =>
        rw [beq_iff_eq.mp current, List.filter_cons_of_neg (by simp [isStep]), filter_isStep]
        rfl
      case isFalse => exact filter_isStep _

theorem isAbsolute_iff (path : Path) :
    path.isAbsolute = (path.components.head? == some .root) := by
  unfold components
  cases segments : path.segments with
  | nil => exact absurd segments path.segments_ne_nil
  | cons first rest =>
    simp only
    split
    case isTrue absolute => simp [absolute]
    case isFalse relative =>
      rw [eq_false_of_ne_true relative]
      symm
      rw [beq_eq_false_iff_ne]
      split
      case isTrue => simp
      case isFalse =>
        intro root
        have step := List.mem_of_head? root
        rw [← filter_isStep] at step
        exact absurd (List.mem_filter.mp step).2 (by decide)

theorem isAbsolute_congr {first second : Path} (same : (first == second) = true) :
    first.isAbsolute = second.isAbsolute := by
  rw [isAbsolute_iff, isAbsolute_iff, (beq_iff first second).mp same]

theorem filter_segments_congr {first second : Path} (same : (first == second) = true) :
    first.segments.filter (!isVoid ·) = second.segments.filter (!isVoid ·) := by
  rw [filter_eq_map_steps, filter_eq_map_steps, ← filter_components, ← filter_components,
    (beq_iff first second).mp same]

end Path

namespace FileSystem

theorem locate_eq {fs : FileSystem} {rule : LinkRule} {path : Path} {goal : Goal}
    (located : fs.locate rule path = .ok goal) (other : FileSystem) :
    other.locate rule path = other.walkLinks rule maxLinks
      (if path.isAbsolute then [] else other.current) path.segments := by
  unfold locate at located ⊢
  split at located
  · cases located
  case isFalse nul =>
  split at located
  · cases located
  case isFalse empty =>
  split at located
  · cases located
  case isFalse short =>
  rw [if_neg nul, if_neg empty, if_neg short]

theorem mem_of_metadata {fs : FileSystem} {path : Path} {node : Node}
    (found : fs.metadata path = .ok node) :
    node = .directory ∨ ∃ location, (location, node) ∈ fs.nodes := by
  obtain ⟨entry, resolved, rfl⟩ := exists_of_map_eq_ok found
  obtain ⟨goal, -, settled⟩ := find_eq_ok_iff.mp resolved
  cases goal with
  | directory location =>
    cases settled
    exact .inl rfl
  | entry parent name slashed =>
    simp only [settle] at settled
    split at settled
    · cases settled
    · cases settled
    case h_3 node looked =>
      split at settled
      · cases settled
      · cases settled
        obtain ⟨stored, member, -, rfl⟩ := Assoc.exists_mem_of_get? (nodeAt?_of_lookup looked)
        exact .inr ⟨stored.1, member⟩

theorem exists_resolve_of_read {fs : FileSystem} {path : Path} {bytes : Bytes}
    (readable : fs.read path = .ok bytes) :
    ∃ found, fs.resolve path = .ok found ∧ found.2.isDirectory = false := by
  unfold read metadata at readable
  cases resolved : fs.resolve path with
  | error failure =>
    rw [resolved] at readable
    cases readable
  | ok found =>
    obtain ⟨location, node⟩ := found
    rw [resolved] at readable
    refine ⟨_, rfl, ?_⟩
    cases node with
    | directory => cases readable
    | file | link | device => rfl

/-- A path that can be read ends in a name. -/
theorem strip_segments_of_read {fs : FileSystem} {path : Path} {bytes : Bytes}
    (readable : fs.read path = .ok bytes) :
    strip path.segments = path.segments.filter (!isVoid ·) := by
  obtain ⟨found, resolved, isFile⟩ := exists_resolve_of_read readable
  obtain ⟨goal, located, settled⟩ := find_eq_ok_iff.mp resolved
  have reached : fs.Reaches (fs.walkLinks .follow maxLinks
      (if path.isAbsolute then [] else fs.current) path.segments) found :=
    ⟨goal, (locate_eq located fs).symm.trans located, settled⟩
  obtain ⟨first, last, split⟩ := List.eq_nil_or_concat path.segments |>.resolve_left path.segments_ne_nil
  rw [List.concat_eq_append] at split
  cases named : isVoid last with
  | false => exact strip_eq_filter (by rw [split, List.getLast?_append]; rfl) named
  | true =>
    rw [split] at reached
    rw [isDirectory_of_walkLinks maxLinks named reached] at isFile
    cases isFile

/-- A path that can be read at some moment leads at any moment where an equal path leads. -/
theorem resolve_respell {fs earlier : FileSystem} {path other : Path} {bytes : Bytes}
    {found : Location × Node} (same : (path == other) = true) (readable : earlier.read path = .ok bytes)
    (resolved : fs.resolve other = .ok found) : fs.resolve path = .ok found := by
  obtain ⟨_, resolvedEarlier, -⟩ := exists_resolve_of_read readable
  obtain ⟨_, locatedEarlier, -⟩ := find_eq_ok_iff.mp resolvedEarlier
  obtain ⟨goal, located, settled⟩ := find_eq_ok_iff.mp resolved
  obtain ⟨voids, areVoid, split⟩ := exists_strip_eq other.segments
  have names : strip path.segments = other.segments.filter (!isVoid ·) :=
    (strip_segments_of_read readable).trans (Path.filter_segments_congr same)
  have reached : fs.Reaches (fs.walkLinks .follow maxLinks
      (if path.isAbsolute then [] else fs.current) (strip path.segments ++ voids)) found := by
    refine ⟨goal, ?_, settled⟩
    rw [names, ← split, walkLinks_congr (strip_strip _), Path.isAbsolute_congr same, ← locate_eq located]
    exact located
  have bare := walkLinks_drop_voids maxLinks areVoid reached
  rw [walkLinks_congr (strip_strip _), ← locate_eq locatedEarlier] at bare
  exact find_eq_ok_iff.mpr bare

end FileSystem

end DepAtlas
