import DepAtlas.Language
import DepAtlas.Proofs.FileSystem.Entries
import DepAtlas.Proofs.Incremental.StateFile

/-!
What a saved state leaves behind. Besides the state file, only directories, the lock and the draft come and
go; the last two have names that belong to no language. Every path that leads to something else still leads
to it.
-/

namespace DepAtlas

/-- A name that tells no language. -/
def Aside (name : String) : Prop :=
  ∀ path : Path, path.fileName? = some name → Language.ofPath? path = none

theorem aside_of_ending {ending : String} (whole : '.' ∉ ending.toList)
    (unknown : Language.ofExtension? ending = none) (front : String) :
    Aside (front ++ "." ++ ending) := by
  intro path named
  have last : Text.splitWhere (· == '.') ending.toList = [ending.toList] := by
    refine Text.splitWhere_of_avoids fun c member => beq_eq_false_iff_ne.mpr ?_
    rintro rfl
    exact whole member
  have spelled : (front ++ "." ++ ending).toList = front.toList ++ '.' :: ending.toList := by
    rw [String.toList_append, String.toList_append, List.append_assoc]
    rfl
  have pieces : (Text.splitWhere (· == '.') (front ++ "." ++ ending).toList).reverse =
      ending.toList :: (Text.splitWhere (· == '.') front.toList).reverse := by
    rw [spelled, Text.splitWhere_append rfl, last, List.reverse_append]
    rfl
  rw [Language.ofPath?, Path.extension?, named, Option.bind_some, pieces]
  cases before : (Text.splitWhere (· == '.') front.toList).reverse with
  | nil => rfl
  | cons piece more =>
    dsimp only
    split
    · rfl
    · rw [Option.bind_some, String.ofList_toList]
      exact unknown

namespace SavedState

theorem aside_draft (path : Path) : Aside (path.fileName?.getD "" ++ "." ++ "tmp") :=
  aside_of_ending (by decide) (by decide) _

theorem aside_lock (path : Path) : Aside (path.fileName?.getD "" ++ "." ++ "lock") :=
  aside_of_ending (by decide) (by decide) _

end SavedState

namespace FileSystem

variable {fs after : FileSystem} {location goal : Location} {name : String} {path : Path} {node : Node}

/-- Where links stand for themselves, the last segment is the name that is looked up. -/
theorem locate_keep_name (isName : IsName name) {front : List String} {parent : Location}
    {other : String} {slashed : Bool} (ends : path.segments = front ++ [name])
    (located : fs.locate .keep path = .ok (.entry parent other slashed)) :
    other = name ∧ slashed = false := by
  obtain ⟨before, voids, whole, empty, rfl⟩ := locate_keep_ends located
  rw [ends] at whole
  rcases List.eq_nil_or_concat voids with rfl | ⟨more, last, rfl⟩
  · obtain ⟨-, same⟩ := List.append_inj' whole rfl
    exact ⟨(List.cons.inj same).1.symm, rfl⟩
  · rw [List.concat_eq_append, ← List.cons_append, ← List.append_assoc] at whole
    obtain ⟨-, same⟩ := List.append_inj' whole rfl
    obtain ⟨rfl, -⟩ := List.cons.inj same
    simp [isName.isEmpty] at empty

end FileSystem

namespace Path

variable {path : Path} {name : String}

theorem getLast?_of_fileName? (named : path.fileName? = some name) :
    path.components.getLast? = some (.normal name) := by
  obtain ⟨step, last, isName⟩ := Option.bind_eq_some_iff.mp named
  cases step with
  | normal other =>
    cases isName
    exact last
  | root | current | parent => cases isName

theorem eq_of_stepOf? {segment : String} (isStep : stepOf? segment = some (.normal name)) :
    segment = name := by
  unfold stepOf? at isStep
  split at isStep
  · cases isStep
  · split at isStep <;> cases isStep
    rfl

theorem whole_of_fileName? (named : path.fileName? = some name) : '/' ∉ name.toList := by
  have inside : Component.normal name ∈ path.segments.filterMap stepOf? := by
    rw [← filter_components]
    exact List.mem_filter.mpr ⟨List.mem_of_getLast? (getLast?_of_fileName? named), rfl⟩
  obtain ⟨segment, member, isStep⟩ := List.mem_filterMap.mp inside
  rw [← eq_of_stepOf? isStep]
  exact FileSystem.whole_segments path segment member

/-- A last segment that is a step is the name of the file. -/
theorem isName_of_fileName? {front : List String} {last : String}
    (ends : path.segments = front ++ [last]) (isNamed : isVoid last = false)
    (named : path.fileName? = some name) : last = name ∧ FileSystem.IsName last := by
  obtain ⟨before, whole⟩ := List.getLast?_eq_some_iff.mp (getLast?_of_fileName? named)
  have steps := filter_components path
  rw [whole, ends, List.filter_append, List.filterMap_append] at steps
  cases isStep : stepOf? last with
  | none =>
    rw [(stepOf?_eq_none_iff last).mp isStep] at isNamed
    cases isNamed
  | some step =>
    rw [List.filterMap_cons_some isStep] at steps
    cases (List.append_inj' steps rfl).2
    refine ⟨eq_of_stepOf? isStep, isNamed, ?_, ?_⟩
    · rintro rfl
      cases isStep
    · exact FileSystem.whole_segments path last (ends ▸ List.mem_append_right _ List.mem_cons_self)

end Path

namespace SavedState

/-- The neighbour of a state file is named after it. -/
theorem isName_neighbour (path : Path) {ending : String} (long : 2 ≤ ending.toList.length)
    (whole : '/' ∉ ending.toList) :
    FileSystem.IsName (path.fileName?.getD "" ++ "." ++ ending) := by
  have spelled : (path.fileName?.getD "" ++ "." ++ ending).toList =
      (path.fileName?.getD "").toList ++ '.' :: ending.toList := by
    rw [String.toList_append, String.toList_append, List.append_assoc]
    rfl
  have other {text : String} (short : text.toList.length ≤ 2) :
      path.fileName?.getD "" ++ "." ++ ending ≠ text := by
    intro same
    have length := congrArg List.length spelled
    rw [same, List.length_append, List.length_cons] at length
    omega
  refine ⟨?_, other (by decide), ?_⟩
  · rw [isVoid, beq_eq_false_iff_ne.mpr (other (by decide)), beq_eq_false_iff_ne.mpr (other (by decide))]
    rfl
  · rw [spelled]
    intro slash
    rcases List.mem_append.mp slash with inFront | inEnding
    · cases named : path.fileName? with
      | none =>
        rw [named] at inFront
        cases inFront
      | some name =>
        rw [named] at inFront
        exact Path.whole_of_fileName? named inFront
    · rcases List.mem_cons.mp inEnding with impossible | inEnding
      · cases impossible
      · exact whole inEnding

theorem exists_neighbour (path : Path) (ending : String) : ∃ directory : Path,
    neighbour path ending = directory.join ⟨path.fileName?.getD "" ++ "." ++ ending⟩ := by
  unfold neighbour Path.withFileName
  split
  · exact ⟨_, rfl⟩
  · exact ⟨_, rfl⟩

/-- The name under which a neighbour of a state file is looked up. -/
theorem eq_of_locate_neighbour {fs : FileSystem} {path : Path} {ending name : String} {parent : Location}
    {slashed : Bool} (long : 2 ≤ ending.toList.length) (whole : '/' ∉ ending.toList)
    (located : fs.locate .keep (neighbour path ending) = .ok (.entry parent name slashed)) :
    name = path.fileName?.getD "" ++ "." ++ ending := by
  obtain ⟨directory, isNeighbour⟩ := exists_neighbour path ending
  rw [isNeighbour] at located
  have isName := isName_neighbour path long whole
  obtain ⟨front, ends⟩ := Path.exists_segments_eq_append isName directory
  exact (FileSystem.locate_keep_name isName ends located).1

end SavedState

namespace FileSystem

variable {fs after : FileSystem} {location goal : Location} {name : String} {path : Path} {node : Node}

/-- What may become of a location while a file is put at another one. -/
inductive Change (fs after : FileSystem) (goal : Location) (location : Location) : Prop
  | same (kept : after.nodeAt? location = fs.nodeAt? location)
  | goal (here : location = goal)
  | directory (absent : fs.nodeAt? location = none) (made : after.nodeAt? location = some .directory)
  | added {parent : Location} {name : String} {content : Bytes} {time : Time}
      (place : location = parent ++ [name]) (aside : Aside name) (absent : fs.nodeAt? location = none)
      (made : after.nodeAt? location = some (.file content time))
  | removed {parent : Location} {name : String} (place : location = parent ++ [name])
      (aside : Aside name) (gone : after.nodeAt? location = none)

/-- How a file system looks after a file was put in its place: directories and files aside have been added
or are gone, and no way is lost. -/
structure Footprint (fs after : FileSystem) (goal : Location) : Prop where
  tree : fs.IsTree
  grown : after.IsTree
  retains : Retains fs after
  placed : ∃ content time, after.nodeAt? goal = some (.file content time)
  change : ∀ location, Change fs after goal location

namespace Footprint

variable (footprint : Footprint fs after goal)
include footprint

/-- What was at the place before is neither a directory nor a link. -/
theorem goal_leaf (found : fs.nodeAt? goal = some node) :
    (node.isDirectory || node.isLink) = false := by
  refine eq_false_of_ne_true fun isWay => ?_
  obtain ⟨content, time, placed⟩ := footprint.placed
  rw [footprint.retains.ways found isWay] at placed
  cases placed
  cases isWay

/-- What is there before and after is the same, but for the file itself. -/
theorem nodeAt?_eq (apart : location ≠ goal) {stored : Node} (found : fs.nodeAt? location = some node)
    (there : after.nodeAt? location = some stored) : stored = node := by
  cases footprint.change location with
  | same kept =>
    rw [kept, found] at there
    exact (Option.some.inj there).symm
  | goal here => exact absurd here apart
  | directory absent => cases absent.symm.trans found
  | added _ _ absent => cases absent.symm.trans found
  | removed _ _ gone => cases gone.symm.trans there

/-- A path that led to something leads to the same place if it leads to anything, and to the same unless
that is the place of the file. -/
theorem resolve {found : Location × Node} (resolved : fs.resolve path = .ok found)
    (there : after.exists? path = true) :
    ∃ stored, after.resolve path = .ok (found.1, stored) ∧
      (found.1 ≠ goal → stored = found.2) ∧ (found.1 = goal → stored.isFile = true) := by
  obtain ⟨⟨location, stored⟩, isThere⟩ := exists?_iff.mp there
  obtain ⟨reached, located, settled⟩ := find_eq_ok_iff.mp resolved
  obtain ⟨reached', located', settled'⟩ := find_eq_ok_iff.mp isThere
  cases (footprint.retains.locate located).symm.trans located'
  have same : location = found.1 := fst_eq_of_settle settled' settled
  subst same
  have stands := nodeAt?_of_resolve footprint.grown isThere
  refine ⟨stored, isThere, fun apart => ?_, fun here => ?_⟩
  · exact footprint.nodeAt?_eq apart (nodeAt?_of_resolve footprint.tree resolved) stands
  · obtain ⟨content, time, placed⟩ := footprint.placed
    rw [here, placed] at stands
    cases stands
    rfl

end Footprint

/-- A file at the end of a path without links has the name that the path ends in. -/
theorem fileName?_of_resolve (tree : fs.IsTree) {parent : Location}
    (resolved : fs.resolve path = .ok (parent ++ [name], node)) (leaf : node.isDirectory = false)
    (plain : fs.isLink path = false) {known : String} (named : path.fileName? = some known) :
    known = name := by
  obtain ⟨reached, located, settled⟩ := find_eq_ok_iff.mp resolved
  obtain ⟨front, last, ends⟩ := List.eq_nil_or_concat path.segments |>.resolve_left path.segments_ne_nil
  rw [List.concat_eq_append] at ends
  have isNamed : isVoid last = false := by
    refine eq_false_of_ne_true fun void => ?_
    have walked := (locate_eq located fs).symm.trans located
    rw [ends] at walked
    rw [isDirectory_of_walkLinks maxLinks void ⟨reached, walked, settled⟩] at leaf
    cases leaf
  obtain ⟨rfl, isName⟩ := Path.isName_of_fileName? ends isNamed named
  obtain ⟨kept, isKept, stops⟩ := exists_locate_keep located
  cases stops with
  | here =>
    cases reached with
    | directory =>
      cases settled
      cases leaf
    | entry place other slashed =>
      have isPlace := fst_eq_entry_of_settle settled
      cases (List.append_inj' isPlace rfl).2
      exact (locate_keep_name isName ends isKept).1.symm
  | link _ found =>
    obtain ⟨rfl, rfl⟩ := locate_keep_name isName ends isKept
    rw [isLink_of_locate isKept (lookup_eq_ok_iff.mpr ⟨(tree.named found).2, found⟩)] at plain
    cases plain

/-- A directory that a path led to is still there. -/
theorem Footprint.resolve_directory (footprint : Footprint fs after goal)
    (resolved : fs.resolve path = .ok (location, .directory)) :
    after.resolve path = .ok (location, .directory) := by
  have stands := nodeAt?_of_resolve footprint.tree resolved
  exact footprint.retains.resolve footprint.grown resolved (footprint.retains.ways stands rfl) fun _ => rfl

/-- A file that was put into its place while no link that is named like a file of a known language, or
leads to a directory, came to lead elsewhere. -/
structure Undisturbed (fs after : FileSystem) (goal : Location) : Prop extends Footprint fs after goal where
  leads : ∀ path, fs.isLink path = true →
    ((Language.ofPath? path).isSome || after.isDirectory path) = true →
    (after.canonical path).toOption = (fs.canonical path).toOption

/-- A path to a file of a known language still leads to something. -/
theorem Undisturbed.exists? (undisturbed : Undisturbed fs after goal) (there : fs.exists? path = true)
    (known : (Language.ofPath? path).isSome = true) : after.exists? path = true := by
  obtain ⟨⟨location, node⟩, resolved⟩ := exists?_iff.mp there
  cases link : fs.isLink path with
  | true =>
    have leads := undisturbed.leads path link (by rw [known, Bool.true_or])
    rw [canonical, canonical, resolved] at leads
    cases now : after.resolve path with
    | error failure =>
      rw [now] at leads
      cases leads
    | ok found => exact exists?_iff.mpr ⟨found, now⟩
  | false =>
    obtain ⟨reached, located, settled⟩ := find_eq_ok_iff.mp resolved
    have stands := nodeAt?_of_resolve undisturbed.tree resolved
    have stays : ∃ stored, after.nodeAt? location = some stored ∧
        (node.isDirectory = true → stored.isDirectory = true) := by
      cases kind : node.isDirectory with
      | true => exact ⟨node, undisturbed.retains.ways stands (by rw [kind]; rfl), fun _ => kind⟩
      | false =>
        cases undisturbed.change location with
        | same kept => exact ⟨node, kept.trans stands, nofun⟩
        | goal here =>
          obtain ⟨content, time, placed⟩ := undisturbed.placed
          exact ⟨_, here ▸ placed, nofun⟩
        | directory absent => cases absent.symm.trans stands
        | added _ _ absent => cases absent.symm.trans stands
        | removed isPlace aside =>
          subst isPlace
          obtain ⟨language, isLanguage⟩ := Option.isSome_iff_exists.mp known
          obtain ⟨ending, ends, -⟩ := Option.bind_eq_some_iff.mp isLanguage
          obtain ⟨name, named, -⟩ := Option.bind_eq_some_iff.mp ends
          cases fileName?_of_resolve undisturbed.tree resolved kind link named
          cases (aside path named).symm.trans isLanguage
    obtain ⟨stored, found, directory⟩ := stays
    exact exists?_iff.mpr
      ⟨_, undisturbed.retains.resolve undisturbed.grown resolved found directory⟩

end FileSystem

namespace SavedState

variable {fs after : FileSystem} {path : Path} {state : SavedState} {time : Time}

/-- No link diverts what is written when a state is saved: neither the state file nor its draft is a link,
and a link in place of the lock leads to something. -/
structure Undiverted (fs : FileSystem) (path : Path) : Prop extends Unlinked fs path where
  lock : (fs.createParents path).1.isLink (neighbour path "lock") = true →
    (fs.createParents path).1.exists? (neighbour path "lock") = true

/-- A lock that has to be created is named after the state file. -/
theorem aside_of_ensured (tree : fs.IsTree) {locked : FileSystem} {place : Option Location}
    (leads : fs.isLink (neighbour path "lock") = true → fs.exists? (neighbour path "lock") = true)
    (ensured : fs.Ensured locked (neighbour path "lock") time place) :
    ∀ location ∈ place, ∃ parent name, location = parent ++ [name] ∧ Aside name := by
  intro location member
  obtain ⟨parent, name, rfl, located, looked⟩ := ensured.located location member
  refine ⟨parent, name, rfl, ?_⟩
  have noLink : fs.isLink (neighbour path "lock") = false := by
    refine eq_false_of_ne_true fun link => ?_
    obtain ⟨found, resolved⟩ := FileSystem.exists?_iff.mp (leads link)
    obtain ⟨reached, followed, settled⟩ := FileSystem.find_eq_ok_iff.mp resolved
    have plain : FileSystem.Goal.Plain fs (.entry parent name false) := by
      intro target isLink
      cases (FileSystem.nodeAt?_of_lookup looked).symm.trans isLink
    cases (FileSystem.locate_of_plain (fun _ => rfl) located plain).symm.trans followed
    rw [FileSystem.settle, looked] at settled
    cases settled
  rw [eq_of_locate_neighbour (by decide) (by decide)
    (FileSystem.locate_keep_of_bare tree located noLink)]
  exact aside_lock path

/-- What a saved state leaves behind. -/
theorem exists_footprint (tree : fs.IsTree) (undiverted : Undiverted fs path)
    (written : state.write fs path time = (after, .ok ())) :
    ∃ goal, fs.Footprint after goal ∧ after.canonical path = .ok goal := by
  obtain ⟨locked, place, draftParent, draftName, goalParent, goalName, ensured, atDraft, atGoal,
    replaced⟩ := exists_replaced tree undiverted.toUnlinked written
  obtain ⟨grown, grows⟩ := FileSystem.createParents_spec tree path
  have absent {location : Location} (none' : (fs.createParents path).1.nodeAt? location = none) :
      fs.nodeAt? location = none := by
    cases found : fs.nodeAt? location with
    | none => rfl
    | some node => cases none'.symm.trans (grows.kept found)
  refine ⟨goalParent ++ [goalName], ⟨tree, replaced.tree, grows.retains.trans replaced.retains, ?_, ?_⟩,
    ?_⟩
  · exact ⟨state.encode, time, by rw [replaced.nodeAt?, if_pos rfl]⟩
  · intro location
    have stands := replaced.nodeAt? location
    split at stands
    case isTrue here => exact .goal here
    case isFalse =>
    split at stands
    case isTrue here =>
      refine .removed here ?_ stands
      rw [eq_of_locate_neighbour (by decide) (by decide) atDraft]
      exact aside_draft path
    case isFalse =>
    split at stands
    case isTrue here =>
      obtain ⟨parent, name, isPlace, aside⟩ := aside_of_ensured grown undiverted.lock ensured location here
      exact .added isPlace aside (absent (replaced.added location here)) stands
    case isFalse =>
      cases found : (fs.createParents path).1.nodeAt? location with
      | none =>
        rw [found] at stands
        exact .same (stands.trans (absent found).symm)
      | some node =>
        rw [found] at stands
        rcases grows.added found with kept | ⟨new, rfl⟩
        · exact .same (stands.trans kept.symm)
        · exact .directory new stands
  · rw [FileSystem.canonical, replaced.resolve atGoal rfl]
    rfl

end SavedState

end DepAtlas
