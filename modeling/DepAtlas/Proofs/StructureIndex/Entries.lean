import Mathlib.Data.String.Basic
import DepAtlas.Proofs.Path
import DepAtlas.Proofs.StructureIndex.Mentions

/-!
The entries of the structure index: one for each declared name, as its first declaration says, with the
files that were linked to it. Where names are identifiers, these are exactly the other files that mention
the name as a whole word.
-/

namespace DepAtlas.StructureIndex

/-- In strictly increasing order of names. -/
def Sorted (entries : List StructureEntry) : Prop :=
  entries.Pairwise fun a b => a.name < b.name

variable {entry : StructureEntry} {entries : List StructureEntry}

theorem mem_insert {other : StructureEntry} (member : other ∈ insert entry entries) :
    other = entry ∨ other ∈ entries := by
  induction entries with
  | nil => exact .inl (List.mem_singleton.mp member)
  | cons first rest ih =>
    rw [insert] at member
    split at member
    · exact List.mem_cons.mp member
    · exact .inr member
    · rcases List.mem_cons.mp member with rfl | member
      · exact .inr List.mem_cons_self
      · exact (ih member).imp_right (List.mem_cons_of_mem _)

theorem Sorted.insert (sorted : Sorted entries) (entry : StructureEntry) :
    Sorted (insert entry entries) := by
  induction entries with
  | nil => exact List.pairwise_singleton _ _
  | cons first rest ih =>
    obtain ⟨above, restSorted⟩ := List.pairwise_cons.mp sorted
    rw [StructureIndex.insert]
    split
    · rename_i before
      have less := compare_lt_iff_lt.mp before
      refine List.pairwise_cons.mpr ⟨fun other member => ?_, sorted⟩
      rcases List.mem_cons.mp member with rfl | member
      · exact less
      · exact less.trans (above other member)
    · exact sorted
    · rename_i behind
      have greater := compare_gt_iff_gt.mp behind
      refine List.pairwise_cons.mpr ⟨fun other member => ?_, ih restSorted⟩
      rcases mem_insert member with rfl | member
      · exact greater
      · exact above other member

theorem find?_insert (sorted : Sorted entries) (entry : StructureEntry) (name : String) :
    (insert entry entries).find? (·.name == name) =
      (entries.find? (·.name == name)).or (if entry.name == name then some entry else none) := by
  induction entries with
  | nil => rw [insert, List.find?_cons, List.find?_nil]; cases entry.name == name <;> rfl
  | cons first rest ih =>
    obtain ⟨above, restSorted⟩ := List.pairwise_cons.mp sorted
    rw [insert]
    split
    · rename_i before
      have less := compare_lt_iff_lt.mp before
      rw [List.find?_cons]
      by_cases named : entry.name = name
      · subst named
        have absent : (first :: rest).find? (·.name == entry.name) = none := by
          apply List.find?_eq_none.mpr
          intro other member
          have later : entry.name < other.name := by
            rcases List.mem_cons.mp member with rfl | member
            · exact less
            · exact less.trans (above other member)
          simpa using later.ne'
        rw [absent]
        simp
      · have apart : (entry.name == name) = false := beq_eq_false_iff_ne.mpr named
        rw [apart, if_neg Bool.false_ne_true, Option.or_none]
    · rename_i equal
      have same := compare_eq_iff_eq.mp equal
      rw [same, List.find?_cons]
      cases first.name == name <;> simp
    · rw [List.find?_cons, List.find?_cons, ih restSorted]
      cases first.name == name <;> rfl

theorem Sorted.find?_of_mem (sorted : Sorted entries) (member : entry ∈ entries) :
    entries.find? (·.name == entry.name) = some entry := by
  induction entries with
  | nil => cases member
  | cons first rest ih =>
    obtain ⟨above, restSorted⟩ := List.pairwise_cons.mp sorted
    rcases List.mem_cons.mp member with rfl | member
    · rw [List.find?_cons, beq_self_eq_true]
    · have apart : (first.name == entry.name) = false :=
        beq_eq_false_iff_ne.mpr (above entry member).ne
      rw [List.find?_cons, apart]
      exact ih restSorted member

/-- The entries of the declared types, without references. -/
def declared (dependencies : List Dependency) : List StructureEntry :=
  (dependencies.filter (·.layer == .struct)).foldl
    (fun entries dependency => insert (.ofDependency dependency) entries) []

/-- The first declaration of a name. -/
def firstDeclaration? (dependencies : List Dependency) (name : String) : Option Dependency :=
  dependencies.find? fun dependency => dependency.layer == .struct && dependency.target == name

theorem declared_spec (dependencies : List Dependency) :
    Sorted (declared dependencies) ∧ ∀ name, (declared dependencies).find? (·.name == name) =
      (firstDeclaration? dependencies name).map .ofDependency := by
  suffices ∀ entries, Sorted entries →
      let all := (dependencies.filter (·.layer == .struct)).foldl
        (fun entries dependency => insert (.ofDependency dependency) entries) entries
      Sorted all ∧ ∀ name, all.find? (·.name == name) = (entries.find? (·.name == name)).or
        ((firstDeclaration? dependencies name).map .ofDependency) from
    this [] List.Pairwise.nil
  induction dependencies with
  | nil =>
    intro entries sorted
    exact ⟨sorted, fun name => (Option.or_none ..).symm⟩
  | cons dependency rest ih =>
    intro entries sorted
    rw [List.filter_cons]
    cases isStruct : dependency.layer == .struct with
    | false =>
      obtain ⟨allSorted, found⟩ := ih entries sorted
      refine ⟨allSorted, fun name => ?_⟩
      rw [if_neg Bool.false_ne_true, found, firstDeclaration?, firstDeclaration?, List.find?_cons,
        isStruct, Bool.false_and]
    | true =>
      obtain ⟨allSorted, found⟩ := ih _ (sorted.insert (.ofDependency dependency))
      refine ⟨allSorted, fun name => ?_⟩
      have named : (StructureEntry.ofDependency dependency).name = dependency.target := rfl
      change List.find? _ (List.foldl _ (insert (.ofDependency dependency) entries) _) = _
      rw [found, find?_insert sorted, firstDeclaration?, firstDeclaration?, List.find?_cons,
        isStruct, Bool.true_and, Option.or_assoc, named]
      cases dependency.target == name <;> rfl

/-- The names that are searched for. -/
def declaredNames (dependencies : List Dependency) : List Text :=
  (declared dependencies).map (·.name.toList)

theorem mem_declaredNames {dependencies : List Dependency} {name : Text} :
    name ∈ declaredNames dependencies ↔
      ∃ dependency ∈ dependencies, dependency.layer = .struct ∧ dependency.target.toList = name := by
  have found (name : String) : (∃ entry ∈ declared dependencies, entry.name = name) ↔
      ∃ dependency ∈ dependencies, dependency.layer = .struct ∧ dependency.target = name := by
    have same := congrArg Option.isSome ((declared_spec dependencies).2 name)
    rw [Option.isSome_map, firstDeclaration?, Bool.eq_iff_iff, List.find?_isSome,
      List.find?_isSome] at same
    simpa using same
  rw [declaredNames, List.mem_map]
  constructor
  · rintro ⟨entry, member, rfl⟩
    obtain ⟨dependency, known, isStruct, target⟩ := (found entry.name).mp ⟨entry, member, rfl⟩
    exact ⟨dependency, known, isStruct, congrArg String.toList target⟩
  · rintro ⟨dependency, known, isStruct, rfl⟩
    obtain ⟨entry, member, named⟩ := (found dependency.target).mpr ⟨dependency, known, isStruct, rfl⟩
    exact ⟨entry, member, congrArg String.toList named⟩

/-- The files that are linked to an entry, after those that it has. -/
def references (names : List Text) (contents : List (Path × String)) (entry : StructureEntry) :
    PathSet :=
  contents.foldl (fun set file =>
    if (wholeWords names file.2.toList).contains entry.name.toList && !(entry.definedIn == file.1) then
      set.insert file.1
    else set) entry.referencedIn

/-- An entry with the files that are linked to it. -/
def linked (names : List Text) (contents : List (Path × String)) (entry : StructureEntry) :
    StructureEntry :=
  { entry with referencedIn := references names contents entry }

variable {names : List Text} {contents : List (Path × String)}

theorem linkFile_eq_map (entries : List StructureEntry) (file : Path × String) :
    linkFile entries file.1 file.2 = entries.map (linked (entries.map (·.name.toList)) [file]) := by
  rw [linkFile]
  refine List.map_congr_left fun entry _ => ?_
  rw [linked, references, List.foldl_cons, List.foldl_nil]
  split <;> rfl

theorem foldl_linkFile (entries : List StructureEntry) (contents : List (Path × String)) :
    contents.foldl (fun entries (path, content) => linkFile entries path content) entries =
      entries.map (linked (entries.map (·.name.toList)) contents) := by
  induction contents generalizing entries with
  | nil => exact (List.map_id _).symm
  | cons file rest ih =>
    have named : (linkFile entries file.1 file.2).map (·.name.toList) =
        entries.map (·.name.toList) := by
      rw [linkFile_eq_map, List.map_map]
      rfl
    rw [List.foldl_cons]
    change List.foldl _ (linkFile entries file.1 file.2) rest = _
    rw [ih, named, linkFile_eq_map, List.map_map]
    rfl

theorem entries_build (dependencies : List Dependency) (contents : List (Path × String)) :
    (build dependencies contents).entries =
      (declared dependencies).map (linked (declaredNames dependencies) contents) := by
  have unfolded : build dependencies contents =
      if (declared dependencies).isEmpty then ⟨declared dependencies⟩
      else ⟨contents.foldl (fun entries (path, content) => linkFile entries path content)
        (declared dependencies)⟩ := rfl
  rw [unfolded]
  split
  · rename_i none
    rw [List.isEmpty_iff.mp none]
    rfl
  · exact foldl_linkFile (declared dependencies) contents

theorem sorted_build (dependencies : List Dependency) (contents : List (Path × String)) :
    Sorted (build dependencies contents).entries := by
  rw [entries_build, Sorted, List.pairwise_map]
  exact (declared_spec dependencies).1

theorem get?_build (dependencies : List Dependency) (contents : List (Path × String)) (name : String) :
    (build dependencies contents).get? name =
      (firstDeclaration? dependencies name).map fun dependency =>
        linked (declaredNames dependencies) contents (.ofDependency dependency) := by
  rw [get?, entries_build, List.find?_map]
  change Option.map _ ((declared dependencies).find? (·.name == name)) = _
  rw [(declared_spec dependencies).2, Option.map_map]
  rfl

theorem increasing_references (increasing : entry.referencedIn.Increasing) :
    PathSet.Increasing (references names contents entry) := by
  rw [references]
  exact List.foldlRecOn contents _ increasing fun set ordered file _ => by
    split
    · exact ordered.insert file.1
    · exact ordered

theorem contains_references (names : List Text) (contents : List (Path × String))
    (entry : StructureEntry) (path : Path) :
    (references names contents entry).contains path = true ↔
      entry.referencedIn.contains path = true ∨ (entry.definedIn == path) = false ∧
        ∃ file ∈ contents, (file.1 == path) = true ∧
          entry.name.toList ∈ wholeWords names file.2.toList := by
  rw [references]
  generalize entry.referencedIn = set
  induction contents generalizing set with
  | nil => simp
  | cons file rest ih =>
    have first : (if (wholeWords names file.2.toList).contains entry.name.toList &&
          !(entry.definedIn == file.1) then set.insert file.1 else set).contains path = true ↔
        set.contains path = true ∨ (entry.definedIn == path) = false ∧ (file.1 == path) = true ∧
          entry.name.toList ∈ wholeWords names file.2.toList := by
      by_cases same : (file.1 == path) = true
      · have owner : (entry.definedIn == file.1) = (entry.definedIn == path) := BEq.congr_right same
        rw [owner]
        split
        · rename_i links
          simp only [Bool.and_eq_true, Bool.not_eq_true', List.contains_iff_mem] at links
          simp [PathSet.contains_insert, same, links.1, links.2]
        · rename_i apart
          simp only [Bool.and_eq_true, Bool.not_eq_true', List.contains_iff_mem, not_and] at apart
          tauto
      · split
        · rw [PathSet.contains_insert, eq_false_of_ne_true same, Bool.false_or]
          simp
        · simp [same]
    rw [List.foldl_cons, ih, first, or_assoc, ← and_or_left]
    simp only [List.mem_cons, exists_eq_or_imp]

/-- An entry that no name hides refers to the other files that mention it. -/
theorem contains_references_of_clear (contents : List (Path × String)) (entry : StructureEntry)
    (filled : [] ∉ names) (listed : entry.name.toList ∈ names)
    (clear : ∀ other ∈ names, ¬ Hides other entry.name.toList) (bare : entry.referencedIn = [])
    (path : Path) :
    (references names contents entry).contains path = true ↔
      (entry.definedIn == path) = false ∧ ∃ file ∈ contents, (file.1 == path) = true ∧
        Mentions file.2.toList entry.name.toList := by
  rw [contains_references, bare]
  simp only [mem_wholeWords_iff filled listed clear, List.contains_nil, Bool.false_eq_true, false_or]

theorem of_firstDeclaration? {dependencies : List Dependency} {name : String} {dependency : Dependency}
    (first : firstDeclaration? dependencies name = some dependency) :
    dependency ∈ dependencies ∧ dependency.layer = .struct ∧ dependency.target = name := by
  have isFirst := List.find?_some first
  simp only [Bool.and_eq_true, beq_iff_eq] at isFirst
  exact ⟨List.mem_of_find?_eq_some first, isFirst⟩

theorem mem_declaredNames_of_first {dependencies : List Dependency} {name : String}
    {dependency : Dependency} (first : firstDeclaration? dependencies name = some dependency) :
    dependency.target.toList ∈ declaredNames dependencies := by
  obtain ⟨known, isStruct, -⟩ := of_firstDeclaration? first
  exact mem_declaredNames.mpr ⟨dependency, known, isStruct, rfl⟩

/-- The names of declared types are identifiers. -/
def Identifiers (dependencies : List Dependency) : Prop :=
  ∀ dependency ∈ dependencies, dependency.layer = .struct →
    dependency.target.toList ≠ [] ∧ ∀ c ∈ dependency.target.toList, Text.isIdentifier c = true

/-- An entry says what a declaration says. -/
structure Reports (dependency : Dependency) (entry : StructureEntry) : Prop where
  name : entry.name = dependency.target
  definedIn : entry.definedIn = dependency.source
  line : entry.line = dependency.line
  detailed : match dependency.detail with
    | some (.struct declaration base) => entry.declaration = declaration ∧ entry.base = base
    | _ => entry.declaration = "struct" ∧ entry.base = none

theorem reports_linked (dependency : Dependency) :
    Reports dependency (linked names contents (.ofDependency dependency)) where
  name := rfl
  definedIn := rfl
  line := rfl
  detailed := by
    rw [linked, StructureEntry.ofDependency, Dependency.base?]
    cases dependency.detail with
    | none => exact ⟨rfl, rfl⟩
    | some detail => cases detail <;> exact ⟨rfl, rfl⟩

/-- For names that are identifiers the index is exact: it has one entry for each declared name, as the
first declaration says, and the entry refers to exactly the other files that mention the name. -/
theorem build_is_exact {dependencies : List Dependency} (identifiers : Identifiers dependencies)
    (contents : List (Path × String)) :
    Sorted (build dependencies contents).entries ∧
      (∀ name, ((build dependencies contents).get? name).isSome ↔
        ∃ dependency ∈ dependencies, dependency.layer = .struct ∧ dependency.target = name) ∧
      ∀ entry ∈ (build dependencies contents).entries,
        (∃ dependency, firstDeclaration? dependencies entry.name = some dependency ∧
          Reports dependency entry) ∧
        entry.referencedIn.Increasing ∧
        ∀ path, entry.referencedIn.contains path = true ↔
          (entry.definedIn == path) = false ∧ ∃ file ∈ contents, (file.1 == path) = true ∧
            Mentions file.2.toList entry.name.toList := by
  have filled : [] ∉ declaredNames dependencies := by
    intro member
    obtain ⟨dependency, known, isStruct, empty⟩ := mem_declaredNames.mp member
    exact (identifiers dependency known isStruct).1 empty
  have clear (name other : Text) (listed : other ∈ declaredNames dependencies) : ¬ Hides other name := by
    obtain ⟨dependency, known, isStruct, rfl⟩ := mem_declaredNames.mp listed
    exact not_hides_of_identifier (identifiers dependency known isStruct).2
  refine ⟨sorted_build dependencies contents, fun name => ?_, fun entry member => ?_⟩
  · rw [get?_build, Option.isSome_map, firstDeclaration?, List.find?_isSome]
    simp
  · have found := (sorted_build dependencies contents).find?_of_mem member
    change (build dependencies contents).get? entry.name = some entry at found
    rw [get?_build] at found
    obtain ⟨dependency, first, rfl⟩ := Option.map_eq_some_iff.mp found
    refine ⟨⟨dependency, first, reports_linked dependency⟩, increasing_references List.Pairwise.nil, ?_⟩
    exact contains_references_of_clear contents _ filled (mem_declaredNames_of_first first) (clear _) rfl

/-- A name that begins as another one does, declared after it, and once more. -/
def shapes : List Dependency := [
  ⟨⟨"A.java"⟩, "Shape", .struct, .java, 1, some (.struct "class" none)⟩,
  ⟨⟨"B.java"⟩, "ShapeFactory", .struct, .java, 1, some (.struct "class" (some "Shape"))⟩,
  ⟨⟨"C.java"⟩, "Shape", .struct, .java, 7, none⟩]

/-- The word of the first name stands in the second file, but not in the third one. -/
def shapeContents : List (Path × String) := [
  (⟨"A.java"⟩, "class Shape"), (⟨"B.java"⟩, "class ShapeFactory extends Shape"),
  (⟨"C.java"⟩, "ShapeFactory éShape Shape_")]

theorem build_is_exact_shapes :
    Identifiers shapes ∧ ∃ shape ∈ (build shapes shapeContents).entries,
      shape.name = "Shape" ∧ firstDeclaration? shapes "Shape" = shapes.head? ∧
      shape.referencedIn.contains ⟨"B.java"⟩ = true ∧ shape.referencedIn.contains ⟨"C.java"⟩ = false ∧
      ∃ file ∈ shapeContents, (file.1 == ⟨"B.java"⟩) = true ∧ Mentions file.2.toList "Shape".toList := by
  have identifiers : Identifiers shapes := by
    intro dependency member _
    simp only [shapes, List.mem_cons, List.not_mem_nil, or_false] at member
    rcases member with rfl | rfl | rfl <;> exact ⟨by decide, List.all_eq_true.mp (by decide)⟩
  obtain ⟨shape, member, named, inside, outside⟩ :
      ∃ shape ∈ (build shapes shapeContents).entries, shape.name = "Shape" ∧
        shape.referencedIn.contains ⟨"B.java"⟩ = true ∧
        shape.referencedIn.contains ⟨"C.java"⟩ = false := by
    decide +kernel
  obtain ⟨-, -, exactly⟩ := build_is_exact identifiers shapeContents
  obtain ⟨-, -, mentioned⟩ := exactly shape member
  have mentions := ((mentioned ⟨"B.java"⟩).mp inside).2
  rw [named] at mentions
  exact ⟨identifiers, shape, member, named, rfl, inside, outside, mentions⟩

end DepAtlas.StructureIndex
