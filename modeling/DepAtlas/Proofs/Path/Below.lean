import DepAtlas.Proofs.FileSystem.Entries

/-!
Paths below a directory, to which lists of names lead. Their steps are those of the directory and the
names, so that paths below different entries are in the order of the entries.
-/

namespace DepAtlas.Path

open FileSystem (IsName)

variable {root directory other : Path} {name : String} {names names' : List String}

/-- The path to which names lead from a directory. -/
def below (root : Path) (names : List String) : Path :=
  names.foldl (fun directory name => directory.join ⟨name⟩) root

theorem below_append (root : Path) (front rest : List String) :
    root.below (front ++ rest) = (root.below front).below rest :=
  List.foldl_append

theorem below_concat (root : Path) (front : List String) (name : String) :
    root.below (front ++ [name]) = (root.below front).join ⟨name⟩ :=
  below_append root front [name]

theorem isEmpty_join (some : directory.isEmpty = false) (isName : IsName name) :
    (directory.join ⟨name⟩).isEmpty = false := by
  rcases toList_join some isName with ⟨front, -, spelled⟩
  apply eq_false_of_ne_true
  intro empty
  rw [String.isEmpty_iff.mp empty] at spelled
  cases front <;> cases spelled

theorem isEmpty_below (some : root.isEmpty = false) (areNames : ∀ name ∈ names, IsName name) :
    (root.below names).isEmpty = false := by
  induction names generalizing root with
  | nil => exact some
  | cons name rest ih =>
    rcases List.forall_mem_cons.mp areNames with ⟨isName, areNames⟩
    exact ih (isEmpty_join some isName) areNames

theorem components_below (some : root.isEmpty = false) (areNames : ∀ name ∈ names, IsName name) :
    (root.below names).components = root.components ++ names.map .normal := by
  induction names generalizing root with
  | nil => exact (List.append_nil _).symm
  | cons name rest ih =>
    rcases List.forall_mem_cons.mp areNames with ⟨isName, areNames⟩
    have later : ((root.join ⟨name⟩).below rest).components = _ := ih (isEmpty_join some isName) areNames
    rw [components_join some isName, List.append_assoc] at later
    exact later

theorem stepsBelow?_append (base steps : List Component) :
    stepsBelow? (base ++ steps) base = some steps := by
  induction base with
  | nil => cases steps <;> rfl
  | cons step rest ih =>
    rw [List.cons_append, stepsBelow?, if_pos BEq.rfl]
    exact ih

/-- Seen from the directory, the path is made of the names. -/
theorem relativeTo?_below (some : root.isEmpty = false) (areNames : ∀ name ∈ names, IsName name) :
    (root.below names).relativeTo? root = Option.some ⟨"/".intercalate names⟩ := by
  have same : (names.map Component.normal).filterMap Component.name? = names := by
    rw [List.filterMap_map]
    exact List.filterMap_some
  rw [relativeTo?, components_below some areNames, stepsBelow?_append, Option.map_some, same]

theorem compareSteps_append {first second : List Component} (same : first.length = second.length)
    (before : compareSteps first second = .lt) (rest rest' : List Component) :
    compareSteps (first ++ rest) (second ++ rest') = .lt := by
  induction first generalizing second with
  | nil =>
    rw [List.length_eq_zero_iff.mp same.symm] at before
    cases before
  | cons step more ih =>
    cases second with
    | nil => cases same
    | cons step' more' =>
      rw [compareSteps] at before
      rw [List.cons_append, List.cons_append, compareSteps]
      cases order : step.compare step' with
      | lt => rfl
      | eq =>
        rw [order] at before
        exact ih (Nat.succ.inj same) before
      | gt =>
        rw [order] at before
        cases before

/-- What stands below one entry comes before what stands below a later one. -/
theorem Before.below (before : Before directory other)
    (same : directory.components.length = other.components.length)
    (some : directory.isEmpty = false) (some' : other.isEmpty = false)
    (areNames : ∀ name ∈ names, IsName name) (areNames' : ∀ name ∈ names', IsName name) :
    Before (directory.below names) (other.below names') := by
  change compareSteps _ _ = .lt
  rw [components_below some areNames, components_below some' areNames']
  exact compareSteps_append same before _ _

theorem exists_text_join (isName : IsName name) (directory : Path) :
    ∃ between, (directory.join ⟨name⟩).text = directory.text ++ (between ++ name) := by
  rw [join, not_isAbsolute_of_isName isName]
  simp only [Bool.false_eq_true, if_false]
  split
  · exact ⟨"", by rw [String.empty_append]⟩
  · exact ⟨"/", String.append_assoc⟩

theorem isUsable_of_join (some : directory.isEmpty = false) (isName : IsName name)
    (usable : (directory.join ⟨name⟩).isUsable = true) : directory.isUsable = true := by
  rcases exists_text_join isName directory with ⟨between, spelled⟩
  simp only [isUsable, spelled, Bool.and_eq_true, Bool.not_eq_true', decide_eq_true_eq,
    String.utf8ByteSize_append, String.toList_append, List.contains_append,
    Bool.or_eq_false_iff] at usable ⊢
  exact ⟨⟨usable.1.1.1, some⟩, by omega⟩

/-- A path that can be looked up stands below a directory that can be. -/
theorem isUsable_of_below (some : root.isEmpty = false) (areNames : ∀ name ∈ names, IsName name)
    (usable : (root.below names).isUsable = true) : root.isUsable = true := by
  induction names generalizing root with
  | nil => exact usable
  | cons name rest ih =>
    rcases List.forall_mem_cons.mp areNames with ⟨isName, areNames⟩
    exact isUsable_of_join some isName (ih (isEmpty_join some isName) areNames usable)

end DepAtlas.Path
