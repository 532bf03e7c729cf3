import DepAtlas.Proofs.CallGraph.Ownership

/-!
Taking a file in, name by name: the file's calls are unlinked and its earlier claims withdrawn, the names
it no longer defines are released, its definitions are taken in one after the other, and its calls are
linked.
-/

namespace DepAtlas

namespace Dependency

/-- What dependencies say about each name; of several definitions of a name the last one counts. -/
def entries (dependencies : List Dependency) : Assoc String FileMethod :=
  (methods dependencies).foldl (fun entries dependency =>
    Assoc.put dependency.target (FileMethod.ofDependency dependency) entries) []

/-- What dependencies say about a name. -/
def said? (dependencies : List Dependency) (name : String) : Option FileMethod :=
  (definition? dependencies name).map .ofDependency

theorem get?_foldl_put (definitions : List Dependency) (entries : Assoc String FileMethod)
    (name : String) :
    Assoc.get? name (definitions.foldl (fun entries dependency =>
      Assoc.put dependency.target (FileMethod.ofDependency dependency) entries) entries) =
      ((definitions.filter (·.target == name)).getLast?.map FileMethod.ofDependency).or
        (Assoc.get? name entries) := by
  induction definitions generalizing entries with
  | nil => rfl
  | cons definition rest ih =>
    rw [List.foldl_cons, ih, Assoc.get?_put, List.filter_cons]
    split
    · rw [List.getLast?_cons]
      cases (rest.filter (·.target == name)).getLast? <;> rfl
    · rfl

theorem get?_entries (dependencies : List Dependency) (name : String) :
    Assoc.get? name (entries dependencies) = said? dependencies name := by
  rw [entries, get?_foldl_put, Assoc.get?_nil, Option.or_none]
  rfl

theorem isSome_said? (dependencies : List Dependency) (name : String) :
    (said? dependencies name).isSome = defines dependencies name := by
  rw [said?, Option.isSome_map, definition?, Bool.eq_iff_iff, List.getLast?_isSome, defines,
    List.any_eq_true, ne_eq, List.filter_eq_nil_iff]
  simp

theorem has_entries (dependencies : List Dependency) (name : String) :
    Assoc.has name (entries dependencies) = defines dependencies name := by
  rw [Assoc.has_eq_isSome, get?_entries, isSome_said?]

end Dependency

namespace MethodTable

/-- The table after the calls and the earlier claims of a file are taken back; what it owns is still in
its hands. -/
def withdrawn (table : MethodTable) (path : Path) (entries : Assoc String FileMethod) : MethodTable :=
  { table.unlink path with
    conflicts := table.conflicts.filter fun conflict =>
      !(conflict.rejected == path) || Assoc.has conflict.name entries
    definitions :=
      if entries.isEmpty then table.definitions.erase path else table.definitions.put path entries }

/-- The names that a file owns and no longer defines. -/
def staleNames (table : MethodTable) (path : Path) (entries : Assoc String FileMethod) : List String :=
  table.ownedNames path fun name => !Assoc.has name entries

/-- Lets go of several names. -/
def releaseAll (table : MethodTable) (path : Path) (names : List String) : MethodTable :=
  names.foldl (fun table name => table.release name path) table

theorem ingest_fst (table : MethodTable) (path : Path) (dependencies : List Dependency) :
    (table.ingest path dependencies).1 =
      let entries := Dependency.entries dependencies
      let kept := table.withdrawn path entries
      let released := kept.releaseAll path (kept.staleNames path entries)
      ((Dependency.methods dependencies).foldl (defined path) released).link path
        ((Dependency.methods dependencies).flatMap (·.calls)).eraseDups := by
  dsimp only
  have folded := foldl_define_fst path
  simp only [ingest]
  rw [folded]
  rfl

theorem remove_fst (table : MethodTable) (path : Path) :
    (table.remove path).1 = (table.ingest path []).1 := by
  rw [ingest_fst]
  change _ = link _ path []
  simp only [link, List.contains_nil, Bool.false_eq_true, if_false, List.map_id', List.isEmpty_nil,
    if_true]
  simp only [remove, withdrawn, staleNames, releaseAll, Dependency.methods, Dependency.entries,
    List.filter_nil, List.foldl_nil, Assoc.has, List.any_nil, Bool.or_false, Bool.not_false,
    List.isEmpty_nil, if_true]
  rfl

theorem release_frame (table : MethodTable) (name : String) (owner : Path) :
    (table.release name owner).definitions = table.definitions ∧
      (table.release name owner).calls = table.calls := by
  rw [release_eq]
  split
  · exact ⟨rfl, rfl⟩
  · split <;> exact ⟨rfl, rfl⟩

theorem nodup_names_release {table : MethodTable} (distinct : table.names.Nodup) (name : String)
    (owner : Path) : (table.release name owner).names.Nodup := by
  rw [release_eq]
  split
  · exact nodup_names_dropMethod distinct name
  · split
    · exact nodup_names_dropMethod distinct name
    · apply nodup_names_addMethod (nodup_names_dropMethod distinct name)
      exact (get?_dropMethod table name name).trans (if_pos rfl)

theorem releaseAll_frame (table : MethodTable) (path : Path) (names : List String) :
    (table.releaseAll path names).definitions = table.definitions ∧
      (table.releaseAll path names).calls = table.calls := by
  induction names generalizing table with
  | nil => exact ⟨rfl, rfl⟩
  | cons name rest ih =>
    obtain ⟨definitions, calls⟩ := ih (table.release name path)
    obtain ⟨definitions', calls'⟩ := release_frame table name path
    exact ⟨definitions.trans definitions', calls.trans calls'⟩

theorem nodup_names_releaseAll {table : MethodTable} (distinct : table.names.Nodup) (path : Path)
    (names : List String) : (table.releaseAll path names).names.Nodup := by
  induction names generalizing table with
  | nil => exact distinct
  | cons name rest ih => exact ih (nodup_names_release distinct name path)

theorem defined_frame (path : Path) (table : MethodTable) (dependency : Dependency) :
    (defined path table dependency).definitions = table.definitions ∧
      (defined path table dependency).calls = table.calls := by
  unfold defined define
  dsimp only
  split
  · exact ⟨rfl, rfl⟩
  · split <;> exact ⟨rfl, rfl⟩

theorem nodup_names_defined {table : MethodTable} (distinct : table.names.Nodup) (path : Path)
    (dependency : Dependency) : (defined path table dependency).names.Nodup := by
  unfold defined define
  dsimp only
  split
  · rename_i unknown
    exact nodup_names_addMethod distinct unknown path _
  · split
    · dsimp only
      rw [names_modify]
      · exact distinct
      · intro method
        rfl
    · exact distinct

theorem foldl_defined_frame (path : Path) (table : MethodTable) (dependencies : List Dependency) :
    (dependencies.foldl (defined path) table).definitions = table.definitions ∧
      (dependencies.foldl (defined path) table).calls = table.calls := by
  induction dependencies generalizing table with
  | nil => exact ⟨rfl, rfl⟩
  | cons dependency rest ih =>
    obtain ⟨definitions, calls⟩ := ih (defined path table dependency)
    obtain ⟨definitions', calls'⟩ := defined_frame path table dependency
    exact ⟨definitions.trans definitions', calls.trans calls'⟩

theorem nodup_names_foldl_defined {table : MethodTable} (distinct : table.names.Nodup) (path : Path)
    (dependencies : List Dependency) : (dependencies.foldl (defined path) table).names.Nodup := by
  induction dependencies generalizing table with
  | nil => exact distinct
  | cons dependency rest ih => exact ih (nodup_names_defined distinct path dependency)

end MethodTable

end DepAtlas
