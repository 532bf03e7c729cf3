import Mathlib.Data.List.Nodup
import DepAtlas.Proofs.CallGraph.Ledger

/-!
What the steps of a method table do to one name: to its entry and to the conflicts over it. A step for
one name leaves every other name alone.
-/

namespace DepAtlas.MethodTable

/-- The conflicts over a name, in order. -/
def conflictsOf (table : MethodTable) (name : String) : List Conflict :=
  table.conflicts.filter (·.name == name)

/-- The names of the methods. -/
def names (table : MethodTable) : List String :=
  table.methods.map (·.name)

theorem name_of_get? {table : MethodTable} {name : String} {method : Method}
    (found : table.get? name = some method) : method.name = name := by
  have matched := List.find?_some found
  exact beq_iff_eq.mp matched

theorem mem_of_get? {table : MethodTable} {name : String} {method : Method}
    (found : table.get? name = some method) : method ∈ table.methods :=
  List.mem_of_find?_eq_some found

theorem get?_isSome_iff (table : MethodTable) (name : String) :
    (table.get? name).isSome ↔ name ∈ table.names := by
  rw [get?, List.find?_isSome, names, List.mem_map]
  simp only [beq_iff_eq]

theorem get?_eq_none_iff (table : MethodTable) (name : String) :
    table.get? name = none ↔ name ∉ table.names := by
  rw [← get?_isSome_iff]
  simp

theorem get?_of_mem {table : MethodTable} (distinct : table.names.Nodup) {method : Method}
    (member : method ∈ table.methods) : table.get? method.name = some method := by
  have known : (table.get? method.name).isSome :=
    (get?_isSome_iff table method.name).mpr (List.mem_map_of_mem member)
  obtain ⟨other, found⟩ := Option.isSome_iff_exists.mp known
  have same : other = method :=
    List.inj_on_of_nodup_map distinct (mem_of_get? found) member (name_of_get? found)
  rw [found, same]

/-- Changing the methods of some names changes exactly the entries of these names. -/
theorem find?_map_named (methods : List Method) (picks : String → Bool) (change : Method → Method)
    (keeps : ∀ method, (change method).name = method.name) (name : String) :
    (methods.map fun method => if picks method.name then change method else method).find?
        (·.name == name) =
      (methods.find? (·.name == name)).map fun method =>
        if picks name then change method else method := by
  rw [List.find?_map]
  have same : ((fun method : Method => method.name == name) ∘ fun method =>
      if picks method.name then change method else method) = fun method => method.name == name := by
    funext method
    simp only [Function.comp_apply]
    split
    · rw [keeps]
    · rfl
  rw [same]
  apply Option.map_congr
  intro method found
  have matched := List.find?_some found
  rw [beq_iff_eq.mp matched]

theorem names_map_named (methods : List Method) (picks : String → Bool) (change : Method → Method)
    (keeps : ∀ method, (change method).name = method.name) :
    (methods.map fun method => if picks method.name then change method else method).map (·.name) =
      methods.map (·.name) := by
  rw [List.map_map]
  congr 1
  funext method
  simp only [Function.comp_apply]
  split
  · exact keeps method
  · rfl

theorem get?_unlink (table : MethodTable) (path : Path) (name : String) :
    (table.unlink path).get? name = (table.get? name).map fun method =>
      if ((table.calls.get? path).getD []).contains name
      then { method with references := method.references.erase path } else method :=
  find?_map_named table.methods ((table.calls.get? path).getD []).contains
    (fun method => { method with references := method.references.erase path }) (fun _ => rfl) name

theorem names_unlink (table : MethodTable) (path : Path) : (table.unlink path).names = table.names :=
  names_map_named table.methods ((table.calls.get? path).getD []).contains
    (fun method => { method with references := method.references.erase path }) fun _ => rfl

theorem get?_link (table : MethodTable) (path : Path) (called : List String) (name : String) :
    (table.link path called).get? name = (table.get? name).map fun method =>
      if called.contains name
      then { method with references := method.references.insert path } else method :=
  find?_map_named table.methods called.contains
    (fun method => { method with references := method.references.insert path }) (fun _ => rfl) name

theorem names_link (table : MethodTable) (path : Path) (called : List String) :
    (table.link path called).names = table.names :=
  names_map_named table.methods called.contains
    (fun method => { method with references := method.references.insert path }) fun _ => rfl

theorem get?_modify (table : MethodTable) (changed : String) (change : Method → Method)
    (keeps : ∀ method, (change method).name = method.name) (name : String) :
    (table.modify changed change).get? name = (table.get? name).map fun method =>
      if name == changed then change method else method :=
  find?_map_named table.methods (· == changed) change keeps name

theorem names_modify (table : MethodTable) (changed : String) (change : Method → Method)
    (keeps : ∀ method, (change method).name = method.name) :
    (table.modify changed change).names = table.names :=
  names_map_named table.methods (· == changed) change keeps

theorem get?_dropMethod (table : MethodTable) (dropped name : String) :
    (table.dropMethod dropped).get? name = if dropped = name then none else table.get? name := by
  unfold dropMethod get?
  rw [List.find?_filter]
  split
  · rename_i same
    rw [List.find?_eq_none]
    intro method _
    simp [same]
  · rename_i apart
    congr 1
    funext method
    by_cases here : method.name = name
    · simp [here, Ne.symm apart]
    · simp [here]

theorem get?_addMethod (table : MethodTable) (added : String) (path : Path) (method : FileMethod)
    (unknown : table.get? added = none) (name : String) :
    (table.addMethod added path method).get? name =
      if added = name then
        some (method.toMethod added path (PathSet.ofList (table.callersOf added)))
      else table.get? name := by
  unfold get? at unknown ⊢
  simp only [addMethod, List.find?_append]
  split
  · rename_i same
    subst same
    rw [unknown, Option.none_or, List.find?_singleton]
    simp [FileMethod.toMethod]
  · rename_i apart
    rw [List.find?_singleton]
    simp [FileMethod.toMethod, apart]

theorem nodup_names_dropMethod {table : MethodTable} (distinct : table.names.Nodup) (dropped : String) :
    (table.dropMethod dropped).names.Nodup :=
  (List.filter_sublist.map _).nodup distinct

theorem nodup_names_addMethod {table : MethodTable} (distinct : table.names.Nodup) {added : String}
    (unknown : table.get? added = none) (path : Path) (method : FileMethod) :
    (table.addMethod added path method).names.Nodup := by
  have fresh := (get?_eq_none_iff table added).mp unknown
  change (List.map _ (table.methods ++ [_])).Nodup
  rw [List.map_append, List.map_singleton]
  apply List.Nodup.append distinct (List.nodup_singleton _)
  intro name member last
  have same : name = added := List.mem_singleton.mp last
  exact fresh (same ▸ member)

end DepAtlas.MethodTable
