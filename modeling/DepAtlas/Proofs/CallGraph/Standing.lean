import DepAtlas.Proofs.CallGraph.Names

/-!
How a name stands in a method table, given the queue of the files that define it, what each of them says
about it and which files call it; and how each step of the table changes that.
-/

namespace DepAtlas.MethodTable

/-- A name stands in the table as its queue says: without definers it is unknown, otherwise the first
definer owns it, all callers are its references, and the other definers conflict with the owner. -/
inductive Stands (table : MethodTable) (name : String) (said : Path → Option FileMethod)
    (calls : Path → Prop) : List Path → Prop
  | unknown (entry : table.get? name = none) (conflicts : table.conflictsOf name = []) :
      Stands table name said calls []
  | owned {head : Path} {rest : List Path} {method : FileMethod} {references : PathSet}
      (declares : said head = some method) (increasing : references.Increasing)
      (callers : ∀ path, references.contains path = true ↔ calls path)
      (entry : table.get? name = some (method.toMethod name head references))
      (conflicts : table.conflictsOf name = rest.map (Conflict.mk name head)) :
      Stands table name said calls (head :: rest)

/-- The calls that the table remembers are these. -/
structure Linked (table : MethodTable) (calls : Path → String → Prop) : Prop where
  distinct : Assoc.Distinct table.calls
  remembers : ∀ path name, name ∈ (table.calls.get? path).getD [] ↔ calls path name

variable {table : MethodTable} {name : String} {said : Path → Option FileMethod}
  {calls : Path → Prop} {queue : List Path}

theorem Stands.congr {other : MethodTable} (stands : Stands table name said calls queue)
    (entry : other.get? name = table.get? name)
    (conflicts : other.conflictsOf name = table.conflictsOf name) :
    Stands other name said calls queue := by
  cases stands with
  | unknown entry' conflicts' => exact .unknown (entry.trans entry') (conflicts.trans conflicts')
  | owned declares increasing callers entry' conflicts' =>
    exact .owned declares increasing callers (entry.trans entry') (conflicts.trans conflicts')

theorem Stands.calls_congr {others : Path → Prop} (stands : Stands table name said calls queue)
    (same : ∀ path, calls path ↔ others path) : Stands table name said others queue := by
  cases stands with
  | unknown entry conflicts => exact .unknown entry conflicts
  | owned declares increasing callers entry conflicts =>
    exact .owned declares increasing (fun path => (callers path).trans (same path)) entry conflicts

theorem Stands.said_congr {say : Path → Option FileMethod} (stands : Stands table name said calls queue)
    (same : ∀ head ∈ queue.head?, say head = said head) : Stands table name say calls queue := by
  cases stands with
  | unknown entry conflicts => exact .unknown entry conflicts
  | owned declares increasing callers entry conflicts =>
    exact .owned ((same _ rfl).trans declares) increasing callers entry conflicts

theorem Stands.owner {method : Method} (stands : Stands table name said calls queue)
    (found : table.get? name = some method) : queue.head? = some method.definedIn := by
  cases stands with
  | unknown entry conflicts => cases found.symm.trans entry
  | owned declares increasing callers entry conflicts =>
    rw [Option.some.inj (found.symm.trans entry)]
    rfl

theorem Stands.exists_owned {head : Path} {rest : List Path}
    (stands : Stands table name said calls (head :: rest)) :
    ∃ method, table.get? name = some method ∧ method.definedIn = head := by
  cases stands with
  | owned declares increasing callers entry conflicts => exact ⟨_, entry, rfl⟩

theorem Linked.contains_callersOf {calls : Path → String → Prop} (linked : Linked table calls)
    (path : Path) (name : String) :
    (table.callersOf name).contains path = true ↔ calls path name := by
  rw [← linked.remembers, List.contains_iff_exists_mem_beq]
  simp only [callersOf, List.mem_map, List.mem_filter, List.contains_iff_mem]
  constructor
  · rintro ⟨_, ⟨entry, ⟨member, called⟩, rfl⟩, same⟩
    rw [Assoc.get?_congr same, linked.distinct.get?_of_mem member]
    exact called
  · intro called
    cases found : table.calls.get? path with
    | none => simp [found] at called
    | some names =>
      obtain ⟨entry, member, same, rfl⟩ := Assoc.exists_mem_of_get? found
      rw [found] at called
      exact ⟨entry.1, ⟨entry, ⟨member, called⟩, rfl⟩, BEq.symm same⟩

theorem Linked.unlink {calls : Path → String → Prop} (linked : Linked table calls) (path : Path) :
    Linked (table.unlink path) fun other name => (path == other) = false ∧ calls other name where
  distinct := linked.distinct.erase path
  remembers other name := by
    change name ∈ (Assoc.get? other (Assoc.erase path table.calls)).getD [] ↔ _
    rw [Assoc.get?_erase]
    cases path == other
    · simpa using linked.remembers other name
    · simp

theorem Stands.unlink {calls : Path → String → Prop} (linked : Linked table calls)
    (stands : Stands table name said (calls · name) queue) (path : Path) :
    Stands (table.unlink path) name said
      (fun other => (path == other) = false ∧ calls other name) queue := by
  have entry' := get?_unlink table path name
  cases stands with
  | unknown entry conflicts =>
    rw [entry] at entry'
    exact .unknown entry' conflicts
  | @owned head rest method references declares increasing callers entry conflicts =>
    rw [entry, Option.map_some] at entry'
    by_cases called : ((table.calls.get? path).getD []).contains name = true
    · rw [if_pos called] at entry'
      refine .owned declares (increasing.erase path) (fun other => ?_) entry' conflicts
      rw [← callers other, PathSet.contains_erase, Bool.and_eq_true, Bool.not_eq_true', and_comm]
    · rw [if_neg called] at entry'
      have silent : ¬ calls path name := by
        rw [← linked.remembers]
        simpa using called
      refine .owned declares increasing (fun other => ?_) entry' conflicts
      rw [callers other]
      refine ⟨fun call => ⟨?_, call⟩, And.right⟩
      cases same : path == other
      · rfl
      · rw [← linked.remembers, ← Assoc.get?_congr same, linked.remembers] at call
        exact absurd call silent

theorem Linked.link {calls : Path → String → Prop} (linked : Linked table calls) (path : Path)
    (called : List String) (silent : ∀ name, ¬ calls path name) :
    Linked (table.link path called) fun other name =>
      if (path == other) = true then name ∈ called else calls other name where
  distinct := by
    simp only [MethodTable.link]
    split
    · exact linked.distinct
    · exact linked.distinct.put path called
  remembers other name := by
    simp only [MethodTable.link]
    split
    · rename_i empty
      rw [linked.remembers]
      split
      · rename_i same
        rw [← linked.remembers, ← Assoc.get?_congr same, linked.remembers]
        simp [silent, List.isEmpty_iff.mp empty]
      · rfl
    · rw [Assoc.get?_put]
      split
      · simp
      · exact linked.remembers other name

theorem Stands.link (stands : Stands table name said calls queue) (path : Path) (called : List String)
    (silent : ∀ other, (path == other) = true → ¬ calls other) :
    Stands (table.link path called) name said
      (fun other => if (path == other) = true then name ∈ called else calls other) queue := by
  have entry' := get?_link table path called name
  cases stands with
  | unknown entry conflicts =>
    rw [entry] at entry'
    exact .unknown entry' conflicts
  | @owned head rest method references declares increasing callers entry conflicts =>
    rw [entry, Option.map_some] at entry'
    by_cases member : called.contains name = true
    · rw [if_pos member] at entry'
      refine .owned declares (increasing.insert path) (fun other => ?_) entry' conflicts
      rw [PathSet.contains_insert, Bool.or_eq_true, callers other]
      split
      · rename_i same
        simp [same, List.contains_iff_mem.mp member]
      · rename_i apart
        simp [apart]
    · rw [if_neg member] at entry'
      refine .owned declares increasing (fun other => ?_) entry' conflicts
      rw [callers other]
      split
      · rename_i same
        simp [silent other same, mt List.contains_iff_mem.mpr member]
      · rfl

end DepAtlas.MethodTable
