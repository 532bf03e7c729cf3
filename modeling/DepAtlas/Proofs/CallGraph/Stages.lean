import DepAtlas.Proofs.CallGraph.Ingestion

/-!
How one name stands after each stage of taking a file in: after the file's claims are withdrawn, after
names are released and after its definitions are taken in.
-/

namespace DepAtlas

namespace MethodTable

variable {table : MethodTable} {name : String} {said : Path → Option FileMethod}
  {queue : List Path} {calls : Path → String → Prop} {path : Path}

theorem Linked.of_calls_eq {other : MethodTable} (linked : Linked table calls)
    (same : other.calls = table.calls) : Linked other calls where
  distinct := same ▸ linked.distinct
  remembers := same ▸ linked.remembers

theorem releaseAll_other (table : MethodTable) (path : Path) {names : List String}
    (absent : name ∉ names) :
    (table.releaseAll path names).get? name = table.get? name ∧
      (table.releaseAll path names).conflictsOf name = table.conflictsOf name := by
  induction names generalizing table with
  | nil => exact ⟨rfl, rfl⟩
  | cons first rest ih =>
    rw [List.mem_cons, not_or] at absent
    obtain ⟨entry, conflicts⟩ := ih (table.release first path) absent.2
    obtain ⟨entry', conflicts'⟩ := release_other table (Ne.symm absent.1) path
    exact ⟨entry.trans entry', conflicts.trans conflicts'⟩

theorem Stands.releaseAll {names : List String} {head : Path} {rest : List Path}
    (linked : Linked table calls)
    (stands : Stands table name said (calls · name) (head :: rest)) (same : (head == path) = true)
    (definitions : ∀ heir ∈ rest.head?,
      (table.definitions.get? heir).bind (Assoc.get? name) = said heir)
    (declared : ∀ heir ∈ rest.head?, (said heir).isSome)
    (distinct : names.Nodup) (member : name ∈ names) :
    Stands (table.releaseAll path names) name said (calls · name) rest := by
  induction names generalizing table with
  | nil => cases member
  | cons first others ih =>
    obtain ⟨absent, othersDistinct⟩ := List.nodup_cons.mp distinct
    by_cases here : first = name
    · subst here
      have released := stands.release linked same definitions declared
      obtain ⟨entry, conflicts⟩ := releaseAll_other (table.release first path) path absent
      exact released.congr entry conflicts
    · obtain ⟨entry, conflicts⟩ := release_other table here path
      obtain ⟨sameDefinitions, sameCalls⟩ := release_frame table first path
      refine ih (linked.of_calls_eq sameCalls) (stands.congr entry conflicts) ?_ othersDistinct
        ((List.mem_cons.mp member).resolve_left (Ne.symm here))
      rw [sameDefinitions]
      exact definitions

theorem requeue_true_idem (path : Path) (queue : List Path) :
    Ledger.requeue path true (Ledger.requeue path true queue) = Ledger.requeue path true queue := by
  have joined : (Ledger.requeue path true queue).contains path = true := by
    rw [Ledger.contains_requeue, if_pos BEq.rfl]
  rw [Ledger.requeue, joined]
  rfl

/-- After several definitions of a file, its last definition of the name counts. -/
theorem Stands.defineAll (linked : Linked table calls)
    (stands : Stands table name said (calls · name) queue) (path : Path)
    (definitions : List Dependency) :
    Stands (definitions.foldl (defined path) table) name
      (fun other => if (other == path) = true then
        ((definitions.filter (·.target == name)).getLast?.map FileMethod.ofDependency).or (said other)
        else said other)
      (calls · name)
      (if definitions.any (·.target == name) then Ledger.requeue path true queue else queue) := by
  induction definitions generalizing table said queue with
  | nil => exact stands.said_congr fun head _ => by split <;> rfl
  | cons definition rest ih =>
    have linked' := linked.of_calls_eq (defined_frame path table definition).2
    rw [List.foldl_cons, List.any_cons, List.filter_cons]
    by_cases here : definition.target = name
    · have joined := ih linked' (stands.define linked path here)
      simp only [requeue_true_idem, ite_self] at joined
      simp only [here, beq_self_eq_true, Bool.true_or, if_true]
      refine joined.said_congr fun head _ => ?_
      split
      · rw [List.getLast?_cons]
        cases (rest.filter (·.target == name)).getLast? <;> rfl
      · rfl
    · obtain ⟨entry, conflicts⟩ := defined_other table here path
      have kept := ih linked' (stands.congr entry conflicts)
      simpa [here] using kept

theorem conflictsOf_withdrawn (table : MethodTable) (path : Path) (entries : Assoc String FileMethod)
    (name : String) :
    (table.withdrawn path entries).conflictsOf name = (table.conflictsOf name).filter fun conflict =>
      !(conflict.rejected == path) || Assoc.has name entries := by
  unfold conflictsOf withdrawn
  rw [List.filter_filter, List.filter_filter]
  apply List.filter_congr
  intro conflict _
  by_cases here : conflict.name = name
  · rw [here, Bool.and_comm]
  · have apart : (conflict.name == name) = false := beq_eq_false_iff_ne.mpr here
    rw [apart, Bool.false_and, Bool.and_false]

theorem Linked.withdrawn (linked : Linked table calls) (path : Path)
    (entries : Assoc String FileMethod) :
    Linked (table.withdrawn path entries) fun other name =>
      (path == other) = false ∧ calls other name :=
  (linked.unlink path).of_calls_eq rfl

theorem Stands.withdrawn_defined (linked : Linked table calls)
    (stands : Stands table name said (calls · name) queue) {entries : Assoc String FileMethod}
    (defines : Assoc.has name entries = true) :
    Stands (table.withdrawn path entries) name said
      (fun other => (path == other) = false ∧ calls other name) queue := by
  refine (stands.unlink linked path).congr rfl ?_
  rw [conflictsOf_withdrawn, defines]
  simp only [Bool.or_true, List.filter_true]
  rfl

/-- A file that does not own a name and does not define it leaves the name's queue at once. -/
theorem Stands.withdrawn_rejected (linked : Linked table calls)
    (stands : Stands table name said (calls · name) queue) {entries : Assoc String FileMethod}
    (drops : Assoc.has name entries = false)
    (foreign : ∀ head ∈ queue.head?, (head == path) = false) :
    Stands (table.withdrawn path entries) name said
      (fun other => (path == other) = false ∧ calls other name)
      (Ledger.requeue path false queue) := by
  have left := conflictsOf_withdrawn table path entries name
  simp only [drops, Bool.or_false] at left
  have unlinked := stands.unlink linked path
  cases unlinked with
  | unknown entry conflicts =>
    refine .unknown entry (left.trans ?_)
    rw [show table.conflictsOf name = [] from conflicts]
    rfl
  | @owned head rest method references declares increasing callers entry conflicts =>
    have stays : Ledger.requeue path false (head :: rest) =
        head :: rest.filter fun other => !(other == path) := by
      simp [Ledger.requeue, foreign head rfl]
    rw [stays]
    refine .owned declares increasing callers entry (left.trans ?_)
    rw [show table.conflictsOf name = rest.map (Conflict.mk name head) from conflicts, List.filter_map]
    rfl

/-- The owner of a name leaves no conflict of its own behind, so that the name still stands. -/
theorem Stands.withdrawn_owner (linked : Linked table calls) {head : Path} {rest : List Path}
    (stands : Stands table name said (calls · name) (head :: rest))
    (entries : Assoc String FileMethod) (absent : ∀ other ∈ rest, (other == path) = false) :
    Stands (table.withdrawn path entries) name said
      (fun other => (path == other) = false ∧ calls other name) (head :: rest) := by
  refine (stands.unlink linked path).congr rfl ?_
  rw [conflictsOf_withdrawn]
  apply List.filter_eq_self.mpr
  cases stands with
  | owned _ _ _ _ conflicts =>
  intro conflict member
  rw [conflicts] at member
  obtain ⟨other, waiting, rfl⟩ := List.mem_map.mp member
  simp [absent other waiting]

theorem mem_staleNames (distinct : table.names.Nodup) (path : Path)
    (entries : Assoc String FileMethod) (name : String) :
    name ∈ table.staleNames path entries ↔ Assoc.has name entries = false ∧
      ∃ method, table.get? name = some method ∧ (method.definedIn == path) = true := by
  simp only [staleNames, ownedNames, List.mem_map, List.mem_filter, Bool.and_eq_true,
    Bool.not_eq_true']
  constructor
  · rintro ⟨method, ⟨member, owns, drops⟩, rfl⟩
    exact ⟨drops, method, get?_of_mem distinct member, owns⟩
  · rintro ⟨drops, method, found, owns⟩
    have named := name_of_get? found
    exact ⟨method, ⟨mem_of_get? found, owns, named ▸ drops⟩, named⟩

theorem nodup_staleNames (distinct : table.names.Nodup) (path : Path)
    (entries : Assoc String FileMethod) : (table.staleNames path entries).Nodup :=
  (List.filter_sublist.map _).nodup distinct

end MethodTable

end DepAtlas
