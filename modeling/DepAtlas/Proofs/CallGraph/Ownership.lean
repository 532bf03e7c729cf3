import DepAtlas.Proofs.CallGraph.Standing

/-!
Who owns a name: the owner lets go of it and the next definer takes over, or a file defines it and
creates it, updates it or is rejected.
-/

namespace DepAtlas.MethodTable

theorem conflict_beq_iff (a b : Conflict) : (a == b) = true ↔
    a.name = b.name ∧ (a.owner == b.owner) = true ∧ (a.rejected == b.rejected) = true := by
  obtain ⟨_, _, _⟩ := a
  obtain ⟨_, _, _⟩ := b
  change instBEqConflict.beq _ _ = true ↔ _
  simp [instBEqConflict.beq]

theorem filter_eraseP_of_disjoint {α : Type} {keep drop : α → Bool}
    (disjoint : ∀ item, drop item = true → keep item = false) (items : List α) :
    (items.eraseP drop).filter keep = items.filter keep := by
  induction items with
  | nil => rfl
  | cons item rest ih =>
    by_cases dropped : drop item = true
    · rw [List.eraseP_cons_of_pos dropped, List.filter_cons_of_neg (by simp [disjoint item dropped])]
    · rw [List.eraseP_cons_of_neg dropped, List.filter_cons, List.filter_cons, ih]

/-- A conflict over a name with an owner is handed to the owner's heir. -/
def handOver (name : String) (owner heir : Path) (conflict : Conflict) : Conflict :=
  if conflict.name == name && conflict.owner == owner then { conflict with owner := heir }
  else conflict

theorem handOver_name (name : String) (owner heir : Path) (conflict : Conflict) :
    (handOver name owner heir conflict).name = conflict.name := by
  unfold handOver
  split <;> rfl

theorem filter_handOver (name other : String) (owner heir : Path) (conflicts : List Conflict) :
    (conflicts.map (handOver name owner heir)).filter (·.name == other) =
      (conflicts.filter (·.name == other)).map (handOver name owner heir) := by
  rw [List.filter_map]
  congr 2
  funext conflict
  simp only [Function.comp_apply, handOver_name]

/-- What letting go of a name leaves, by the first conflict with the owner. -/
theorem release_eq (table : MethodTable) (name : String) (owner : Path) :
    table.release name owner =
      match (table.conflictsOf name).find? (·.owner == owner) with
      | none => table.dropMethod name
      | some first =>
        let handed := { table.dropMethod name with
          conflicts := (table.conflicts.eraseP fun conflict =>
            conflict.name == name && conflict.owner == owner).map (handOver name owner first.rejected) }
        match (table.definitions.get? first.rejected).bind (Assoc.get? name) with
        | none => handed
        | some method => handed.addMethod name first.rejected method := by
  rw [conflictsOf, List.find?_filter]
  unfold release
  have same : (fun conflict : Conflict => conflict.name == name && conflict.owner == owner) =
      fun conflict => decide ((conflict.name == name) = true ∧ (conflict.owner == owner) = true) := by
    funext conflict
    rw [Bool.decide_and, Bool.decide_eq_true, Bool.decide_eq_true]
  rw [← same]
  rfl

variable {table : MethodTable} {name : String} {said : Path → Option FileMethod}
  {calls : Path → Prop} {queue : List Path}

theorem release_other (table : MethodTable) {other : String} (apart : name ≠ other) (owner : Path) :
    (table.release name owner).get? other = table.get? other ∧
      (table.release name owner).conflictsOf other = table.conflictsOf other := by
  have dropped : (table.dropMethod name).get? other = table.get? other := by
    rw [get?_dropMethod, if_neg apart]
  have handed (heir : Path) : ((table.conflicts.eraseP fun conflict =>
      conflict.name == name && conflict.owner == owner).map (handOver name owner heir)).filter
        (·.name == other) = table.conflictsOf other := by
    rw [filter_handOver, filter_eraseP_of_disjoint]
    · conv_rhs => rw [conflictsOf, ← List.map_id (List.filter _ _)]
      apply List.map_congr_left
      intro conflict member
      have named := beq_iff_eq.mp (List.mem_filter.mp member).2
      rw [handOver, if_neg]
      · rfl
      · simp [named, Ne.symm apart]
    · intro conflict matched
      have named := beq_iff_eq.mp (Bool.and_eq_true_iff.mp matched).1
      simp [named, apart]
  rw [release_eq]
  split
  · exact ⟨dropped, rfl⟩
  · split
    · exact ⟨dropped, handed _⟩
    · refine ⟨?_, handed _⟩
      rw [get?_addMethod]
      · rw [if_neg apart]
        exact dropped
      · exact (get?_dropMethod table name name).trans (if_pos rfl)

/-- When the owner lets go, the name stands as the rest of its queue says. -/
theorem Stands.release {calls : Path → String → Prop} {head owner : Path} {rest : List Path}
    (linked : Linked table calls)
    (stands : Stands table name said (calls · name) (head :: rest)) (same : (head == owner) = true)
    (definitions : ∀ heir ∈ rest.head?,
      (table.definitions.get? heir).bind (Assoc.get? name) = said heir)
    (declared : ∀ heir ∈ rest.head?, (said heir).isSome) :
    Stands (table.release name owner) name said (calls · name) rest := by
  cases stands with
  | owned _ _ _ _ conflicts =>
  have gone : (table.dropMethod name).get? name = none :=
    (get?_dropMethod table name name).trans (if_pos rfl)
  rw [release_eq, conflicts]
  cases rest with
  | nil => exact .unknown gone conflicts
  | cons heir rest =>
    obtain ⟨method, declares⟩ := Option.isSome_iff_exists.mp (declared heir rfl)
    have first : (List.map (Conflict.mk name head) (heir :: rest)).find? (·.owner == owner) =
        some ⟨name, head, heir⟩ := by
      rw [List.map_cons, List.find?_cons, same]
    have known : (table.definitions.get? heir).bind (Assoc.get? name) = some method :=
      (definitions heir rfl).trans declares
    have handed : ((table.conflicts.eraseP fun conflict =>
        conflict.name == name && conflict.owner == owner).map (handOver name owner heir)).filter
          (·.name == name) = rest.map (Conflict.mk name heir) := by
      have swap : (fun conflict : Conflict => conflict.name == name && conflict.owner == owner) =
          fun conflict => conflict.owner == owner && conflict.name == name := by
        funext conflict
        exact Bool.and_comm _ _
      rw [filter_handOver, swap, ← List.eraseP_filter]
      change ((table.conflictsOf name).eraseP _).map _ = _
      rw [conflicts, List.map_cons, List.eraseP_cons, same, cond_true, List.map_map]
      congr 1
      funext other
      simp [handOver, same]
    simp only [first, known]
    refine .owned declares (PathSet.increasing_ofList _) (fun path => ?_)
      ((get?_addMethod _ name heir method gone name).trans (if_pos rfl)) handed
    rw [PathSet.contains_ofList]
    exact linked.contains_callersOf path name

/-- One definition of a file, with the report left out. -/
def defined (path : Path) (table : MethodTable) (dependency : Dependency) : MethodTable :=
  (define path (table, {}) dependency).1

theorem define_fst (path : Path) (state : MethodTable × IngestReport) (dependency : Dependency) :
    (define path state dependency).1 = defined path state.1 dependency := by
  obtain ⟨table, report⟩ := state
  unfold defined define
  dsimp only
  split
  · rfl
  · split <;> rfl

theorem foldl_define_fst (path : Path) (state : MethodTable × IngestReport)
    (dependencies : List Dependency) :
    (dependencies.foldl (define path) state).1 = dependencies.foldl (defined path) state.1 := by
  induction dependencies generalizing state with
  | nil => rfl
  | cons dependency rest ih => rw [List.foldl_cons, List.foldl_cons, ih, define_fst]

theorem defined_other (table : MethodTable) {dependency : Dependency}
    (apart : dependency.target ≠ name) (path : Path) :
    (defined path table dependency).get? name = table.get? name ∧
      (defined path table dependency).conflictsOf name = table.conflictsOf name := by
  unfold defined define
  dsimp only
  split
  · rename_i unknown
    exact ⟨(get?_addMethod _ _ _ _ unknown name).trans (if_neg apart), rfl⟩
  · split
    · refine ⟨?_, rfl⟩
      rw [get?_modify]
      · simp [Ne.symm apart]
      · intro method
        rfl
    · refine ⟨rfl, ?_⟩
      unfold conflictsOf
      dsimp only
      split
      · rfl
      · simp [apart]

theorem contains_conflict {head : Path} {rest : List Path}
    (conflicts : table.conflictsOf name = rest.map (Conflict.mk name head)) (path : Path) :
    table.conflicts.contains ⟨name, head, path⟩ = rest.contains path := by
  rw [Bool.eq_iff_iff, List.contains_iff_exists_mem_beq, List.contains_iff_exists_mem_beq]
  constructor
  · rintro ⟨conflict, member, same⟩
    obtain ⟨named, -, rejected⟩ := (conflict_beq_iff _ _).mp same
    have listed : conflict ∈ table.conflictsOf name :=
      List.mem_filter.mpr ⟨member, beq_iff_eq.mpr named.symm⟩
    rw [conflicts] at listed
    obtain ⟨other, waiting, rfl⟩ := List.mem_map.mp listed
    exact ⟨other, waiting, rejected⟩
  · rintro ⟨other, waiting, same⟩
    have listed : Conflict.mk name head other ∈ table.conflictsOf name := by
      rw [conflicts]
      exact List.mem_map_of_mem waiting
    exact ⟨_, (List.mem_filter.mp listed).1, (conflict_beq_iff _ _).mpr ⟨rfl, BEq.rfl, same⟩⟩

/-- When a file defines a name, the file joins the name's queue unless it is there, and the owner's entry
is the file's own if the file owns the name. -/
theorem Stands.define {calls : Path → String → Prop} (linked : Linked table calls)
    (stands : Stands table name said (calls · name) queue)
    (path : Path) {dependency : Dependency} (target : dependency.target = name) :
    Stands (defined path table dependency) name
      (fun other => if (other == path) = true then some (.ofDependency dependency) else said other)
      (calls · name) (Ledger.requeue path true queue) := by
  subst target
  unfold defined MethodTable.define
  dsimp only
  cases stands with
  | unknown entry conflicts =>
    rw [entry]
    refine .owned (if_pos BEq.rfl) (PathSet.increasing_ofList _) (fun other => ?_)
      ((get?_addMethod _ _ _ _ entry _).trans (if_pos rfl)) conflicts
    rw [PathSet.contains_ofList]
    exact linked.contains_callersOf other dependency.target
  | @owned head rest method references declares increasing callers entry conflicts =>
    rw [entry]
    dsimp only [FileMethod.toMethod]
    by_cases owns : (head == path) = true
    · have stays : Ledger.requeue path true (head :: rest) = head :: rest := by
        simp [Ledger.requeue, BEq.symm owns]
      rw [if_pos owns, stays]
      refine .owned (if_pos owns) increasing callers ?_ conflicts
      dsimp only
      rw [get?_modify, entry]
      · simp [FileMethod.toMethod]
      · intro method
        rfl
    · have apart : (path == head) = false := by
        rw [BEq.comm]
        simpa using owns
      rw [if_neg owns]
      have joins : Ledger.requeue path true (head :: rest) =
          if rest.contains path then head :: rest else head :: (rest ++ [path]) := by
        simp [Ledger.requeue, apart]
      rw [contains_conflict conflicts, joins]
      split
      · exact .owned ((if_neg owns).trans declares) increasing callers entry conflicts
      · refine .owned ((if_neg owns).trans declares) increasing callers entry ?_
        rw [List.map_append, ← conflicts]
        simp [conflictsOf]

end DepAtlas.MethodTable
