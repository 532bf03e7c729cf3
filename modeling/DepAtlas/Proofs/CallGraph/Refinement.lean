import DepAtlas.Proofs.CallGraph.Stages

/-!
The method table keeps exactly what the ledger of its changes says, after every change and hence after
every run.
-/

namespace DepAtlas

namespace Ledger

/-- What a file says about a name. -/
def said? (ledger : Ledger) (path : Path) (name : String) : Option FileMethod :=
  Dependency.said? (ledger.latest path) name

theorem latest_congr (ledger : Ledger) {a b : Path} (same : (a == b) = true) :
    ledger.latest a = ledger.latest b := by
  rw [latest, Assoc.get?_congr same, latest]

theorem latest_ingest (ledger : Ledger) (path other : Path) (dependencies : List Dependency) :
    (ledger.apply (.ingest path dependencies)).latest other =
      if path == other then dependencies else ledger.latest other := by
  simp only [latest, apply, Assoc.get?_put]
  split <;> rfl

theorem latest_remove (ledger : Ledger) (path other : Path) :
    (ledger.apply (.remove path)).latest other = if path == other then [] else ledger.latest other := by
  simp only [latest, apply, Assoc.get?_erase]
  split <;> rfl

theorem said?_ingest (ledger : Ledger) (path other : Path) (dependencies : List Dependency)
    (name : String) :
    (ledger.apply (.ingest path dependencies)).said? other name =
      if path == other then Dependency.said? dependencies name else ledger.said? other name := by
  rw [said?, latest_ingest]
  split <;> rfl

theorem calls_ingest (ledger : Ledger) (path other : Path) (dependencies : List Dependency)
    (name : String) :
    (ledger.apply (.ingest path dependencies)).Calls other name ↔
      if (path == other) = true then
        ∃ dependency ∈ Dependency.methods dependencies, name ∈ dependency.calls
      else ledger.Calls other name := by
  rw [Calls, latest_ingest]
  split <;> rfl

end Ledger

namespace MethodTable

/-- The table keeps what the ledger says, in its entries and in what it remembers of each file. -/
structure Tracks (table : MethodTable) (ledger : Ledger) : Prop where
  distinct : table.names.Nodup
  linked : Linked table ledger.Calls
  definitions : ∀ path name,
    (table.definitions.get? path).bind (Assoc.get? name) = ledger.said? path name
  apart : ∀ name, Ledger.Apart (ledger.definers name)
  queued : ∀ path name, (ledger.definers name).contains path = (ledger.said? path name).isSome
  stands : ∀ name,
    Stands table name (ledger.said? · name) (ledger.Calls · name) (ledger.definers name)

theorem tracks_empty : Tracks {} {} where
  distinct := List.nodup_nil
  linked := ⟨List.Pairwise.nil, fun path name => by
    simp [Ledger.Calls, Ledger.latest, Dependency.methods, Assoc.get?_nil]⟩
  definitions _ _ := rfl
  apart _ := List.Pairwise.nil
  queued _ _ := rfl
  stands _ := .unknown rfl rfl

/-- A ledger may say anything else about a file, as long as the definitions are the same. -/
theorem Tracks.of_methods_eq {table : MethodTable} {ledger other : Ledger}
    (tracks : Tracks table ledger)
    (methods : ∀ path,
      Dependency.methods (other.latest path) = Dependency.methods (ledger.latest path))
    (definers : other.definers = ledger.definers) : Tracks table other := by
  have said : other.said? = ledger.said? := by
    funext path name
    simp only [Ledger.said?, Dependency.said?, Dependency.definition?, methods]
  have calls : other.Calls = ledger.Calls := by
    funext path name
    rw [Ledger.Calls, methods, Ledger.Calls]
  obtain ⟨distinct, linked, definitions, apart, queued, stands⟩ := tracks
  refine ⟨distinct, ?_, ?_, ?_, ?_, ?_⟩
  · exact calls ▸ linked
  · exact said ▸ definitions
  · exact definers ▸ apart
  · exact definers ▸ said ▸ queued
  · rw [said, calls, definers]
    exact stands

variable {table : MethodTable} {ledger : Ledger}

theorem definitions_withdrawn (tracks : Tracks table ledger) (path other : Path)
    (dependencies : List Dependency) (name : String) :
    ((table.withdrawn path (Dependency.entries dependencies)).definitions.get? other).bind
        (Assoc.get? name) =
      if path == other then Dependency.said? dependencies name else ledger.said? other name := by
  rw [← tracks.definitions other name, ← Dependency.get?_entries]
  simp only [withdrawn]
  split
  · rename_i empty
    rw [Assoc.get?_erase, List.isEmpty_iff.mp empty]
    split <;> rfl
  · rw [Assoc.get?_put]
    split <;> rfl

theorem requeue_false_of_head {path head : Path} {rest : List Path}
    (apart : Ledger.Apart (head :: rest)) (same : (head == path) = true) :
    (∀ other ∈ rest, (other == path) = false) ∧ Ledger.requeue path false (head :: rest) = rest := by
  have absent : ∀ other ∈ rest, (other == path) = false := by
    intro other waiting
    have distinct := (List.pairwise_cons.mp apart).1 other waiting
    rw [BEq.congr_left same, BEq.comm] at distinct
    exact distinct
  refine ⟨absent, ?_⟩
  rw [Ledger.requeue, Bool.not_false, if_pos rfl, List.filter_cons_of_neg (by simp [same])]
  apply List.filter_eq_self.mpr
  intro other waiting
  rw [absent other waiting]
  rfl

/-- After the names that a file no longer defines are released, the file has left their queues. -/
theorem Tracks.stands_released (tracks : Tracks table ledger) (path : Path)
    (dependencies : List Dependency) (name : String) :
    let entries := Dependency.entries dependencies
    let kept := table.withdrawn path entries
    Stands (kept.releaseAll path (kept.staleNames path entries)) name (ledger.said? · name)
      (fun other => (path == other) = false ∧ ledger.Calls other name)
      (if Dependency.defines dependencies name then ledger.definers name
        else Ledger.requeue path false (ledger.definers name)) := by
  intro entries kept
  have distinct : kept.names.Nodup := (names_unlink table path).symm ▸ tracks.distinct
  have stale := mem_staleNames distinct path entries name
  have linked : Linked kept _ := tracks.linked.withdrawn path entries
  have stands := tracks.stands name
  have apart := tracks.apart name
  have queued := fun other => tracks.queued other name
  generalize ledger.definers name = queue at stands apart queued
  -- A name that the file still defines is not stale. Another one is stale if the file owned it, and then
  -- the next in the queue is its heir.
  by_cases defines : Dependency.defines dependencies name = true
  · have has := (Dependency.has_entries dependencies name).trans defines
    have kept' : Stands kept name _ _ _ := stands.withdrawn_defined tracks.linked has
    have fresh : name ∉ kept.staleNames path entries := fun member => by
      rw [(stale.mp member).1] at has
      cases has
    obtain ⟨entry, conflicts⟩ := releaseAll_other kept path fresh
    rw [if_pos defines]
    exact kept'.congr entry conflicts
  · have drops : Assoc.has name entries = false := by
      rw [Dependency.has_entries]
      simpa using defines
    rw [if_neg defines]
    by_cases foreign : ∀ head ∈ queue.head?, (head == path) = false
    · have kept' := stands.withdrawn_rejected tracks.linked drops foreign
      have fresh : name ∉ kept.staleNames path entries := fun member => by
        obtain ⟨-, method, found, owns⟩ := stale.mp member
        have first := List.mem_of_mem_head? (kept'.owner found)
        have other := (List.mem_filter.mp first).2
        rw [owns] at other
        cases other
      obtain ⟨entry, conflicts⟩ := releaseAll_other kept path fresh
      exact kept'.congr entry conflicts
    · simp only [Option.mem_def, not_forall, Bool.not_eq_false] at foreign
      obtain ⟨head, first, owns⟩ := foreign
      obtain ⟨rest, rfl⟩ := List.head?_eq_some_iff.mp first
      obtain ⟨absent, leaves⟩ := requeue_false_of_head apart owns
      have kept' := stands.withdrawn_owner tracks.linked entries absent
      obtain ⟨method, found, owner⟩ := kept'.exists_owned
      rw [leaves]
      refine kept'.releaseAll linked owns ?_ ?_ (nodup_staleNames distinct path entries)
        (stale.mpr ⟨drops, method, found, owner ▸ owns⟩)
      · intro heir next
        rw [definitions_withdrawn tracks, BEq.comm, absent heir (List.mem_of_mem_head? next)]
        rfl
      · intro heir next
        rw [← queued heir]
        exact List.contains_iff_exists_mem_beq.mpr
          ⟨heir, List.mem_cons_of_mem _ (List.mem_of_mem_head? next), BEq.rfl⟩

/-- The table between the withdrawal of a file's claims and the linking of its calls. -/
def redefined (table : MethodTable) (path : Path) (dependencies : List Dependency) : MethodTable :=
  let entries := Dependency.entries dependencies
  let kept := table.withdrawn path entries
  let released := kept.releaseAll path (kept.staleNames path entries)
  (Dependency.methods dependencies).foldl (defined path) released

theorem redefined_frame (table : MethodTable) (path : Path) (dependencies : List Dependency) :
    let kept := table.withdrawn path (Dependency.entries dependencies)
    (table.redefined path dependencies).definitions = kept.definitions ∧
      (table.redefined path dependencies).calls = kept.calls := by
  intro kept
  let stale := kept.staleNames path (Dependency.entries dependencies)
  obtain ⟨definitions, calls⟩ := releaseAll_frame kept path stale
  obtain ⟨definitions', calls'⟩ :=
    foldl_defined_frame path (kept.releaseAll path stale) (Dependency.methods dependencies)
  exact ⟨definitions'.trans definitions, calls'.trans calls⟩

theorem nodup_names_redefined (distinct : table.names.Nodup) (path : Path)
    (dependencies : List Dependency) : (table.redefined path dependencies).names.Nodup := by
  apply nodup_names_foldl_defined
  apply nodup_names_releaseAll
  exact (names_unlink table path).symm ▸ distinct

/-- After a file's definitions are taken in, every name stands as its new queue says. -/
theorem Tracks.stands_redefined (tracks : Tracks table ledger) (path : Path)
    (dependencies : List Dependency) (name : String) :
    let next := ledger.apply (.ingest path dependencies)
    Stands (table.redefined path dependencies) name (next.said? · name)
      (fun other => (path == other) = false ∧ ledger.Calls other name) (next.definers name) := by
  intro next
  let kept := table.withdrawn path (Dependency.entries dependencies)
  let stale := kept.staleNames path (Dependency.entries dependencies)
  have linked : Linked (kept.releaseAll path stale) _ :=
    (tracks.linked.withdrawn path _).of_calls_eq (releaseAll_frame kept path stale).2
  have stands := (tracks.stands_released path dependencies name).defineAll linked path
    (Dependency.methods dependencies)
  have queue : (if (Dependency.methods dependencies).any (·.target == name) then
      Ledger.requeue path true (if Dependency.defines dependencies name then ledger.definers name
        else Ledger.requeue path false (ledger.definers name))
      else if Dependency.defines dependencies name then ledger.definers name
        else Ledger.requeue path false (ledger.definers name)) = next.definers name := by
    change (if Dependency.defines dependencies name then _ else _) =
      Ledger.requeue path (Dependency.defines dependencies name) (ledger.definers name)
    split
    · rename_i defines
      rw [defines]
    · rename_i drops
      rw [Bool.eq_false_iff.mpr drops]
  rw [queue] at stands
  refine stands.said_congr fun head first => ?_
  rw [Ledger.said?_ingest, BEq.comm]
  split
  · rename_i same
    have present : (next.definers name).contains head = true :=
      List.contains_iff_exists_mem_beq.mpr ⟨head, List.mem_of_mem_head? first, BEq.rfl⟩
    change (Ledger.requeue _ _ _).contains head = true at present
    rw [Ledger.contains_requeue, BEq.comm, if_pos same, ← Dependency.isSome_said?] at present
    obtain ⟨method, declares⟩ := Option.isSome_iff_exists.mp present
    change _ = (Dependency.said? dependencies name).or _
    rw [declares, Option.some_or]
  · rfl

theorem Tracks.ingest (tracks : Tracks table ledger) (path : Path) (dependencies : List Dependency) :
    Tracks (table.ingest path dependencies).1 (ledger.apply (.ingest path dependencies)) := by
  let after := table.redefined path dependencies
  let called := ((Dependency.methods dependencies).flatMap (·.calls)).eraseDups
  have frame := redefined_frame table path dependencies
  have linked : Linked after _ := (tracks.linked.withdrawn path _).of_calls_eq frame.2
  have calls (other : Path) (name : String) :
      (if (path == other) = true then name ∈ called
        else (path == other) = false ∧ ledger.Calls other name) ↔
        (ledger.apply (.ingest path dependencies)).Calls other name := by
    rw [Ledger.calls_ingest, List.mem_eraseDups, List.mem_flatMap]
    split
    · rfl
    · rename_i apart
      simp [apart]
  rw [ingest_fst]
  refine ⟨?_, ?_, ?_, ?_, ?_, ?_⟩
  · change (after.link path called).names.Nodup
    rw [names_link]
    exact nodup_names_redefined tracks.distinct path dependencies
  · have relinked := linked.link path called fun name call => by simp at call
    refine ⟨relinked.distinct, fun other name => ?_⟩
    exact (relinked.remembers other name).trans (calls other name)
  · intro other name
    change (after.definitions.get? other).bind (Assoc.get? name) = _
    rw [frame.1, definitions_withdrawn tracks, Ledger.said?_ingest]
  · intro name
    exact (tracks.apart name).requeue path _
  · intro other name
    change (Ledger.requeue _ _ _).contains other = _
    rw [Ledger.contains_requeue, Ledger.said?_ingest, tracks.queued]
    split
    · rw [Dependency.isSome_said?]
    · rfl
  · intro name
    have stands := (tracks.stands_redefined path dependencies name).link path called
      fun other same call => by simp [same] at call
    exact stands.calls_congr fun other => calls other name

theorem Tracks.apply (tracks : Tracks table ledger) (action : TableAction) :
    Tracks (table.apply action) (ledger.apply action) := by
  cases action with
  | ingest path dependencies => exact tracks.ingest path dependencies
  | remove path =>
    have ingested := tracks.ingest path []
    rw [← remove_fst] at ingested
    refine ingested.of_methods_eq (fun other => ?_) rfl
    rw [Ledger.latest_remove, Ledger.latest_ingest]
  | clear => exact tracks_empty

theorem tracks_run (actions : List TableAction) : Tracks (run actions) (Ledger.run actions) := by
  suffices ∀ table ledger, Tracks table ledger →
      Tracks (actions.foldl MethodTable.apply table) (actions.foldl Ledger.apply ledger) from
    this {} {} tracks_empty
  induction actions with
  | nil => exact fun _ _ tracks => tracks
  | cons action rest ih => exact fun _ _ tracks => ih _ _ (tracks.apply action)

/-- What a reader of the table sees of a name is what the ledger says about it. -/
structure Refines (table : MethodTable) (ledger : Ledger) (name : String) : Prop where
  known : (table.get? name).isSome ↔ ledger.definers name ≠ []
  owner : ∀ method, table.get? name = some method →
    (ledger.definers name).head? = some method.definedIn
  content : ∀ method, table.get? name = some method →
    ∃ definition, Dependency.definition? (ledger.latest method.definedIn) name = some definition ∧
      method.line = definition.line ∧ method.returnType = definition.returnType? ∧
      method.dependencies = definition.calls
  references : ∀ method, table.get? name = some method →
    method.references.Increasing ∧
      ∀ path, method.references.contains path = true ↔ ledger.Calls path name
  conflicts : table.conflictsOf name = ledger.conflicts name

theorem Stands.refines {name : String} (stands : Stands table name (ledger.said? · name)
    (ledger.Calls · name) (ledger.definers name)) : Refines table ledger name := by
  have owner (method : Method) (found : table.get? name = some method) := stands.owner found
  cases queue : ledger.definers name with
  | nil =>
    rw [queue] at stands
    cases stands with
    | unknown entry conflicts =>
    refine ⟨by simp [entry, queue], owner, ?_, ?_, ?_⟩
    · intro method found
      cases found.symm.trans entry
    · intro method found
      cases found.symm.trans entry
    · rw [conflicts, Ledger.conflicts, queue]
  | cons head rest =>
    rw [queue] at stands
    cases stands with
    | @owned _ _ method references declares increasing callers entry conflicts =>
    have only (other : Method) (found : table.get? name = some other) :
        other = method.toMethod name head references := Option.some.inj (found.symm.trans entry)
    refine ⟨by simp [entry, queue], owner, ?_, ?_, ?_⟩
    · intro other found
      obtain ⟨definition, last, rfl⟩ := Option.map_eq_some_iff.mp declares
      rw [only other found]
      exact ⟨definition, last, rfl, rfl, rfl⟩
    · intro other found
      rw [only other found]
      exact ⟨increasing, callers⟩
    · rw [conflicts, Ledger.conflicts, queue]

/-- Whatever files are taken in, removed and cleared, each name stands in the table once if at all, and
as its queue of definers, the latest definitions and the latest calls say. -/
theorem run_refines_ledger (actions : List TableAction) :
    (run actions).names.Nodup ∧ ∀ name, Refines (run actions) (Ledger.run actions) name :=
  ⟨(tracks_run actions).distinct, fun name => ((tracks_run actions).stands name).refines⟩

end MethodTable

end DepAtlas
