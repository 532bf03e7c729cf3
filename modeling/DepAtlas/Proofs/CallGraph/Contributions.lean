import DepAtlas.Proofs.CallGraph.Fresh

/-!
Which files a method table speaks of: exactly those that contribute a definition. Only the definitions
among a file's dependencies count, and where the same files contribute the same definitions, two tables
differ in nothing but the owners of names.
-/

namespace DepAtlas

theorem Ledger.latest_ingestAll_of_absent {files : Assoc Path (List Dependency)} {path : Path}
    (absent : ∀ file ∈ files, (file.1 == path) = false) (ledger : Ledger) :
    (ledger.ingestAll files).latest path = ledger.latest path := by
  induction files generalizing ledger with
  | nil => rfl
  | cons file rest ih =>
    change (ingestAll (ledger.apply (.ingest file.1 file.2)) rest).latest path = _
    rw [ih (fun other member => absent other (List.mem_cons_of_mem _ member)), latest_ingest,
      absent file List.mem_cons_self]
    rfl

/-- What was said before about a file that is taken in does not matter. -/
theorem Ledger.latest_ingestAll_of_has {files : Assoc Path (List Dependency)} {path : Path}
    (present : files.has path = true) (ledger other : Ledger) :
    (ledger.ingestAll files).latest path = (other.ingestAll files).latest path := by
  induction files generalizing ledger other with
  | nil => cases present
  | cons file rest ih =>
    change (ingestAll (ledger.apply (.ingest file.1 file.2)) rest).latest path =
      (ingestAll (other.apply (.ingest file.1 file.2)) rest).latest path
    by_cases again : Assoc.has path rest = true
    · exact ih again _ _
    · have absent : ∀ later ∈ rest, (later.1 == path) = false := by
        intro later member
        cases same : later.1 == path with
        | false => rfl
        | true => exact absurd (List.any_eq_true.mpr ⟨later, member, same⟩) again
      have here : (file.1 == path) = true := by
        rw [Assoc.has, List.any_cons, Bool.or_eq_true] at present
        exact present.resolve_right again
      rw [latest_ingestAll_of_absent absent, latest_ingestAll_of_absent absent, latest_ingest,
        latest_ingest, here]
      rfl

namespace MethodTable

/-- The table speaks of a file: as the place of a method, as a caller, or in a conflict. -/
def Mentions (table : MethodTable) (path : Path) : Prop :=
  (∃ method ∈ table.methods,
    (method.definedIn == path) = true ∨ method.references.contains path = true) ∨
  ∃ conflict ∈ table.conflicts, (conflict.owner == path) = true ∨ (conflict.rejected == path) = true

variable {table other : MethodTable} {ledger ledger' : Ledger} {path : Path}

theorem Tracks.defines_iff (tracks : Tracks table ledger) (name : String) :
    (ledger.definers name).contains path = true ↔
      ∃ method ∈ Dependency.methods (ledger.latest path), method.target = name := by
  rw [tracks.queued, Ledger.said?, Dependency.isSome_said?, Dependency.defines, List.any_eq_true]
  simp only [beq_iff_eq]

/-- The table speaks of the files that contribute a definition. -/
theorem Tracks.mentions_iff (tracks : Tracks table ledger) :
    table.Mentions path ↔ Dependency.methods (ledger.latest path) ≠ [] := by
  have contributes {name : String} (defines : (ledger.definers name).contains path = true) :
      Dependency.methods (ledger.latest path) ≠ [] := by
    obtain ⟨method, member, -⟩ := (tracks.defines_iff name).mp defines
    exact List.ne_nil_of_mem member
  constructor
  · rintro (⟨method, member, speaks⟩ | ⟨conflict, member, speaks⟩)
    · have found := get?_of_mem tracks.distinct member
      have refines := (tracks.stands method.name).refines
      rcases speaks with defines | calls
      · obtain ⟨rest, queue⟩ := List.head?_eq_some_iff.mp (refines.owner method found)
        refine @contributes method.name ?_
        rw [queue, List.contains_cons, BEq.symm defines, Bool.true_or]
      · obtain ⟨dependency, isMethod, -⟩ := ((refines.references method found).2 path).mp calls
        exact List.ne_nil_of_mem isMethod
    · have inside : conflict ∈ table.conflictsOf conflict.name :=
        List.mem_filter.mpr ⟨member, beq_self_eq_true _⟩
      rw [(tracks.stands conflict.name).refines.conflicts, Ledger.conflicts] at inside
      refine @contributes conflict.name ?_
      split at inside
      · cases inside
      · rename_i head rest queue
        obtain ⟨other, waits, same⟩ := List.mem_map.mp inside
        rw [← congrArg Conflict.owner same, ← congrArg Conflict.rejected same] at speaks
        rw [queue, List.contains_cons, Bool.or_eq_true]
        refine speaks.imp BEq.symm fun rejected => ?_
        exact List.contains_iff_exists_mem_beq.mpr ⟨other, waits, BEq.symm rejected⟩
  · intro some
    obtain ⟨method, member⟩ := List.exists_mem_of_ne_nil _ some
    have defines := (tracks.defines_iff method.target).mpr ⟨method, member, rfl⟩
    have refines := (tracks.stands method.target).refines
    cases queue : ledger.definers method.target with
    | nil =>
      rw [queue] at defines
      cases defines
    | cons head rest =>
      -- A definer of a name owns it, or is in conflict with the owner.
      rw [queue, List.contains_cons, Bool.or_eq_true] at defines
      rcases defines with owns | waits
      · obtain ⟨entry, found⟩ := Option.isSome_iff_exists.mp (refines.known.mpr (by simp [queue]))
        have owner := refines.owner entry found
        rw [queue, List.head?_cons] at owner
        refine .inl ⟨entry, mem_of_get? found, .inl ?_⟩
        rw [← Option.some.inj owner]
        exact BEq.symm owns
      · obtain ⟨other, inside, same⟩ := List.contains_iff_exists_mem_beq.mp waits
        let conflict : Conflict := ⟨method.target, head, other⟩
        have recorded : conflict ∈ table.conflictsOf method.target := by
          rw [refines.conflicts, Ledger.conflicts, queue]
          exact List.mem_map.mpr ⟨other, inside, rfl⟩
        exact .inr ⟨conflict, (List.mem_filter.mp recorded).1, .inr (BEq.symm same)⟩

theorem Tracks.ingestAll (tracks : Tracks table ledger) (files : Assoc Path (List Dependency)) :
    Tracks (files.foldl (fun table file => (table.ingest file.1 file.2).1) table)
      (ledger.ingestAll files) := by
  induction files generalizing table ledger with
  | nil => exact tracks
  | cons file files ih => exact ih (tracks.ingest file.1 file.2)

theorem Matches.mentions (same : table.Matches other) (mentions : table.Mentions path) :
    other.Mentions path := by
  obtain ⟨snapshots, conflicts⟩ := same
  rcases mentions with ⟨method, member, speaks⟩ | ⟨conflict, member, speaks⟩
  · obtain ⟨method', member', equal⟩ := exists_beq_of_mem snapshots
      (table.perm_snapshot.mem_iff.mpr member)
    obtain ⟨-, place, -, -, -, callers⟩ := (Method.beq_iff _ _).mp equal
    refine .inl ⟨method', other.perm_snapshot.mem_iff.mp member', speaks.imp ?_ ?_⟩
    · intro defines
      exact BEq.trans (BEq.symm place) defines
    · intro calls
      obtain ⟨caller, isCaller, same⟩ := List.contains_iff_exists_mem_beq.mp calls
      obtain ⟨caller', isCaller', alike⟩ := exists_beq_of_mem callers isCaller
      exact List.contains_iff_exists_mem_beq.mpr ⟨caller', isCaller', BEq.trans same alike⟩
  · have listed : table.conflicts.contains conflict = true :=
      List.contains_iff_exists_mem_beq.mpr
        ⟨conflict, member, (conflict_beq_iff _ _).mpr ⟨rfl, BEq.rfl, BEq.rfl⟩⟩
    rw [conflicts] at listed
    obtain ⟨conflict', member', equal⟩ := List.contains_iff_exists_mem_beq.mp listed
    obtain ⟨-, owner, rejected⟩ := (conflict_beq_iff _ _).mp equal
    exact .inr ⟨conflict', member', speaks.imp (BEq.trans (BEq.symm owner))
      (BEq.trans (BEq.symm rejected))⟩

/-- Where both tables know a name, they know it from the same file. -/
def OwnersAgree (table other : MethodTable) : Prop :=
  ∀ {name method method'}, table.get? name = some method → other.get? name = some method' →
    (method.definedIn == method'.definedIn) = true

theorem Tracks.ownersAgree_iff (tracks : Tracks table ledger) (tracks' : Tracks other ledger') :
    table.OwnersAgree other ↔ SameOwners ledger ledger' := by
  constructor
  · intro agree name head head' first first'
    obtain ⟨rest, queue⟩ := List.head?_eq_some_iff.mp first
    obtain ⟨rest', queue'⟩ := List.head?_eq_some_iff.mp first'
    obtain ⟨method, found, rfl⟩ := (queue ▸ tracks.stands name).exists_owned
    obtain ⟨method', found', rfl⟩ := (queue' ▸ tracks'.stands name).exists_owned
    exact agree found found'
  · intro owners name method method' found found'
    exact owners name _ _ ((tracks.stands name).owner found) ((tracks'.stands name).owner found')

/-- Tables to which every file contributes the same definitions differ only in the owners of names. -/
theorem Tracks.matches_iff_ownersAgree (tracks : Tracks table ledger) (tracks' : Tracks other ledger')
    (methods : ∀ path,
      Dependency.methods (ledger.latest path) = Dependency.methods (ledger'.latest path)) :
    table.Matches other ↔ table.OwnersAgree other := by
  let joined : Ledger := ⟨ledger'.files, ledger.definers⟩
  have relabelled : Tracks table joined :=
    tracks.of_methods_eq (fun path => (methods path).symm) rfl
  rw [relabelled.matches_iff tracks' fun _ => rfl, relabelled.ownersAgree_iff tracks']

end MethodTable

end DepAtlas
