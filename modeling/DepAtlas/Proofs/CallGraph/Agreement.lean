import Mathlib.Data.List.Forall2
import Mathlib.Data.String.Basic
import DepAtlas.Proofs.CallGraph.Refinement

/-!
When two method tables show the same: if the same files contribute the same dependencies to both, it is
enough that every name has the same owner.
-/

namespace DepAtlas

theorem beq_list_iff {α : Type} [BEq α] (left right : List α) :
    (left == right) = true ↔ List.Forall₂ (fun a b => (a == b) = true) left right := by
  induction left generalizing right with
  | nil => cases right <;> simp
  | cons first rest ih =>
    cases right with
    | nil => simp
    | cons first' rest' => rw [List.cons_beq_cons, Bool.and_eq_true, ih, List.forall₂_cons]

theorem exists_beq_of_mem {α : Type} [BEq α] {left right : List α} (same : (left == right) = true)
    {item : α} (member : item ∈ left) : ∃ item' ∈ right, (item == item') = true := by
  rw [beq_list_iff] at same
  induction same with
  | nil => cases member
  | cons first rest ih =>
    rcases List.mem_cons.mp member with rfl | member
    · exact ⟨_, List.mem_cons_self, first⟩
    · obtain ⟨item', member', equal⟩ := ih member
      exact ⟨item', List.mem_cons_of_mem _ member', equal⟩

theorem forall₂_of_map_eq {α β : Type} {related : α → α → Prop} (key : α → β) {left right : List α}
    (keys : left.map key = right.map key)
    (relates : ∀ a ∈ left, ∀ b ∈ right, key a = key b → related a b) :
    List.Forall₂ related left right := by
  induction left generalizing right with
  | nil => simp_all
  | cons first rest ih =>
    cases right with
    | nil => simp at keys
    | cons first' rest' =>
      obtain ⟨key', keys'⟩ := List.cons.inj keys
      refine .cons (relates _ List.mem_cons_self _ List.mem_cons_self key') (ih keys' ?_)
      intro a here b there
      exact relates a (List.mem_cons_of_mem _ here) b (List.mem_cons_of_mem _ there)

theorem Method.beq_iff (a b : Method) : (a == b) = true ↔
    a.name = b.name ∧ (a.definedIn == b.definedIn) = true ∧ a.line = b.line ∧
      a.returnType = b.returnType ∧ a.dependencies = b.dependencies ∧
      (a.references == b.references) = true := by
  obtain ⟨_, _, _⟩ := a
  obtain ⟨_, _, _⟩ := b
  change instBEqMethod.beq _ _ = true ↔ _
  simp [instBEqMethod.beq]

namespace MethodTable

/-- Two tables show the same methods and the same conflicts, whatever the order of the conflicts. -/
def Matches (table other : MethodTable) : Prop :=
  (table.snapshot == other.snapshot) = true ∧
    ∀ conflict, table.conflicts.contains conflict = other.conflicts.contains conflict

theorem perm_snapshot (table : MethodTable) : table.snapshot.Perm table.methods :=
  List.mergeSort_perm _ _

theorem sorted_snapshot (table : MethodTable) : (table.snapshot.map (·.name)).Pairwise (· ≤ ·) := by
  have sorted : table.snapshot.Pairwise fun a b => decide (a.name ≤ b.name) = true := by
    apply List.pairwise_mergeSort
    · intro a b c first second
      exact decide_eq_true (le_trans (of_decide_eq_true first) (of_decide_eq_true second))
    · intro a b
      simpa using le_total a.name b.name
  rw [List.pairwise_map]
  exact sorted.imp of_decide_eq_true

theorem snapshot_names_eq {table other : MethodTable} (distinct : table.names.Nodup)
    (distinct' : other.names.Nodup) (same : ∀ name, name ∈ table.names ↔ name ∈ other.names) :
    table.snapshot.map (·.name) = other.snapshot.map (·.name) := by
  have perm : (table.snapshot.map (·.name)).Perm (other.snapshot.map (·.name)) :=
    ((table.perm_snapshot.map _).trans ((List.perm_ext_iff_of_nodup distinct distinct').mpr same)).trans
      (other.perm_snapshot.map _).symm
  exact perm.eq_of_pairwise (fun a b _ _ => le_antisymm) table.sorted_snapshot other.sorted_snapshot

/-- Where both ledgers name an owner, it is the same file. -/
def SameOwners (ledger other : Ledger) : Prop :=
  ∀ name head head', (ledger.definers name).head? = some head →
    (other.definers name).head? = some head' → (head == head') = true

variable {table other : MethodTable} {ledger ledger' : Ledger}

theorem Tracks.mem_conflicts_iff (tracks : Tracks table ledger) (conflict : Conflict) :
    table.conflicts.contains conflict = true ↔ ∃ head rest,
      ledger.definers conflict.name = head :: rest ∧ (head == conflict.owner) = true ∧
        rest.contains conflict.rejected = true := by
  have listed := ((tracks.stands conflict.name).refines).conflicts
  rw [List.contains_iff_exists_mem_beq]
  constructor
  · rintro ⟨found, member, same⟩
    obtain ⟨named, owner, rejected⟩ := (conflict_beq_iff _ _).mp same
    have inside : found ∈ table.conflictsOf conflict.name :=
      List.mem_filter.mpr ⟨member, beq_iff_eq.mpr named.symm⟩
    rw [listed, Ledger.conflicts] at inside
    cases queue : ledger.definers conflict.name with
    | nil => simp [queue] at inside
    | cons head rest =>
      rw [queue] at inside
      obtain ⟨waiting, here, rfl⟩ := List.mem_map.mp inside
      exact ⟨head, rest, rfl, BEq.symm owner,
        List.contains_iff_exists_mem_beq.mpr ⟨waiting, here, rejected⟩⟩
  · rintro ⟨head, rest, queue, owner, rejected⟩
    obtain ⟨waiting, here, same⟩ := List.contains_iff_exists_mem_beq.mp rejected
    rw [Ledger.conflicts, queue] at listed
    have inside : Conflict.mk conflict.name head waiting ∈ table.conflictsOf conflict.name := by
      rw [listed]
      exact List.mem_map_of_mem here
    exact ⟨_, (List.mem_filter.mp inside).1,
      (conflict_beq_iff _ _).mpr ⟨rfl, BEq.symm owner, same⟩⟩

theorem Tracks.method_beq (tracks : Tracks table ledger) (tracks' : Tracks other ledger')
    (latest : ∀ path, ledger.latest path = ledger'.latest path) (owners : SameOwners ledger ledger')
    {method method' : Method} {name : String} (found : table.get? name = some method)
    (found' : other.get? name = some method') : (method == method') = true := by
  have refines := (tracks.stands name).refines
  have refines' := (tracks'.stands name).refines
  have owner := owners name _ _ (refines.owner method found) (refines'.owner method' found')
  obtain ⟨definition, last, line, result, calls⟩ := refines.content method found
  obtain ⟨definition', last', line', result', calls'⟩ := refines'.content method' found'
  have same : definition = definition' := by
    rw [latest, ledger'.latest_congr owner, last'] at last
    exact (Option.some.inj last).symm
  subst same
  obtain ⟨increasing, callers⟩ := refines.references method found
  obtain ⟨increasing', callers'⟩ := refines'.references method' found'
  refine (Method.beq_iff _ _).mpr ⟨?_, owner, line.trans line'.symm, result.trans result'.symm,
    calls.trans calls'.symm, increasing.beq_of_contains increasing' fun path => ?_⟩
  · rw [name_of_get? found, name_of_get? found']
  · rw [Bool.eq_iff_iff, callers, callers', Ledger.Calls, latest, Ledger.Calls]

theorem Tracks.contains_congr (tracks : Tracks table ledger) (tracks' : Tracks other ledger')
    (latest : ∀ path, ledger.latest path = ledger'.latest path) (name : String) (path : Path) :
    (ledger.definers name).contains path = (ledger'.definers name).contains path := by
  rw [tracks.queued, tracks'.queued, Ledger.said?, latest, Ledger.said?]

theorem Tracks.mem_names_iff (tracks : Tracks table ledger) (name : String) :
    name ∈ table.names ↔ ∃ path, (ledger.definers name).contains path = true := by
  rw [← get?_isSome_iff, ((tracks.stands name).refines).known]
  cases ledger.definers name with
  | nil => simp
  | cons head rest =>
    simp only [ne_eq, reduceCtorEq, not_false_eq_true, true_iff]
    exact ⟨head, by simp⟩

theorem Tracks.contains_rest (tracks : Tracks table ledger) {name : String} {head : Path}
    {rest : List Path} (queue : ledger.definers name = head :: rest) (path : Path) :
    rest.contains path = true ↔
      (ledger.definers name).contains path = true ∧ (head == path) = false := by
  have apart := tracks.apart name
  rw [queue] at apart ⊢
  rw [List.contains_cons, BEq.comm (a := path)]
  constructor
  · intro inside
    obtain ⟨member, here, same⟩ := List.contains_iff_exists_mem_beq.mp inside
    have distinct := (List.pairwise_cons.mp apart).1 member here
    rw [← BEq.congr_right same] at distinct
    exact ⟨by rw [inside, Bool.or_true], distinct⟩
  · rintro ⟨inside, distinct⟩
    rw [distinct] at inside
    exact inside

theorem Tracks.contains_conflict_of (tracks : Tracks table ledger) (tracks' : Tracks other ledger')
    (latest : ∀ path, ledger.latest path = ledger'.latest path) (owners : SameOwners ledger ledger')
    {conflict : Conflict} (listed : table.conflicts.contains conflict = true) :
    other.conflicts.contains conflict = true := by
  obtain ⟨head, rest, queue, owner, rejected⟩ := (tracks.mem_conflicts_iff conflict).mp listed
  have present := tracks.contains_congr tracks' latest conflict.name
  cases queue' : ledger'.definers conflict.name with
  | nil =>
    have absent := present head
    rw [queue, queue'] at absent
    simp at absent
  | cons head' rest' =>
    have same : (head == head') = true := owners conflict.name head head' (by simp [queue]) (by simp [queue'])
    obtain ⟨inside, distinct⟩ := (tracks.contains_rest queue conflict.rejected).mp rejected
    refine (tracks'.mem_conflicts_iff conflict).mpr
      ⟨head', rest', queue', BEq.trans (BEq.symm same) owner, ?_⟩
    rw [tracks'.contains_rest queue', ← present, ← BEq.congr_left same]
    exact ⟨inside, distinct⟩

theorem SameOwners.symm (owners : SameOwners ledger ledger') : SameOwners ledger' ledger :=
  fun name head head' first first' => BEq.symm (owners name head' head first' first)

theorem Tracks.matches_iff (tracks : Tracks table ledger) (tracks' : Tracks other ledger')
    (latest : ∀ path, ledger.latest path = ledger'.latest path) :
    table.Matches other ↔ SameOwners ledger ledger' := by
  constructor
  · rintro ⟨snapshots, -⟩ name head head' first first'
    obtain ⟨rest, queue⟩ := List.head?_eq_some_iff.mp first
    obtain ⟨method, found, rfl⟩ := (queue ▸ tracks.stands name).exists_owned
    obtain ⟨method', member, same⟩ := exists_beq_of_mem snapshots
      (table.perm_snapshot.mem_iff.mpr (mem_of_get? found))
    obtain ⟨named, owner, -⟩ := (Method.beq_iff _ _).mp same
    have found' := get?_of_mem tracks'.distinct (other.perm_snapshot.mem_iff.mp member)
    rw [← named, name_of_get? found] at found'
    have owned := (tracks'.stands name).owner found'
    rw [first'] at owned
    rw [Option.some.inj owned]
    exact owner
  · intro owners
    refine ⟨(beq_list_iff _ _).mpr (forall₂_of_map_eq (·.name) ?_ ?_), fun conflict => ?_⟩
    · apply snapshot_names_eq tracks.distinct tracks'.distinct
      intro name
      rw [tracks.mem_names_iff, tracks'.mem_names_iff]
      simp only [tracks.contains_congr tracks' latest]
    · intro method here method' there named
      have found := get?_of_mem tracks.distinct (table.perm_snapshot.mem_iff.mp here)
      have found' := get?_of_mem tracks'.distinct (other.perm_snapshot.mem_iff.mp there)
      exact tracks.method_beq tracks' latest owners found (named ▸ found')
    · rw [Bool.eq_iff_iff]
      exact ⟨tracks.contains_conflict_of tracks' latest owners,
        tracks'.contains_conflict_of tracks (fun path => (latest path).symm) owners.symm⟩

end MethodTable

end DepAtlas
