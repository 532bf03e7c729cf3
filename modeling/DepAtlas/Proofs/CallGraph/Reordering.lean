import Mathlib.Data.List.Pairwise
import DepAtlas.CallGraph.Cycles
import DepAtlas.Proofs.CallGraph.Fresh

/-!
Fresh tables of the same files in two orders. Where no name is defined in two of the files, the order makes
no difference: the methods, the groups of methods that call each other and the counts are the same, and
there is no conflict.
-/

namespace DepAtlas

theorem Assoc.mem_put_of {κ α : Type} [BEq κ] {key : κ} {value : α} {entries : Assoc κ α}
    {entry : κ × α} (member : entry ∈ put key value entries) :
    entry.1 = key ∨ ∃ old ∈ entries, old.1 = entry.1 := by
  induction entries with
  | nil =>
    left
    rw [List.mem_singleton.mp member]
  | cons first rest ih =>
    rw [put] at member
    split at member
    · rcases List.mem_cons.mp member with rfl | member
      · exact .inr ⟨first, List.mem_cons_self, rfl⟩
      · exact .inr ⟨entry, List.mem_cons_of_mem _ member, rfl⟩
    · rcases List.mem_cons.mp member with rfl | member
      · exact .inr ⟨entry, List.mem_cons_self, rfl⟩
      · rcases ih member with same | ⟨old, inside, same⟩
        · exact .inl same
        · exact .inr ⟨old, List.mem_cons_of_mem _ inside, same⟩

theorem eq_of_perm_of_length_le {α : Type} {left right : List α} (perm : left.Perm right)
    (few : left.length ≤ 1) : left = right := by
  cases left with
  | nil => exact perm.nil_eq
  | cons first rest =>
    obtain rfl : rest = [] := List.eq_nil_of_length_eq_zero (by rw [List.length_cons] at few; omega)
    exact (List.perm_singleton.mp perm.symm).symm

theorem length_le_one_of_pairwise {α : Type} {items : List α} {apart : α → α → Prop}
    (pairwise : items.Pairwise apart) (never : ∀ a ∈ items, ∀ b ∈ items, ¬ apart a b) :
    items.length ≤ 1 := by
  cases items with
  | nil => exact Nat.zero_le _
  | cons first rest =>
    cases rest with
    | nil => exact Nat.le_refl _
    | cons second rest =>
      have distinct := (List.pairwise_cons.mp pairwise).1 second List.mem_cons_self
      exact absurd distinct
        (never first List.mem_cons_self second (List.mem_cons_of_mem _ List.mem_cons_self))

instance : Std.Symm fun a b : Path => (a == b) = false where
  symm _ _ apart := BEq.comm.trans apart

namespace MethodTable

variable {paths : List Path} {table : MethodTable}

/-- References and callers are spelled as they are in a list. -/
structure Spelled (paths : List Path) (table : MethodTable) : Prop where
  references : ∀ method ∈ table.methods, ∀ path ∈ method.references, path ∈ paths
  callers : ∀ entry ∈ table.calls, entry.1 ∈ paths

namespace Spelled

theorem of_callersOf (spelled : Spelled paths table) (name : String) :
    ∀ path ∈ PathSet.ofList (table.callersOf name), path ∈ paths := by
  have inserted (set : PathSet) (more : List Path) (inside : ∀ path ∈ set, path ∈ paths)
      (also : ∀ path ∈ more, path ∈ paths) : ∀ path ∈ PathSet.insertAll set more, path ∈ paths := by
    induction more generalizing set with
    | nil => exact inside
    | cons first rest ih =>
      refine ih (PathSet.insert first set) (fun path member => ?_) fun path member =>
        also path (List.mem_cons_of_mem _ member)
      rcases PathSet.mem_insert member with rfl | member
      · exact also _ List.mem_cons_self
      · exact inside path member
  refine inserted [] _ (fun _ member => nomatch member) ?_
  intro path member
  obtain ⟨entry, kept, rfl⟩ := List.mem_map.mp member
  exact spelled.callers entry (List.mem_filter.mp kept).1

theorem addMethod (spelled : Spelled paths table) (name : String) (path : Path) (method : FileMethod) :
    Spelled paths (table.addMethod name path method) where
  references known member := by
    rcases List.mem_append.mp member with old | new
    · exact spelled.references known old
    · rw [List.mem_singleton.mp new]
      exact spelled.of_callersOf name
  callers := spelled.callers

theorem dropMethod (spelled : Spelled paths table) (name : String) :
    Spelled paths (table.dropMethod name) where
  references known member := spelled.references known (List.mem_filter.mp member).1
  callers := spelled.callers

theorem withdrawn (spelled : Spelled paths table) (path : Path) (entries : Assoc String FileMethod) :
    Spelled paths (table.withdrawn path entries) where
  references known member := by
    obtain ⟨method, old, rfl⟩ := List.mem_map.mp member
    intro reference among
    split at among
    · exact spelled.references method old reference (List.mem_filter.mp among).1
    · exact spelled.references method old reference among
  callers entry member := spelled.callers entry (List.mem_filter.mp member).1

theorem release (spelled : Spelled paths table) (name : String) (owner : Path) :
    Spelled paths (table.release name owner) := by
  have dropped := spelled.dropMethod name
  rw [release_eq]
  split
  · exact dropped
  · split
    · exact ⟨dropped.references, dropped.callers⟩
    · refine addMethod ?_ _ _ _
      exact ⟨dropped.references, dropped.callers⟩

theorem releaseAll (spelled : Spelled paths table) (owner : Path) (names : List String) :
    Spelled paths (table.releaseAll owner names) := by
  induction names generalizing table with
  | nil => exact spelled
  | cons name rest ih => exact ih (spelled.release name owner)

theorem defined (spelled : Spelled paths table) (path : Path) (dependency : Dependency) :
    Spelled paths (defined path table dependency) := by
  unfold MethodTable.defined define
  dsimp only
  split
  · exact spelled.addMethod _ _ _
  · split
    · refine ⟨fun known member => ?_, spelled.callers⟩
      obtain ⟨method, old, rfl⟩ := List.mem_map.mp member
      have kept := spelled.references method old
      split <;> exact kept
    · exact ⟨spelled.references, spelled.callers⟩

theorem foldl_defined (spelled : Spelled paths table) (path : Path) (dependencies : List Dependency) :
    Spelled paths (dependencies.foldl (MethodTable.defined path) table) := by
  induction dependencies generalizing table with
  | nil => exact spelled
  | cons dependency rest ih => exact ih (spelled.defined path dependency)

theorem link (spelled : Spelled paths table) {path : Path} (known : path ∈ paths) (names : List String) :
    Spelled paths (table.link path names) where
  references method member := by
    obtain ⟨method, old, rfl⟩ := List.mem_map.mp member
    intro reference among
    split at among
    · rcases PathSet.mem_insert among with rfl | among
      · exact known
      · exact spelled.references method old reference among
    · exact spelled.references method old reference among
  callers entry member := by
    simp only [MethodTable.link] at member
    split at member
    · exact spelled.callers entry member
    · rcases Assoc.mem_put_of member with same | ⟨old, inside, same⟩
      · exact same ▸ known
      · exact same ▸ spelled.callers old inside

theorem ingest (spelled : Spelled paths table) {path : Path} (known : path ∈ paths)
    (dependencies : List Dependency) : Spelled paths (table.ingest path dependencies).1 := by
  rw [ingest_fst]
  exact (((spelled.withdrawn path _).releaseAll path _).foldl_defined path _).link known _

end Spelled

theorem spelled_fresh (files : Assoc Path (List Dependency)) :
    Spelled (files.map (·.1)) (fresh files) := by
  suffices ∀ (rest : Assoc Path (List Dependency)) table, Spelled (files.map (·.1)) table →
      (∀ file ∈ rest, file.1 ∈ files.map (·.1)) →
      Spelled (files.map (·.1))
        ((rest.map fun file => TableAction.ingest file.1 file.2).foldl apply table) from
    this files {} ⟨(fun _ member => nomatch member), (fun _ member => nomatch member)⟩
      fun _ => List.mem_map_of_mem
  intro rest
  induction rest with
  | nil => exact fun _ spelled _ => spelled
  | cons file rest ih =>
    intro table spelled known
    refine ih _ (spelled.ingest (known file List.mem_cons_self) file.2) ?_
    exact fun other member => known other (List.mem_cons_of_mem _ member)

section Orders

variable {files other : Assoc Path (List Dependency)}

/-- No name is defined in two of the files. -/
def SoleDefiners (files : Assoc Path (List Dependency)) : Prop :=
  ∀ a ∈ files, ∀ b ∈ files, ∀ name, Dependency.defines a.2 name = true →
    Dependency.defines b.2 name = true → (a.1 == b.1) = true

/-- It is enough to look at the names that are defined. -/
theorem soleDefiners_iff : SoleDefiners files ↔
    ∀ a ∈ files, ∀ b ∈ files, ∀ method ∈ Dependency.methods a.2,
      Dependency.defines b.2 method.target = true → (a.1 == b.1) = true := by
  constructor
  · intro sole a first b second method member
    exact sole a first b second method.target
      (List.any_eq_true.mpr ⟨method, member, beq_self_eq_true _⟩)
  · intro sole a first b second name defines
    obtain ⟨method, member, same⟩ := List.any_eq_true.mp defines
    obtain rfl := eq_of_beq same
    exact sole a first b second method member

instance : Decidable (SoleDefiners files) :=
  decidable_of_iff' _ soleDefiners_iff

theorem eq_of_beq_of_apart {paths : List Path} (apart : paths.Pairwise fun a b => (a == b) = false)
    {a b : Path} (first : a ∈ paths) (second : b ∈ paths) (same : (a == b) = true) : a = b := by
  by_contra different
  have distinct := apart.forall first second different
  rw [same] at distinct
  cases distinct

theorem references_eq {paths : List Path} (apart : paths.Pairwise fun a b => (a == b) = false)
    {left right : PathSet} (inside : ∀ path ∈ left, path ∈ paths)
    (inside' : ∀ path ∈ right, path ∈ paths) (same : (left == right) = true) : left = right := by
  rw [beq_list_iff] at same
  induction same with
  | nil => rfl
  | cons first rest ih =>
    have head := eq_of_beq_of_apart apart (inside _ List.mem_cons_self)
      (inside' _ List.mem_cons_self) first
    have tail := ih (fun path member => inside path (List.mem_cons_of_mem _ member))
      fun path member => inside' path (List.mem_cons_of_mem _ member)
    rw [head, tail]

theorem length_definers_le (distinct : Assoc.Distinct files) (sole : SoleDefiners files)
    (name : String) : ((Ledger.ingestAll {} files).definers name).length ≤ 1 := by
  rw [Ledger.definers_ingestAll distinct _ _ fun _ _ => rfl]
  change (List.map _ (files.filter fun file => Dependency.defines file.2 name)).length ≤ 1
  rw [List.length_map]
  refine length_le_one_of_pairwise (List.Pairwise.filter _ distinct) ?_
  intro a first b second apart
  obtain ⟨known, defines⟩ := List.mem_filter.mp first
  obtain ⟨known', defines'⟩ := List.mem_filter.mp second
  rw [sole a known b known' name defines defines'] at apart
  cases apart

theorem definers_eq (distinct : Assoc.Distinct files) (perm : files.Perm other)
    (sole : SoleDefiners files) (name : String) :
    (Ledger.ingestAll {} files).definers name = (Ledger.ingestAll {} other).definers name := by
  have distinct' := distinct.perm perm
  refine eq_of_perm_of_length_le ?_ (length_definers_le distinct sole name)
  rw [Ledger.definers_ingestAll distinct _ _ fun _ _ => rfl,
    Ledger.definers_ingestAll distinct' _ _ fun _ _ => rfl]
  exact ((perm.filter fun file => Dependency.defines file.2 name).map (·.1)).append_left _

theorem get?_fresh_eq (distinct : Assoc.Distinct files) (perm : files.Perm other)
    (sole : SoleDefiners files) (name : String) :
    (fresh files).get? name = (fresh other).get? name := by
  have tracks := tracks_fresh files
  have tracks' := tracks_fresh other
  have refines := (tracks.stands name).refines
  have refines' := (tracks'.stands name).refines
  have definers := definers_eq distinct perm sole name
  have latest (path : Path) :
      (Ledger.ingestAll {} files).latest path = (Ledger.ingestAll {} other).latest path := by
    rw [Ledger.latest_ingestAll distinct, Ledger.latest_ingestAll (distinct.perm perm),
      distinct.get?_perm perm]
  have owners : SameOwners (Ledger.ingestAll {} files) (Ledger.ingestAll {} other) := by
    intro name head head' first first'
    rw [definers_eq distinct perm sole, first'] at first
    cases first
    exact BEq.rfl
  have known : ((fresh files).get? name).isSome ↔ ((fresh other).get? name).isSome := by
    rw [refines.known, refines'.known, definers]
  cases found : (fresh files).get? name with
  | none =>
    rw [found] at known
    cases found' : (fresh other).get? name with
    | none => rfl
    | some method => simp [found'] at known
  | some method =>
    obtain ⟨method', found'⟩ := Option.isSome_iff_exists.mp (known.mp (by rw [found]; rfl))
    -- The refinement gives equality up to the spelling of paths, and both tables spell them as the files do.
    have same := tracks.method_beq tracks' latest owners found found'
    obtain ⟨named, -, line, result, calls, references⟩ := (Method.beq_iff _ _).mp same
    have owner : method.definedIn = method'.definedIn := by
      have first := refines.owner method found
      rw [definers, refines'.owner method' found'] at first
      exact (Option.some.inj first).symm
    have apart : (files.map (·.1)).Pairwise fun a b => (a == b) = false :=
      List.pairwise_map.mpr distinct
    have spelled := (spelled_fresh files).references method (mem_of_get? found)
    have spelled' : ∀ path ∈ method'.references, path ∈ files.map (·.1) := by
      intro path member
      have inside := (spelled_fresh other).references method' (mem_of_get? found') path member
      exact (perm.map (·.1)).mem_iff.mpr inside
    have linked := references_eq apart spelled spelled' references
    rw [found']
    obtain ⟨_, _, _, _, _, _⟩ := method
    obtain ⟨_, _, _, _, _, _⟩ := method'
    simp_all

theorem conflicts_fresh (distinct : Assoc.Distinct files) (sole : SoleDefiners files) :
    (fresh files).conflicts = [] := by
  rw [List.eq_nil_iff_forall_not_mem]
  intro conflict member
  have inside : conflict ∈ (fresh files).conflictsOf conflict.name :=
    List.mem_filter.mpr ⟨member, beq_self_eq_true _⟩
  have few := length_definers_le distinct sole conflict.name
  rw [((tracks_fresh files).stands conflict.name).refines.conflicts, Ledger.conflicts] at inside
  cases queue : (Ledger.ingestAll {} files).definers conflict.name with
  | nil => simp [queue] at inside
  | cons head rest =>
    rw [queue, List.length_cons] at few
    obtain rfl : rest = [] := List.eq_nil_of_length_eq_zero (by omega)
    simp [queue] at inside

end Orders

section Views

variable {other : MethodTable}

/-- What a table shows depends on the entries of the names alone. -/
theorem snapshot_eq_of_get? (distinct : table.names.Nodup) (distinct' : other.names.Nodup)
    (same : ∀ name, table.get? name = other.get? name) : table.snapshot = other.snapshot := by
  have entries {table : MethodTable} (distinct : table.names.Nodup) :
      table.snapshot.map some = (table.snapshot.map (·.name)).map table.get? := by
    rw [List.map_map]
    refine List.map_congr_left fun method member => ?_
    exact (get?_of_mem distinct (table.perm_snapshot.mem_iff.mp member)).symm
  have names := snapshot_names_eq distinct distinct' fun name => by
    rw [← get?_isSome_iff, ← get?_isSome_iff, same]
  have shown : table.snapshot.map some = other.snapshot.map some := by
    rw [entries distinct, entries distinct', names, funext same]
  exact List.map_injective_iff.mpr (Option.some_injective _) shown

theorem cycles_eq_of_get? (distinct : table.names.Nodup) (distinct' : other.names.Nodup)
    (same : ∀ name, table.get? name = other.get? name) : table.cycles = other.cycles := by
  have nodes : table.nodes = other.nodes := by
    rw [nodes, snapshot_eq_of_get? distinct distinct' same, nodes]
  have callees : table.callees = other.callees := by
    funext name
    simp only [callees, same]
  have edges : table.edges = other.edges := by
    rw [edges, nodes, callees, edges]
  rw [cycles, nodes, edges, cycles]

theorem total_perm {α : Type} (measure : α → Nat) {left right : List α} (perm : left.Perm right) :
    total measure left = total measure right := by
  induction perm with
  | nil => rfl
  | cons item _ ih => simp only [total, ih]
  | swap first second rest =>
    simp only [total]
    omega
  | trans _ _ ih ih' => exact ih.trans ih'

theorem length_ofList_perm {left right : List Path} (perm : left.Perm right) :
    (PathSet.ofList left).length = (PathSet.ofList right).length := by
  have same := (PathSet.increasing_ofList left).beq_of_contains (PathSet.increasing_ofList right)
    fun path => by rw [PathSet.contains_ofList, PathSet.contains_ofList, perm.contains_eq]
  exact ((beq_list_iff _ _).mp same).length_eq

theorem stats_eq_of_get? (distinct : table.names.Nodup) (distinct' : other.names.Nodup)
    (same : ∀ name, table.get? name = other.get? name)
    (conflicts : table.conflicts.length = other.conflicts.length) : table.stats = other.stats := by
  have perm : table.methods.Perm other.methods := by
    have shown := snapshot_eq_of_get? distinct distinct' same
    exact table.perm_snapshot.symm.trans (shown ▸ other.perm_snapshot)
  have known : table.get? = other.get? := funext same
  simp only [stats, size, known, conflicts, total_perm _ perm, perm.length_eq,
    length_ofList_perm (perm.map (·.definedIn))]

end Views

end MethodTable

end DepAtlas
