import Mathlib.Data.List.Perm.Subperm
import Mathlib.Logic.Relation
import DepAtlas.CallGraph.Cycles
import DepAtlas.Proofs.CallGraph.Agreement

/-!
The recursive groups of a method table. A search from a name finds exactly what the name reaches by one
or more calls, so the groups are the classes of names that reach each other: nothing else is in a group,
and no name that reaches itself is left out.
-/

namespace DepAtlas

open Relation

namespace Steps

/-- The second name is one step away from the first one. -/
def Leads (steps : Steps) (first second : String) : Prop :=
  second ∈ steps.getD first []

theorem leads_ofEdges (edges : List (String × String)) (first second : String) :
    (ofEdges edges).Leads first second ↔ (first, second) ∈ edges := by
  suffices ∀ steps : Steps,
      second ∈ (edges.foldl (fun steps edge =>
          steps.insert edge.1 (edge.2 :: steps.getD edge.1 [])) steps).getD first [] ↔
        second ∈ steps.getD first [] ∨ (first, second) ∈ edges by
    rw [Leads, ofEdges, this {}, Std.HashMap.getD_empty]
    simp only [List.not_mem_nil, false_or]
  induction edges with
  | nil => simp
  | cons edge rest ih =>
    intro steps
    obtain ⟨caller, callee⟩ := edge
    rw [List.foldl_cons, ih, List.mem_cons, Prod.mk.injEq, Std.HashMap.getD_insert]
    by_cases same : caller = first
    · subst same
      simp only [beq_self_eq_true, if_true, List.mem_cons, true_and]
      tauto
    · have different : ¬ first = caller := fun equal => same equal.symm
      simp only [beq_iff_eq, same, if_false, different, false_and, false_or]

/-- Some names were added to what is reached, the new ones to what is fresh. -/
structure Adds (names : List String) (before after : List String × Std.HashSet String) : Prop where
  reached : ∀ name, name ∈ after.2 ↔ name ∈ before.2 ∨ name ∈ names
  fresh : ∀ name, name ∈ after.1 ↔ name ∈ before.1 ∨ name ∈ names ∧ name ∉ before.2
  size : after.2.size + before.1.length = before.2.size + after.1.length

theorem adds_reach (state : List String × Std.HashSet String) (name : String) :
    Adds [name] state (reach state name) := by
  rw [reach]
  split
  · rename_i known
    have inside : name ∈ state.2 := known
    refine ⟨?_, ?_, rfl⟩
    · intro other
      constructor
      · exact .inl
      · rintro (old | new)
        · exact old
        · rwa [List.mem_singleton.mp new]
    · intro other
      constructor
      · exact .inl
      · rintro (old | ⟨new, unknown⟩)
        · exact old
        · rw [List.mem_singleton.mp new] at unknown
          exact absurd inside unknown
  · rename_i unknown
    have outside : name ∉ state.2 := unknown
    refine ⟨?_, ?_, ?_⟩
    · intro other
      rw [Std.HashSet.mem_insert, List.mem_singleton, beq_iff_eq, or_comm, eq_comm]
    · intro other
      rw [List.mem_cons, List.mem_singleton, or_comm]
      constructor
      · rintro (old | rfl)
        · exact .inl old
        · exact .inr ⟨rfl, outside⟩
      · rintro (old | ⟨rfl, -⟩)
        · exact .inl old
        · exact .inr rfl
    · rw [Std.HashSet.size_insert, if_neg outside, List.length_cons]
      omega

theorem adds_foldl_reach (names : List String) (state : List String × Std.HashSet String) :
    Adds names state (names.foldl reach state) := by
  induction names generalizing state with
  | nil => exact ⟨by simp, by simp, rfl⟩
  | cons name rest ih =>
    have first := adds_reach state name
    have others := ih (reach state name)
    refine ⟨?_, ?_, ?_⟩
    · intro other
      rw [List.foldl_cons, others.reached, first.reached, List.mem_singleton, List.mem_cons, or_assoc]
    · intro other
      rw [List.foldl_cons, others.fresh, first.fresh, first.reached, List.mem_singleton,
        List.mem_cons]
      tauto
    · have head := first.size
      have tail := others.size
      rw [List.foldl_cons]
      omega

/-- How a search stands that began at a name: what is reached follows from it, and only the steps from
fresh names are still to be taken. -/
structure Searches (steps : Steps) (start : String) (fresh : List String)
    (reached : Std.HashSet String) : Prop where
  sound : ∀ name ∈ reached, TransGen steps.Leads start name
  known : ∀ name ∈ fresh, name = start ∨ name ∈ reached
  closed : ∀ name, name = start ∨ name ∈ reached →
    name ∈ fresh ∨ ∀ next, steps.Leads name next → next ∈ reached

variable {steps : Steps} {start : String} {fresh fresh' : List String}
  {reached reached' : Std.HashSet String}

theorem searches_start (steps : Steps) (start : String) : Searches steps start [start] {} where
  sound _ member := absurd member Std.HashSet.not_mem_empty
  known _ member := .inl (List.mem_singleton.mp member)
  closed name := by
    rintro (rfl | member)
    · exact .inl List.mem_cons_self
    · exact absurd member Std.HashSet.not_mem_empty

theorem Searches.next (searches : Searches steps start fresh reached)
    (adds : Adds (fresh.flatMap (steps.getD · [])) ([], reached) (fresh', reached')) :
    Searches steps start fresh' reached' where
  sound name member := by
    rcases (adds.reached name).mp member with old | new
    · exact searches.sound name old
    · obtain ⟨last, isFresh, leads⟩ := List.mem_flatMap.mp new
      rcases searches.known last isFresh with rfl | inside
      · exact .single leads
      · exact (searches.sound last inside).tail leads
  known name member := by
    rcases (adds.fresh name).mp member with old | ⟨new, -⟩
    · cases old
    · exact .inr ((adds.reached name).mpr (.inr new))
  closed name := by
    intro member
    by_cases old : name = start ∨ name ∈ reached
    · right
      intro next leads
      rw [adds.reached]
      rcases searches.closed name old with isFresh | closed
      · exact .inr (List.mem_flatMap.mpr ⟨name, isFresh, leads⟩)
      · exact .inl (closed next leads)
    · left
      obtain ⟨notStart, outside⟩ := not_or.mp old
      rcases member with isStart | inside
      · exact absurd isStart notStart
      · rcases (adds.reached name).mp inside with already | new
        · exact absurd already outside
        · exact (adds.fresh name).mpr (.inr ⟨new, outside⟩)

theorem Searches.complete (searches : Searches steps start [] reached) {name : String}
    (reaches : TransGen steps.Leads start name) : name ∈ reached := by
  have closed {name next : String} (inside : name = start ∨ name ∈ reached)
      (leads : steps.Leads name next) : next ∈ reached := by
    rcases searches.closed name inside with isFresh | closed
    · cases isFresh
    · exact closed next leads
  induction reaches with
  | single leads => exact closed (.inl rfl) leads
  | tail _ leads ih => exact closed (.inr ih) leads

theorem Searches.size_le (searches : Searches steps start fresh reached) {nodes : List String}
    (inside : ∀ first second, steps.Leads first second → second ∈ nodes) :
    reached.size ≤ nodes.length := by
  have subset : reached.toList ⊆ nodes := by
    intro name member
    have reaches := searches.sound name (Std.HashSet.mem_toList.mp member)
    cases reaches with
    | single leads => exact inside _ _ leads
    | tail _ leads => exact inside _ _ leads
  have distinct : reached.toList.Nodup :=
    Std.HashSet.distinct_toList.imp fun apart same => by simp [same] at apart
  rw [← Std.HashSet.length_toList]
  exact (List.subperm_of_subset distinct subset).length_le

/-- Each round that finds something new makes what is reached larger, so that the rounds last until
nothing new is left. -/
theorem mem_closure {nodes : List String} {bound : Nat}
    (searches : Searches steps start fresh reached)
    (inside : ∀ first second, steps.Leads first second → second ∈ nodes)
    (enough : nodes.length < bound + reached.size) (name : String) :
    name ∈ steps.closure bound fresh reached ↔ TransGen steps.Leads start name := by
  induction bound generalizing fresh reached with
  | zero =>
    have few := searches.size_le inside
    omega
  | succ bound ih =>
    rw [closure]
    have adds := adds_foldl_reach (fresh.flatMap (steps.getD · [])) ([], reached)
    generalize (fresh.flatMap (steps.getD · [])).foldl reach ([], reached) = after at adds
    obtain ⟨fresh', reached'⟩ := after
    have next := searches.next adds
    cases fresh' with
    | nil => exact ⟨next.sound name, next.complete⟩
    | cons first rest =>
      have grown := adds.size
      simp only [List.length_nil, List.length_cons] at grown
      exact ih next (by omega)

theorem mem_reachedFrom {nodes : List String}
    (inside : ∀ first second, steps.Leads first second → second ∈ nodes) (start name : String) :
    name ∈ steps.reachedFrom nodes.length start ↔ TransGen steps.Leads start name :=
  mem_closure (searches_start steps start) inside (by simp) name

end Steps

namespace MethodTable

/-- A method calls another one, and both are known. -/
def Calls (table : MethodTable) (caller callee : String) : Prop :=
  ∃ method, table.get? caller = some method ∧ callee ∈ method.dependencies ∧
    (table.get? callee).isSome

/-- Each of two methods reaches the other by one or more calls. -/
def Mutual (table : MethodTable) (first second : String) : Prop :=
  TransGen table.Calls first second ∧ TransGen table.Calls second first

variable {table : MethodTable} {leader name other : String}

theorem Mutual.symm (both : table.Mutual name other) : table.Mutual other name :=
  ⟨both.2, both.1⟩

theorem Mutual.trans (first : table.Mutual leader name) (second : table.Mutual name other) :
    table.Mutual leader other :=
  ⟨first.1.trans second.1, second.2.trans first.2⟩

theorem perm_nodes (table : MethodTable) : table.nodes.Perm table.names :=
  table.perm_snapshot.map _

theorem mem_nodes : name ∈ table.nodes ↔ (table.get? name).isSome := by
  rw [get?_isSome_iff, table.perm_nodes.mem_iff]

theorem sorted_nodes (distinct : table.names.Nodup) : table.nodes.Pairwise (· < ·) := by
  have unique : table.nodes.Nodup := table.perm_nodes.nodup_iff.mpr distinct
  exact (table.sorted_snapshot.and unique).imp fun ⟨le, ne⟩ => lt_of_le_of_ne le ne

theorem mem_callees : other ∈ table.callees name ↔ table.Calls name other := by
  rw [callees, Calls]
  split
  · rename_i method found
    rw [List.mem_filter, found]
    constructor
    · rintro ⟨member, known⟩
      exact ⟨method, rfl, member, known⟩
    · rintro ⟨_, same, member, known⟩
      cases same
      exact ⟨member, known⟩
  · rename_i missing
    simp [missing]

theorem Calls.mem_nodes (calls : table.Calls name other) : name ∈ table.nodes ∧ other ∈ table.nodes := by
  obtain ⟨method, found, -, known⟩ := calls
  exact ⟨MethodTable.mem_nodes.mpr (by rw [found]; rfl), MethodTable.mem_nodes.mpr known⟩

theorem mem_nodes_of_reaches (reaches : TransGen table.Calls name other) : other ∈ table.nodes := by
  cases reaches with
  | single calls => exact calls.mem_nodes.2
  | tail _ calls => exact calls.mem_nodes.2

theorem mem_edges : (name, other) ∈ table.edges ↔ table.Calls name other := by
  rw [edges, List.mem_flatMap]
  constructor
  · rintro ⟨caller, -, member⟩
    obtain ⟨callee, called, same⟩ := List.mem_map.mp member
    cases same
    exact mem_callees.mp called
  · intro calls
    exact ⟨name, calls.mem_nodes.1, List.mem_map_of_mem (mem_callees.mpr calls)⟩

theorem leads_callees : (Steps.ofEdges table.edges).Leads name other ↔ table.Calls name other := by
  rw [Steps.leads_ofEdges, mem_edges]

theorem leads_callers :
    (Steps.ofEdges (table.edges.map Prod.swap)).Leads name other ↔ table.Calls other name := by
  rw [Steps.leads_ofEdges, ← mem_edges, List.mem_map]
  constructor
  · rintro ⟨⟨caller, callee⟩, member, same⟩
    cases same
    exact member
  · intro member
    exact ⟨(other, name), member, rfl⟩

theorem mem_forward :
    other ∈ (Steps.ofEdges table.edges).reachedFrom table.nodes.length name ↔
      TransGen table.Calls name other := by
  have same : (Steps.ofEdges table.edges).Leads = table.Calls := by
    funext caller callee
    exact propext leads_callees
  rw [Steps.mem_reachedFrom fun _ _ leads => (leads_callees.mp leads).mem_nodes.2, same]

theorem mem_backward :
    other ∈ (Steps.ofEdges (table.edges.map Prod.swap)).reachedFrom table.nodes.length name ↔
      TransGen table.Calls other name := by
  have same : (Steps.ofEdges (table.edges.map Prod.swap)).Leads = Function.swap table.Calls := by
    funext callee caller
    exact propext leads_callers
  rw [Steps.mem_reachedFrom fun _ _ leads => (leads_callers.mp leads).mem_nodes.1, same,
    transGen_swap]

/-- The methods that a method reaches and is reached from, which begin with itself. -/
structure IsGroup (table : MethodTable) (leader : String) (group : List String) : Prop where
  head : group.head? = some leader
  members : ∀ name, name ∈ group ↔ table.Mutual leader name
  sorted : group.Pairwise (· < ·)

/-- What holds of the groups found when some of the names were looked at. -/
structure Collects (table : MethodTable) (looked : List String) (groups : Groups) : Prop where
  members : ∀ name, name ∈ groups.members ↔ ∃ group ∈ groups.found, name ∈ group
  formed : ∀ group ∈ groups.found, ∃ leader ∈ looked, table.IsGroup leader group
  complete : ∀ name ∈ looked, TransGen table.Calls name name → name ∈ groups.members
  falling : groups.found.Pairwise fun later earlier => earlier < later ∧ earlier.Disjoint later

theorem collects_nothing (table : MethodTable) : Collects table [] {} where
  members name := by simp
  formed := nofun
  complete := nofun
  falling := .nil

theorem lt_of_heads {first second : List String} {head head' : String}
    (starts : first.head? = some head) (starts' : second.head? = some head') (less : head < head') :
    first < second := by
  obtain ⟨rest, rfl⟩ := List.head?_eq_some_iff.mp starts
  obtain ⟨rest', rfl⟩ := List.head?_eq_some_iff.mp starts'
  exact List.Lex.rel less

theorem mem_foldl_insert (names : List String) (members : Std.HashSet String) (name : String) :
    name ∈ names.foldl (fun members name => members.insert name) members ↔
      name ∈ members ∨ name ∈ names := by
  induction names generalizing members with
  | nil => simp
  | cons first rest ih =>
    rw [List.foldl_cons, ih, Std.HashSet.mem_insert, beq_iff_eq, List.mem_cons, eq_comm (a := first)]
    tauto

variable {looked rest : List String} {groups : Groups}

theorem Collects.pass (collects : Collects table looked groups)
    (settled : TransGen table.Calls name name → name ∈ groups.members) :
    Collects table (looked ++ [name]) groups where
  members := collects.members
  formed group member := by
    obtain ⟨leader, before, isGroup⟩ := collects.formed group member
    exact ⟨leader, List.mem_append_left _ before, isGroup⟩
  complete other member recursive := by
    rcases List.mem_append.mp member with before | last
    · exact collects.complete other before recursive
    · obtain rfl := List.mem_singleton.mp last
      exact settled recursive
  falling := collects.falling

/-- A name that is in no group yet is the first of its group: an earlier member would have brought it in. -/
theorem Collects.fresh (collects : Collects table looked groups) (outside : name ∉ groups.members)
    (both : table.Mutual name other) : other ∉ groups.members ∧ other ∉ looked := by
  have apart : other ∉ groups.members := by
    intro member
    obtain ⟨group, found, inside⟩ := (collects.members other).mp member
    obtain ⟨leader, -, isGroup⟩ := collects.formed group found
    have joined := ((isGroup.members other).mp inside).trans both.symm
    exact outside ((collects.members name).mpr ⟨group, found, (isGroup.members name).mpr joined⟩)
  exact ⟨apart, fun before => apart (collects.complete other before (both.2.trans both.1))⟩

theorem Collects.isGroup (collects : Collects table looked groups)
    (sorted : table.nodes.Pairwise (· < ·)) (nodes : table.nodes = looked ++ name :: rest)
    (outside : name ∉ groups.members) (recursive : TransGen table.Calls name name)
    {joins : String → Bool} (isMutual : ∀ other, joins other = true ↔ table.Mutual name other) :
    table.IsGroup name (table.nodes.filter joins) := by
  refine ⟨?_, ?_, sorted.filter _⟩
  · have none : looked.filter joins = [] := by
      apply List.filter_eq_nil_iff.mpr
      intro other before joined
      exact (collects.fresh outside ((isMutual other).mp joined)).2 before
    have itself : joins name = true := (isMutual name).mpr ⟨recursive, recursive⟩
    rw [nodes, List.filter_append, none, List.filter_cons_of_pos itself]
    rfl
  · intro other
    rw [List.mem_filter, isMutual]
    exact ⟨And.right, fun both => ⟨mem_nodes_of_reaches both.1, both⟩⟩

theorem Collects.add (collects : Collects table looked groups) (sorted : table.nodes.Pairwise (· < ·))
    (nodes : table.nodes = looked ++ name :: rest) (outside : name ∉ groups.members)
    (recursive : TransGen table.Calls name name) {joins : String → Bool}
    (isMutual : ∀ other, joins other = true ↔ table.Mutual name other) :
    Collects table (looked ++ [name])
      { found := table.nodes.filter joins :: groups.found
        members := (table.nodes.filter joins).foldl (fun members name => members.insert name)
          groups.members } := by
  have isGroup := collects.isGroup sorted nodes outside recursive isMutual
  have last : name ∈ looked ++ [name] := List.mem_append_right _ List.mem_cons_self
  refine ⟨?_, ?_, ?_, ?_⟩
  · intro other
    rw [mem_foldl_insert, collects.members]
    constructor
    · rintro (⟨group, found, inside⟩ | inside)
      · exact ⟨group, List.mem_cons_of_mem _ found, inside⟩
      · exact ⟨_, List.mem_cons_self, inside⟩
    · rintro ⟨group, found, inside⟩
      rcases List.mem_cons.mp found with rfl | found
      · exact .inr inside
      · exact .inl ⟨group, found, inside⟩
  · intro group found
    rcases List.mem_cons.mp found with rfl | found
    · exact ⟨name, last, isGroup⟩
    · obtain ⟨leader, before, isGroup⟩ := collects.formed group found
      exact ⟨leader, List.mem_append_left _ before, isGroup⟩
  · intro other member recursive
    rw [mem_foldl_insert]
    rcases List.mem_append.mp member with before | last
    · exact .inl (collects.complete other before recursive)
    · obtain rfl := List.mem_singleton.mp last
      exact .inr ((isGroup.members other).mpr ⟨recursive, recursive⟩)
  · refine List.pairwise_cons.mpr ⟨?_, collects.falling⟩
    intro group found
    obtain ⟨leader, before, isGroup'⟩ := collects.formed group found
    have less : leader < name := by
      rw [nodes] at sorted
      exact (List.pairwise_append.mp sorted).2.2 leader before name List.mem_cons_self
    refine ⟨lt_of_heads isGroup'.head isGroup.head less, ?_⟩
    intro other inside inside'
    have fresh := (collects.fresh outside ((isGroup.members other).mp inside')).1
    exact fresh ((collects.members other).mpr ⟨group, found, inside⟩)

theorem Collects.addGroup (collects : Collects table looked groups)
    (sorted : table.nodes.Pairwise (· < ·)) (nodes : table.nodes = looked ++ name :: rest) :
    Collects table (looked ++ [name])
      (addGroup table.nodes (Steps.ofEdges table.edges) (Steps.ofEdges (table.edges.map Prod.swap))
        groups name) := by
  rw [MethodTable.addGroup]
  split
  · rename_i grouped
    exact collects.pass fun _ => grouped
  · rename_i ungrouped
    have outside : name ∉ groups.members := ungrouped
    dsimp only
    split
    · rename_i aimless
      have unreached := mt mem_forward.mpr (by simpa using aimless)
      exact collects.pass fun recursive => absurd recursive unreached
    · rename_i cyclic
      have recursive : TransGen table.Calls name name := mem_forward.mp (by simpa using cyclic)
      apply collects.add sorted nodes outside recursive
      intro other
      rw [Bool.and_eq_true, Std.HashSet.contains_iff_mem, Std.HashSet.contains_iff_mem, mem_forward,
        mem_backward, Mutual]

theorem collects_nodes (distinct : table.names.Nodup) :
    Collects table table.nodes
      (table.nodes.foldl (MethodTable.addGroup table.nodes (Steps.ofEdges table.edges)
        (Steps.ofEdges (table.edges.map Prod.swap))) {}) := by
  have sorted := sorted_nodes distinct
  suffices ∀ rest looked groups, table.nodes = looked ++ rest → Collects table looked groups →
      Collects table table.nodes
        (rest.foldl (MethodTable.addGroup table.nodes (Steps.ofEdges table.edges)
          (Steps.ofEdges (table.edges.map Prod.swap))) groups) from
    this table.nodes [] {} rfl (collects_nothing table)
  intro rest
  induction rest with
  | nil =>
    intro looked groups nodes collects
    rw [List.append_nil] at nodes
    rwa [nodes]
  | cons name rest ih =>
    intro looked groups nodes collects
    refine ih (looked ++ [name]) _ ?_ (collects.addGroup sorted nodes)
    rw [nodes, List.append_assoc, List.singleton_append]

/-- Groups of names as the calls of a table give them: each is a class of names that reach each other,
every name that reaches itself is in one, and all stands in order. -/
structure RecursiveGroups (table : MethodTable) (groups : List (List String)) : Prop where
  recursive : ∀ name, (∃ group ∈ groups, name ∈ group) ↔ TransGen table.Calls name name
  together : ∀ first second, first ≠ second →
    ((∃ group ∈ groups, first ∈ group ∧ second ∈ group) ↔ table.Mutual first second)
  disjoint : groups.Pairwise List.Disjoint
  nonempty : [] ∉ groups
  sortedWithin : ∀ group ∈ groups, group.Pairwise (· < ·)
  sorted : groups.Pairwise (· < ·)

theorem Collects.recursiveGroups (collects : Collects table table.nodes groups) :
    RecursiveGroups table groups.found.reverse := by
  have falling := collects.falling
  rw [← List.pairwise_reverse] at falling
  have shared {group : List String} (found : group ∈ groups.found) {first second : String}
      (inside : first ∈ group) (inside' : second ∈ group) : table.Mutual first second := by
    obtain ⟨leader, -, isGroup⟩ := collects.formed group found
    exact ((isGroup.members first).mp inside).symm.trans ((isGroup.members second).mp inside')
  have grouped {name : String} (recursive : TransGen table.Calls name name) :
      ∃ group ∈ groups.found, name ∈ group := by
    rw [← collects.members]
    exact collects.complete name (mem_nodes_of_reaches recursive) recursive
  refine ⟨?_, ?_, falling.imp And.right, ?_, ?_, falling.imp And.left⟩
  · intro name
    simp only [List.mem_reverse]
    exact ⟨fun ⟨group, found, inside⟩ => (shared found inside inside).1, grouped⟩
  · intro first second _
    simp only [List.mem_reverse]
    constructor
    · rintro ⟨group, found, inside, inside'⟩
      exact shared found inside inside'
    · intro both
      obtain ⟨group, found, inside⟩ := grouped (both.1.trans both.2)
      obtain ⟨leader, -, isGroup⟩ := collects.formed group found
      have joined := ((isGroup.members first).mp inside).trans both
      exact ⟨group, found, inside, (isGroup.members second).mpr joined⟩
  · intro member
    obtain ⟨leader, -, isGroup⟩ := collects.formed [] (List.mem_reverse.mp member)
    cases isGroup.head
  · intro group member
    obtain ⟨leader, -, isGroup⟩ := collects.formed group (List.mem_reverse.mp member)
    exact isGroup.sorted

theorem recursiveGroups_cycles (distinct : table.names.Nodup) : RecursiveGroups table table.cycles :=
  (collects_nodes distinct).recursiveGroups

end MethodTable

end DepAtlas
