import DepAtlas.Proofs.CallGraph.Contributions

/-!
How changes of a method table go together. Taking a file in again changes nothing, removing it undoes
whatever it was taken in with, and two files may be taken in in either order unless both newly define one
name. The tables are compared by all that is in them, the conflicts in their order.
-/

namespace DepAtlas

namespace Ledger

variable {path other : Path} {defines defines' : Bool} {queue : List Path}

theorem requeue_idem (path : Path) (defines : Bool) (queue : List Path) :
    requeue path defines (requeue path defines queue) = requeue path defines queue := by
  cases defines with
  | false => simp [requeue]
  | true => exact MethodTable.requeue_true_idem path queue

/-- A file that leaves a queue was not there, whatever it did last. -/
theorem requeue_false_requeue (path : Path) (defines : Bool) (queue : List Path) :
    requeue path false (requeue path defines queue) = requeue path false queue := by
  cases defines with
  | false => exact requeue_idem path false queue
  | true =>
    unfold requeue
    simp only [Bool.not_true, Bool.not_false, Bool.false_eq_true, if_false, if_true]
    split
    · rfl
    · simp

theorem filter_requeue (apart : (path == other) = false) :
    (requeue path defines queue).filter (fun waiting => !(waiting == other)) =
      requeue path defines (queue.filter fun waiting => !(waiting == other)) := by
  have stays : (queue.filter fun waiting => !(waiting == other)).contains path = queue.contains path := by
    change (PathSet.erase other queue).contains path = _
    rw [PathSet.contains_erase, BEq.comm, apart, Bool.not_false, Bool.and_true]
  cases defines with
  | false =>
    simp only [requeue, Bool.not_false, if_true, List.filter_filter]
    exact List.filter_congr fun _ _ => Bool.and_comm _ _
  | true =>
    simp only [requeue, Bool.not_true, Bool.false_eq_true, if_false, stays]
    split
    · rfl
    · simp [apart]

/-- Two files come and go independently, unless both join a queue in which neither was. -/
theorem requeue_comm (apart : (path == other) = false)
    (known : defines = true → defines' = true →
      queue.contains path = true ∨ queue.contains other = true) :
    requeue other defines' (requeue path defines queue) =
      requeue path defines (requeue other defines' queue) := by
  have apart' : (other == path) = false := BEq.comm.trans apart
  cases defines' with
  | false => exact filter_requeue apart
  | true =>
    cases defines with
    | false => exact (filter_requeue apart').symm
    | true =>
      have first : (requeue path true queue).contains other = queue.contains other := by
        rw [contains_requeue, apart, if_neg Bool.false_ne_true]
      have second : (requeue other true queue).contains path = queue.contains path := by
        rw [contains_requeue, apart', if_neg Bool.false_ne_true]
      rcases known rfl rfl with inside | inside
      · have stays : requeue path true queue = queue := by simp [requeue, inside]
        rw [stays]
        conv_rhs => rw [requeue, second, inside]
        rfl
      · have stays : requeue other true queue = queue := by simp [requeue, inside]
        rw [stays]
        conv_lhs => rw [requeue, first, inside]
        rfl

end Ledger

/-- In a list without repetitions, a part is determined by its members. -/
theorem eq_of_sublist_of_mem_iff {α : Type} {whole left right : List α} (distinct : whole.Nodup)
    (isLeft : left.Sublist whole) (isRight : right.Sublist whole)
    (same : ∀ item, item ∈ left ↔ item ∈ right) : left = right := by
  classical
  suffices picked : ∀ {part : List α}, part.Sublist whole → whole.filter (· ∈ part) = part by
    rw [← picked isLeft, ← picked isRight]
    simp only [same]
  intro part isPart
  clear same isLeft isRight
  induction isPart with
  | slnil => rfl
  | @cons part rest first isPart ih =>
    obtain ⟨absent, distinct⟩ := List.nodup_cons.mp distinct
    rw [List.filter_cons_of_neg, ih distinct]
    simpa using fun inside => absent (isPart.subset inside)
  | @cons_cons part rest first isPart ih =>
    obtain ⟨absent, distinct⟩ := List.nodup_cons.mp distinct
    rw [List.filter_cons_of_pos (by simp)]
    refine congrArg (first :: ·) ((List.filter_congr fun item member => ?_).trans (ih distinct))
    have other : item ≠ first := fun here => absent (here ▸ member)
    simp [other]

namespace MethodTable

/-- Two tables show the same methods, list the same conflicts over each name in the same order, and
remember the same of each file. -/
structure Alike (table other : MethodTable) : Prop where
  snapshot : (table.snapshot == other.snapshot) = true
  conflictsOf : ∀ name, table.conflictsOf name = other.conflictsOf name
  definitions : ∀ path name, (table.definitions.get? path).bind (Assoc.get? name) =
    (other.definitions.get? path).bind (Assoc.get? name)
  calls : ∀ path name, name ∈ (table.calls.get? path).getD [] ↔ name ∈ (other.calls.get? path).getD []

/-- The order of the conflicts over different names is the same too. -/
structure Equivalent (table other : MethodTable) : Prop extends Alike table other where
  conflicts : table.conflicts = other.conflicts

/-- What is at issue in each conflict, in order: a name and a file that does not get it. -/
def contested (table : MethodTable) : List (String × Path) :=
  table.conflicts.map fun conflict => (conflict.name, conflict.rejected)

variable {table other : MethodTable} {ledger ledger' : Ledger} {path : Path}

/-- What is at issue, less what a file does not get. -/
def contestedBeyond (table : MethodTable) (path : Path) : List (String × Path) :=
  table.contested.filter fun issue => !(issue.2 == path)

theorem Tracks.alike (tracks : Tracks table ledger) (tracks' : Tracks other ledger')
    (latest : ∀ path, ledger.latest path = ledger'.latest path)
    (definers : ∀ name, ledger.definers name = ledger'.definers name) : table.Alike other where
  snapshot := by
    refine ((tracks.matches_iff tracks' latest).mpr fun name head head' first first' => ?_).1
    rw [definers, first'] at first
    rw [Option.some.inj first]
    exact BEq.rfl
  conflictsOf name := by
    rw [(tracks.stands name).refines.conflicts, (tracks'.stands name).refines.conflicts,
      Ledger.conflicts, definers, Ledger.conflicts]
  definitions path name := by
    rw [tracks.definitions, tracks'.definitions, Ledger.said?, latest, Ledger.said?]
  calls path name := by
    rw [tracks.linked.remembers, tracks'.linked.remembers, Ledger.Calls, latest, Ledger.Calls]

section Order

theorem mem_conflicts_iff_mem_conflictsOf {conflict : Conflict} :
    conflict ∈ table.conflicts ↔ conflict ∈ table.conflictsOf conflict.name := by
  simp [conflictsOf]

theorem Alike.mem_conflicts_iff (alike : table.Alike other) (conflict : Conflict) :
    conflict ∈ table.conflicts ↔ conflict ∈ other.conflicts := by
  rw [mem_conflicts_iff_mem_conflictsOf, mem_conflicts_iff_mem_conflictsOf, alike.conflictsOf]

theorem pairwise_of_filters {conflicts : List Conflict} {apart : Conflict → Conflict → Prop}
    (each : ∀ name, (conflicts.filter (·.name == name)).Pairwise apart) :
    conflicts.Pairwise fun a b => a.name = b.name → apart a b := by
  induction conflicts with
  | nil => exact .nil
  | cons first rest ih =>
    refine List.pairwise_cons.mpr ⟨fun later member same => ?_, ih fun name => ?_⟩
    · have own := each first.name
      rw [List.filter_cons_of_pos (by simp)] at own
      exact (List.pairwise_cons.mp own).1 later (List.mem_filter.mpr ⟨member, by simp [same]⟩)
    · exact (each name).sublist ((List.sublist_cons_self _ _).filter _)

theorem Tracks.nodup_contested (tracks : Tracks table ledger) : table.contested.Nodup := by
  have each (name : String) : (table.conflictsOf name).Pairwise fun a b =>
      (a.rejected == b.rejected) = false := by
    rw [(tracks.stands name).refines.conflicts, Ledger.conflicts]
    split
    · exact .nil
    case h_2 head rest queue =>
      have apart := tracks.apart name
      rw [queue] at apart
      exact List.pairwise_map.mpr (List.pairwise_cons.mp apart).2
  refine List.pairwise_map.mpr ((pairwise_of_filters each).imp fun apart same => ?_)
  obtain ⟨named, rejected⟩ := Prod.mk.inj same
  have distinct := apart named
  rw [rejected, BEq.rfl] at distinct
  cases distinct

theorem Alike.equivalent {issues : List (String × Path)} (alike : table.Alike other)
    (distinct : issues.Nodup) (part : table.contested.Sublist issues)
    (part' : other.contested.Sublist issues) : table.Equivalent other := by
  have issuesEq : table.contested = other.contested := by
    refine eq_of_sublist_of_mem_iff distinct part part' fun issue => ?_
    simp only [contested, List.mem_map, alike.mem_conflicts_iff]
  refine ⟨alike, List.forall₂_eq_eq_eq ▸ forall₂_of_map_eq _ issuesEq ?_⟩
  intro conflict member conflict' member' same
  exact List.inj_on_of_nodup_map (part'.nodup distinct) ((alike.mem_conflicts_iff conflict).mp member)
    member' same

theorem contested_release (table : MethodTable) (name : String) (owner : Path) :
    (table.release name owner).contested.Sublist table.contested := by
  have handed (heir : Path) (conflicts : List Conflict) :
      (conflicts.map (handOver name owner heir)).map (fun conflict => (conflict.name, conflict.rejected)) =
        conflicts.map fun conflict => (conflict.name, conflict.rejected) := by
    rw [List.map_map]
    refine List.map_congr_left fun conflict _ => ?_
    simp only [Function.comp_apply, handOver]
    split <;> rfl
  rw [release_eq]
  split
  · exact .refl _
  · split
    all_goals
      simp only [contested, addMethod, handed]
      exact List.eraseP_sublist.map _

theorem contested_releaseAll (table : MethodTable) (path : Path) (names : List String) :
    (table.releaseAll path names).contested.Sublist table.contested := by
  induction names generalizing table with
  | nil => exact .refl _
  | cons name rest ih => exact (ih (table.release name path)).trans (table.contested_release name path)

/-- The definitions of a file can only add conflicts in which the file is rejected. -/
theorem exists_conflicts_foldl_defined (path : Path) (table : MethodTable)
    (definitions : List Dependency) : ∃ added,
      (definitions.foldl (defined path) table).conflicts = table.conflicts ++ added ∧
        ∀ conflict ∈ added, conflict.rejected = path := by
  induction definitions generalizing table with
  | nil => exact ⟨[], (List.append_nil _).symm, nofun⟩
  | cons definition rest ih =>
    obtain ⟨added, grown, rejected⟩ := ih (defined path table definition)
    have first : ∃ new, (defined path table definition).conflicts = table.conflicts ++ new ∧
        ∀ conflict ∈ new, conflict.rejected = path := by
      unfold defined define
      dsimp only
      split
      · exact ⟨[], (List.append_nil _).symm, nofun⟩
      · split
        · exact ⟨[], (List.append_nil _).symm, nofun⟩
        · dsimp only
          split
          · exact ⟨[], (List.append_nil _).symm, nofun⟩
          · exact ⟨_, rfl, fun conflict member => by rw [List.mem_singleton.mp member]⟩
    obtain ⟨new, begun, rejected'⟩ := first
    refine ⟨new ++ added, ?_, fun conflict member => ?_⟩
    · rw [List.foldl_cons, grown, begun, List.append_assoc]
    · exact (List.mem_append.mp member).elim (rejected' conflict) (rejected conflict)

/-- The conflicts of a file that is taken in come after those that are left of the earlier ones. -/
theorem exists_conflicts_ingest (table : MethodTable) (path : Path) (dependencies : List Dependency) :
    let kept := table.withdrawn path (Dependency.entries dependencies)
    ∃ added, (table.ingest path dependencies).1.conflicts =
        (kept.releaseAll path (kept.staleNames path (Dependency.entries dependencies))).conflicts ++ added ∧
      ∀ conflict ∈ added, conflict.rejected = path := by
  rw [ingest_fst]
  exact exists_conflicts_foldl_defined path _ (Dependency.methods dependencies)

/-- What is at issue beyond a file that is taken in was so before, in the same order. -/
theorem contestedBeyond_ingest (table : MethodTable) (path : Path) (dependencies : List Dependency) :
    ((table.ingest path dependencies).1.contestedBeyond path).Sublist (table.contestedBeyond path) := by
  let kept := table.withdrawn path (Dependency.entries dependencies)
  obtain ⟨added, grown, rejected⟩ := table.exists_conflicts_ingest path dependencies
  have none : (added.map fun conflict => (conflict.name, conflict.rejected)).filter
      (fun issue => !(issue.2 == path)) = [] := by
    refine List.filter_eq_nil_iff.mpr fun issue member => ?_
    obtain ⟨conflict, isAdded, rfl⟩ := List.mem_map.mp member
    simp [rejected conflict isAdded]
  rw [contestedBeyond, contested, grown, List.map_append, List.filter_append, none, List.append_nil]
  have withdrawn : kept.contested.Sublist table.contested := List.filter_sublist.map _
  exact ((contested_releaseAll kept path _).trans withdrawn).filter _

/-- Nothing is at issue for a file that is not spoken of. -/
theorem contested_eq_beyond (silent : ¬ table.Mentions path) :
    table.contested = table.contestedBeyond path := by
  refine (List.filter_eq_self.mpr fun issue member => ?_).symm
  obtain ⟨conflict, isConflict, rfl⟩ := List.mem_map.mp member
  have apart : (conflict.rejected == path) = false :=
    eq_false_of_ne_true fun here => silent (.inr ⟨conflict, isConflict, .inr here⟩)
  rw [apart]
  rfl

end Order

section Removal

theorem Tracks.not_mentions_remove (tracks : Tracks table ledger) (path : Path) :
    ¬ (table.remove path).1.Mentions path := by
  have removed : Tracks (table.remove path).1 _ := tracks.apply (.remove path)
  rw [removed.mentions_iff, Ledger.latest_remove, if_pos BEq.rfl]
  exact fun some => some rfl

theorem remove_memory (table : MethodTable) (path : Path) :
    (table.remove path).1.definitions.get? path = none ∧ (table.remove path).1.calls.get? path = none := by
  obtain ⟨definitions, calls⟩ := table.redefined_frame path []
  have isLinked : (table.remove path).1 = (table.redefined path []).link path [] :=
    (remove_fst table path).trans (ingest_fst table path [])
  rw [isLinked]
  constructor
  · exact (congrArg _ definitions).trans ((Assoc.get?_erase ..).trans (if_pos BEq.rfl))
  · exact (congrArg _ calls).trans ((Assoc.get?_erase ..).trans (if_pos BEq.rfl))

theorem Tracks.contested_remove (tracks : Tracks table ledger) (path : Path) :
    (table.remove path).1.contested.Sublist (table.contestedBeyond path) := by
  rw [contested_eq_beyond (tracks.not_mentions_remove path), remove_fst]
  exact contestedBeyond_ingest table path []

theorem Tracks.remove_ingest (tracks : Tracks table ledger) (path : Path)
    (dependencies : List Dependency) :
    ((table.ingest path dependencies).1.remove path).1.Equivalent (table.remove path).1 := by
  have ingested := tracks.ingest path dependencies
  have removed : Tracks ((table.ingest path dependencies).1.remove path).1 _ :=
    ingested.apply (.remove path)
  have removed' : Tracks (table.remove path).1 _ := tracks.apply (.remove path)
  have alike := removed.alike removed' (fun other => by
    rw [Ledger.latest_remove, Ledger.latest_remove, Ledger.latest_ingest]
    cases path == other <;> rfl) fun name => Ledger.requeue_false_requeue path _ _
  -- Both conflict lists are parts of one list without repetitions, so that their members decide their order.
  refine alike.equivalent (tracks.nodup_contested.filter _) ?_ (tracks.contested_remove path)
  exact (ingested.contested_remove path).trans (contestedBeyond_ingest table path dependencies)

end Removal

section Repetition

variable {dependencies : List Dependency}

/-- A file that was taken in with these dependencies stands in no queue but those of the names that they
define. -/
theorem Tracks.defines_of_queued (tracks : Tracks table ledger)
    (latest : ledger.latest path = dependencies) {name : String}
    (queued : (ledger.definers name).contains path = true) :
    Dependency.defines dependencies name = true := by
  rw [tracks.queued, Ledger.said?, latest, Dependency.isSome_said?] at queued
  exact queued

theorem Tracks.conflicts_withdrawn (tracks : Tracks table ledger)
    (latest : ledger.latest path = dependencies) :
    (table.withdrawn path (Dependency.entries dependencies)).conflicts = table.conflicts := by
  refine List.filter_eq_self.mpr fun conflict member => ?_
  cases here : conflict.rejected == path with
  | false => rfl
  | true =>
    have listed : table.conflicts.contains conflict = true :=
      List.contains_iff_exists_mem_beq.mpr
        ⟨conflict, member, (conflict_beq_iff _ _).mpr ⟨rfl, BEq.rfl, BEq.rfl⟩⟩
    obtain ⟨head, rest, queue, -, waits⟩ := (tracks.mem_conflicts_iff conflict).mp listed
    have queued := ((tracks.contains_rest queue conflict.rejected).mp waits).1
    rw [List.contains_congr here] at queued
    rw [Dependency.has_entries, tracks.defines_of_queued latest queued]
    rfl

theorem Tracks.staleNames_withdrawn (tracks : Tracks table ledger)
    (latest : ledger.latest path = dependencies) :
    let entries := Dependency.entries dependencies
    (table.withdrawn path entries).staleNames path entries = [] := by
  intro entries
  have distinct : (table.withdrawn path entries).names.Nodup :=
    (names_unlink table path).symm ▸ tracks.distinct
  refine List.eq_nil_iff_forall_not_mem.mpr fun name member => ?_
  obtain ⟨drops, method, found, owns⟩ := (mem_staleNames distinct path entries name).mp member
  obtain ⟨known, isKnown, same⟩ := Option.map_eq_some_iff.mp ((get?_unlink table path name).symm.trans found)
  have place : known.definedIn = method.definedIn := by
    rw [← same]
    split <;> rfl
  obtain ⟨rest, queue⟩ := List.head?_eq_some_iff.mp ((tracks.stands name).owner isKnown)
  have queued : (ledger.definers name).contains path = true := by
    rw [queue, List.contains_cons, place, BEq.symm owns, Bool.true_or]
  rw [Dependency.has_entries, tracks.defines_of_queued latest queued] at drops
  cases drops

theorem Tracks.ingest_ingest (tracks : Tracks table ledger) (path : Path)
    (dependencies : List Dependency) :
    ((table.ingest path dependencies).1.ingest path dependencies).1.Equivalent
      (table.ingest path dependencies).1 := by
  let once := (table.ingest path dependencies).1
  have ingested : Tracks once _ := tracks.ingest path dependencies
  have latest : (ledger.apply (.ingest path dependencies)).latest path = dependencies := by
    rw [Ledger.latest_ingest, if_pos BEq.rfl]
  have again := ingested.ingest path dependencies
  have alike := again.alike ingested (fun other => by
    rw [Ledger.latest_ingest, Ledger.latest_ingest]
    cases path == other <;> rfl) fun name => Ledger.requeue_idem path _ _
  refine ⟨alike, ?_⟩
  obtain ⟨added, grown, -⟩ := once.exists_conflicts_ingest path dependencies
  rw [ingested.staleNames_withdrawn latest] at grown
  have whole : (once.ingest path dependencies).1.conflicts = once.conflicts ++ added := by
    rw [grown]
    exact congrArg (· ++ added) (ingested.conflicts_withdrawn latest)
  -- Both lists have the same members and no repetitions, so that nothing can have been added.
  have perm : (once.ingest path dependencies).1.conflicts.Perm once.conflicts :=
    (List.perm_ext_iff_of_nodup (.of_map _ again.nodup_contested) (.of_map _ ingested.nodup_contested)).mpr
      alike.mem_conflicts_iff
  have none : added = [] := by
    have lengths := perm.length_eq
    rw [whole, List.length_append] at lengths
    exact List.eq_nil_of_length_eq_zero (by omega)
  rw [whole, none, List.append_nil]

end Repetition

/-- Two files may be taken in in either order, unless both newly define one name. -/
theorem Tracks.ingest_comm (tracks : Tracks table ledger) {path other : Path}
    {dependencies others : List Dependency} (apart : (path == other) = false)
    (known : ∀ name, Dependency.defines dependencies name = true → Dependency.defines others name = true →
      Dependency.defines (ledger.latest path) name = true ∨
        Dependency.defines (ledger.latest other) name = true) :
    ((table.ingest path dependencies).1.ingest other others).1.Alike
      ((table.ingest other others).1.ingest path dependencies).1 := by
  have queued (file : Path) (name : String) :
      (ledger.definers name).contains file = Dependency.defines (ledger.latest file) name := by
    rw [tracks.queued, Ledger.said?, Dependency.isSome_said?]
  have first := (tracks.ingest path dependencies).ingest other others
  have second := (tracks.ingest other others).ingest path dependencies
  refine first.alike second (fun file => ?_) fun name => Ledger.requeue_comm apart ?_
  · simp only [Ledger.latest_ingest]
    split
    case isTrue here =>
      have away : (path == file) = false := (BEq.congr_right here).symm.trans apart
      simp [away]
    case isFalse => rfl
  · rw [queued, queued]
    exact known name

/-- Changes of a table that came about by changes of an empty one: taking a file in twice is taking it in
once, removing it undoes whatever it was taken in with and leaves nothing that speaks of it, and two files
may be taken in in either order unless both newly define one name. -/
theorem changes_of_run (actions : List TableAction) (path other : Path)
    (dependencies others : List Dependency) :
    let table := run actions
    let ledger := Ledger.run actions
    let once := (table.ingest path dependencies).1
    let removed := (table.remove path).1
    (once.ingest path dependencies).1.Equivalent once ∧
    (once.remove path).1.Equivalent removed ∧
    (¬ removed.Mentions path ∧ removed.definitions.get? path = none ∧ removed.calls.get? path = none) ∧
    ((path == other) = false →
      (∀ name, Dependency.defines dependencies name = true → Dependency.defines others name = true →
        Dependency.defines (ledger.latest path) name = true ∨
          Dependency.defines (ledger.latest other) name = true) →
      (once.ingest other others).1.Alike ((table.ingest other others).1.ingest path dependencies).1) := by
  intro table ledger once removed
  have tracks : Tracks table ledger := tracks_run actions
  refine ⟨tracks.ingest_ingest path dependencies, tracks.remove_ingest path dependencies, ?_, ?_⟩
  · exact ⟨tracks.not_mentions_remove path, table.remove_memory path⟩
  · exact fun apart known => tracks.ingest_comm apart known

/-- Definitions of two names in a file. -/
def bothMethods (path : Path) : List Dependency :=
  [bareMethod path "f", bareMethod path "g"]

/-- One of two files defines one of these names, and the other file the other one. -/
def oneEach : List TableAction :=
  [.ingest ⟨"a.rs"⟩ [bareMethod ⟨"a.rs"⟩ "f"], .ingest ⟨"b.rs"⟩ [bareMethod ⟨"b.rs"⟩ "g"]]

/-- When each file is taken in with both names, the order of the files is seen in the order of the
conflicts over different names, and nowhere else. -/
theorem changes_of_run_crosswise :
    let a : Path := ⟨"a.rs"⟩
    let b : Path := ⟨"b.rs"⟩
    let first := (((run oneEach).ingest a (bothMethods a)).1.ingest b (bothMethods b)).1
    let second := (((run oneEach).ingest b (bothMethods b)).1.ingest a (bothMethods a)).1
    (a == b) = false ∧
      (∀ name, Dependency.defines (bothMethods a) name = true →
        Dependency.defines (bothMethods b) name = true →
        Dependency.defines ((Ledger.run oneEach).latest a) name = true ∨
          Dependency.defines ((Ledger.run oneEach).latest b) name = true) ∧
      first.Alike second ∧ first.conflicts.map (·.name) = ["g", "f"] ∧
      second.conflicts.map (·.name) = ["f", "g"] := by
  intro a b first second
  have apart : (a == b) = false := by decide +kernel
  have known : ∀ name, Dependency.defines (bothMethods a) name = true →
      Dependency.defines (bothMethods b) name = true →
      Dependency.defines ((Ledger.run oneEach).latest a) name = true ∨
        Dependency.defines ((Ledger.run oneEach).latest b) name = true := by
    intro name isFirst _
    obtain ⟨method, member, target⟩ := List.any_eq_true.mp isFirst
    have isMethod := (List.mem_filter.mp member).1
    rw [← eq_of_beq target]
    simp only [bothMethods, List.mem_cons, List.not_mem_nil, or_false] at isMethod
    rcases isMethod with rfl | rfl
    · left
      decide +kernel
    · right
      decide +kernel
  obtain ⟨-, -, -, commute⟩ := changes_of_run oneEach a b (bothMethods a) (bothMethods b)
  exact ⟨apart, known, commute apart known, by decide +kernel, by decide +kernel⟩

end MethodTable

end DepAtlas
