import DepAtlas.CallGraph.Table
import DepAtlas.Proofs.Assoc
import DepAtlas.Proofs.Path

/-!
What a method table stands for: the files that contribute with what each of them last said, and for each
name a queue of the files that define it.
-/

namespace DepAtlas

/-- A change to a method table. -/
inductive TableAction
  | ingest (path : Path) (dependencies : List Dependency)
  | remove (path : Path)
  | clear

/-- The table after a change. -/
def MethodTable.apply (table : MethodTable) : TableAction → MethodTable
  | .ingest path dependencies => (table.ingest path dependencies).1
  | .remove path => (table.remove path).1
  | .clear => {}

/-- The table that changes make of an empty one. -/
def MethodTable.run (actions : List TableAction) : MethodTable :=
  actions.foldl MethodTable.apply {}

/-- The definitions among dependencies. -/
def Dependency.methods (dependencies : List Dependency) : List Dependency :=
  dependencies.filter (·.layer == .method)

/-- Whether a definition of a name is among dependencies. -/
def Dependency.defines (dependencies : List Dependency) (name : String) : Bool :=
  (Dependency.methods dependencies).any (·.target == name)

/-- The last definition of a name among dependencies. -/
def Dependency.definition? (dependencies : List Dependency) (name : String) : Option Dependency :=
  ((Dependency.methods dependencies).filter (·.target == name)).getLast?

/-- What is taken in and not removed since. -/
structure Ledger where
  /-- The files that contribute, with the dependencies each was last taken in with. -/
  files : Assoc Path (List Dependency) := []
  /-- The files that define a name, in the order in which they began to. -/
  definers : String → List Path := fun _ => []

namespace Ledger

/-- A queue after one of the files is looked at again: a file that newly defines the name joins at the
end, one that still does keeps its place, and one that does not leaves. -/
def requeue (path : Path) (defines : Bool) (queue : List Path) : List Path :=
  if !defines then queue.filter fun other => !(other == path)
  else if queue.contains path then queue
  else queue ++ [path]

/-- The ledger after a change. -/
def apply (ledger : Ledger) : TableAction → Ledger
  | .ingest path dependencies => {
      files := ledger.files.put path dependencies
      definers := fun name =>
        requeue path (Dependency.defines dependencies name) (ledger.definers name) }
  | .remove path => {
      files := ledger.files.erase path
      definers := fun name => requeue path false (ledger.definers name) }
  | .clear => {}

/-- The ledger of changes to an empty table. -/
def run (actions : List TableAction) : Ledger :=
  actions.foldl apply {}

/-- The dependencies a file was last taken in with; none if it does not contribute. -/
def latest (ledger : Ledger) (path : Path) : List Dependency :=
  (ledger.files.get? path).getD []

/-- A file has a method that calls a name. -/
def Calls (ledger : Ledger) (path : Path) (name : String) : Prop :=
  ∃ dependency ∈ Dependency.methods (ledger.latest path), name ∈ dependency.calls

/-- The conflicts over a name: its first definer with each of the others, in order. -/
def conflicts (ledger : Ledger) (name : String) : List Conflict :=
  match ledger.definers name with
  | [] => []
  | head :: rest => rest.map fun other => ⟨name, head, other⟩

/-- No file stands twice in a queue. -/
def Apart (queue : List Path) : Prop :=
  queue.Pairwise fun a b => (a == b) = false

theorem Apart.filter {queue : List Path} (apart : Apart queue) (keep : Path → Bool) :
    Apart (queue.filter keep) :=
  List.Pairwise.filter _ apart

theorem Apart.requeue {queue : List Path} (apart : Apart queue) (path : Path) (defines : Bool) :
    Apart (requeue path defines queue) := by
  unfold Ledger.requeue
  split
  · exact apart.filter _
  · split
    · exact apart
    · rename_i absent
      refine List.pairwise_append.mpr ⟨apart, List.pairwise_singleton _ _, fun a member b last => ?_⟩
      rw [List.mem_singleton.mp last]
      cases same : a == path
      · rfl
      · exact absurd (List.contains_iff_exists_mem_beq.mpr ⟨a, member, BEq.symm same⟩) absent

theorem contains_requeue (path other : Path) (defines : Bool) (queue : List Path) :
    (requeue path defines queue).contains other =
      if path == other then defines else queue.contains other := by
  cases defines with
  | false =>
    change (PathSet.erase path queue).contains other = _
    rw [PathSet.contains_erase]
    cases path == other <;> simp
  | true =>
    simp only [requeue, Bool.not_true, Bool.false_eq_true, if_false]
    split
    · rename_i present
      split
      · rename_i same
        rw [← List.contains_congr same]
        exact present
      · rfl
    · rw [List.contains_append, List.contains_cons, List.contains_nil, BEq.comm (a := other)]
      cases path == other <;> simp

end Ledger

end DepAtlas
