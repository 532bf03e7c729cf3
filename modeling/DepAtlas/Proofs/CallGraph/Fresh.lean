import Mathlib.Order.Extension.Linear
import DepAtlas.Proofs.CallGraph.Agreement

/-!
Fresh ingestion: the files that contribute to a table are taken in once each, in some order, into a new
table. Ownership in the old table was decided name by name, in the new one by a single order of the files,
so the two can differ; an order that gives the same table exists exactly when the files do not own names
of one another in a circle.
-/

namespace DepAtlas

namespace Ledger

theorem distinct_files_apply {ledger : Ledger} (distinct : Assoc.Distinct ledger.files)
    (action : TableAction) : Assoc.Distinct (ledger.apply action).files := by
  cases action with
  | ingest path dependencies => exact distinct.put path dependencies
  | remove path => exact distinct.erase path
  | clear => exact List.Pairwise.nil

theorem distinct_files_run (actions : List TableAction) : Assoc.Distinct (run actions).files := by
  suffices ∀ ledger : Ledger, Assoc.Distinct ledger.files →
      Assoc.Distinct (actions.foldl apply ledger).files from this {} List.Pairwise.nil
  induction actions with
  | nil => exact fun _ distinct => distinct
  | cons action rest ih => exact fun _ distinct => ih _ (distinct_files_apply distinct action)

/-- Takes in files one after the other. -/
def ingestAll (ledger : Ledger) (files : Assoc Path (List Dependency)) : Ledger :=
  (files.map fun file => TableAction.ingest file.1 file.2).foldl apply ledger

theorem latest_ingestAll {files : Assoc Path (List Dependency)} (distinct : Assoc.Distinct files)
    (ledger : Ledger) (path : Path) :
    (ledger.ingestAll files).latest path = (Assoc.get? path files).getD (ledger.latest path) := by
  induction files generalizing ledger with
  | nil => rfl
  | cons file rest ih =>
    obtain ⟨apart, restDistinct⟩ := List.pairwise_cons.mp distinct
    change (ingestAll (ledger.apply (.ingest file.1 file.2)) rest).latest path = _
    rw [ih restDistinct, latest_ingest, Assoc.get?_cons]
    split
    · rename_i same
      rw [distinct.get?_tail same]
      rfl
    · rfl

/-- In a fresh ledger the definers of a name stand in the order in which the files were taken in. -/
theorem definers_ingestAll {files : Assoc Path (List Dependency)} (distinct : Assoc.Distinct files)
    (ledger : Ledger) (name : String)
    (absent : ∀ file ∈ files, (ledger.definers name).contains file.1 = false) :
    (ledger.ingestAll files).definers name = ledger.definers name ++
      (files.filter fun file => Dependency.defines file.2 name).map (·.1) := by
  induction files generalizing ledger with
  | nil => simp [ingestAll]
  | cons file rest ih =>
    obtain ⟨apart, restDistinct⟩ := List.pairwise_cons.mp distinct
    have first := absent file List.mem_cons_self
    have joined : (ledger.apply (.ingest file.1 file.2)).definers name = ledger.definers name ++
        if Dependency.defines file.2 name then [file.1] else [] := by
      change requeue _ _ _ = _
      cases Dependency.defines file.2 name
      · simp only [requeue, Bool.not_false, if_true, Bool.false_eq_true, if_false, List.append_nil]
        apply List.filter_eq_self.mpr
        intro other member
        cases same : other == file.1
        · rfl
        · rw [List.contains_iff_exists_mem_beq.mpr ⟨other, member, BEq.symm same⟩] at first
          cases first
      · simp [requeue, first]
    change (ingestAll (ledger.apply (.ingest file.1 file.2)) rest).definers name = _
    rw [ih restDistinct, joined, List.filter_cons]
    · split <;> simp
    · intro other member
      rw [joined, List.contains_append, absent other (List.mem_cons_of_mem _ member)]
      split
      · simp [BEq.comm (a := other.1), apart other member]
      · rfl

end Ledger

namespace MethodTable

/-- A new table into which files are taken in one after the other. -/
def fresh (files : Assoc Path (List Dependency)) : MethodTable :=
  run (files.map fun file => .ingest file.1 file.2)

/-- A file owns a name that another file defines too. -/
def Overrules (table : MethodTable) (owner other : Path) : Prop :=
  ∃ name, table.conflicts.contains ⟨name, owner, other⟩ = true

theorem tracks_fresh (files : Assoc Path (List Dependency)) :
    Tracks (fresh files) (Ledger.ingestAll {} files) :=
  tracks_run _

theorem head?_fresh {files : Assoc Path (List Dependency)} (distinct : Assoc.Distinct files)
    (name : String) :
    ((Ledger.ingestAll {} files).definers name).head? =
      (files.find? fun file => Dependency.defines file.2 name).map (·.1) := by
  rw [Ledger.definers_ingestAll distinct _ _ fun _ _ => rfl]
  change (List.map _ _).head? = _
  rw [List.head?_map, List.head?_filter]

theorem latest_fresh {ledger : Ledger} {order : Assoc Path (List Dependency)}
    (distinct : Assoc.Distinct order) (perm : order.Perm ledger.files) (path : Path) :
    (Ledger.ingestAll {} order).latest path = ledger.latest path := by
  rw [Ledger.latest_ingestAll distinct, distinct.get?_perm perm]
  rfl

variable {table : MethodTable} {ledger : Ledger} {order : Assoc Path (List Dependency)}

theorem Tracks.overrules_iff (tracks : Tracks table ledger) (owner other : Path) :
    table.Overrules owner other ↔ ∃ name head rest, ledger.definers name = head :: rest ∧
      (head == owner) = true ∧ rest.contains other = true := by
  simp only [Overrules, tracks.mem_conflicts_iff]

theorem Tracks.overrules_congr (tracks : Tracks table ledger) {owner owner' other other' : Path}
    (same : (owner == owner') = true) (same' : (other == other') = true)
    (overrules : table.Overrules owner other) : table.Overrules owner' other' := by
  obtain ⟨name, head, rest, queue, owns, waits⟩ := (tracks.overrules_iff owner other).mp overrules
  refine (tracks.overrules_iff owner' other').mpr ⟨name, head, rest, queue, BEq.trans owns same, ?_⟩
  rw [← List.contains_congr same']
  exact waits

theorem Tracks.defines_of_contains (tracks : Tracks table ledger) (distinct : Assoc.Distinct order)
    (perm : order.Perm ledger.files) {name : String} {file : Path × List Dependency}
    (member : file ∈ order) {path : Path} (same : (file.1 == path) = true) :
    (ledger.definers name).contains path = Dependency.defines file.2 name := by
  have latest : ledger.latest path = file.2 := by
    rw [Ledger.latest, ← distinct.get?_perm perm, ← Assoc.get?_congr same, distinct.get?_of_mem member]
    rfl
  rw [tracks.queued, Ledger.said?, Dependency.isSome_said?, latest]

theorem Tracks.exists_definer (tracks : Tracks table ledger) (perm : order.Perm ledger.files)
    {name : String} {path : Path} (present : (ledger.definers name).contains path = true) :
    ∃ file ∈ order, (file.1 == path) = true ∧ Dependency.defines file.2 name = true := by
  rw [tracks.queued, Ledger.said?, Dependency.isSome_said?, Ledger.latest] at present
  cases found : ledger.files.get? path with
  | none =>
    rw [found] at present
    cases present
  | some dependencies =>
    obtain ⟨file, member, same, rfl⟩ := Assoc.exists_mem_of_get? found
    rw [found] at present
    exact ⟨file, perm.mem_iff.mpr member, same, present⟩

/-- The place of a file in an order. -/
def place (order : Assoc Path (List Dependency)) (path : Path) : Nat :=
  order.findIdx fun file => file.1 == path

theorem Tracks.place_lt (tracks : Tracks table ledger) (distinct : Assoc.Distinct order)
    (perm : order.Perm ledger.files) (owners : SameOwners (Ledger.ingestAll {} order) ledger)
    {owner other : Path} (overrules : table.Overrules owner other) :
    place order owner < place order other := by
  obtain ⟨name, head, rest, queue, owns, waits⟩ := (tracks.overrules_iff owner other).mp overrules
  obtain ⟨present, apart⟩ := (tracks.contains_rest queue other).mp waits
  obtain ⟨definer, inside, -, defines⟩ := tracks.exists_definer perm present
  have exists' : (order.find? fun file => Dependency.defines file.2 name).isSome :=
    List.find?_isSome.mpr ⟨definer, inside, defines⟩
  obtain ⟨file, first⟩ := Option.isSome_iff_exists.mp exists'
  have owned : ((Ledger.ingestAll {} order).definers name).head? = some file.1 := by
    rw [head?_fresh distinct, first]
    rfl
  have same := owners name _ head owned (by rw [queue]; rfl)
  obtain ⟨-, before, after, rfl, earlier⟩ := List.find?_eq_some_iff_append.mp first
  have ownerPlace : place (before ++ file :: after) owner ≤ before.length := by
    rw [place, List.findIdx_append, List.findIdx_cons, BEq.trans same owns]
    split
    · omega
    · simp
  have otherPlace : before.length < place (before ++ file :: after) other := by
    have skipped : before.findIdx (fun file => file.1 == other) = before.length := by
      apply List.findIdx_eq_length_of_false
      intro file' member
      cases same' : file'.1 == other with
      | false => rfl
      | true =>
        have member' := List.mem_append_left (file :: after) member
        have silent := earlier file' member
        rw [← tracks.defines_of_contains distinct perm member' same', present] at silent
        cases silent
    rw [place, List.findIdx_append, skipped, List.findIdx_cons, BEq.congr_left same, apart]
    simp
  omega

theorem Tracks.acyclic_of_matches (tracks : Tracks table ledger)
    (distinct : Assoc.Distinct order) (perm : order.Perm ledger.files)
    (same : (fresh order).Matches table) (path : Path) :
    ¬ Relation.TransGen table.Overrules path path := by
  have owners := ((tracks_fresh order).matches_iff tracks (latest_fresh distinct perm)).mp same
  intro circle
  have increasing : ∀ {a b}, Relation.TransGen table.Overrules a b → place order a < place order b := by
    intro a b chain
    induction chain with
    | single step => exact tracks.place_lt distinct perm owners step
    | tail _ step ih => exact ih.trans (tracks.place_lt distinct perm owners step)
  exact absurd (increasing circle) (lt_irrefl _)

theorem Tracks.transGen_congr (tracks : Tracks table ledger) {a b c : Path} (same : (a == b) = true)
    (chain : Relation.TransGen table.Overrules a c) : Relation.TransGen table.Overrules b c := by
  induction chain with
  | single step => exact .single (tracks.overrules_congr same BEq.rfl step)
  | tail _ step ih => exact ih.tail step

/-- The steps of two paths are the same, or those of files with a chain between them in which each file
overrules the next. -/
def Leads (table : MethodTable) (a b : List Path.Component) : Prop :=
  a = b ∨ ∃ owner other : Path, owner.components = a ∧ other.components = b ∧
    Relation.TransGen table.Overrules owner other

theorem Tracks.leads_partialOrder (tracks : Tracks table ledger)
    (acyclic : ∀ path, ¬ Relation.TransGen table.Overrules path path) :
    IsPartialOrder (List Path.Component) table.Leads where
  refl _ := .inl rfl
  trans a b c first second := by
    rcases first with rfl | ⟨owner, other, rfl, rfl, chain⟩
    · exact second
    · rcases second with rfl | ⟨owner', other', same, rfl, chain'⟩
      · exact .inr ⟨owner, other, rfl, rfl, chain⟩
      · have joined := tracks.transGen_congr ((Path.beq_iff _ _).mpr same) chain'
        exact .inr ⟨owner, other', rfl, rfl, chain.trans joined⟩
  antisymm a b first second := by
    rcases first with rfl | ⟨owner, other, rfl, rfl, chain⟩
    · rfl
    · rcases second with same | ⟨owner', other', same, same', chain'⟩
      · exact same.symm
      · have joined := tracks.transGen_congr ((Path.beq_iff _ _).mpr same) chain'
        have circle := tracks.transGen_congr ((Path.beq_iff _ _).mpr same'.symm) (chain.trans joined)
        exact absurd circle (acyclic other')

/-- Sorting the files by an order in which owners stand before the files they overrule gives every name
its owner back. -/
theorem Tracks.sameOwners_of_sorted (tracks : Tracks table ledger) (distinct : Assoc.Distinct order)
    (perm : order.Perm ledger.files) (sorts : List Path.Component → List Path.Component → Prop)
    [IsLinearOrder (List Path.Component) sorts]
    (respects : ∀ owner other, table.Overrules owner other → sorts owner.components other.components)
    (sorted : order.Pairwise fun a b => sorts a.1.components b.1.components) :
    SameOwners (Ledger.ingestAll {} order) ledger := by
  intro name head head' first first'
  rw [head?_fresh distinct] at first
  obtain ⟨file, found, rfl⟩ := Option.map_eq_some_iff.mp first
  obtain ⟨defines, before, after, rfl, earlier⟩ := List.find?_eq_some_iff_append.mp found
  obtain ⟨rest, queue⟩ := List.head?_eq_some_iff.mp first'
  have present : (ledger.definers name).contains file.1 = true := by
    rw [tracks.defines_of_contains distinct perm (by simp) BEq.rfl]
    exact defines
  cases same : file.1 == head' with
  | true => rfl
  | false =>
    have waits : rest.contains file.1 = true :=
      (tracks.contains_rest queue file.1).mpr ⟨present, by rw [BEq.comm]; exact same⟩
    have ahead := respects head' file.1 ((tracks.overrules_iff head' file.1).mpr
      ⟨name, head', rest, queue, BEq.rfl, waits⟩)
    have owner : (ledger.definers name).contains head' = true := by
      rw [queue, List.contains_cons, BEq.rfl, Bool.true_or]
    obtain ⟨file', member, same', defines'⟩ := tracks.exists_definer perm owner
    have behind : sorts file.1.components file'.1.components := by
      rcases List.mem_append.mp member with member | member
      · have silent := earlier file' member
        rw [defines'] at silent
        cases silent
      · rcases List.mem_cons.mp member with rfl | member
        · exact refl_of sorts _
        · exact (List.pairwise_cons.mp (List.pairwise_append.mp sorted).2.1).1 file' member
    rw [(Path.beq_iff _ _).mp same'] at behind
    have equal := antisymm_of sorts behind ahead
    rw [(Path.beq_iff _ _).mpr equal] at same
    cases same

theorem Tracks.exists_matches (tracks : Tracks table ledger) (distinct : Assoc.Distinct ledger.files)
    (acyclic : ∀ path, ¬ Relation.TransGen table.Overrules path path) :
    ∃ order, order.Perm ledger.files ∧ (fresh order).Matches table := by
  classical
  have := tracks.leads_partialOrder acyclic
  obtain ⟨sorts, linear, extends'⟩ := extend_partialOrder table.Leads
  let order := ledger.files.mergeSort fun a b => decide (sorts a.1.components b.1.components)
  have perm : order.Perm ledger.files := List.mergeSort_perm _ _
  have orderDistinct : Assoc.Distinct order :=
    (perm.pairwise_iff fun apart => BEq.comm.trans apart).mpr distinct
  have sorted : order.Pairwise fun a b => sorts a.1.components b.1.components := by
    have compared : order.Pairwise fun a b =>
        decide (sorts a.1.components b.1.components) = true := by
      apply List.pairwise_mergeSort
      · intro a b c first second
        exact decide_eq_true (trans_of sorts (of_decide_eq_true first) (of_decide_eq_true second))
      · intro a b
        simpa using total_of sorts a.1.components b.1.components
    exact compared.imp of_decide_eq_true
  refine ⟨order, perm, ?_⟩
  apply ((tracks_fresh order).matches_iff tracks (latest_fresh orderDistinct perm)).mpr
  apply tracks.sameOwners_of_sorted orderDistinct perm sorts ?_ sorted
  intro owner other overrules
  exact extends' _ _ (.inr ⟨owner, other, rfl, rfl, .single overrules⟩)

/-- Some order of the contributing files gives the same table when they are taken in afresh, exactly when
there is no circle of files each of which owns a name that the next one defines too. -/
theorem exists_fresh_match_iff (actions : List TableAction) :
    (∃ order, order.Perm (Ledger.run actions).files ∧ (fresh order).Matches (run actions)) ↔
      ∀ path, ¬ Relation.TransGen (run actions).Overrules path path := by
  have tracks := tracks_run actions
  have distinct := Ledger.distinct_files_run actions
  constructor
  · rintro ⟨order, perm, same⟩
    have orderDistinct : Assoc.Distinct order :=
      (perm.pairwise_iff fun apart => BEq.comm.trans apart).mpr distinct
    exact tracks.acyclic_of_matches orderDistinct perm same
  · exact tracks.exists_matches distinct

/-- A definition that calls nothing. -/
def bareMethod (path : Path) (name : String) : Dependency :=
  { source := path, target := name, layer := .method, language := .rust, line := 1 }

/-- Two files each begin with a name of their own and then define the other's name as well. -/
def crossing : List TableAction :=
  let a : Path := ⟨"a.rs"⟩
  let b : Path := ⟨"b.rs"⟩
  [.ingest a [bareMethod a "f"], .ingest b [bareMethod b "g"],
    .ingest a [bareMethod a "f", bareMethod a "g"], .ingest b [bareMethod b "f", bareMethod b "g"]]

/-- Files can own names of each other, and then no order of them gives the same table afresh. -/
theorem crossing_has_no_fresh_match :
    ¬ ∃ order, order.Perm (Ledger.run crossing).files ∧ (fresh order).Matches (run crossing) := by
  rintro ⟨order, perm, same⟩
  have orderDistinct : Assoc.Distinct order :=
    (perm.pairwise_iff fun apart => BEq.comm.trans apart).mpr (Ledger.distinct_files_run crossing)
  have first : (run crossing).Overrules ⟨"a.rs"⟩ ⟨"b.rs"⟩ := ⟨"f", by decide +kernel⟩
  have second : (run crossing).Overrules ⟨"b.rs"⟩ ⟨"a.rs"⟩ := ⟨"g", by decide +kernel⟩
  exact (tracks_run crossing).acyclic_of_matches orderDistinct perm same ⟨"a.rs"⟩
    ((Relation.TransGen.single first).tail second)

end MethodTable

end DepAtlas
