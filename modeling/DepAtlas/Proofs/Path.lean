import DepAtlas.Path.Set

/-!
Equality and order of paths. Both compare the steps of two paths, so that a sorted list of paths holds
each path once whatever its spelling.
-/

namespace DepAtlas

namespace Path

theorem beq_iff (a b : Path) : (a == b) = true ↔ a.components = b.components := by
  change (a.components == b.components) = true ↔ _
  exact beq_iff_eq

instance : EquivBEq Path where
  rfl {a} := (beq_iff a a).mpr rfl
  symm {a b} same := (beq_iff b a).mpr ((beq_iff a b).mp same).symm
  trans {a b c} first second :=
    (beq_iff a c).mpr (((beq_iff a b).mp first).trans ((beq_iff b c).mp second))

namespace Component

theorem compare_eq_lex : Component.compare =
    compareLex (compareOn rank) (compareOn fun step => step.name?.getD "") := by
  funext a b
  cases a <;> cases b <;> rfl

theorem eq_of_rank_name {a b : Component} (rank : a.rank = b.rank)
    (name : a.name?.getD "" = b.name?.getD "") : a = b := by
  cases a <;> cases b <;> simp_all [Component.rank, name?]

instance : Std.TransCmp Component.compare := by
  rw [compare_eq_lex]
  infer_instance

instance : Std.LawfulEqCmp Component.compare where
  eq_of_compare {a b} same := by
    rw [compare_eq_lex, compareLex_eq_eq] at same
    exact eq_of_rank_name (Std.LawfulEqOrd.eq_of_compare same.1) (Std.LawfulEqOrd.eq_of_compare same.2)

end Component

theorem compareSteps_eq_lex : compareSteps = List.compareLex Component.compare := by
  funext as bs
  induction as generalizing bs with
  | nil => cases bs <;> rfl
  | cons a as ih =>
    cases bs with
    | nil => rfl
    | cons b bs =>
      rw [compareSteps, List.compareLex_cons_cons, ih]
      cases a.compare b <;> rfl

instance : Std.TransOrd Path := by
  have steps : Std.TransCmp compareSteps := by
    rw [compareSteps_eq_lex]
    infer_instance
  exact {
    eq_swap := steps.eq_swap
    isLE_trans := steps.isLE_trans }

instance : Std.LawfulBEqOrd Path where
  compare_eq_iff_beq {a b} := by
    have steps : Std.LawfulEqCmp compareSteps := by
      rw [compareSteps_eq_lex]
      infer_instance
    rw [beq_iff]
    exact ⟨steps.eq_of_compare, fun same => by
      change compareSteps a.components b.components = .eq
      rw [same]
      exact steps.compare_self⟩

/-- The strict order of paths. -/
def Before (a b : Path) : Prop := Ord.compare a b = .lt

theorem Before.trans {a b c : Path} (first : Before a b) (second : Before b c) : Before a c :=
  Std.TransCmp.lt_trans first second

theorem Before.congr_right {a b c : Path} (before : Before a b) (same : (b == c) = true) : Before a c :=
  Std.TransCmp.lt_of_lt_of_eq before (Std.LawfulBEqCmp.compare_eq_iff_beq.mpr same)

theorem Before.congr_left {a b c : Path} (before : Before a c) (same : (a == b) = true) : Before b c :=
  Std.TransCmp.lt_of_eq_of_lt (Std.LawfulBEqCmp.compare_eq_iff_beq.mpr (BEq.symm same)) before

theorem Before.beq_eq_false {a b : Path} (before : Before a b) : (a == b) = false := by
  cases same : a == b
  · rfl
  · have equal : Ord.compare a b = .eq := Std.LawfulBEqCmp.compare_eq_iff_beq.mpr same
    rw [Before, equal] at before
    cases before

theorem Before.asymm {a b : Path} (before : Before a b) : ¬ Before b a := by
  intro behind
  have apart := (before.trans behind).beq_eq_false
  rw [BEq.rfl] at apart
  cases apart

end Path

namespace PathSet

open DepAtlas.Path

/-- In strictly increasing order. -/
def Increasing (set : PathSet) : Prop := set.Pairwise Before

theorem Increasing.erase {set : PathSet} (increasing : Increasing set) (path : Path) :
    Increasing (erase path set) :=
  List.Pairwise.filter _ increasing

theorem contains_erase (path other : Path) (set : PathSet) :
    (erase path set).contains other = (set.contains other && !(path == other)) := by
  induction set with
  | nil => rfl
  | cons first rest ih =>
    simp only [erase] at ih
    by_cases here : (first == path) = true
    · have same : (other == first) = (other == path) := BEq.congr_right here
      rw [erase, List.filter_cons_of_neg (by simp [here]), ih, List.contains_cons, same, BEq.comm (a := other)]
      cases path == other <;> cases rest.contains other <;> rfl
    · rw [erase, List.filter_cons_of_pos (by simp [here]), List.contains_cons, List.contains_cons, ih]
      by_cases atFirst : (other == first) = true
      · have apart : (path == other) = false := by
          cases same : path == other
          · rfl
          · exact absurd (BEq.symm (BEq.trans same atFirst)) here
        simp [atFirst, apart]
      · simp [atFirst]

theorem mem_insert {path other : Path} {set : PathSet} (member : other ∈ insert path set) :
    other = path ∨ other ∈ set := by
  induction set with
  | nil => exact .inl (List.mem_singleton.mp member)
  | cons first rest ih =>
    unfold insert at member
    split at member
    · exact List.mem_cons.mp member
    · exact .inr member
    · rcases List.mem_cons.mp member with rfl | member
      · exact .inr List.mem_cons_self
      · exact (ih member).imp_right (List.mem_cons_of_mem _)

theorem Increasing.insert {set : PathSet} (increasing : Increasing set) (path : Path) :
    Increasing (insert path set) := by
  induction set with
  | nil => exact List.pairwise_singleton _ _
  | cons first rest ih =>
    obtain ⟨below, restIncreasing⟩ := List.pairwise_cons.mp increasing
    unfold PathSet.insert
    split
    · rename_i before
      refine List.pairwise_cons.mpr ⟨fun other member => ?_, increasing⟩
      rcases List.mem_cons.mp member with rfl | member
      · exact before
      · exact Before.trans before (below other member)
    · exact increasing
    · rename_i after
      refine List.pairwise_cons.mpr ⟨fun other member => ?_, ih restIncreasing⟩
      rcases mem_insert member with rfl | member
      · exact Std.OrientedCmp.lt_of_gt after
      · exact below other member

theorem contains_insert (path other : Path) (set : PathSet) :
    (insert path set).contains other = (path == other || set.contains other) := by
  induction set with
  | nil => simp [insert, BEq.comm]
  | cons first rest ih =>
    unfold insert
    split
    · rw [List.contains_cons, BEq.comm]
    · rename_i equal
      have same : (path == other) = (first == other) :=
        BEq.congr_left (Std.LawfulBEqCmp.compare_eq_iff_beq.mp equal)
      rw [List.contains_cons, BEq.comm (a := other), same]
      cases first == other <;> simp
    · rw [List.contains_cons, List.contains_cons, ih]
      cases other == first <;> simp

theorem Increasing.insertAll {set : PathSet} (increasing : Increasing set) (paths : List Path) :
    Increasing (insertAll set paths) := by
  induction paths generalizing set with
  | nil => exact increasing
  | cons path rest ih => exact ih (increasing.insert path)

theorem contains_insertAll (set : PathSet) (paths : List Path) (other : Path) :
    (insertAll set paths).contains other = (paths.contains other || set.contains other) := by
  induction paths generalizing set with
  | nil => simp [insertAll]
  | cons path rest ih =>
    change (PathSet.insertAll (PathSet.insert path set) rest).contains other = _
    rw [ih, contains_insert, List.contains_cons, BEq.comm (a := other)]
    cases path == other <;> simp

theorem increasing_ofList (paths : List Path) : Increasing (ofList paths) :=
  Increasing.insertAll List.Pairwise.nil paths

theorem contains_ofList (paths : List Path) (other : Path) :
    (ofList paths).contains other = paths.contains other := by
  change (insertAll [] paths).contains other = _
  rw [contains_insertAll]
  simp

theorem Increasing.before_of_contains {first other : Path} {rest : PathSet}
    (increasing : Increasing (first :: rest)) (inside : rest.contains other = true) :
    Before first other := by
  obtain ⟨member, here, same⟩ := List.contains_iff_exists_mem_beq.mp inside
  exact ((List.pairwise_cons.mp increasing).1 member here).congr_right (BEq.symm same)

theorem Increasing.contains_tail {first : Path} {rest : PathSet}
    (increasing : Increasing (first :: rest)) (other : Path) :
    rest.contains other = ((first :: rest : PathSet).contains other && !(first == other)) := by
  rw [List.contains_cons, BEq.comm (a := other)]
  cases inside : rest.contains other
  · cases first == other <;> rfl
  · rw [(increasing.before_of_contains inside).beq_eq_false]
    rfl

/-- Sets with the same elements are equal up to the spelling of paths. -/
theorem Increasing.beq_of_contains {a b : PathSet} (left : Increasing a) (right : Increasing b)
    (same : ∀ path, a.contains path = b.contains path) : (a == b) = true := by
  induction a generalizing b with
  | nil =>
    cases b with
    | nil => rfl
    | cons first rest =>
      have impossible := same first
      simp at impossible
  | cons first rest ih =>
    cases b with
    | nil =>
      have impossible := same first
      simp at impossible
    | cons first' rest' =>
      have equal : (first == first') = true := by
        cases apart : first == first' with
        | true => rfl
        | false =>
          have inside' : rest'.contains first = true := by
            simpa [apart] using (same first).symm
          have inside : rest.contains first' = true := by
            simpa [BEq.comm (a := first'), apart] using same first'
          have before := left.before_of_contains inside
          have after := right.before_of_contains inside'
          simpa using (before.trans after).beq_eq_false
      have tails : ∀ path, rest.contains path = rest'.contains path := by
        intro path
        rw [left.contains_tail, right.contains_tail, same, BEq.congr_left equal]
      have rests := ih (List.pairwise_cons.mp left).2 (List.pairwise_cons.mp right).2 tails
      rw [List.cons_beq_cons, equal, rests]
      rfl
end PathSet

end DepAtlas
