import DepAtlas.Proofs.Dispatch.Balance
import Mathlib.Logic.ExistsUnique

/-!
Every accepted item is delivered exactly once: at any moment of any interleaving it is at one place, and
its result is there when the pool says that nothing is outstanding.
-/

namespace DepAtlas

section Positions

variable {occupants : List (Option WorkItem)} {item : WorkItem} {test : WorkItem → Bool}

theorem countP_pos_of_position {index : Nat} (passes : test item)
    (found : occupants[index]?.join = some item) : 0 < occupants.countP (Option.any test) := by
  have member := List.mem_of_getElem? (Option.join_eq_some_iff.mp found)
  exact List.countP_pos_iff.mpr ⟨some item, member, by simpa using passes⟩

theorem exists_position (only : ∀ other, test other → other = item)
    (positive : 0 < occupants.countP (Option.any test)) :
    ∃ index : Nat, occupants[index]?.join = some item := by
  obtain ⟨occupant, member, passes⟩ := List.countP_pos_iff.mp positive
  obtain ⟨index, found⟩ := List.getElem?_of_mem member
  cases occupant with
  | none => simp at passes
  | some other =>
    have same : other = item := only other (by simpa using passes)
    exact ⟨index, by rw [found, Option.join_some, same]⟩

theorem position_unique {first second : Nat} (passes : test item)
    (once : occupants.countP (Option.any test) ≤ 1)
    (atFirst : occupants[first]?.join = some item)
    (atSecond : occupants[second]?.join = some item) : first = second := by
  induction occupants generalizing first second with
  | nil => simp at atFirst
  | cons occupant rest ih =>
    rw [List.countP_cons, ite_eq_toNat] at once
    cases first with
    | zero =>
      cases second with
      | zero => rfl
      | succ second =>
        have later := countP_pos_of_position passes (by simpa using atSecond)
        have here : occupant = some item := by simpa using atFirst
        simp only [here, Option.any_some, passes, Bool.toNat_true] at once
        omega
    | succ first =>
      cases second with
      | zero =>
        have later := countP_pos_of_position passes (by simpa using atFirst)
        have here : occupant = some item := by simpa using atSecond
        simp only [here, Option.any_some, passes, Bool.toNat_true] at once
        omega
      | succ second =>
        have same := ih (by omega) (by simpa using atFirst) (by simpa using atSecond)
        rw [same]

end Positions

namespace Session

open Classical

variable {σ ρ : Type} {processor : Processor σ ρ} {session : Session σ ρ}

/-- What is promised of a session at any moment. -/
structure ExactlyOnce (session : Session σ ρ) : Prop where
  /-- No two accepted items have the same number. -/
  distinct : (session.accepted.map WorkItem.id).Nodup
  /-- An accepted item is queued, held by a worker, reported or given up, and that once. -/
  placed : ∀ item ∈ session.accepted, ∃! place, session.at? place = some item
  /-- Nothing else is at any place. -/
  genuine : ∀ place item, session.at? place = some item → item ∈ session.accepted
  /-- Where nothing is outstanding, what is not given up has its result. -/
  complete : session.pool.outstanding = 0 →
    ∀ item ∈ session.accepted, item ∉ session.discarded →
      ∃ result ∈ session.sent, result.item = item
  /-- Once shutdown has returned, everything accepted is reported or given up. -/
  settled : session.closing = .returned →
    session.sent.length + session.discarded.length = session.accepted.length
  /-- When shutdown returns, nothing is pending. -/
  returns : ∀ next, session.shutDownStep? = some next → next.closing = .returned →
    next.pool.outstanding = 0
  /-- From then on, only a submission that is going to be refused is pending. -/
  pending : session.closing = .returned →
    session.pool.outstanding = session.submissions.countP Submission.isCounted

theorem Balanced.countP_accepted (balanced : session.Balanced) (test : WorkItem → Bool) :
    session.accepted.countP test =
      (session.occupants .queued).countP (Option.any test) +
        (session.occupants .held).countP (Option.any test) +
          (session.occupants .sent).countP (Option.any test) +
            (session.occupants .discarded).countP (Option.any test) := by
  rw [balanced.conserved test]
  simp only [occupants, List.countP_map]
  rfl

theorem Balanced.distinct (balanced : session.Balanced) :
    (session.accepted.map WorkItem.id).Nodup := by
  rw [List.nodup_iff_count]
  intro number
  have once := balanced.numbered.once number
  rw [List.count, List.countP_map]
  exact Nat.le_trans (Nat.le_add_right _ _) once

theorem Balanced.countP_eq_one (balanced : session.Balanced) {item : WorkItem}
    (accepted : item ∈ session.accepted) : session.accepted.countP (decide <| · = item) = 1 := by
  have atLeast : 0 < session.accepted.countP (decide <| · = item) :=
    List.countP_pos_iff.mpr ⟨item, accepted, by simp⟩
  have atMost : session.accepted.countP (decide <| · = item) ≤
      session.accepted.countP (·.id == item.id) := by
    apply List.countP_mono_left
    intro other _ same
    simp [of_decide_eq_true same]
  have once := balanced.numbered.once item.id
  simp only [uses] at once
  omega

theorem Balanced.placed (balanced : session.Balanced) {item : WorkItem}
    (accepted : item ∈ session.accepted) : ∃! place, session.at? place = some item := by
  let same : WorkItem → Bool := (decide <| · = item)
  have passes : same item := by simp [same]
  have total := balanced.countP_accepted same
  rw [balanced.countP_eq_one accepted] at total
  obtain ⟨stage, positive⟩ : ∃ stage, 0 < (session.occupants stage).countP (Option.any same) := by
    apply byContradiction
    intro absent
    simp only [not_exists, Nat.not_lt, Nat.le_zero] at absent
    simp [absent] at total
  obtain ⟨position, found⟩ := exists_position (fun other passes => of_decide_eq_true passes) positive
  refine ⟨⟨stage, position⟩, found, ?_⟩
  rintro ⟨otherStage, otherPosition⟩ foundOther
  have otherPositive := countP_pos_of_position passes foundOther
  have sameStage : otherStage = stage := by
    cases otherStage <;> cases stage <;> first | rfl | (simp only at otherPositive; omega)
  subst sameStage
  have once : (session.occupants otherStage).countP (Option.any same) ≤ 1 := by
    cases otherStage <;> omega
  exact congrArg (Place.mk otherStage) (position_unique passes once foundOther found)

theorem Balanced.genuine (balanced : session.Balanced) {place : Place} {item : WorkItem}
    (found : session.at? place = some item) : item ∈ session.accepted := by
  let same : WorkItem → Bool := (decide <| · = item)
  have passes : same item := by simp [same]
  have total := balanced.countP_accepted same
  have present := countP_pos_of_position passes found
  have positive : 0 < session.accepted.countP same := by
    cases stage : place.stage <;> rw [stage] at present <;> omega
  obtain ⟨other, accepted, equal⟩ := List.countP_pos_iff.mp positive
  exact of_decide_eq_true equal ▸ accepted

theorem Balanced.complete (balanced : session.Balanced) (none : session.pool.outstanding = 0)
    {item : WorkItem} (accepted : item ∈ session.accepted) (kept : item ∉ session.discarded) :
    ∃ result ∈ session.sent, result.item = item := by
  have outstanding := balanced.outstanding
  have empty : session.pool.queue.items = [] := List.eq_nil_of_length_eq_zero (by omega)
  have conserved := balanced.conserved (decide <| · = item)
  have held : session.pool.workers.countP (Worker.holds (decide <| · = item)) ≤
      session.pool.workers.countP Worker.isBusy := by
    apply List.countP_mono_left
    intro worker _ holds
    cases worker <;> simp_all [Worker.holds, Worker.item?, Worker.isBusy]
  have discarded : session.discarded.countP (decide <| · = item) = 0 := by
    rw [List.countP_eq_zero]
    intro other given equal
    exact kept (of_decide_eq_true equal ▸ given)
  rw [balanced.countP_eq_one accepted, empty, List.countP_nil] at conserved
  obtain ⟨result, member, equal⟩ := List.countP_pos_iff.mp
    (show 0 < session.sent.countP fun result => decide (result.item = item) by omega)
  exact ⟨result, member, of_decide_eq_true equal⟩

theorem Balanced.pending (balanced : session.Balanced) (returned : session.closing = .returned) :
    session.pool.outstanding = session.submissions.countP Submission.isCounted := by
  have outstanding := balanced.outstanding
  have drained := balanced.drained (by simp [returned]) (by simp [returned])
  rw [drained, balanced.joined returned, returned] at outstanding
  simpa [Closing.uncounted] using outstanding

theorem Balanced.submissions_of_returns {next : Session σ ρ} (balanced : session.Balanced)
    (stepped : session.shutDownStep? = some next) (returned : next.closing = .returned) :
    next.submissions = [] := by
  unfold shutDownStep? at stepped
  split at stepped
  case h_5 joining =>
    simp only [Option.ite_none_right_eq_some, Option.some.injEq] at stepped
    obtain ⟨-, rfl⟩ := stepped
    exact balanced.quiet (by simp [joining, Closing.isActive])
  case h_1 | h_2 =>
    simp only [Option.ite_none_right_eq_some, Option.some.injEq] at stepped
    obtain ⟨-, rfl⟩ := stepped
    cases returned
  all_goals
    cases stepped
    cases returned

theorem Balanced.exactlyOnce (balanced : session.Balanced) : session.ExactlyOnce where
  distinct := balanced.distinct
  placed _ accepted := balanced.placed accepted
  genuine _ _ found := balanced.genuine found
  complete none _ accepted kept := balanced.complete none accepted kept
  settled returned := by
    have conserved := balanced.conserved fun _ => true
    have drained := balanced.drained (by simp [returned]) (by simp [returned])
    rw [drained, balanced.joined returned] at conserved
    simp only [List.countP_nil, List.countP_true] at conserved
    omega
  returns next stepped returned := by
    rw [(balanced.shutDownStep stepped).pending returned,
      balanced.submissions_of_returns stepped returned, List.countP_nil]
  pending returned := balanced.pending returned

/-- Whatever the processor does and however callers, workers and shutdown interleave, every accepted item
is delivered exactly once. -/
theorem run_delivers_exactly_once (processor : Processor σ ρ) (state : σ) (threads capacity : Nat)
    {pool : Pool ρ} (created : Pool.create threads capacity = .ok pool) {moves : List Move}
    (ran : Session.run? processor { state, pool } moves = some session) : session.ExactlyOnce := by
  have balanced := balanced_begin state created
  exact (balanced.run ran).exactlyOnce

/-- A processor that breaks off at every second number. -/
def breaking : Processor Unit Unit where
  prepare _ _ := ((), .ok ())
  complete _ item _ := ((), if item.id % 2 = 0 then .done {} else .crashed none)

/-- Three files for two workers: two are worked on, the third is given up. -/
def breakingMoves : List Move :=
  [.start, .submit ⟨"a.rs"⟩ .rust, .submit ⟨"b.rs"⟩ .rust, .submission 1, .submission 0, .submission 1,
    .worker 1, .submission 0, .worker 0, .worker 1, .worker 0, .worker 0, .worker 0, .submission 0,
    .submission 0, .submit ⟨"c.rs"⟩ .rust, .submission 0, .submission 0, .submission 0, .takeResult,
    .shutDown, .shutDown, .worker 1, .worker 1, .worker 0, .worker 0, .worker 1, .worker 1, .shutDown,
    .shutDown]

theorem run_delivers_exactly_once_breaking :
    ∃ session, Session.run? breaking
        { state := (), pool := { threads := 2, queue := WorkQueue.create 2 } } breakingMoves =
      some session ∧ session.ExactlyOnce := by
  obtain ⟨session, ran⟩ := Option.isSome_iff_exists.mp
    (show (Session.run? breaking
      { state := (), pool := { threads := 2, queue := WorkQueue.create 2 } } breakingMoves).isSome
      by rfl)
  exact ⟨session, ran, run_delivers_exactly_once breaking () 2 2 rfl ran⟩

end Session

end DepAtlas
