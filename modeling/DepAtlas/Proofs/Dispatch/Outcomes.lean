import Mathlib.Data.List.Count
import Mathlib.Data.List.Perm.Basic
import DepAtlas.Proofs.Dispatch.Progress

/-!
What the work of a pool leaves behind, whatever the order in which its workers take their steps. A relation
between the shared state and the results decided so far that both steps of the processor keep holds at
every moment of every interleaving; when everything is done, the results sent are those decided, in some
order.
-/

namespace DepAtlas

theorem filterMap_cons_toList {α β : Type} (view : α → Option β) (first : α) (rest : List α) :
    (first :: rest).filterMap view = (view first).toList ++ rest.filterMap view := by
  rw [List.filterMap_cons]
  cases view first <;> rfl

theorem filterMap_set_perm {α β : Type} (view : α → Option β) {items : List α} {index : Nat} {old : α}
    (found : items[index]? = some old) (new : α) :
    ((view old).toList ++ (items.set index new).filterMap view).Perm
      ((view new).toList ++ items.filterMap view) := by
  induction items generalizing index with
  | nil => cases found
  | cons first rest ih =>
    cases index with
    | zero =>
      cases found
      rw [List.set_cons_zero, filterMap_cons_toList, filterMap_cons_toList]
      exact List.perm_append_comm_assoc _ _ _
    | succ index =>
      have inner := ih (by simpa using found)
      rw [List.set_cons_succ, filterMap_cons_toList, filterMap_cons_toList]
      refine (List.perm_append_comm_assoc _ _ _).trans ?_
      exact (inner.append_left _).trans (List.perm_append_comm_assoc _ _ _)

/-- The result that a verdict on an item is reported as. -/
def WorkItem.result (item : WorkItem) (verdict : Verdict) : WorkResult :=
  { item, outcome := verdict.outcome item.path }

/-- The result that a worker is about to report. -/
def Worker.result? {ρ : Type} : Worker ρ → Option WorkResult
  | decided result => some result
  | idle | holding _ | prepared _ _ | reported | stopped => none

/-- Both steps of a processor keep a relation between the shared state and the results decided so far;
what is prepared for an item is fit to be completed at any later time. -/
structure Processor.Keeps {σ ρ : Type} (processor : Processor σ ρ)
    (holds : σ → List WorkResult → Prop) (fit : WorkItem → ρ → Prop) : Prop where
  fails : ∀ {state next item verdict done}, holds state done →
    processor.prepare state item = (next, .error verdict) → holds next (done ++ [item.result verdict])
  prepares : ∀ {state next item content done}, holds state done →
    processor.prepare state item = (next, .ok content) → holds next done ∧ fit item content
  completes : ∀ {state next item content verdict done}, holds state done → fit item content →
    processor.complete state item content = (next, verdict) →
      holds next (done ++ [item.result verdict])

theorem Processor.keeps_true {σ ρ : Type} (processor : Processor σ ρ) :
    processor.Keeps (fun _ _ => True) fun _ _ => True :=
  ⟨fun _ _ => trivial, fun _ _ => ⟨trivial, trivial⟩, fun _ _ _ => trivial⟩

namespace Session

variable {σ ρ : Type} {processor : Processor σ ρ} {session next : Session σ ρ}
  {holds : σ → List WorkResult → Prop} {fit : WorkItem → ρ → Prop}

/-- Results that are decided: those sent and those that workers are about to report. -/
def decided (session : Session σ ρ) : List WorkResult :=
  session.sent ++ session.pool.workers.filterMap Worker.result?

structure Accounts (holds : σ → List WorkResult → Prop) (fit : WorkItem → ρ → Prop)
    (session : Session σ ρ) : Prop where
  related : ∃ done, holds session.state done ∧ done.Perm session.decided
  prepared : ∀ item content, .prepared item content ∈ session.pool.workers → fit item content

theorem Accounts.of_eq (accounts : session.Accounts holds fit) (state : next.state = session.state)
    (sent : next.sent = session.sent) (workers : next.pool.workers = session.pool.workers) :
    next.Accounts holds fit := by
  obtain ⟨related, prepared⟩ := accounts
  refine ⟨?_, ?_⟩
  · rw [decided, state, sent, workers]
    exact related
  · rw [workers]
    exact prepared

/-- One worker moves on, and with it perhaps one result. -/
theorem Accounts.replaceWorker (accounts : session.Accounts holds fit) {index : Nat}
    {old new : Worker ρ} (found : session.pool.workers[index]? = some old)
    (workers : next.pool.workers = session.pool.workers.set index new)
    (sent : next.sent = session.sent ++ old.result?.toList)
    (related : ∀ done, holds session.state done → holds next.state (done ++ new.result?.toList))
    (prepared : ∀ item content, new = .prepared item content → fit item content) :
    next.Accounts holds fit := by
  obtain ⟨⟨done, held, perm⟩, ready⟩ := accounts
  refine ⟨⟨done ++ new.result?.toList, related done held, ?_⟩, ?_⟩
  · -- The result that the worker held is sent, and the one it takes up joins those decided.
    have moved := filterMap_set_perm Worker.result? found new
    rw [decided, workers, sent, List.append_assoc]
    refine (perm.append_right _).trans ?_
    rw [decided, List.append_assoc]
    exact (List.perm_append_comm.trans moved.symm).append_left _
  · intro item content member
    rw [workers] at member
    rcases List.mem_or_eq_of_mem_set member with old | here
    · exact ready item content old
    · exact prepared item content here.symm

/-- A worker moves on without a verdict. -/
theorem Accounts.moveWorker (accounts : session.Accounts holds fit) {index : Nat} {old new : Worker ρ}
    (found : session.pool.workers[index]? = some old)
    (workers : next.pool.workers = session.pool.workers.set index new)
    (sent : next.sent = session.sent ++ old.result?.toList) (state : next.state = session.state)
    (silent : new.result? = none) (unprepared : ∀ item content, new ≠ .prepared item content) :
    next.Accounts holds fit := by
  refine accounts.replaceWorker found workers sent (fun done held => ?_) fun item content same =>
    absurd same (unprepared item content)
  rw [silent, state]
  exact (List.append_nil done).symm ▸ held

theorem Accounts.turn (accounts : session.Accounts holds fit) (keeps : processor.Keeps holds fit)
    {index : Nat} {state : σ} {pool : Pool ρ}
    (turn : Pool.Turn processor index session.state session.pool state pool) :
    Accounts holds fit { session with state, pool } := by
  cases turn with
  | take item rest idle running waiting =>
    exact accounts.moveWorker idle rfl (List.append_nil _).symm rfl rfl nofun
  | stop idle closed => exact accounts.moveWorker idle rfl (List.append_nil _).symm rfl rfl nofun
  | prepare item content next held prepared =>
    refine accounts.replaceWorker held rfl (List.append_nil _).symm ?_ ?_
    · exact fun done held => (List.append_nil done).symm ▸ (keeps.prepares held prepared).1
    · rintro _ _ ⟨⟩
      obtain ⟨done, held, -⟩ := accounts.related
      exact (keeps.prepares held prepared).2
  | fail item verdict next held prepared =>
    refine accounts.replaceWorker held rfl (List.append_nil _).symm ?_ ?_
    · exact fun done held => keeps.fails held prepared
    · exact fun _ _ same => nomatch same
  | complete item content verdict next ready completed =>
    have fitting := accounts.prepared item content (List.mem_of_getElem? ready)
    refine accounts.replaceWorker ready rfl (List.append_nil _).symm ?_ ?_
    · exact fun done held => keeps.completes held fitting completed
    · exact fun _ _ same => nomatch same
  | report result decided =>
    exact accounts.moveWorker decided rfl (List.append_assoc _ _ _).symm rfl rfl nofun
  | finish reported =>
    exact accounts.moveWorker reported rfl (List.append_nil _).symm rfl rfl nofun

theorem Accounts.start (accounts : session.Accounts holds fit) (balanced : session.Balanced)
    {pool : Pool ρ} (started : session.pool.start = .ok pool) :
    Accounts holds fit { session with pool } := by
  unfold Pool.start at started
  split at started
  · cases started
  split at started
  · cases started
  rename_i fresh
  cases started
  have nobody := balanced.unstarted (eq_false_of_ne_true fresh)
  obtain ⟨⟨done, held, perm⟩, -⟩ := accounts
  have idle : (List.replicate session.pool.threads .idle).filterMap (@Worker.result? ρ) = [] :=
    List.filterMap_replicate_of_none rfl
  rw [decided, nobody] at perm
  refine ⟨⟨done, held, ?_⟩, ?_⟩
  · rw [decided, idle]
    exact perm
  · intro item content member
    cases List.eq_of_mem_replicate member

theorem Accounts.submissionStep (accounts : session.Accounts holds fit) {index : Nat}
    {submission : Submission} (stepped : session.submissionStep? index submission = some next) :
    next.Accounts holds fit := by
  cases submission with
  | numbered item =>
    cases stepped
    exact accounts.of_eq rfl rfl rfl
  | counted item =>
    obtain ⟨offered, pushed, rfl⟩ := Option.map_eq_some_iff.mp stepped
    obtain ⟨queue, -, rfl⟩ := Option.map_eq_some_iff.mp pushed
    cases queue <;> exact accounts.of_eq rfl rfl rfl
  | accepted =>
    cases stepped
    exact accounts.of_eq rfl rfl rfl
  | refused =>
    cases stepped
    exact accounts.of_eq rfl rfl rfl

theorem Accounts.shutDownStep (accounts : session.Accounts holds fit)
    (stepped : session.shutDownStep? = some next) : next.Accounts holds fit := by
  unfold shutDownStep? at stepped
  split at stepped
  case h_1 | h_2 =>
    simp only [Option.ite_none_right_eq_some, Option.some.injEq] at stepped
    obtain ⟨-, rfl⟩ := stepped
    exact accounts.of_eq rfl rfl rfl
  case h_3 | h_4 =>
    cases stepped
    exact accounts.of_eq rfl rfl rfl
  case h_5 =>
    simp only [Option.ite_none_right_eq_some, List.all_eq_true, Option.some.injEq] at stepped
    obtain ⟨stopped, rfl⟩ := stepped
    obtain ⟨⟨done, held, perm⟩, -⟩ := accounts
    have nothing : session.pool.workers.filterMap Worker.result? = [] := by
      rw [List.filterMap_eq_nil_iff]
      intro worker member
      have stopped := stopped worker member
      cases worker <;> simp_all [Worker.isStopped, Worker.result?]
    rw [decided, nothing] at perm
    refine ⟨⟨done, held, perm⟩, fun item content member => ?_⟩
    cases member

theorem Accounts.step (accounts : session.Accounts holds fit) (keeps : processor.Keeps holds fit)
    (balanced : session.Balanced) {move : Move} (stepped : session.step? processor move = some next) :
    next.Accounts holds fit := by
  cases stepped_of_step? stepped with
  | start started => exact accounts.start balanced started
  | submit => exact accounts.of_eq rfl rfl rfl
  | submission _ stepped => exact accounts.submissionStep stepped
  | worker turn => exact accounts.turn keeps turn
  | receive split => exact accounts.of_eq rfl (by simp [sent, split]) rfl
  | shutDown stepped => exact accounts.shutDownStep stepped

theorem Accounts.run (accounts : session.Accounts holds fit) (keeps : processor.Keeps holds fit)
    (balanced : session.Balanced) {moves : List Move}
    (ran : session.run? processor moves = some next) : next.Accounts holds fit := by
  induction moves generalizing session with
  | nil =>
    cases ran
    exact accounts
  | cons move rest ih =>
    obtain ⟨middle, stepped, ran⟩ := Option.bind_eq_some_iff.mp ran
    exact ih (accounts.step keeps balanced stepped) (balanced.step stepped) ran

theorem Balanced.rests (balanced : session.Balanced) (none : session.pool.outstanding = 0) :
    session.pool.queue.items = [] ∧ ∀ worker ∈ session.pool.workers, worker.isBusy = false := by
  have outstanding := balanced.outstanding
  refine ⟨List.eq_nil_of_length_eq_zero (by omega), ?_⟩
  have nobody : session.pool.workers.countP Worker.isBusy = 0 := by omega
  intro worker member
  simpa using List.countP_eq_zero.mp nobody worker member

/-- When nothing is outstanding, the results sent are all that are decided. -/
theorem Balanced.decided_eq_sent (balanced : session.Balanced) (none : session.pool.outstanding = 0) :
    session.decided = session.sent := by
  have rests := (balanced.rests none).2
  have nothing : session.pool.workers.filterMap Worker.result? = [] := by
    rw [List.filterMap_eq_nil_iff]
    intro worker member
    have idle := rests worker member
    cases worker <;> simp_all [Worker.isBusy, Worker.result?]
  rw [decided, nothing, List.append_nil]

open Classical in
/-- When nothing is outstanding and nothing given up, there is one result for each accepted item. -/
theorem Balanced.sent_perm (balanced : session.Balanced) (none : session.pool.outstanding = 0)
    (kept : session.discarded = []) : (session.sent.map (·.item)).Perm session.accepted := by
  obtain ⟨empty, rests⟩ := balanced.rests none
  refine List.perm_iff_count.mpr fun item => ?_
  have conserved := balanced.conserved (· == item)
  have held : session.pool.workers.countP (Worker.holds (· == item)) = 0 := by
    refine List.countP_eq_zero.mpr fun worker member => ?_
    have idle := rests worker member
    cases worker <;> simp_all [Worker.isBusy, Worker.holds, Worker.item?]
  rw [empty, held, kept] at conserved
  simp only [List.countP_nil, Nat.zero_add, Nat.add_zero] at conserved
  rw [List.count, List.countP_map]
  exact conserved.symm

end Session

/-- Some interleaving of callers and workers takes a pool from its creation to a moment at which exactly
the given files are accepted, nothing is given up and nothing is outstanding; the state that is shared and
the results sent are then these. -/
def Processor.Interleaves {σ ρ : Type} (processor : Processor σ ρ) (threads capacity : Nat) (state : σ)
    (work : List (Path × Language)) (after : σ) (results : List WorkResult) : Prop :=
  ∃ pool moves session, Pool.create threads capacity = .ok pool ∧
    Session.run? processor { state, pool } moves = some session ∧
    session.accepted.map (fun item => (item.path, item.language)) = work ∧
    session.discarded = [] ∧ session.pool.outstanding = 0 ∧
    session.state = after ∧ session.sent = results

namespace Processor

variable {σ ρ : Type} {processor : Processor σ ρ} {threads capacity : Nat} {state after : σ}
  {work : List (Path × Language)} {results : List WorkResult}

theorem Interleaves.work_perm (ends : processor.Interleaves threads capacity state work after results) :
    (results.map fun result => (result.item.path, result.item.language)).Perm work := by
  obtain ⟨pool, moves, session, created, ran, rfl, kept, none, -, rfl⟩ := ends
  have balanced := (Session.balanced_begin state created).run ran
  have perm := (balanced.sent_perm none kept).map fun item => (item.path, item.language)
  rwa [List.map_map] at perm

/-- What the steps of a processor keep holds when the work is done, for the results in the order in which
they were decided. -/
theorem Keeps.interleaves {holds : σ → List WorkResult → Prop} {fit : WorkItem → ρ → Prop}
    (keeps : processor.Keeps holds fit)
    (ends : processor.Interleaves threads capacity state work after results)
    (start : holds state []) : ∃ done, holds after done ∧ done.Perm results := by
  obtain ⟨pool, moves, session, created, ran, -, -, none, rfl, rfl⟩ := ends
  have balanced := Session.balanced_begin state created
  have accounts : Session.Accounts holds fit ({ state, pool } : Session σ ρ) := by
    unfold Pool.create at created
    split at created
    · cases created
    · cases created
      exact ⟨⟨[], start, .nil⟩, fun _ _ member => nomatch member⟩
  obtain ⟨done, held, perm⟩ := (accounts.run keeps balanced ran).related
  exact ⟨done, held, (balanced.run ran).decided_eq_sent none ▸ perm⟩

end Processor

end DepAtlas
