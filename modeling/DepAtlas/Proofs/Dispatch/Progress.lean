import DepAtlas.Dispatch.Dispatcher
import DepAtlas.Proofs.Dispatch.Balance

/-!
A pool does not get stuck. Every step of a worker brings the pool nearer to rest, and a pool with workers
that have not been stopped is at rest only when nothing waits and nobody is busy.
-/

namespace DepAtlas

theorem total_set_add {α : Type} (measure : α → Nat) {items : List α} {index : Nat} {old : α}
    (found : items[index]? = some old) (new : α) :
    total measure (items.set index new) + measure old = total measure items + measure new := by
  induction items generalizing index with
  | nil => cases found
  | cons first rest ih =>
    cases index with
    | zero =>
      cases found
      simp only [List.set_cons_zero, total]
      omega
    | succ index =>
      have shorter := ih (by simpa using found)
      simp only [List.set_cons_succ, total]
      omega

namespace Pool

variable {σ ρ : Type} {processor : Processor σ ρ} {index : Nat} {state state' : σ}
  {pool pool' : Pool ρ}

/-- With every step of a worker, fewer steps remain. -/
theorem Turn.remaining_lt (turn : Turn processor index state pool state' pool') :
    pool'.remaining < pool.remaining := by
  have nearer {old new : Worker ρ} (found : pool.workers[index]? = some old)
      (less : new.remaining < old.remaining) :
      total Worker.remaining (pool.workers.set index new) < total Worker.remaining pool.workers := by
    have moved := total_set_add Worker.remaining found new
    omega
  cases turn with
  | take item rest idle running waiting =>
    have moved := total_set_add Worker.remaining idle (.holding item)
    simp only [Worker.remaining] at moved
    simp only [remaining, WorkQueue.size, waiting, List.length_cons]
    omega
  | stop idle => exact Nat.add_lt_add_left (nearer idle (by simp [Worker.remaining])) _
  | prepare item content next held => exact Nat.add_lt_add_left (nearer held (by simp [Worker.remaining])) _
  | fail item verdict next held => exact Nat.add_lt_add_left (nearer held (by simp [Worker.remaining])) _
  | complete item content verdict next ready =>
    exact Nat.add_lt_add_left (nearer ready (by simp [Worker.remaining])) _
  | report result decided => exact Nat.add_lt_add_left (nearer decided (by simp [Worker.remaining])) _
  | finish reported => exact Nat.add_lt_add_left (nearer reported (by simp [Worker.remaining])) _

/-- There are workers, none of them is stopped, and the queue takes and hands out items. -/
structure Staffed (pool : Pool ρ) : Prop where
  running : pool.queue.isShutDown = false
  roomy : 0 < pool.queue.capacity
  manned : pool.workers ≠ []
  awake : ∀ worker ∈ pool.workers, worker.isStopped = false

theorem staffed_of_start {threads capacity : Nat} (created : create threads capacity = .ok pool)
    (started : pool.start = .ok pool') : pool'.Staffed := by
  unfold create at created
  split at created
  · cases created
  rename_i bounds
  cases created
  cases started
  refine ⟨rfl, Nat.lt_of_lt_of_le Nat.zero_lt_one (Nat.le_max_right _ _), ?_, ?_⟩
  · simp only [ne_eq, List.replicate_eq_nil_iff]
    omega
  · intro worker member
    rw [List.eq_of_mem_replicate member]
    rfl

theorem Staffed.turn (staffed : pool.Staffed) (turn : Turn processor index state pool state' pool') :
    pool'.Staffed := by
  have manned (new : Worker ρ) : pool.workers.set index new ≠ [] := by
    simpa using staffed.manned
  have awake {new : Worker ρ} (alive : new.isStopped = false) :
      ∀ worker ∈ pool.workers.set index new, worker.isStopped = false := by
    intro worker member
    rcases List.mem_or_eq_of_mem_set member with old | rfl
    · exact staffed.awake worker old
    · exact alive
  cases turn with
  | stop idle closed => exact absurd closed (by simp [staffed.running])
  | take | prepare | fail | complete | report | finish =>
    exact ⟨staffed.running, staffed.roomy, manned _, awake rfl⟩

theorem Staffed.reserve (staffed : pool.Staffed) (path : Path) (language : Language) :
    (pool.reserve path language).1.Staffed :=
  ⟨staffed.running, staffed.roomy, staffed.manned, staffed.awake⟩

theorem Staffed.drainResults (staffed : pool.Staffed) : pool.drainResults.1.Staffed :=
  ⟨staffed.running, staffed.roomy, staffed.manned, staffed.awake⟩

/-- The pool with one more item in its queue. -/
def append (pool : Pool ρ) (item : WorkItem) : Pool ρ :=
  { pool with queue := { pool.queue with items := pool.queue.items ++ [item] } }

theorem Staffed.append (staffed : pool.Staffed) (item : WorkItem) : (pool.append item).Staffed :=
  ⟨staffed.running, staffed.roomy, staffed.manned, staffed.awake⟩

theorem Staffed.accept (staffed : pool.Staffed) : pool.accept.Staffed :=
  ⟨staffed.running, staffed.roomy, staffed.manned, staffed.awake⟩

theorem Staffed.offer (staffed : pool.Staffed) (room : pool.queue.isFull = false) (item : WorkItem) :
    pool.offer? item = some (pool.append item, .ok ()) := by
  rw [offer?, WorkQueue.push?, if_neg (by simp [staffed.running]), if_neg (by simp [room])]
  rfl

theorem Staffed.room_of_enqueue? (staffed : pool.Staffed) {item : WorkItem}
    (possible : (pool.enqueue? item).isSome = true) : pool.queue.isFull = false := by
  rw [enqueue?, offer?, WorkQueue.push?, if_neg (by simp [staffed.running])] at possible
  split at possible
  · cases possible
  · rename_i room
    exact eq_false_of_ne_true room

theorem Staffed.room_of_empty (staffed : pool.Staffed) (empty : pool.queue.items = []) :
    pool.queue.isFull = false := by
  have roomy := staffed.roomy
  rw [WorkQueue.isFull, empty, decide_eq_false_iff_not, List.length_nil]
  omega

/-- Where no worker can take a step, nothing waits and nobody is busy. -/
theorem Staffed.rests (staffed : pool.Staffed)
    (stuck : ∀ index < pool.workers.length, pool.advance? processor index state = none) :
    pool.queue.items = [] ∧ ∀ worker ∈ pool.workers, worker.isBusy = false := by
  have idle : ∀ worker ∈ pool.workers, worker = .idle ∧ pool.queue.items = [] := by
    intro worker member
    obtain ⟨index, bound, found⟩ := List.getElem_of_mem member
    have still := stuck index bound
    have awake := staffed.awake worker member
    rw [advance?, List.getElem?_eq_getElem bound, found] at still
    cases worker with
    | stopped => cases awake
    | idle =>
      simp only [take?, WorkQueue.pop?, staffed.running, Option.map_map, Option.map_eq_none_iff] at still
      cases waiting : pool.queue.items with
      | nil => exact ⟨rfl, rfl⟩
      | cons item rest => simp [waiting] at still
    | holding item =>
      simp only at still
      split at still <;> cases still
    | prepared item content => cases still
    | decided result => cases still
    | reported => cases still
  obtain ⟨worker, member⟩ := List.exists_mem_of_ne_nil _ staffed.manned
  refine ⟨(idle worker member).2, fun worker member => ?_⟩
  rw [(idle worker member).1]
  rfl

end Pool

namespace Dispatcher

variable {σ ρ : Type} {dispatcher next : Dispatcher σ ρ}

theorem exists_of_advance? (advanced : dispatcher.advance? = some next) :
    ∃ index state pool, dispatcher.pool.advance? dispatcher.processor index dispatcher.state =
        some (state, pool) ∧
      next = { dispatcher with state, pool, ticks := dispatcher.ticks + 1 } := by
  obtain ⟨⟨state, pool⟩, found, rfl⟩ := Option.map_eq_some_iff.mp advanced
  obtain ⟨index, -, stepped⟩ := List.exists_of_findSome?_eq_some found
  exact ⟨index, state, pool, stepped, rfl⟩

theorem stuck_of_advance? (stuck : dispatcher.advance? = none) {index : Nat}
    (bound : index < dispatcher.pool.workers.length) :
    dispatcher.pool.advance? dispatcher.processor index dispatcher.state = none := by
  have none := Option.map_eq_none_iff.mp stuck
  rw [List.findSome?_eq_none_iff] at none
  exact none index (List.mem_append_right _ (List.mem_range.mpr bound))

/-- Workers move until the condition holds or none of them can. -/
theorem runUntil_settles (dispatcher : Dispatcher σ ρ) (condition : Dispatcher σ ρ → Bool) :
    condition (dispatcher.runUntil condition) = true ∨
      (dispatcher.runUntil condition).advance? = none := by
  suffices ∀ bound (dispatcher : Dispatcher σ ρ), dispatcher.pool.remaining ≤ bound →
      condition (settle condition bound dispatcher) = true ∨
        (settle condition bound dispatcher).advance? = none from this _ dispatcher (Nat.le_refl _)
  intro bound
  -- The bound counts the steps that remain, so it runs out only where no worker can move.
  induction bound with
  | zero =>
    intro dispatcher none
    right
    rw [settle]
    cases advanced : dispatcher.advance? with
    | none => rfl
    | some next =>
      obtain ⟨index, state, pool, stepped, rfl⟩ := exists_of_advance? advanced
      have nearer := (Pool.turn_of_advance? stepped).remaining_lt
      omega
  | succ bound ih =>
    intro dispatcher enough
    rw [settle]
    split
    · rename_i holds
      exact .inl holds
    · split
      · rename_i next advanced
        obtain ⟨index, state, pool, stepped, rfl⟩ := exists_of_advance? advanced
        have nearer := (Pool.turn_of_advance? stepped).remaining_lt
        exact ih _ (by simp only; omega)
      · rename_i stuck
        exact .inr stuck

/-- What holds of a dispatcher and is kept by every step of a worker holds after the workers have
moved. -/
theorem runUntil_induction (holds : Dispatcher σ ρ → Prop) (condition : Dispatcher σ ρ → Bool)
    (start : holds dispatcher)
    (step : ∀ current next, holds current → current.advance? = some next → holds next) :
    holds (dispatcher.runUntil condition) := by
  suffices ∀ bound (dispatcher : Dispatcher σ ρ), holds dispatcher →
      holds (settle condition bound dispatcher) from this _ dispatcher start
  intro bound
  induction bound with
  | zero => exact fun _ start => start
  | succ bound ih =>
    intro dispatcher start
    rw [settle]
    split
    · exact start
    · split
      · rename_i next advanced
        exact ih next (step _ _ start advanced)
      · exact start

end Dispatcher

end DepAtlas
