import DepAtlas.Proofs.Dispatch.Session

/-!
What every move of a session keeps: items are neither lost nor doubled, numbers are given once, and the
outstanding counter is the number of items that wait, are worked on or are about to be taken back.
-/

namespace DepAtlas

section Counting

variable {α : Type} {items : List α} {index : Nat} {old : α}

theorem ite_eq_toNat (passes : Bool) : (if passes then 1 else 0) = passes.toNat := by
  cases passes <;> rfl

theorem countP_set_add (test : α → Bool) (found : items[index]? = some old) (new : α) :
    (items.set index new).countP test + (test old).toNat = items.countP test + (test new).toNat := by
  obtain ⟨bound, rfl⟩ := List.getElem?_eq_some_iff.mp found
  have counted : (test items[index]).toNat ≤ items.countP test := by
    cases passes : test items[index] with
    | true => exact List.countP_pos_iff.mpr ⟨_, List.getElem_mem bound, passes⟩
    | false => exact Nat.zero_le _
  rw [List.countP_set bound, ite_eq_toNat, ite_eq_toNat]
  omega

theorem countP_eraseIdx_add (test : α → Bool) (found : items[index]? = some old) :
    (items.eraseIdx index).countP test + (test old).toNat = items.countP test := by
  obtain ⟨bound, rfl⟩ := List.getElem?_eq_some_iff.mp found
  have split : items = items.take index ++ items[index] :: items.drop (index + 1) := by
    rw [← List.drop_eq_getElem_cons bound, List.take_append_drop]
  have counts := congrArg (List.countP test) split
  rw [List.countP_append, List.countP_cons, ite_eq_toNat] at counts
  rw [List.eraseIdx_eq_take_drop_succ, List.countP_append]
  omega

end Counting

namespace Submission

/-- Whether the item of a submission counts as outstanding without being queued. -/
def isCounted : Submission → Bool
  | counted _ | refused => true
  | numbered _ | accepted => false

/-- Whether a submission has a number and has not offered its item yet. -/
def hasNumber (number : Nat) : Submission → Bool
  | numbered item | counted item => item.id == number
  | accepted | refused => false

end Submission

namespace Closing

/-- Number of items given up and still counted. -/
def uncounted : Closing → Nat
  | discarding count => count
  | _ => 0

end Closing

namespace Worker

variable {ρ : Type}

/-- Whether an item taken by a worker still counts as outstanding. -/
def isBusy : Worker ρ → Bool
  | idle | stopped => false
  | _ => true

def holds (test : WorkItem → Bool) (worker : Worker ρ) : Bool :=
  worker.item?.any test

end Worker

namespace Pool

variable {σ ρ : Type} {processor : Processor σ ρ} {index : Nat} {state state' : σ}
  {pool pool' : Pool ρ}

/-- A step of a worker, with what it does to the state that the workers share. -/
inductive Turn (processor : Processor σ ρ) (index : Nat) (state : σ) (pool : Pool ρ) :
    σ → Pool ρ → Prop
  | take (item : WorkItem) (rest : List WorkItem) (idle : pool.workers[index]? = some .idle)
      (running : pool.queue.isShutDown = false) (waiting : pool.queue.items = item :: rest) :
      Turn processor index state pool state { pool with
        queue := { pool.queue with items := rest }
        workers := pool.workers.set index (.holding item) }
  | stop (idle : pool.workers[index]? = some .idle) (closed : pool.queue.isShutDown = true) :
      Turn processor index state pool state (pool.setWorker index .stopped)
  | prepare (item : WorkItem) (content : ρ) (next : σ)
      (held : pool.workers[index]? = some (.holding item))
      (prepared : processor.prepare state item = (next, .ok content)) :
      Turn processor index state pool next (pool.setWorker index (.prepared item content))
  | fail (item : WorkItem) (verdict : Verdict) (next : σ)
      (held : pool.workers[index]? = some (.holding item))
      (prepared : processor.prepare state item = (next, .error verdict)) :
      Turn processor index state pool next (pool.decide index item verdict)
  | complete (item : WorkItem) (content : ρ) (verdict : Verdict) (next : σ)
      (ready : pool.workers[index]? = some (.prepared item content))
      (completed : processor.complete state item content = (next, verdict)) :
      Turn processor index state pool next (pool.decide index item verdict)
  | report (result : WorkResult) (decided : pool.workers[index]? = some (.decided result)) :
      Turn processor index state pool state (pool.report index result)
  | finish (reported : pool.workers[index]? = some .reported) :
      Turn processor index state pool state ((pool.finish 1).setWorker index .idle)

theorem turn_of_take? (idle : pool.workers[index]? = some .idle)
    (taken : pool.take? index = some pool') : Turn processor index state pool state pool' := by
  unfold take? WorkQueue.pop? at taken
  by_cases closed : pool.queue.isShutDown = true
  · rw [if_pos closed] at taken
    cases taken
    exact .stop idle closed
  · rw [if_neg closed] at taken
    cases waiting : pool.queue.items with
    | nil => simp [waiting] at taken
    | cons item rest =>
      rw [waiting] at taken
      cases taken
      exact .take item rest idle (eq_false_of_ne_true closed) waiting

theorem turn_of_advance? (advanced : pool.advance? processor index state = some (state', pool')) :
    Turn processor index state pool state' pool' := by
  unfold advance? at advanced
  cases found : pool.workers[index]? with
  | none => simp [found] at advanced
  | some worker =>
    cases worker with
    | stopped => simp [found] at advanced
    | idle =>
      simp only [found, Option.map_eq_some_iff, Prod.mk.injEq] at advanced
      obtain ⟨taken, eq, rfl, rfl⟩ := advanced
      exact turn_of_take? found eq
    | holding item =>
      simp only [found] at advanced
      split at advanced
      · rename_i verdict prepared
        simp only [Option.some.injEq, Prod.mk.injEq] at advanced
        obtain ⟨rfl, rfl⟩ := advanced
        exact .fail item verdict _ found prepared
      · rename_i content prepared
        simp only [Option.some.injEq, Prod.mk.injEq] at advanced
        obtain ⟨rfl, rfl⟩ := advanced
        exact .prepare item content _ found prepared
    | prepared item content =>
      simp only [found, Option.some.injEq, Prod.mk.injEq] at advanced
      obtain ⟨rfl, rfl⟩ := advanced
      exact .complete item content _ _ found rfl
    | decided result =>
      simp only [found, Option.some.injEq, Prod.mk.injEq] at advanced
      obtain ⟨rfl, rfl⟩ := advanced
      exact .report result found
    | reported =>
      simp only [found, Option.some.injEq, Prod.mk.injEq] at advanced
      obtain ⟨rfl, rfl⟩ := advanced
      exact .finish found

/-- What a worker can do in one step. -/
inductive Advance (pool : Pool ρ) (index : Nat) : Pool ρ → Prop
  | take (item : WorkItem) (rest : List WorkItem) (idle : pool.workers[index]? = some .idle)
      (running : pool.queue.isShutDown = false) (waiting : pool.queue.items = item :: rest) :
      Advance pool index { pool with
        queue := { pool.queue with items := rest }
        workers := pool.workers.set index (.holding item) }
  | stop (idle : pool.workers[index]? = some .idle) :
      Advance pool index { pool with workers := pool.workers.set index .stopped }
  | work (old new : Worker ρ) (processed failed : Nat) (found : pool.workers[index]? = some old)
      (item : new.item? = old.item?) (oldBusy : old.isBusy) (newBusy : new.isBusy) :
      Advance pool index { pool with processed, failed, workers := pool.workers.set index new }
  | report (result : WorkResult) (decided : pool.workers[index]? = some (.decided result)) :
      Advance pool index { pool with
        results := pool.results ++ [result]
        workers := pool.workers.set index .reported }
  | finish (reported : pool.workers[index]? = some .reported) :
      Advance pool index { pool with
        outstanding := pool.outstanding - 1
        workers := pool.workers.set index .idle }

theorem Turn.advance (turn : Turn processor index state pool state' pool') :
    Advance pool index pool' := by
  cases turn with
  | take item rest idle running waiting => exact .take item rest idle running waiting
  | stop idle => exact .stop idle
  | prepare item content _ held => exact .work _ (.prepared _ _) _ _ held rfl rfl rfl
  | fail item verdict _ held => exact .work _ (.decided _) _ _ held rfl rfl rfl
  | complete item content verdict _ ready => exact .work _ (.decided _) _ _ ready rfl rfl rfl
  | report result decided => exact .report result decided
  | finish reported => exact .finish reported

end Pool

namespace Session

variable {σ ρ : Type} {processor : Processor σ ρ} {session : Session σ ρ}

/-- How often a number has been given to an item that is accepted or about to be offered. -/
def uses (session : Session σ ρ) (number : Nat) : Nat :=
  session.accepted.countP (·.id == number) +
    session.submissions.countP (Submission.hasNumber number)

structure Numbered (session : Session σ ρ) : Prop where
  once : ∀ number, session.uses number ≤ 1
  unused : ∀ number, session.pool.nextId ≤ number → session.uses number = 0

theorem Numbered.of_le {other : Session σ ρ} (numbered : session.Numbered)
    (same : other.pool.nextId = session.pool.nextId)
    (fewer : ∀ number, other.uses number ≤ session.uses number) : other.Numbered where
  once number := Nat.le_trans (fewer number) (numbered.once number)
  unused number above := Nat.le_zero.mp (numbered.unused number (same ▸ above) ▸ fewer number)

structure Balanced (session : Session σ ρ) : Prop where
  conserved : ∀ test : WorkItem → Bool,
    session.accepted.countP test =
      session.pool.queue.items.countP test + session.pool.workers.countP (Worker.holds test) +
        session.sent.countP (test ·.item) + session.discarded.countP test
  numbered : session.Numbered
  outstanding : session.pool.outstanding =
    session.pool.queue.items.length + session.pool.workers.countP Worker.isBusy +
      session.submissions.countP Submission.isCounted + session.closing.uncounted
  quiet : session.closing.isActive → session.submissions = []
  refuses : session.closing ≠ .notCalled → session.pool.queue.isShutDown = true
  drained : session.closing ≠ .notCalled → session.closing ≠ .refusing →
    session.pool.queue.items = []
  joined : session.closing = .returned → session.pool.workers = []
  unstarted : session.pool.started = false → session.pool.workers = []

theorem balanced_begin (state : σ) {threads capacity : Nat} {pool : Pool ρ}
    (created : Pool.create threads capacity = .ok pool) :
    Balanced ({ state, pool } : Session σ ρ) := by
  unfold Pool.create at created
  split at created
  · cases created
  · cases created
    refine ⟨?_, ⟨?_, ?_⟩, ?_, ?_, ?_, ?_, ?_, ?_⟩ <;>
      simp [uses, sent, WorkQueue.create, Closing.uncounted, Closing.isActive]

theorem Balanced.notCalled (balanced : session.Balanced)
    (running : session.pool.queue.isShutDown = false) : session.closing = .notCalled := by
  cases called : session.closing with
  | notCalled => rfl
  | _ =>
    have refuses := balanced.refuses (by simp [called])
    rw [running] at refuses
    cases refuses

theorem Balanced.passive (balanced : session.Balanced) {index : Nat} {submission : Submission}
    (found : session.submissions[index]? = some submission) : session.closing.isActive = false := by
  by_cases active : session.closing.isActive = true
  · rw [balanced.quiet active] at found
    cases found
  · exact eq_false_of_ne_true active

theorem Balanced.start (balanced : session.Balanced) {pool : Pool ρ}
    (started : session.pool.start = .ok pool) : Balanced { session with pool } := by
  unfold Pool.start at started
  split at started
  · cases started
  case isFalse running =>
  split at started
  · cases started
  case isFalse fresh =>
  cases started
  have workers := balanced.unstarted (eq_false_of_ne_true fresh)
  have notCalled := balanced.notCalled (eq_false_of_ne_true running)
  refine ⟨?_, balanced.numbered.of_le rfl fun _ => Nat.le_refl _, ?_, balanced.quiet,
    balanced.refuses, balanced.drained, ?_, ?_⟩
  · intro test
    have conserved := balanced.conserved test
    rw [workers] at conserved
    simpa [sent, List.countP_replicate, Worker.holds, Worker.item?] using conserved
  · have outstanding := balanced.outstanding
    rw [workers] at outstanding
    simpa [List.countP_replicate, Worker.isBusy] using outstanding
  · simp [notCalled]
  · simp

theorem Balanced.submit (balanced : session.Balanced) (passive : session.closing.isActive = false)
    (path : Path) (language : Language) :
    Balanced { session with
      pool := (session.pool.number path language).1
      submissions :=
        session.submissions ++ [.numbered (session.pool.number path language).2] } := by
  have uses (number : Nat) :
      Session.uses { session with
        pool := (session.pool.number path language).1
        submissions :=
          session.submissions ++ [.numbered (session.pool.number path language).2] } number =
        session.uses number + if session.pool.nextId = number then 1 else 0 := by
    simp [Session.uses, Pool.number, Submission.hasNumber, List.countP_singleton, Nat.add_assoc]
  refine ⟨balanced.conserved, ⟨?_, ?_⟩, ?_, ?_, balanced.refuses, balanced.drained, balanced.joined,
    balanced.unstarted⟩
  · intro number
    rw [uses]
    split
    case isTrue last => simp [balanced.numbered.unused number (Nat.le_of_eq last)]
    case isFalse => exact balanced.numbered.once number
  · intro number above
    replace above : session.pool.nextId + 1 ≤ number := above
    rw [uses, if_neg (by omega), balanced.numbered.unused number (by omega)]
  · have outstanding := balanced.outstanding
    simpa [Pool.number, Submission.isCounted] using outstanding
  · simp [passive]

theorem Balanced.count (balanced : session.Balanced) {index : Nat} {item : WorkItem}
    (found : session.submissions[index]? = some (.numbered item)) :
    Balanced { session with
      pool := session.pool.count
      submissions := session.submissions.set index (.counted item) } := by
  refine ⟨balanced.conserved, balanced.numbered.of_le rfl ?_, ?_, ?_, balanced.refuses,
    balanced.drained, balanced.joined, balanced.unstarted⟩
  · intro number
    have replaced := countP_set_add (Submission.hasNumber number) found (.counted item)
    simp only [Submission.hasNumber] at replaced
    simp only [uses]
    omega
  · have replaced := countP_set_add Submission.isCounted found (.counted item)
    have outstanding := balanced.outstanding
    simp only [Submission.isCounted, Bool.toNat_false, Bool.toNat_true] at replaced
    simp only [Pool.count]
    omega
  · simp [balanced.passive found]

theorem Balanced.accept (balanced : session.Balanced) {index : Nat} {item : WorkItem}
    (found : session.submissions[index]? = some (.counted item))
    (running : session.pool.queue.isShutDown = false) :
    Balanced { session with
      pool := { session.pool with
        queue := { session.pool.queue with items := session.pool.queue.items ++ [item] } }
      submissions := session.submissions.set index .accepted
      accepted := session.accepted ++ [item] } := by
  refine ⟨?_, balanced.numbered.of_le rfl ?_, ?_, ?_, balanced.refuses, ?_, balanced.joined,
    balanced.unstarted⟩
  · intro test
    have conserved := balanced.conserved test
    simp only [List.countP_append, sent] at conserved ⊢
    omega
  · intro number
    have replaced := countP_set_add (Submission.hasNumber number) found .accepted
    simp only [Submission.hasNumber, Bool.toNat_false] at replaced
    simp only [uses, List.countP_append, List.countP_singleton, ite_eq_toNat]
    omega
  · have replaced := countP_set_add Submission.isCounted found .accepted
    have outstanding := balanced.outstanding
    simp only [Submission.isCounted, Bool.toNat_false, Bool.toNat_true] at replaced
    simp only [List.length_append, List.length_singleton]
    omega
  · simp [balanced.passive found]
  · simp [balanced.notCalled running]

theorem Balanced.refuse (balanced : session.Balanced) {index : Nat} {item : WorkItem}
    (found : session.submissions[index]? = some (.counted item)) :
    Balanced { session with submissions := session.submissions.set index .refused } := by
  refine ⟨balanced.conserved, balanced.numbered.of_le rfl ?_, ?_, ?_, balanced.refuses,
    balanced.drained, balanced.joined, balanced.unstarted⟩
  · intro number
    have replaced := countP_set_add (Submission.hasNumber number) found .refused
    simp only [Submission.hasNumber, Bool.toNat_false] at replaced
    simp only [uses]
    omega
  · have replaced := countP_set_add Submission.isCounted found .refused
    have outstanding := balanced.outstanding
    simp only [Submission.isCounted] at replaced
    simp only
    omega
  · simp [balanced.passive found]

theorem Balanced.return_accepted (balanced : session.Balanced) {index : Nat}
    (found : session.submissions[index]? = some .accepted) :
    Balanced { session with
      pool := session.pool.accept
      submissions := session.submissions.eraseIdx index } := by
  refine ⟨balanced.conserved, balanced.numbered.of_le rfl ?_, ?_, ?_, balanced.refuses,
    balanced.drained, balanced.joined, balanced.unstarted⟩
  · intro number
    have erased := countP_eraseIdx_add (Submission.hasNumber number) found
    simp only [uses]
    omega
  · have erased := countP_eraseIdx_add Submission.isCounted found
    have outstanding := balanced.outstanding
    simp only [Submission.isCounted, Bool.toNat_false] at erased
    simp only [Pool.accept]
    omega
  · simp [balanced.passive found]

theorem Balanced.return_refused (balanced : session.Balanced) {index : Nat}
    (found : session.submissions[index]? = some .refused) :
    Balanced { session with
      pool := session.pool.finish 1
      submissions := session.submissions.eraseIdx index } := by
  refine ⟨balanced.conserved, balanced.numbered.of_le rfl ?_, ?_, ?_, balanced.refuses,
    balanced.drained, balanced.joined, balanced.unstarted⟩
  · intro number
    have erased := countP_eraseIdx_add (Submission.hasNumber number) found
    simp only [uses]
    omega
  · have erased := countP_eraseIdx_add Submission.isCounted found
    have outstanding := balanced.outstanding
    simp only [Submission.isCounted, Bool.toNat_true] at erased
    simp only [Pool.finish]
    omega
  · simp [balanced.passive found]

theorem Balanced.submissionStep {index : Nat} {submission : Submission} {next : Session σ ρ}
    (balanced : session.Balanced) (found : session.submissions[index]? = some submission)
    (stepped : session.submissionStep? index submission = some next) : next.Balanced := by
  cases submission with
  | numbered item =>
    cases stepped
    exact balanced.count found
  | counted item =>
    simp only [submissionStep?, Pool.offer?, WorkQueue.push?] at stepped
    by_cases closed : session.pool.queue.isShutDown = true
    · rw [if_pos closed] at stepped
      cases stepped
      exact balanced.refuse found
    · rw [if_neg closed] at stepped
      by_cases full : session.pool.queue.isFull = true
      · rw [if_pos full] at stepped
        cases stepped
      · rw [if_neg full] at stepped
        cases stepped
        exact balanced.accept found (eq_false_of_ne_true closed)
  | accepted =>
    cases stepped
    exact balanced.return_accepted found
  | refused =>
    cases stepped
    exact balanced.return_refused found

theorem Balanced.replaceWorker {index outstanding processed failed : Nat} {old new : Worker ρ}
    {results : List WorkResult} (balanced : session.Balanced) (state : σ) (items : List WorkItem)
    (found : session.pool.workers[index]? = some old)
    (drained : session.pool.queue.items = [] → items = [])
    (moved : ∀ test : WorkItem → Bool,
      items.countP test + (new.holds test).toNat + results.countP (test ·.item) =
        session.pool.queue.items.countP test + (old.holds test).toNat +
          session.pool.results.countP (test ·.item))
    (counted : outstanding + session.pool.queue.items.length + old.isBusy.toNat =
      session.pool.outstanding + items.length + new.isBusy.toNat) :
    Balanced { session with
      state
      pool := { session.pool with
        queue := { session.pool.queue with items }
        outstanding, processed, failed, results
        workers := session.pool.workers.set index new } } := by
  have present : session.pool.workers ≠ [] := by
    intro none
    rw [none] at found
    cases found
  refine ⟨?_, balanced.numbered.of_le rfl fun _ => Nat.le_refl _, ?_, balanced.quiet,
    balanced.refuses, ?_, ?_, ?_⟩
  · intro test
    have conserved := balanced.conserved test
    have held := countP_set_add (Worker.holds test) found new
    have moved := moved test
    simp only [sent, List.countP_append] at conserved ⊢
    omega
  · have before := balanced.outstanding
    have busy := countP_set_add Worker.isBusy found new
    simp only
    omega
  · intro called past
    exact drained (balanced.drained called past)
  · intro returned
    exact absurd (balanced.joined returned) present
  · intro unstarted
    exact absurd (balanced.unstarted unstarted) present

theorem Balanced.worker {index : Nat} {pool : Pool ρ} (balanced : session.Balanced)
    (advance : session.pool.Advance index pool) (state : σ) :
    Balanced { session with state, pool } := by
  cases advance with
  | take item rest idle running waiting =>
    refine balanced.replaceWorker state rest idle ?_ ?_ ?_
    · simp [waiting]
    · intro test
      simp only [waiting, List.countP_cons, ite_eq_toNat, Worker.holds, Worker.item?, Option.any_some,
        Option.any_none, Bool.toNat_false]
      omega
    · simp only [waiting, List.length_cons, Worker.isBusy, Bool.toNat_false, Bool.toNat_true]
      omega
  | stop idle => exact balanced.replaceWorker state session.pool.queue.items idle id (fun _ => rfl) rfl
  | work old new processed failed found item oldBusy newBusy =>
    refine balanced.replaceWorker state session.pool.queue.items found id ?_ ?_
    · intro test
      simp only [Worker.holds, item]
    · rw [oldBusy, newBusy]
  | report result decided =>
    refine balanced.replaceWorker state session.pool.queue.items decided id ?_ rfl
    intro test
    simp only [List.countP_append, List.countP_singleton, ite_eq_toNat, Worker.holds, Worker.item?,
      Option.any_some, Option.any_none, Bool.toNat_false]
    omega
  | finish reported =>
    refine balanced.replaceWorker state session.pool.queue.items reported id (fun _ => rfl) ?_
    have outstanding := balanced.outstanding
    have busy := countP_set_add Worker.isBusy reported .idle
    simp only [Worker.isBusy, Bool.toNat_false, Bool.toNat_true] at busy ⊢
    omega

theorem Balanced.receive {pool : Pool ρ} {results : List WorkResult} (balanced : session.Balanced)
    (split : session.pool.results = results ++ pool.results)
    (rest : pool = { session.pool with results := pool.results }) :
    Balanced { session with pool, received := session.received ++ results } := by
  rw [rest]
  refine ⟨?_, balanced.numbered.of_le rfl fun _ => Nat.le_refl _, balanced.outstanding, balanced.quiet,
    balanced.refuses, balanced.drained, balanced.joined, balanced.unstarted⟩
  intro test
  have conserved := balanced.conserved test
  simp only [sent, split, List.countP_append] at conserved ⊢
  omega

theorem Balanced.close (balanced : session.Balanced) (passive : session.closing.isActive = false)
    (quiet : session.submissions = []) :
    Balanced { session with pool := session.pool.refuse, closing := .refusing } := by
  have uncounted : session.closing.uncounted = 0 := by
    cases phase : session.closing <;> first | rfl | simp [phase, Closing.isActive] at passive
  refine ⟨balanced.conserved, balanced.numbered.of_le rfl fun _ => Nat.le_refl _, ?_, fun _ => quiet,
    fun _ => rfl, ?_, ?_, balanced.unstarted⟩
  · have outstanding := balanced.outstanding
    simp only [Pool.refuse, WorkQueue.shutDown, Closing.uncounted]
    omega
  · simp
  · simp

theorem Balanced.drain (balanced : session.Balanced) (refusing : session.closing = .refusing) :
    Balanced { session with
      pool := session.pool.drain.1
      closing := .discarding session.pool.drain.2.length
      discarded := session.discarded ++ session.pool.drain.2 } := by
  refine ⟨?_, balanced.numbered.of_le rfl fun _ => Nat.le_refl _, ?_, ?_, ?_, fun _ _ => rfl, ?_,
    balanced.unstarted⟩
  · intro test
    have conserved := balanced.conserved test
    simp only [Pool.drain, WorkQueue.drain, sent, List.countP_append, List.countP_nil] at conserved ⊢
    omega
  · have outstanding := balanced.outstanding
    simp only [refusing, Closing.uncounted] at outstanding
    simp only [Pool.drain, WorkQueue.drain, Closing.uncounted, List.length_nil]
    omega
  · exact fun _ => balanced.quiet (by simp [refusing, Closing.isActive])
  · exact fun _ => balanced.refuses (by simp [refusing])
  · simp

theorem Balanced.discard (balanced : session.Balanced) {count : Nat}
    (discarding : session.closing = .discarding count) :
    Balanced { session with pool := session.pool.finish count, closing := .joining } := by
  refine ⟨balanced.conserved, balanced.numbered.of_le rfl fun _ => Nat.le_refl _, ?_, ?_, ?_, ?_, ?_,
    balanced.unstarted⟩
  · have outstanding := balanced.outstanding
    simp only [discarding, Closing.uncounted] at outstanding
    simp only [Pool.finish, Closing.uncounted]
    omega
  · exact fun _ => balanced.quiet (by simp [discarding, Closing.isActive])
  · exact fun _ => balanced.refuses (by simp [discarding])
  · exact fun _ _ => balanced.drained (by simp [discarding]) (by simp [discarding])
  · simp

theorem Balanced.join (balanced : session.Balanced) (joining : session.closing = .joining)
    (stopped : ∀ worker ∈ session.pool.workers, worker.isStopped) :
    Balanced { session with pool := session.pool.join, closing := .returned } := by
  have held (test : WorkItem → Bool) : session.pool.workers.countP (Worker.holds test) = 0 := by
    rw [List.countP_eq_zero]
    intro worker member
    have stopped := stopped worker member
    cases worker <;> simp_all [Worker.isStopped, Worker.holds, Worker.item?]
  have busy : session.pool.workers.countP Worker.isBusy = 0 := by
    rw [List.countP_eq_zero]
    intro worker member
    have stopped := stopped worker member
    cases worker <;> simp_all [Worker.isStopped, Worker.isBusy]
  refine ⟨?_, balanced.numbered.of_le rfl fun _ => Nat.le_refl _, ?_, ?_, ?_, ?_, fun _ => rfl,
    fun _ => rfl⟩
  · intro test
    have conserved := balanced.conserved test
    rw [held] at conserved
    exact conserved
  · have outstanding := balanced.outstanding
    rw [busy, joining] at outstanding
    exact outstanding
  · simp [Closing.isActive]
  · exact fun _ => balanced.refuses (by simp [joining])
  · exact fun _ _ => balanced.drained (by simp [joining]) (by simp [joining])

theorem Balanced.shutDownStep {next : Session σ ρ} (balanced : session.Balanced)
    (stepped : session.shutDownStep? = some next) : next.Balanced := by
  unfold shutDownStep? at stepped
  split at stepped
  case h_1 notCalled =>
    simp only [Option.ite_none_right_eq_some, List.isEmpty_iff, Option.some.injEq] at stepped
    obtain ⟨quiet, rfl⟩ := stepped
    exact balanced.close (by simp [notCalled, Closing.isActive]) quiet
  case h_2 returned =>
    simp only [Option.ite_none_right_eq_some, List.isEmpty_iff, Option.some.injEq] at stepped
    obtain ⟨quiet, rfl⟩ := stepped
    exact balanced.close (by simp [returned, Closing.isActive]) quiet
  case h_3 refusing =>
    cases stepped
    exact balanced.drain refusing
  case h_4 count discarding =>
    cases stepped
    exact balanced.discard discarding
  case h_5 joining =>
    simp only [Option.ite_none_right_eq_some, List.all_eq_true, Option.some.injEq] at stepped
    obtain ⟨stopped, rfl⟩ := stepped
    exact balanced.join joining stopped

/-- What a move does to a session. -/
inductive Stepped (processor : Processor σ ρ) (session : Session σ ρ) : Session σ ρ → Prop
  | start {pool : Pool ρ} (started : session.pool.start = .ok pool) :
      Stepped processor session { session with pool }
  | submit (passive : session.closing.isActive = false) (path : Path) (language : Language) :
      Stepped processor session { session with
        pool := (session.pool.number path language).1
        submissions :=
          session.submissions ++ [.numbered (session.pool.number path language).2] }
  | submission {index : Nat} {submission : Submission} {next : Session σ ρ}
      (found : session.submissions[index]? = some submission)
      (stepped : session.submissionStep? index submission = some next) :
      Stepped processor session next
  | worker {index : Nat} {state : σ} {pool : Pool ρ}
      (turn : Pool.Turn processor index session.state session.pool state pool) :
      Stepped processor session { session with state, pool }
  /-- Results are taken from the front. -/
  | receive {results rest : List WorkResult} (split : session.pool.results = results ++ rest) :
      Stepped processor session { session with
        pool := { session.pool with results := rest }
        received := session.received ++ results }
  | shutDown {next : Session σ ρ} (stepped : session.shutDownStep? = some next) :
      Stepped processor session next

theorem stepped_of_step? {move : Move} {next : Session σ ρ}
    (stepped : session.step? processor move = some next) : Stepped processor session next := by
  cases move with
  | start =>
    obtain ⟨pool, started, rfl⟩ := Option.map_eq_some_iff.mp stepped
    cases outcome : session.pool.start with
    | error cause =>
      rw [outcome] at started
      cases started
    | ok other =>
      rw [outcome] at started
      cases started
      exact .start outcome
  | submit path language =>
    simp only [step?, Option.ite_none_left_eq_some, Option.some.injEq] at stepped
    obtain ⟨passive, rfl⟩ := stepped
    exact .submit (eq_false_of_ne_true passive) path language
  | submission index =>
    obtain ⟨submission, found, stepped⟩ := Option.bind_eq_some_iff.mp stepped
    exact .submission found stepped
  | worker index =>
    obtain ⟨⟨state, pool⟩, advanced, rfl⟩ := Option.map_eq_some_iff.mp stepped
    exact .worker (Pool.turn_of_advance? advanced)
  | takeResult =>
    simp only [step?, Pool.takeResult, Option.some.injEq] at stepped
    subst stepped
    split
    case h_1 => exact .receive (List.nil_append _).symm
    case h_2 split => exact .receive split
  | drainResults =>
    cases stepped
    exact .receive (List.append_nil _).symm
  | shutDown => exact .shutDown stepped

theorem Balanced.step {move : Move} {next : Session σ ρ} (balanced : session.Balanced)
    (stepped : session.step? processor move = some next) : next.Balanced := by
  cases stepped_of_step? stepped with
  | start started => exact balanced.start started
  | submit passive path language => exact balanced.submit passive path language
  | submission found stepped => exact balanced.submissionStep found stepped
  | worker turn => exact balanced.worker turn.advance _
  | receive split => exact balanced.receive split rfl
  | shutDown stepped => exact balanced.shutDownStep stepped

theorem Balanced.run {moves : List Move} {last : Session σ ρ} (balanced : session.Balanced)
    (ran : session.run? processor moves = some last) : last.Balanced := by
  induction moves generalizing session with
  | nil =>
    cases ran
    exact balanced
  | cons move rest ih =>
    obtain ⟨next, stepped, ran⟩ := Option.bind_eq_some_iff.mp ran
    exact ih (balanced.step stepped) ran

end Session

end DepAtlas
