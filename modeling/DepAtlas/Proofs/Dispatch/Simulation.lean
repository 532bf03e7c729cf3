import DepAtlas.Proofs.Dispatch.Progress

/-!
What a dispatcher does is an interleaving of its caller and its workers: each of its operations is a list
of moves of a session, and none of them waits for ever while the workers run.
-/

namespace DepAtlas

namespace Session

variable {σ ρ : Type} {processor : Processor σ ρ} {session next last : Session σ ρ}

/-- Some moves lead from one session to another. -/
def Leads (processor : Processor σ ρ) (session next : Session σ ρ) : Prop :=
  ∃ moves, session.run? processor moves = some next

theorem Leads.refl (session : Session σ ρ) : session.Leads processor session :=
  ⟨[], rfl⟩

theorem run?_append (session : Session σ ρ) (first second : List Move) :
    session.run? processor (first ++ second) =
      (session.run? processor first).bind (run? processor · second) := by
  induction first generalizing session with
  | nil => rfl
  | cons move rest ih =>
    rw [List.cons_append, run?, run?, Option.bind_assoc]
    exact congrArg _ (funext ih)

theorem Leads.trans (first : session.Leads processor next) (second : next.Leads processor last) :
    session.Leads processor last := by
  obtain ⟨moves, ran⟩ := first
  obtain ⟨more, ran'⟩ := second
  exact ⟨moves ++ more, by rw [run?_append, ran, Option.bind_some, ran']⟩

theorem Leads.step (leads : session.Leads processor next) (move : Move)
    (stepped : next.step? processor move = some last) : session.Leads processor last := by
  refine leads.trans ⟨[move], ?_⟩
  rw [run?, stepped]
  rfl

end Session

namespace Dispatcher

open Session

variable {σ ρ : Type} {dispatcher : Dispatcher σ ρ} {session begin : Session σ ρ}

/-- A session with the pool of a dispatcher. -/
def within (dispatcher : Dispatcher σ ρ) (session : Session σ ρ) : Session σ ρ :=
  { session with state := dispatcher.state, pool := dispatcher.pool }

/-- While workers move, only the pool and the shared state change. -/
theorem leads_runUntil (staffed : dispatcher.pool.Staffed) (session : Session σ ρ)
    (condition : Dispatcher σ ρ → Bool) :
    let after := dispatcher.runUntil condition
    after.processor = dispatcher.processor ∧ after.pool.Staffed ∧
      (dispatcher.within session).Leads dispatcher.processor (after.within session) := by
  refine runUntil_induction (fun after => after.processor = dispatcher.processor ∧
    after.pool.Staffed ∧
      (dispatcher.within session).Leads dispatcher.processor (after.within session)) condition
    ⟨rfl, staffed, .refl _⟩ ?_
  rintro current next ⟨processor, staffed, leads⟩ advanced
  obtain ⟨index, state, pool, stepped, rfl⟩ := exists_of_advance? advanced
  refine ⟨processor, staffed.turn (Pool.turn_of_advance? stepped), ?_⟩
  refine leads.step (.worker index) ?_
  rw [← processor, step?, within, stepped]
  rfl

/-- A dispatcher whose workers run and whose caller is between two calls; it has come to a session from
another one. -/
structure Serves (dispatcher : Dispatcher σ ρ) (begin session : Session σ ρ) : Prop where
  led : begin.Leads dispatcher.processor session
  state : session.state = dispatcher.state
  pool : session.pool = dispatcher.pool
  staffed : dispatcher.pool.Staffed
  quiet : session.submissions = []
  notCalled : session.closing = .notCalled

theorem Serves.room (staffed : dispatcher.pool.Staffed) (item : WorkItem) :
    (dispatcher.runUntil fun dispatcher =>
      !dispatcher.yields && (dispatcher.pool.enqueue? item).isSome).pool.queue.isFull = false := by
  have running := (leads_runUntil staffed { state := dispatcher.state, pool := dispatcher.pool } fun
    dispatcher => !dispatcher.yields && (dispatcher.pool.enqueue? item).isSome).2.1
  rcases runUntil_settles dispatcher fun dispatcher =>
    !dispatcher.yields && (dispatcher.pool.enqueue? item).isSome with possible | stuck
  · rw [Bool.and_eq_true] at possible
    exact running.room_of_enqueue? possible.2
  · have rests := running.rests fun _ bound => stuck_of_advance? stuck bound
    exact running.room_of_empty rests.1

/-- A submission finds room in the end. -/
theorem Serves.submit (serves : dispatcher.Serves begin session) (path : Path) (language : Language) :
    ∃ after item, dispatcher.submit? path language = some (after, .ok item.id) ∧
      after.processor = dispatcher.processor ∧ item.path = path ∧ item.language = language ∧
      after.Serves begin (after.within { session with accepted := session.accepted ++ [item] }) := by
  obtain ⟨led, state, pool, staffed, quiet, notCalled⟩ := serves
  let item := (dispatcher.pool.number path language).2
  let reserved := { dispatcher with pool := (dispatcher.pool.reserve path language).1 }
  let settled := reserved.runUntil fun dispatcher =>
    !dispatcher.yields && (dispatcher.pool.enqueue? item).isSome
  have manned : reserved.pool.Staffed := staffed.reserve path language
  obtain ⟨processor, running, moved⟩ := leads_runUntil manned
    { session with submissions := [.counted item] } fun dispatcher =>
      !dispatcher.yields && (dispatcher.pool.enqueue? item).isSome
  have offered := running.offer (Serves.room manned item) item
  -- The workers run between the second and the third of its four steps, until there is room.
  have numbered : begin.Leads dispatcher.processor
      { session with
        pool := (dispatcher.pool.number path language).1, submissions := [.numbered item] } := by
    refine led.step (.submit path language) ?_
    rw [step?, notCalled, pool, quiet]
    rfl
  have counted : begin.Leads dispatcher.processor
      (reserved.within { session with submissions := [.counted item] }) := by
    refine numbered.step (.submission 0) ?_
    rw [within, ← state]
    rfl
  have accepted : begin.Leads dispatcher.processor
      { settled.within session with
        pool := settled.pool.append item, submissions := [.accepted]
        accepted := session.accepted ++ [item] } := by
    refine (counted.trans moved).step (.submission 0) ?_
    change (settled.pool.offer? item).map _ = _
    rw [offered]
    rfl
  refine ⟨{ settled with pool := (settled.pool.append item).accept }, item, ?_, processor, rfl, rfl,
    ?_, rfl, rfl, (running.append item).accept, quiet, notCalled⟩
  · change (settled.pool.enqueue? item).map _ = _
    rw [Pool.enqueue?, offered]
    rfl
  · have returned := accepted.step (.submission 0) rfl
    rw [within, quiet]
    exact processor.symm ▸ returned

theorem Serves.drainResults (serves : dispatcher.Serves begin session) :
    let after := dispatcher.drainResults.1
    after.Serves begin (after.within
      { session with received := session.received ++ dispatcher.drainResults.2 }) := by
  obtain ⟨led, state, pool, staffed, quiet, notCalled⟩ := serves
  refine ⟨?_, rfl, rfl, staffed.drainResults, quiet, notCalled⟩
  refine led.step .drainResults ?_
  rw [step?, pool, state]
  rfl

/-- Everything submitted is done in the end. -/
theorem Serves.wait (serves : dispatcher.Serves begin session) (balanced : begin.Balanced) :
    let after := dispatcher.wait.1
    after.processor = dispatcher.processor ∧ after.Serves begin (after.within session) ∧
      after.pool.outstanding = 0 := by
  obtain ⟨led, state, pool, staffed, quiet, notCalled⟩ := serves
  let after := dispatcher.wait.1
  obtain ⟨processor, running, moved⟩ :=
    leads_runUntil staffed session fun dispatcher => dispatcher.pool.outstanding == 0
  have shown : dispatcher.within session = session := by
    rw [within, ← state, ← pool]
  have led' : begin.Leads dispatcher.processor (after.within session) :=
    led.trans (shown ▸ moved)
  refine ⟨processor, ⟨processor.symm ▸ led', rfl, rfl, running, quiet, notCalled⟩, ?_⟩
  rcases runUntil_settles dispatcher fun dispatcher => dispatcher.pool.outstanding == 0 with
    done | stuck
  · exact beq_iff_eq.mp done
  · obtain ⟨empty, rests⟩ := running.rests fun _ bound => stuck_of_advance? stuck bound
    obtain ⟨moves, ran⟩ := led'
    have outstanding := (balanced.run ran).outstanding
    have nobody : after.pool.workers.countP Worker.isBusy = 0 :=
      List.countP_eq_zero.mpr fun worker member => by simp [rests worker member]
    change after.pool.outstanding = after.pool.queue.items.length + after.pool.workers.countP _ +
      session.submissions.countP _ + session.closing.uncounted at outstanding
    rw [outstanding, nobody, quiet, notCalled, show after.pool.queue.items = [] from empty]
    rfl

/-- Where nothing waits and nobody is busy, shutdown leaves the shared state alone. -/
theorem state_shutDown (idle : ∀ worker ∈ dispatcher.pool.workers, worker.isBusy = false) :
    dispatcher.shutDown.state = dispatcher.state := by
  let closed := { dispatcher with pool := dispatcher.pool.refuse.discard }
  have kept := @runUntil_induction _ _ closed
    (fun after => after.state = dispatcher.state ∧ after.pool.queue.isShutDown = true ∧
      ∀ worker ∈ after.pool.workers, worker.isBusy = false) (fun _ => false)
    ⟨rfl, rfl, idle⟩ ?_
  · exact kept.1
  rintro current next ⟨state, shut, idle⟩ advanced
  obtain ⟨index, state', pool', stepped, rfl⟩ := exists_of_advance? advanced
  have busy {worker : Worker ρ} (found : current.pool.workers[index]? = some worker) :
      worker.isBusy = false := idle worker (List.mem_of_getElem? found)
  cases Pool.turn_of_advance? stepped with
  | take item rest isIdle running => exact absurd shut (by simp [running])
  | stop isIdle =>
    refine ⟨state, shut, fun worker member => ?_⟩
    rcases List.mem_or_eq_of_mem_set member with old | rfl
    · exact idle worker old
    · rfl
  | prepare item content _ held => cases busy held
  | fail item verdict _ held => cases busy held
  | complete item content verdict _ ready => cases busy ready
  | report result decided => cases busy decided
  | finish reported => cases busy reported

end Dispatcher

end DepAtlas
