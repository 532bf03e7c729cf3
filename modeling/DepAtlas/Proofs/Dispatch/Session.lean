import DepAtlas.Dispatch.Pool

/-!
A pool among its callers: submissions and a shutdown in progress, and what has been accepted, received
and given up so far. A move is one indivisible step of one of them, so that a list of moves is an
interleaving.
-/

namespace DepAtlas

/-- What a submission is about to do. -/
inductive Submission
  /-- Count its item. -/
  | numbered (item : WorkItem)
  /-- Offer its item to the queue. -/
  | counted (item : WorkItem)
  /-- Count its item as accepted and return. -/
  | accepted
  /-- Undo the count of its item and return. -/
  | refused

/-- How far shutdown has come. -/
inductive Closing
  | notCalled
  /-- Nothing is accepted or handed out any more. -/
  | refusing
  /-- So many waiting items are given up and still counted. -/
  | discarding (count : Nat)
  /-- Workers are waited for. -/
  | joining
  | returned

namespace Closing

/-- Whether a call of shutdown is in progress. -/
def isActive : Closing → Bool
  | notCalled | returned => false
  | refusing | discarding _ | joining => true

end Closing

namespace Worker

variable {ρ : Type}

def isStopped : Worker ρ → Bool
  | stopped => true
  | _ => false

/-- The item that a worker holds, up to its report. -/
def item? : Worker ρ → Option WorkItem
  | holding item | prepared item _ => some item
  | decided result => some result.item
  | idle | reported | stopped => none

end Worker

structure Session (σ ρ : Type) where
  /-- The state that the workers share. -/
  state : σ
  pool : Pool ρ
  submissions : List Submission := []
  closing : Closing := .notCalled
  accepted : List WorkItem := []
  received : List WorkResult := []
  discarded : List WorkItem := []

inductive Move
  | start
  /-- A caller begins to submit a file. -/
  | submit (path : Path) (language : Language)
  /-- A submission takes its next step. -/
  | submission (index : Nat)
  | worker (index : Nat)
  | takeResult
  | drainResults
  /-- Shutdown is called, or takes its next step. -/
  | shutDown

namespace Session

variable {σ ρ : Type}

def submissionStep? (session : Session σ ρ) (index : Nat) : Submission → Option (Session σ ρ)
  | .numbered item =>
    some { session with
      pool := session.pool.count
      submissions := session.submissions.set index (.counted item) }
  | .counted item =>
    (session.pool.offer? item).map fun
      | (pool, .ok ()) =>
        { session with
          pool
          submissions := session.submissions.set index .accepted
          accepted := session.accepted ++ [item] }
      | (pool, .error _) =>
        { session with pool, submissions := session.submissions.set index .refused }
  | .accepted =>
    some { session with
      pool := session.pool.accept
      submissions := session.submissions.eraseIdx index }
  | .refused =>
    some { session with
      pool := session.pool.finish 1
      submissions := session.submissions.eraseIdx index }

/-- Shutdown is called only while nobody submits, and then nobody submits until it returns. -/
def shutDownStep? (session : Session σ ρ) : Option (Session σ ρ) :=
  match session.closing with
  | .notCalled | .returned =>
    if session.submissions.isEmpty then
      some { session with pool := session.pool.refuse, closing := .refusing }
    else none
  | .refusing =>
    let (pool, items) := session.pool.drain
    some { session with
      pool
      closing := .discarding items.length
      discarded := session.discarded ++ items }
  | .discarding count =>
    some { session with pool := session.pool.finish count, closing := .joining }
  | .joining =>
    if session.pool.workers.all Worker.isStopped then
      some { session with pool := session.pool.join, closing := .returned }
    else none

/-- One move; `none` where it is not possible. -/
def step? (processor : Processor σ ρ) (session : Session σ ρ) : Move → Option (Session σ ρ)
  | .start => session.pool.start.toOption.map fun pool => { session with pool }
  | .submit path language =>
    if session.closing.isActive then none
    else
      let (pool, item) := session.pool.number path language
      some { session with pool, submissions := session.submissions ++ [.numbered item] }
  | .submission index => session.submissions[index]?.bind (session.submissionStep? index)
  | .worker index =>
    (session.pool.advance? processor index session.state).map fun (state, pool) =>
      { session with state, pool }
  | .takeResult =>
    let (pool, result) := session.pool.takeResult
    some { session with pool, received := session.received ++ result.toList }
  | .drainResults =>
    let (pool, results) := session.pool.drainResults
    some { session with pool, received := session.received ++ results }
  | .shutDown => session.shutDownStep?

/-- Moves one after the other; `none` where one is not possible. -/
def run? (processor : Processor σ ρ) (session : Session σ ρ) : List Move → Option (Session σ ρ)
  | [] => some session
  | move :: rest => (session.step? processor move).bind (run? processor · rest)

/-- Results reported so far, those received first. -/
def sent (session : Session σ ρ) : List WorkResult :=
  session.received ++ session.pool.results

end Session

/-- How far an accepted item has come. -/
inductive Stage
  | queued
  /-- Held by a worker. -/
  | held
  /-- Its result is sent. -/
  | sent
  /-- Given up by shutdown. -/
  | discarded

/-- A place where an item can be: a position in the queue, a worker, a position among the results or
among what is given up. -/
structure Place where
  stage : Stage
  position : Nat

namespace Session

variable {σ ρ : Type}

/-- What is at the places of a stage. -/
def occupants (session : Session σ ρ) : Stage → List (Option WorkItem)
  | .queued => session.pool.queue.items.map some
  | .held => session.pool.workers.map Worker.item?
  | .sent => session.sent.map (some ·.item)
  | .discarded => session.discarded.map some

/-- The item at a place. -/
def at? (session : Session σ ρ) (place : Place) : Option WorkItem :=
  (session.occupants place.stage)[place.position]?.join

end Session

end DepAtlas
