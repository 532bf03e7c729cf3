import DepAtlas.Dependency
import DepAtlas.Dispatch.Queue
import DepAtlas.Incremental.Fingerprint
import DepAtlas.Ratio

/-!
A pool of workers fed by a queue. The pool is a state with one function per indivisible step: a caller
gets a number, counts its item and offers it to the queue, a worker takes an item, prepares it, completes
it, reports the result and is done with it, and shutdown refuses, drains and joins. Every interleaving of
callers and workers is a sequence of these steps.
-/

namespace DepAtlas

/-- A file to work on. -/
structure WorkItem where
  id : Nat
  path : Path
  language : Language
deriving Repr

/-- What the work on a file gave. -/
structure ProcessedFile where
  dependencies : List Dependency := []
  /-- Whether an earlier result was used again. -/
  reused : Bool := false
  /-- How the file compares with what is remembered of it, where that is tracked. -/
  state : Option FileState := none
deriving Repr

/-- How the work on a file ends. -/
inductive Verdict
  | done (file : ProcessedFile)
  | failed (cause : Failure)
  /-- The work broke off, perhaps with a reason. -/
  | crashed (reason : Option String)
deriving Repr

namespace Verdict

/-- The outcome that is reported; a crash counts as a failure to extract. -/
def outcome (verdict : Verdict) (path : Path) : Except Failure ProcessedFile :=
  match verdict with
  | done file => .ok file
  | failed cause => .error cause
  | crashed reason => .error (.extract (.crashed path (reason.getD "unknown panic")))

def ofExcept : Except Failure ProcessedFile → Verdict
  | .ok file => .done file
  | .error cause => .failed cause

end Verdict

/-- The reported result for an item. -/
structure WorkResult where
  item : WorkItem
  outcome : Except Failure ProcessedFile

namespace WorkResult

def isSuccess (result : WorkResult) : Bool :=
  result.outcome.toOption.isSome

end WorkResult

/-- How files are worked on, in two steps that share a state: what `prepare` yields for an item is what
`complete` starts from. -/
structure Processor (σ ρ : Type) where
  prepare : σ → WorkItem → σ × Except Verdict ρ
  complete : σ → WorkItem → ρ → σ × Verdict

namespace Processor

variable {σ ρ : Type}

/-- Both steps, one directly after the other. -/
def process (processor : Processor σ ρ) (state : σ) (item : WorkItem) : σ × Verdict :=
  match processor.prepare state item with
  | (state, .error verdict) => (state, verdict)
  | (state, .ok prepared) => processor.complete state item prepared

end Processor

/-- What a worker is about to do. -/
inductive Worker (ρ : Type)
  /-- Take an item. -/
  | idle
  /-- Prepare the item it holds. -/
  | holding (item : WorkItem)
  /-- Complete the item it has prepared. -/
  | prepared (item : WorkItem) (content : ρ)
  /-- Report a result. -/
  | decided (result : WorkResult)
  /-- Be done with an item whose result is reported. -/
  | reported
  /-- Nothing more. -/
  | stopped

namespace Worker

variable {ρ : Type}

/-- Number of steps that a worker takes at most without taking another item. -/
def remaining : Worker ρ → Nat
  | stopped => 0
  | idle => 1
  | reported => 2
  | decided _ => 3
  | prepared _ _ => 4
  | holding _ => 5

end Worker

/-- Counts of what a pool has done. -/
structure PoolStats where
  workers : Nat
  /-- Items accepted. -/
  queued : Nat
  /-- Items worked on, with those that failed. -/
  processed : Nat
  failed : Nat
  /-- Items submitted and not done. -/
  pending : Nat
  isShutDown : Bool
deriving Repr, DecidableEq

/-- A pool of workers with its queue and the results that nobody has received yet. -/
structure Pool (ρ : Type) where
  threads : Nat
  queue : WorkQueue WorkItem
  /-- Items submitted and not done. -/
  outstanding : Nat := 0
  queued : Nat := 0
  processed : Nat := 0
  failed : Nat := 0
  nextId : Nat := 0
  started : Bool := false
  workers : List (Worker ρ) := []
  results : List WorkResult := []

namespace Pool

variable {σ ρ : Type}

def maxThreads : Nat := 16

/-- A pool that has not started. -/
def create (threads capacity : Nat) : Except DispatchError (Pool ρ) :=
  if threads = 0 ∨ maxThreads < threads then .error (.invalidThreadCount threads maxThreads)
  else .ok { threads, queue := WorkQueue.create capacity }

/-- Starts the workers; once only, and not after shutdown. -/
def start (pool : Pool ρ) : Except DispatchError (Pool ρ) :=
  if pool.queue.isShutDown then .error .shutDown
  else if pool.started then .error .alreadyStarted
  else .ok { pool with started := true, workers := List.replicate pool.threads .idle }

/-- Counts items as done. -/
def finish (pool : Pool ρ) (count : Nat) : Pool ρ :=
  { pool with outstanding := pool.outstanding - count }

/-- A submission gets the next number. -/
def number (pool : Pool ρ) (path : Path) (language : Language) : Pool ρ × WorkItem :=
  ({ pool with nextId := pool.nextId + 1 }, { id := pool.nextId, path, language })

/-- An item counts as submitted. -/
def count (pool : Pool ρ) : Pool ρ :=
  { pool with outstanding := pool.outstanding + 1 }

/-- First half of a submission: the item gets its number and counts as submitted. -/
def reserve (pool : Pool ρ) (path : Path) (language : Language) : Pool ρ × WorkItem :=
  let (pool, item) := pool.number path language
  (pool.count, item)

/-- An item is queued or refused; `none` while the queue is full. -/
def offer? (pool : Pool ρ) (item : WorkItem) : Option (Pool ρ × Except DispatchError Unit) :=
  (pool.queue.push? item).map fun
    | .ok queue => ({ pool with queue }, .ok ())
    | .error cause => (pool, .error cause)

/-- An item counts as accepted. -/
def accept (pool : Pool ρ) : Pool ρ :=
  { pool with queued := pool.queued + 1 }

/-- Second half of a submission: the item is queued, or refused and no longer counted; `none` while the
queue is full. -/
def enqueue? (pool : Pool ρ) (item : WorkItem) : Option (Pool ρ × Except DispatchError Nat) :=
  (pool.offer? item).map fun
    | (pool, .ok ()) => (pool.accept, .ok item.id)
    | (pool, .error cause) => (pool.finish 1, .error cause)

/-- Changes what a worker is about to do. -/
def setWorker (pool : Pool ρ) (index : Nat) (worker : Worker ρ) : Pool ρ :=
  { pool with workers := pool.workers.set index worker }

/-- A worker takes an item, or stops after shutdown; `none` while the queue is empty. -/
def take? (pool : Pool ρ) (index : Nat) : Option (Pool ρ) :=
  pool.queue.pop?.map fun
    | (queue, some item) => { pool with queue }.setWorker index (.holding item)
    | (queue, none) => { pool with queue }.setWorker index .stopped

/-- A worker has a verdict on its item. -/
def decide (pool : Pool ρ) (index : Nat) (item : WorkItem) (verdict : Verdict) : Pool ρ :=
  let result : WorkResult := { item, outcome := verdict.outcome item.path }
  { pool with
    processed := pool.processed + 1
    failed := if result.isSuccess then pool.failed else pool.failed + 1 }.setWorker index
      (.decided result)

def report (pool : Pool ρ) (index : Nat) (result : WorkResult) : Pool ρ :=
  { pool with results := pool.results ++ [result] }.setWorker index .reported

/-- The next step of a worker, if it can take one. -/
def advance? (processor : Processor σ ρ) (index : Nat) (state : σ) (pool : Pool ρ) :
    Option (σ × Pool ρ) :=
  match pool.workers[index]? with
  | none => none
  | some .stopped => none
  | some .idle => (pool.take? index).map fun pool => (state, pool)
  | some (.holding item) =>
    match processor.prepare state item with
    | (state, .error verdict) => some (state, pool.decide index item verdict)
    | (state, .ok content) => some (state, pool.setWorker index (.prepared item content))
  | some (.prepared item content) =>
    let (state, verdict) := processor.complete state item content
    some (state, pool.decide index item verdict)
  | some (.decided result) => some (state, pool.report index result)
  | some .reported => some (state, (pool.finish 1).setWorker index .idle)

/-- Number of steps that the workers take at most. -/
def remaining (pool : Pool ρ) : Nat :=
  5 * pool.queue.size + total Worker.remaining pool.workers

def drainResults (pool : Pool ρ) : Pool ρ × List WorkResult :=
  ({ pool with results := [] }, pool.results)

/-- Takes the oldest reported result, if there is one. -/
def takeResult (pool : Pool ρ) : Pool ρ × Option WorkResult :=
  match pool.results with
  | [] => (pool, none)
  | result :: rest => ({ pool with results := rest }, some result)

/-- First step of shutdown: nothing more is accepted or handed out. -/
def refuse (pool : Pool ρ) : Pool ρ :=
  { pool with queue := pool.queue.shutDown }

/-- Takes the waiting items away. -/
def drain (pool : Pool ρ) : Pool ρ × List WorkItem :=
  let (queue, discarded) := pool.queue.drain
  ({ pool with queue }, discarded)

/-- Second step of shutdown: waiting items are given up and count as done. -/
def discard (pool : Pool ρ) : Pool ρ :=
  let (pool, discarded) := pool.drain
  pool.finish discarded.length

/-- Last step of shutdown, once all workers have stopped. -/
def join (pool : Pool ρ) : Pool ρ :=
  { pool with workers := [] }

def stats (pool : Pool ρ) : PoolStats where
  workers := pool.workers.length
  queued := pool.queued
  processed := pool.processed
  failed := pool.failed
  pending := pool.outstanding
  isShutDown := pool.queue.isShutDown

end Pool

end DepAtlas
