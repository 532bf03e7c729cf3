import DepAtlas.Dispatch.Pool

/-!
A pool together with its processor and a schedule. The schedule says which worker is to move next; where
that worker cannot move, the first one that can does. With the schedule fixed, every operation is a
function.
-/

namespace DepAtlas

/-- Which worker moves at a given step; `none` lets the caller go on as long as it can. -/
abbrev Schedule := Nat → Option Nat

namespace Schedule

/-- The caller goes on as long as it can, and then the first worker that can. -/
def eager : Schedule := fun _ => none

end Schedule

/-- A pool at work. -/
structure Dispatcher (σ ρ : Type) where
  processor : Processor σ ρ
  /-- The state that the workers share. -/
  state : σ
  pool : Pool ρ
  schedule : Schedule
  /-- Number of steps so far. -/
  ticks : Nat := 0

namespace Dispatcher

variable {σ ρ : Type}

/-- A dispatcher that has not started. -/
def create (processor : Processor σ ρ) (state : σ) (schedule : Schedule) (threads capacity : Nat) :
    Except DispatchError (Dispatcher σ ρ) :=
  (Pool.create threads capacity).map fun pool => { processor, state, pool, schedule }

def start (dispatcher : Dispatcher σ ρ) : Except DispatchError (Dispatcher σ ρ) :=
  dispatcher.pool.start.map fun pool => { dispatcher with pool }

/-- The worker whose turn it is takes a step, or the first one that can; `none` if no worker can. -/
def advance? (dispatcher : Dispatcher σ ρ) : Option (Dispatcher σ ρ) :=
  let preferred := (dispatcher.schedule dispatcher.ticks).toList
  let order := preferred ++ List.range dispatcher.pool.workers.length
  (order.findSome? fun index =>
    dispatcher.pool.advance? dispatcher.processor index dispatcher.state).map fun (state, pool) =>
      { dispatcher with state, pool, ticks := dispatcher.ticks + 1 }

/-- Lets workers move, at most `bound` steps, until a condition holds or none of them can. -/
def settle (condition : Dispatcher σ ρ → Bool) : Nat → Dispatcher σ ρ → Dispatcher σ ρ
  | 0, dispatcher => dispatcher
  | bound + 1, dispatcher =>
    if condition dispatcher then dispatcher
    else
      match dispatcher.advance? with
      | some dispatcher => settle condition bound dispatcher
      | none => dispatcher

/-- Lets workers move until a condition holds or none of them can. -/
def runUntil (dispatcher : Dispatcher σ ρ) (condition : Dispatcher σ ρ → Bool) : Dispatcher σ ρ :=
  settle condition dispatcher.pool.remaining dispatcher

/-- Whether the schedule gives the next step to a worker. -/
def yields (dispatcher : Dispatcher σ ρ) : Bool :=
  (dispatcher.schedule dispatcher.ticks).isSome

/-- Submits a file. Workers move while the schedule says so and as long as the queue is full; `none` if
it stays full for ever. -/
def submit? (dispatcher : Dispatcher σ ρ) (path : Path) (language : Language) :
    Option (Dispatcher σ ρ × Except DispatchError Nat) :=
  let (pool, item) := dispatcher.pool.reserve path language
  let dispatcher := { dispatcher with pool }.runUntil fun dispatcher =>
    !dispatcher.yields && (dispatcher.pool.enqueue? item).isSome
  (dispatcher.pool.enqueue? item).map fun (pool, reply) => ({ dispatcher with pool }, reply)

/-- Submits files one after the other, up to the first that is refused. -/
def submitAll? (dispatcher : Dispatcher σ ρ) :
    List (Path × Language) → Option (Dispatcher σ ρ × Except DispatchError (List Nat))
  | [] => some (dispatcher, .ok [])
  | (path, language) :: rest => do
    match ← dispatcher.submit? path language with
    | (dispatcher, .error cause) => return (dispatcher, .error cause)
    | (dispatcher, .ok id) =>
      let (dispatcher, reply) ← dispatcher.submitAll? rest
      return (dispatcher, reply.map (id :: ·))

/-- Waits until everything submitted is done; returns whether it is. -/
def wait (dispatcher : Dispatcher σ ρ) : Dispatcher σ ρ × Bool :=
  let dispatcher := dispatcher.runUntil fun dispatcher => dispatcher.pool.outstanding == 0
  (dispatcher, dispatcher.pool.outstanding == 0)

def drainResults (dispatcher : Dispatcher σ ρ) : Dispatcher σ ρ × List WorkResult :=
  let (pool, results) := dispatcher.pool.drainResults
  ({ dispatcher with pool }, results)

/-- Takes the oldest reported result, if there is one. -/
def tryResult (dispatcher : Dispatcher σ ρ) : Dispatcher σ ρ × Option WorkResult :=
  let (pool, result) := dispatcher.pool.takeResult
  ({ dispatcher with pool }, result)

/-- Waits for a result and takes it; `none` if none comes. -/
def receive (dispatcher : Dispatcher σ ρ) : Dispatcher σ ρ × Option WorkResult :=
  (dispatcher.runUntil fun dispatcher => !dispatcher.pool.results.isEmpty).tryResult

/-- Stops the workers; waiting items are given up. -/
def shutDown (dispatcher : Dispatcher σ ρ) : Dispatcher σ ρ :=
  let dispatcher := { dispatcher with pool := dispatcher.pool.refuse.discard }
  let dispatcher := dispatcher.runUntil fun _ => false
  { dispatcher with pool := dispatcher.pool.join }

end Dispatcher

end DepAtlas
