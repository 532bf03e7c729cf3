import DepAtlas.Error

/-!
A bounded queue of work, first in, first out. Each operation is one indivisible step; where a caller
would have to wait for others, the step is not possible yet. After shutdown nothing is accepted and
nothing handed out, but what is left can still be drained.
-/

namespace DepAtlas

/-- A queue of work. -/
structure WorkQueue (α : Type) where
  /-- Waiting items, the oldest first. -/
  items : List α := []
  isShutDown : Bool := false
  /-- Number of items that may wait; at least one. -/
  capacity : Nat
deriving Repr

namespace WorkQueue

variable {α : Type}

/-- An empty queue. A capacity of zero counts as one. -/
def create (capacity : Nat) : WorkQueue α :=
  { capacity := max capacity 1 }

def isFull (queue : WorkQueue α) : Bool :=
  queue.capacity ≤ queue.items.length

/-- Appends an item; `none` while the queue is full, where a caller waits. -/
def push? (queue : WorkQueue α) (item : α) : Option (Except DispatchError (WorkQueue α)) :=
  if queue.isShutDown then some (.error .shutDown)
  else if queue.isFull then none
  else some (.ok { queue with items := queue.items ++ [item] })

/-- Appends an item, or gives up on a queue that stays full for so many milliseconds. -/
def pushWithin (queue : WorkQueue α) (item : α) (milliseconds : Nat) :
    Except DispatchError (WorkQueue α) :=
  (queue.push? item).getD (.error (.queueFull milliseconds))

/-- Takes the oldest item; `none` while the queue is empty, where a caller waits. After shutdown no item
is handed out. -/
def pop? (queue : WorkQueue α) : Option (WorkQueue α × Option α) :=
  if queue.isShutDown then some (queue, none)
  else
    match queue.items with
    | [] => none
    | item :: rest => some ({ queue with items := rest }, some item)

/-- Refuses further items and stops handing items out. -/
def shutDown (queue : WorkQueue α) : WorkQueue α :=
  { queue with isShutDown := true }

/-- Takes everything that is left. -/
def drain (queue : WorkQueue α) : WorkQueue α × List α :=
  ({ queue with items := [] }, queue.items)

def size (queue : WorkQueue α) : Nat :=
  queue.items.length

end WorkQueue

end DepAtlas
