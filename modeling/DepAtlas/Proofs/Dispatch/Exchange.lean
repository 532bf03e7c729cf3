import Mathlib.Data.List.Basic
import DepAtlas.Dispatch.Queue

/-!
A queue between any number of producers and consumers. A call waits until it can take effect, effects are
indivisible, and they come in any order. Whatever the order, the items leave the queue in the order in which
they were accepted: none is lost, none comes twice.
-/

namespace DepAtlas

variable {α : Type}

inductive QueueCall (α : Type)
  | push (item : α)
  | pushWithin (item : α) (milliseconds : Nat)
  | pop
  | drain
  | shutDown

/-- The item that a call offers. -/
def QueueCall.offered? : QueueCall α → Option α
  | push item | pushWithin item _ => some item
  | pop | drain | shutDown => none

inductive QueueAnswer (α : Type)
  | pushed (outcome : Except DispatchError Unit)
  | popped (item? : Option α)
  | drained (items : List α)
  | shutDown

/-- A call that has taken effect. -/
structure QueueEvent (α : Type) where
  call : QueueCall α
  answer : QueueAnswer α

namespace QueueEvent

/-- The item that was accepted. -/
def accepted (event : QueueEvent α) : List α :=
  match event.call.offered?, event.answer with
  | some item, .pushed (.ok ()) => [item]
  | _, _ => []

/-- The items that were taken out. -/
def removed (event : QueueEvent α) : List α :=
  match event.answer with
  | .popped item? => item?.toList
  | .drained items => items
  | .pushed _ | .shutDown => []

end QueueEvent

namespace WorkQueue

def afterPush (queue : WorkQueue α) : Except DispatchError (WorkQueue α) → WorkQueue α × QueueAnswer α
  | .ok queue => (queue, .pushed (.ok ()))
  | .error cause => (queue, .pushed (.error cause))

/-- The effect of a call whose turn it is, with its answer; `none` while it has to wait. A push that may
wait only so long gives up when it is late. -/
def answer? (queue : WorkQueue α) (isLate : Bool) : QueueCall α → Option (WorkQueue α × QueueAnswer α)
  | .push item => (queue.push? item).map queue.afterPush
  | .pushWithin item milliseconds =>
    if isLate then some (queue.afterPush (queue.pushWithin item milliseconds))
    else (queue.push? item).map queue.afterPush
  | .pop => queue.pop?.map fun (queue, item?) => (queue, .popped item?)
  | .drain =>
    let (queue, items) := queue.drain
    some (queue, .drained items)
  | .shutDown => some (queue.shutDown, .shutDown)

end WorkQueue

/-- A queue with the calls in progress and what has taken effect so far. -/
structure Exchange (α : Type) where
  queue : WorkQueue α
  calls : List (QueueCall α) := []
  events : List (QueueEvent α) := []

inductive ExchangeMove (α : Type)
  /-- Somebody calls. -/
  | call (call : QueueCall α)
  /-- It is the turn of a call in progress. -/
  | turn (index : Nat) (isLate : Bool)

namespace Exchange

def turn (exchange : Exchange α) (index : Nat) (isLate : Bool) (call : QueueCall α) : Exchange α :=
  match exchange.queue.answer? isLate call with
  | none => exchange
  | some (queue, answer) => {
      queue
      calls := exchange.calls.eraseIdx index
      events := exchange.events ++ [{ call, answer }] }

def step (exchange : Exchange α) : ExchangeMove α → Exchange α
  | .call call => { exchange with calls := exchange.calls ++ [call] }
  | .turn index isLate =>
    match exchange.calls[index]? with
    | none => exchange
    | some call => exchange.turn index isLate call

def run (exchange : Exchange α) (moves : List (ExchangeMove α)) : Exchange α :=
  moves.foldl step exchange

/-- The items accepted so far, in order. -/
def accepted (exchange : Exchange α) : List α :=
  exchange.events.flatMap QueueEvent.accepted

/-- The items taken out so far, in order. -/
def removed (exchange : Exchange α) : List α :=
  exchange.events.flatMap QueueEvent.removed

end Exchange

/-- All that a call can do to a queue. -/
inductive QueueEffect (queue : WorkQueue α) (call : QueueCall α) : WorkQueue α → QueueAnswer α → Prop
  | accepts {item : α} (offers : call.offered? = some item) (isOpen : queue.isShutDown = false)
      (room : queue.items.length < queue.capacity) :
      QueueEffect queue call { queue with items := queue.items ++ [item] } (.pushed (.ok ()))
  | refuses {item : α} {cause : DispatchError} (offers : call.offered? = some item)
      (closed : queue.isShutDown = true ∨ queue.capacity ≤ queue.items.length) :
      QueueEffect queue call queue (.pushed (.error cause))
  | handsOut {item : α} {rest : List α} (isPop : call = .pop) (isOpen : queue.isShutDown = false)
      (oldest : queue.items = item :: rest) :
      QueueEffect queue call { queue with items := rest } (.popped (some item))
  | sendsAway (isPop : call = .pop) (closed : queue.isShutDown = true) :
      QueueEffect queue call queue (.popped none)
  | drains (isDrain : call = .drain) :
      QueueEffect queue call { queue with items := [] } (.drained queue.items)
  | shutsDown (isShutDown : call = .shutDown) :
      QueueEffect queue call { queue with isShutDown := true } .shutDown

namespace WorkQueue

variable {queue next : WorkQueue α} {call : QueueCall α} {answer : QueueAnswer α} {item : α}
  {isLate : Bool}

theorem push?_eq_none_iff :
    queue.push? item = none ↔ queue.isShutDown = false ∧ queue.capacity ≤ queue.items.length := by
  unfold push? isFull
  cases queue.isShutDown <;> simp

theorem effect_of_push {outcome : Except DispatchError (WorkQueue α)}
    (offers : call.offered? = some item) (pushed : queue.push? item = some outcome) :
    QueueEffect queue call (queue.afterPush outcome).1 (queue.afterPush outcome).2 := by
  unfold push? at pushed
  split at pushed
  case isTrue closed =>
    cases pushed
    exact .refuses offers (.inl closed)
  case isFalse isOpen =>
    split at pushed
    · cases pushed
    case isFalse room =>
      cases pushed
      refine .accepts offers (Bool.not_eq_true _ ▸ isOpen) ?_
      simpa [isFull] using room

theorem effect_of_answer (answered : queue.answer? isLate call = some (next, answer)) :
    QueueEffect queue call next answer := by
  cases call with
  | push item =>
    obtain ⟨outcome, pushed, same⟩ := Option.map_eq_some_iff.mp answered
    have effect : QueueEffect queue (.push item) _ _ := effect_of_push rfl pushed
    rwa [same] at effect
  | pushWithin item milliseconds =>
    cases pushed : queue.push? item with
    | none =>
      have full := (push?_eq_none_iff.mp pushed).2
      cases isLate with
      | false => simp [answer?, pushed] at answered
      | true =>
        simp only [answer?, pushWithin, pushed, Option.getD_none, afterPush, if_true] at answered
        cases answered
        exact .refuses rfl (.inr full)
    | some outcome =>
      have same : queue.afterPush outcome = (next, answer) := by
        -- Where the push need not wait, it makes no difference whether its time is up.
        cases isLate <;> simpa [answer?, pushWithin, pushed] using answered
      have effect : QueueEffect queue (.pushWithin item milliseconds) _ _ := effect_of_push rfl pushed
      rwa [same] at effect
  | pop =>
    simp only [answer?, pop?] at answered
    split at answered
    case isTrue closed =>
      cases answered
      exact .sendsAway rfl closed
    case isFalse isOpen =>
      split at answered
      · cases answered
      case h_2 item rest oldest =>
        cases answered
        exact .handsOut rfl (Bool.not_eq_true _ ▸ isOpen) oldest
  | drain =>
    cases answered
    exact .drains rfl
  | shutDown =>
    cases answered
    exact .shutsDown rfl

/-- A call waits only on an open queue, to push until there is room or to pop until there is an item. -/
theorem of_answer?_eq_none (waits : queue.answer? isLate call = none) :
    queue.isShutDown = false ∧
      if call.offered?.isSome then queue.capacity ≤ queue.items.length else queue.items = [] := by
  cases call with
  | push item => exact push?_eq_none_iff.mp (Option.map_eq_none_iff.mp waits)
  | pushWithin item milliseconds =>
    cases isLate with
    | false => exact push?_eq_none_iff.mp (Option.map_eq_none_iff.mp waits)
    | true => cases waits
  | pop =>
    have waits := Option.map_eq_none_iff.mp waits
    unfold pop? at waits
    split at waits
    · cases waits
    case isFalse isOpen =>
      split at waits
      case h_1 empty => exact ⟨Bool.not_eq_true _ ▸ isOpen, empty⟩
      · cases waits
  | drain => cases waits
  | shutDown => cases waits

end WorkQueue

namespace QueueEffect

variable {queue next : WorkQueue α} {call : QueueCall α} {answer : QueueAnswer α}

theorem capacity (effect : QueueEffect queue call next answer) : next.capacity = queue.capacity := by
  cases effect <;> rfl

theorem isShutDown (effect : QueueEffect queue call next answer)
    (closed : queue.isShutDown = true ∨ call = .shutDown) : next.isShutDown = true := by
  cases effect with
  | accepts offers | refuses offers =>
    rcases closed with closed | rfl
    · exact closed
    · cases offers
  | handsOut isPop | sendsAway isPop =>
    rcases closed with closed | rfl
    · exact closed
    · cases isPop
  | drains isDrain =>
    rcases closed with closed | rfl
    · exact closed
    · cases isDrain
  | shutsDown => rfl

theorem length_le (effect : QueueEffect queue call next answer)
    (bounded : queue.items.length ≤ queue.capacity) : next.items.length ≤ queue.capacity := by
  cases effect with
  | accepts _ _ room =>
    rw [List.length_append, List.length_singleton]
    exact room
  | refuses | sendsAway | shutsDown => exact bounded
  | handsOut _ _ oldest =>
    rw [oldest, List.length_cons] at bounded
    exact Nat.le_of_succ_le bounded
  | drains => exact Nat.zero_le _

/-- What was there and what is accepted is what is taken out and what stays, in this order. -/
theorem conserves (effect : QueueEffect queue call next answer) :
    queue.items ++ QueueEvent.accepted ⟨call, answer⟩ =
      QueueEvent.removed ⟨call, answer⟩ ++ next.items := by
  cases effect with
  | accepts offers => simp [QueueEvent.accepted, QueueEvent.removed, offers]
  | refuses offers => simp [QueueEvent.accepted, QueueEvent.removed]
  | handsOut isPop _ oldest => simp [QueueEvent.accepted, QueueEvent.removed, oldest]
  | sendsAway | drains | shutsDown => simp [QueueEvent.accepted, QueueEvent.removed]

/-- A queue that is shut down accepts nothing, and hands nothing out but to be drained. -/
theorem of_isShutDown (effect : QueueEffect queue call next answer)
    (closed : queue.isShutDown = true) :
    QueueEvent.accepted ⟨call, answer⟩ = [] ∧ ∀ item, answer ≠ .popped (some item) := by
  cases effect with
  | accepts _ isOpen => cases closed.symm.trans isOpen
  | handsOut _ isOpen => cases closed.symm.trans isOpen
  | refuses | sendsAway | drains | shutsDown => simp [QueueEvent.accepted]

end QueueEffect

namespace Exchange

variable {exchange : Exchange α} {capacity : Nat}

/-- What is promised of a queue at any moment. -/
structure FirstInFirstOut (capacity : Nat) (exchange : Exchange α) : Prop where
  bounded : exchange.queue.items.length ≤ max capacity 1
  /-- What was accepted is what was taken out, in that order, and then what is still waiting. -/
  conserved : exchange.accepted = exchange.removed ++ exchange.queue.items
  /-- A push is refused only where the queue is shut down or full, and then changes nothing. -/
  refused : ∀ call isLate queue cause,
    exchange.queue.answer? isLate call = some (queue, .pushed (.error cause)) →
      queue = exchange.queue ∧
        (exchange.queue.isShutDown = true ∨ max capacity 1 ≤ exchange.queue.items.length)
  /-- A call waits only on an open queue, to push until there is room or to pop until there is an item. -/
  waits : ∀ call isLate, exchange.queue.answer? isLate call = none →
    exchange.queue.isShutDown = false ∧
      if call.offered?.isSome then max capacity 1 ≤ exchange.queue.items.length
      else exchange.queue.items = []
  /-- After a shutdown no push is accepted and no pop hands out an item. -/
  closed : ∀ before event after, exchange.events = before ++ event :: after → event.call = .shutDown →
    ∀ later ∈ after, later.accepted = [] ∧ ∀ item, later.answer ≠ .popped (some item)
  /-- At any time, also after a shutdown, everything that is left can be drained. -/
  drains : ∀ isLate, exchange.queue.answer? isLate .drain =
    some ({ exchange.queue with items := [] }, .drained exchange.queue.items)

/-- What every effect keeps. -/
structure Conserving (capacity : Nat) (exchange : Exchange α) : Prop where
  capacity : exchange.queue.capacity = max capacity 1
  bounded : exchange.queue.items.length ≤ exchange.queue.capacity
  conserved : exchange.accepted = exchange.removed ++ exchange.queue.items
  isShutDown : ∀ event ∈ exchange.events, event.call = .shutDown → exchange.queue.isShutDown = true
  closed : ∀ before event after, exchange.events = before ++ event :: after → event.call = .shutDown →
    ∀ later ∈ after, later.accepted = [] ∧ ∀ item, later.answer ≠ .popped (some item)

theorem conserving_begin (capacity : Nat) :
    Conserving capacity ({ queue := .create capacity } : Exchange α) where
  capacity := rfl
  bounded := Nat.zero_le _
  conserved := rfl
  isShutDown _ member := nomatch member
  closed before event after parts := by simp at parts

namespace Conserving

theorem turn (conserving : exchange.Conserving capacity) (index : Nat) (isLate : Bool)
    (call : QueueCall α) : (exchange.turn index isLate call).Conserving capacity := by
  unfold Exchange.turn
  split
  · exact conserving
  case h_2 next answer answered =>
  have effect := WorkQueue.effect_of_answer answered
  refine ⟨effect.capacity.trans conserving.capacity, ?_, ?_, ?_, ?_⟩
  · rw [effect.capacity]
    exact effect.length_le conserving.bounded
  · have before : exchange.events.flatMap QueueEvent.accepted =
        exchange.events.flatMap QueueEvent.removed ++ exchange.queue.items := conserving.conserved
    simp only [accepted, removed, List.flatMap_append, List.flatMap_singleton]
    rw [before, List.append_assoc, List.append_assoc, effect.conserves]
  · intro event member isShutDown
    rcases List.mem_append.mp member with earlier | last
    · exact effect.isShutDown (.inl (conserving.isShutDown event earlier isShutDown))
    · rw [List.mem_singleton.mp last] at isShutDown
      exact effect.isShutDown (.inr isShutDown)
  · intro before event after parts isShutDown later member
    -- The effect is the last event: those before it are covered, and it follows the shutdown itself.
    rcases List.eq_nil_or_concat' after with rfl | ⟨front, last, rfl⟩
    · cases member
    rw [← List.cons_append, ← List.append_assoc] at parts
    obtain ⟨earlier, isLast⟩ := List.append_inj' parts rfl
    rcases List.mem_append.mp member with inFront | isLater
    · exact conserving.closed before event front earlier isShutDown later inFront
    · have shut := conserving.isShutDown event (by simp [earlier]) isShutDown
      rw [List.mem_singleton.mp isLater, ← List.singleton_inj.mp isLast]
      exact effect.of_isShutDown shut

theorem step (conserving : exchange.Conserving capacity) (move : ExchangeMove α) :
    (exchange.step move).Conserving capacity := by
  cases move with
  | call call => exact ⟨conserving.capacity, conserving.bounded, conserving.conserved,
      conserving.isShutDown, conserving.closed⟩
  | turn index isLate =>
    unfold Exchange.step
    dsimp only
    split
    · exact conserving
    · exact conserving.turn index isLate _

theorem run (conserving : exchange.Conserving capacity) (moves : List (ExchangeMove α)) :
    (exchange.run moves).Conserving capacity := by
  induction moves generalizing exchange with
  | nil => exact conserving
  | cons move rest ih => exact ih (conserving.step move)

end Conserving

/-- Whatever is called and whoever's turn it is, the queue keeps its bound, loses and repeats nothing, and
hands the items out in the order in which it accepted them. -/
theorem run_first_in_first_out (capacity : Nat) (moves : List (ExchangeMove α)) :
    FirstInFirstOut capacity (run { queue := .create capacity } moves) := by
  have conserving := (conserving_begin capacity).run moves
  refine ⟨conserving.capacity ▸ conserving.bounded, conserving.conserved, ?_, ?_, conserving.closed,
    fun _ => rfl⟩
  · intro call isLate queue cause answered
    rw [← conserving.capacity]
    cases WorkQueue.effect_of_answer answered with
    | refuses _ closed => exact ⟨rfl, closed⟩
  · intro call isLate waits
    rw [← conserving.capacity]
    exact WorkQueue.of_answer?_eq_none waits

end Exchange

end DepAtlas
