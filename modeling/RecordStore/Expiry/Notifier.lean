import RecordStore.Action
import RecordStore.Expiry.Queue
import RecordStore.Text.Quoted

/-! # The notifier

Evictions are told to the listener by way of an executor: at once, or later from a pool or a bounded queue, when
the waiting notices are drained or the worker of the queue is stopped. A listener that breaks at once breaks the
operation that evicted; later, only the event is lost. -/

namespace RecordStore

/-- How notices get to the listener. -/
inductive Executor
  /-- In the course of the operation that evicts. -/
  | inline
  /-- Some time later. -/
  | pool (waiting : Array Notice)
  /-- Some time later and in order, as far as the queue has room. -/
  | queue (q : Queue)

/-- A listener, if there is one, with the way to it and what has gone that way so far. -/
structure Notifier where
  typeName : String
  listener? : Option Listener := none
  executor : Executor := .inline
  /-- How many notices were handed to the executor. -/
  dispatched : Nat := 0
  /-- The events that the listener has taken, in order. -/
  delivered : Array Event := #[]
  /-- How many events the listener broke on. -/
  lost : Nat := 0

namespace Notifier

def silent (typeName : String) : Notifier := { typeName }

def toListener (typeName : String) (l : Listener) (executor : Executor) : Notifier :=
  { typeName, listener? := some l, executor }

def deliver (l : Listener) (x : Notice) : Action Notifier Unit := fun n =>
  let event := x.event n.typeName l.wantsEntity
  if l.breaksOn (n.delivered.size + n.lost) event then .error (.abort .listener) { n with lost := n.lost + 1 }
  else .ok () { n with delivered := n.delivered.push event }

def notify (x : Notice) : Action Notifier Unit := fun n =>
  match n.listener? with
  | none => .ok () n
  | some l =>
    let executor := n.executor
    let n := { n with dispatched := n.dispatched + 1, executor := .inline }
    match executor with
    | .inline => deliver l x n
    | .pool waiting => .ok () { n with executor := .pool (waiting.push x) }
    | .queue q => .ok () { n with executor := .queue (q.submit x) }

/-- Hands over an event that nobody waits for. -/
def deliverLater (l : Listener) (n : Notifier) (x : Notice) : Notifier :=
  match deliver l x n with
  | .ok _ n | .error _ n => n

/-- Hands over notices one after the other. Without a listener there are none. -/
def handOver (xs : List Notice) (n : Notifier) : Notifier :=
  match n.listener? with
  | none => n
  | some l => xs.foldl (deliverLater l) n

/-- The notices that were let in and not handed over yet, the oldest first. -/
def waiting (n : Notifier) : List Notice :=
  match n.executor with
  | .inline => []
  | .pool waiting => waiting.toList
  | .queue q => q.waiting.toList

/-- Lets the worker of the queue run. -/
def work (n : Notifier) (more : Nat) : Notifier :=
  match n.executor with
  | .queue q =>
    let (taken, q) := q.work more
    handOver taken { n with executor := .queue q }
  | _ => n

/-- Waits until all notices that were let in have been handed over. -/
def drain (n : Notifier) : Notifier :=
  match n.executor with
  | .inline => n
  | .pool waiting => handOver waiting.toList { n with executor := .pool #[] }
  | .queue q => n.work q.waiting.size

/-- Tells the worker of the queue to stop, and lets it run until it has ended. Of the notices that wait it still
    hands over as many as it likes, here the first `more` of them, or all if nothing is said; the others are
    discarded. -/
def stop (n : Notifier) (more : Nat := n.waiting.length) : Notifier :=
  match n.executor with
  | .queue q => work { n with executor := .queue q.stop } more
  | _ => n

/-- How many notices the queue has turned away. -/
def dropped (n : Notifier) : Nat :=
  match n.executor with
  | .queue q => q.dropped
  | _ => 0

def summary (n : Notifier) : String :=
  "ExpiryNotifier \x7b type_name: " ++ Text.quoted n.typeName ++ ", has_listener: " ++
    toString n.listener?.isSome ++ ", dispatched: " ++ toString n.dispatched ++ " \x7d"

end Notifier

end RecordStore
