import RecordStore.Expiry.Event

/-! # The notification queue

A queue of bounded depth between evictions and the listener. A notice that comes when the queue is full or closed
is dropped and counted; the others wait for a worker, which takes them in the order in which they came. The queue
is closed when the worker ends, some time after it was told to stop; what still waits by then is discarded. -/

namespace RecordStore

structure QueueConfig where
  /-- How many notices may wait before new ones are dropped. -/
  depth : Nat := 1024

def QueueConfig.validate (c : QueueConfig) : Except ConfigFault Unit :=
  if c.depth = 0 then .error .noQueueDepth else .ok ()

/-- A queue with the notices in it, the oldest first. -/
structure Queue where
  depth : Nat
  waiting : Array Notice := #[]
  /-- Whether the worker was told to stop. -/
  stopping : Bool := false
  /-- Whether the worker has ended. -/
  closed : Bool := false
  dropped : Nat := 0

namespace Queue

/-- The deepest queue there can be. -/
def maxDepth : Nat := 0x1FFFFFFFFFFFFFFF

def create (c : QueueConfig) : Except Failure Queue :=
  match c.validate with
  | .error fault => .error (.error (.invalidConfig fault))
  | .ok () => if maxDepth < c.depth then .error (.abort .queueDepth) else .ok { depth := c.depth }

def accepts (q : Queue) : Bool := !q.closed && q.waiting.size < q.depth

/-- Lets a notice in, or drops it. -/
def submit (q : Queue) (n : Notice) : Queue :=
  if q.accepts then { q with waiting := q.waiting.push n } else { q with dropped := q.dropped + 1 }

/-- Tells the worker to stop. Nothing else changes until it comes upon that, between two notices. -/
def stop (q : Queue) : Queue := { q with stopping := true }

/-- What the worker takes when it runs, the oldest notice first, and the queue that it leaves. It goes on as long as
    notices wait. Once it was told to stop it may end before any of them: then it takes `more` at most, and what it
    leaves is discarded and not counted. -/
def work (q : Queue) (more : Nat) : List Notice × Queue :=
  if q.stopping then (q.waiting.toList.take more, { q with waiting := #[], closed := true })
  else (q.waiting.toList, { q with waiting := #[] })

end Queue

end RecordStore
