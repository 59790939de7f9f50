import RecordStore.Store
import RecordStore.Stress.Options

/-! # The stress workload

Each worker puts, gets, removes and matches accounts under keys of its own. The workers' keys are different, so
the figures at the end do not depend on how the workers take turns; here they run one after the other. -/

namespace RecordStore.Stress

/-- The accounts that the workers store. -/
def accounts : Schema :=
  ⟨"Account", [⟨"id", .str⟩, ⟨"owner", .int⟩, ⟨"balance", .int⟩, ⟨"active", .bool⟩]⟩

/-- Which of the worker's keys operation `op` is about: its number times the golden ratio's word, so that the keys
    come up in no simple order. -/
def keyNumber (o : Options) (op : Nat) : Nat := (UInt64.ofNat op * 0x9E3779B97F4A7C15).toNat % o.keys

def keyOf (worker n : Nat) : Value := .str s!"w{worker}-{n}"

/-- The account that operation `op` of a worker stores. -/
def account (key : Value) (worker op : Nat) : Entity :=
  [key, .int (Int64.ofNat worker), .int (Int64.ofNat op), .bool (op % 2 = 0)]

def lifetime? (o : Options) : Option Duration := if o.ttlMillis = 0 then none else some (.ofMillis o.ttlMillis)

/-- One operation: four in ten put, four get, one removes, and one asks whether the key is there, now and then by
    matching. Answers the number of matches. -/
def step (o : Options) (worker op : Nat) : Store.Op Nat := do
  let key := keyOf worker (keyNumber o op)
  let turn := op % 10
  if turn < 4 then
    let _ ← Store.putEntity (account key worker op) (lifetime? o)
    return 0
  else if turn < 8 then
    let _ ← Store.get? key
    return 0
  else if turn < 9 then
    let _ ← Store.remove key
    return 0
  else if op % 10000 = 9 then
    return (← Store.matching (.ofKey key)).length
  else
    let _ ← Store.contains key
    return 0

/-- The next `n` operations of a worker, from number `op` on. -/
def runWorker (o : Options) (worker : Nat) : (n op matched : Nat) → Store.Op Nat
  | 0, _, matched => return matched
  | n + 1, op, matched => do
    let more ← step o worker op
    runWorker o worker n (op + 1) (matched + more)

/-- The next `n` workers, from number `worker` on. -/
def runWorkers (o : Options) : (n worker matched : Nat) → Store.Op Nat
  | 0, _, matched => return matched
  | n + 1, worker, matched => do
    let matched ← runWorker o worker o.ops 0 matched
    runWorkers o n (worker + 1) matched

/-- The figures at the end of a run. -/
structure Report where
  operations : Nat
  entries : Nat
  bytes : Nat
  segments : Nat
  matched : Nat
  expired : Nat
  notified : Nat
  allocations : Nat
  rehash? : Option Rehash

/-- A listener that takes every event. -/
def counter : Listener := ⟨false, fun _ _ => false⟩

def newStore (clock : Clock) : Except Failure Store := do
  let queue ← Queue.create {}
  let config : StoreConfig := {}
  Store.create accounts config .empty (.toListener accounts.typeName counter (.queue queue)) clock
    (Placement.evenly config.minSegments config.maxSegments)

/-- More workers than this cannot be kept track of: one takes eight bytes. -/
def maxThreads : Nat := 0x7FFFFFFFFFFFFFFF / 8

def run (o : Options) (clock : Clock) : Except Failure Report := do
  let store ← newStore clock
  if maxThreads < o.threads then throw (.abort .capacityOverflow)
  match runWorkers o o.threads 0 0 store with
  | .error e _ => throw e
  | .ok matched store =>
    let operations := o.ops * o.threads
    if wordLimit ≤ operations then throw (.abort .productOverflow)
    return {
      operations, matched
      entries := store.size
      bytes := store.bytesUsed.toNat
      segments := store.segmentCount
      expired := store.counters.expired
      notified := store.notifier.drain.delivered.size
      allocations := store.memory.arena.liveCount
      rehash? := store.counters.rehash? }

end RecordStore.Stress
