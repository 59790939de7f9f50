import RecordStore.Segment.Probe

/-! # Entries of a segment

Storing and removing entries. Room is reserved with the counters before a record is written, and given back if
writing it fails. -/

namespace RecordStore.Segment

/-! ### Storing -/

/-- Reserves room with the counters, or refuses the record. -/
def reserve {α : Type} (payload : Bytes) (f : Counters → Except LimitFault (α × Counters)) : Op α := fun s =>
  match f s.counters with
  | .ok (a, counters) => .ok a { s with counters }
  | .error reason => .error (.error (.capacityExceeded reason payload)) s

/-- Stores the record of an absent key, in a table that has room for it. -/
def insert (key : Value) (r : Record) : Op Unit := do
  let segment := (← get).segment
  if segment.mustGrow then resize (segment.capacity * 2)
  let r ← onMemory r.store
  place key r.handle
  modifySegment fun s => { s with count := s.count + 1 }

/-- Stores the record in the place of another one of `previous` bytes. -/
def overwrite (i : Nat) (old : Handle) (previous : Nat) (r : Record) : Op Nat := do
  reserve r.payload fun c => (c.reserveReplace previous r.size).map ((), ·)
  match ← Action.attempt (onMemory (r.storeOver old)) with
  | .ok r =>
    modifySegment (·.setSlot i (some r.handle))
    return previous
  | .error e =>
    modifyCounters (·.cancelReplace previous r.size)
    Action.fail e

/-- Stores the record under a key. Answers the size of the record that it replaces, or 0. -/
def put (key : Value) (r : Record) : Op Nat := do
  match ← probe key with
  | .found i old =>
    let previous ← onMemory (Record.sizeAt old)
    overwrite i old previous r
  | .absent _ =>
    let items ← reserve r.payload (·.reserveInsert r.size)
    match ← Action.attempt (insert key r) with
    | .ok () =>
      modifyCounters (·.insertCommitted items)
      return 0
    | .error e =>
      modifyCounters (·.cancelInsert r.size)
      Action.fail e

/-! ### Removing -/

/-- Removes the record of slot `i`. Answers its size and lifetime. -/
def removeAt (i : Nat) (h : Handle) : Op (Nat × Lifetime) := do
  let freed ← onMemory (Record.sizeAt h)
  let ttl ← onMemory (Record.ttlAt h)
  onMemory (Memory.release h)
  modifySegment fun s => { s.setSlot i none with count := s.count - 1 }
  onCounters (Counters.entryRemoved freed)
  backShift i
  let segment := (← get).segment
  if segment.mustShrink then resize (segment.capacity / 2)
  return (freed, ttl)

def remove (key : Value) : Op Nat := do
  match ← probe key with
  | .absent _ => return 0
  | .found i h =>
    let (freed, _) ← removeAt i h
    return freed

end RecordStore.Segment
