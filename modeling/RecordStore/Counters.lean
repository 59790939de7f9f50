import RecordStore.Action

/-! # Counters

The entries and bytes of a store are counted over all its segments. A record is admitted by reserving its share
of both before it is written; a reservation whose record is not written is cancelled. The counters also notice
when the number of entries comes to a threshold, from below by an insertion or from above by a removal. -/

namespace RecordStore

/-- In which direction the store should be spread anew. -/
inductive Rehash
  | grow
  | shrink
  deriving DecidableEq

def Rehash.name : Rehash → String
  | .grow => "Grow"
  | .shrink => "Shrink"

/-- The numbers of entries at which a rehash falls due. -/
structure Thresholds where
  grow : Nat
  shrink : Nat

/-- What a store counts over all its segments, and the limits on it. -/
structure Counters where
  /-- Stored and reserved entries. -/
  items : Nat := 0
  /-- Bytes of stored and reserved records, as a word. -/
  bytes : UInt64 := 0
  /-- Entries that were evicted because their time was over. -/
  expired : Nat := 0
  thresholds? : Option Thresholds := none
  maxBytes? : Option Nat := none
  maxItems? : Option Nat := none
  /-- The rehash that fell due last. -/
  rehash? : Option Rehash := none

namespace Counters

/-- Reserves `n` bytes, if they are within the limit. -/
def reserveBytes (c : Counters) (n : Nat) : Except LimitFault Counters :=
  match c.maxBytes? with
  | none => .ok { c with bytes := c.bytes + UInt64.ofNat n }
  | some max =>
    if c.bytes.toNat + n ≤ max then .ok { c with bytes := c.bytes + UInt64.ofNat n }
    else .error (.bytes c.bytes.toNat n max)

/-- Reserves an entry of `n` bytes, if both limits allow it. Also tells the number of entries with it. -/
def reserveInsert (c : Counters) (n : Nat) : Except LimitFault (Nat × Counters) := do
  if let some max := c.maxItems? then
    if max ≤ c.items then throw (.items max)
  let c ← c.reserveBytes n
  return (c.items + 1, { c with items := c.items + 1 })

/-- Reserves what a record of `new` bytes takes more than the one of `old` bytes that it replaces. A record that
    is not larger is always admitted. -/
def reserveReplace (c : Counters) (old new : Nat) : Except LimitFault Counters :=
  if old < new then c.reserveBytes (new - old)
  else .ok { c with bytes := c.bytes - UInt64.ofNat (old - new) }

/-- Takes back the reservation of an entry of `n` bytes. -/
def cancelInsert (c : Counters) (n : Nat) : Counters :=
  { c with bytes := c.bytes - UInt64.ofNat n, items := c.items - 1 }

def cancelReplace (c : Counters) (old new : Nat) : Counters :=
  if old < new then { c with bytes := c.bytes - UInt64.ofNat (new - old) }
  else { c with bytes := c.bytes + UInt64.ofNat (old - new) }

/-- A reserved entry was stored, as the `items`-th one. -/
def insertCommitted (c : Counters) (items : Nat) : Counters :=
  match c.thresholds? with
  | some t => if items = t.grow then { c with rehash? := some .grow } else c
  | none => c

/-- A stored entry of `n` bytes was removed. -/
def entryRemoved (n : Nat) : Action Counters Unit := fun c =>
  let c := { c with bytes := c.bytes - UInt64.ofNat n }
  match c.items with
  | 0 => .error (.abort .differenceOverflow) c
  | items + 1 =>
    let c := { c with items }
    match c.thresholds? with
    | some t => .ok () (if items = t.shrink then { c with rehash? := some .shrink } else c)
    | none => .ok () c

def entryExpired (c : Counters) : Counters := { c with expired := c.expired + 1 }

end Counters

end RecordStore
