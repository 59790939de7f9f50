import RecordStore.Segment.Entries

/-! # Eviction

An entry whose time is over is evicted by whatever operation meets it: it is removed like any other, counted, and
told to the listener once it is no longer in the table. -/

namespace RecordStore.Segment

/-- Evicts the entry of a key if it is there and its time is over. Answers whether it did. -/
def evict (key : Value) : Op Bool := do
  match ← probe key with
  | .absent _ => return false
  | .found i h =>
    if !(← onMemory (Record.isOverAt h (← now))) then return false
    let payload ← onMemory (Record.payloadAt h)
    let (freed, ttl) ← removeAt i h
    if freed = 0 then return false
    modifyCounters (·.entryExpired)
    onNotifier (Notifier.notify ⟨payload, ttl⟩)
    return true

/-- Evicts keys one after the other. Answers how many there were to evict. -/
def evictAll : List Value → (evicted : Nat) → Op Nat
  | [], evicted => return evicted
  | key :: rest, evicted => do
    if ← evict key then evictAll rest (evicted + 1) else evictAll rest evicted

/-- The keys of the records whose time is over at `now`, after those of `keys`, which come last found first. -/
def overdueKeys (now : UInt64) : List Handle → (keys : List Value) → Op (List Value)
  | [], keys => return keys.reverse
  | h :: rest, keys => do
    if ← onMemory (Record.isOverAt h now) then overdueKeys now rest ((← keyAt h) :: keys)
    else overdueKeys now rest keys

def evictExpired : Op Nat := do
  let keys ← overdueKeys (← now) (← currentHandles) []
  evictAll keys 0

end RecordStore.Segment
