import RecordStore.Segment.Eviction
import RecordStore.Template

/-! # Finding entries

Entries are found by key or by template. One whose time is over is not found, and is evicted. -/

namespace RecordStore.Segment

def contains (key : Value) : Op Bool := do
  match ← probe key with
  | .absent _ => return false
  | .found _ h =>
    if ← onMemory (Record.isOverAt h (← now)) then
      let _ ← evict key
      return false
    return true

def getRecord? (key : Value) : Op (Option Record) := do
  match ← probe key with
  | .absent _ => return none
  | .found _ h =>
    let r ← onMemory (Record.load h)
    if r.isOver (← now) then
      let _ ← evict key
      return none
    return some r

def get? (key : Value) : Op (Option Bytes) := do
  let r? ← getRecord? key
  return r?.map (·.payload)

/-- The payloads that match a template and the keys of the records whose time is over at `now`, after those already
    found, which come last found first. -/
def scan (t : Template) (now : UInt64) :
    List Handle → (matched : List Bytes) → (overdue : List Value) → Op (List Bytes × List Value)
  | [], matched, overdue => return (matched.reverse, overdue.reverse)
  | h :: rest, matched, overdue => do
    let r ← onMemory (Record.load h)
    if r.isOver now then
      let key ← Action.ofCodec (Payload.key r.payload)
      scan t now rest matched (key :: overdue)
    else if ← Action.ofCodec (t.matches? r.payload) then scan t now rest (r.payload :: matched) overdue
    else scan t now rest matched overdue

/-- The payloads that match a template, in slot order. Entries whose time is over are evicted afterwards. -/
def matching (t : Template) : Op (List Bytes) := do
  let (matched, overdue) ← scan t (← now) (← currentHandles) [] []
  let _ ← evictAll overdue 0
  return matched

end RecordStore.Segment
