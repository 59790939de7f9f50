import RecordStore.Segment.Probe

/-! # Tearing a segment down

All records are given back, whatever goes wrong with one of them, and the table is made as it was at first. -/

namespace RecordStore.Segment

/-- Gives back one record. What goes wrong does not stop it: a size that cannot be read counts as 0, and the entry
    is gone also if its block could not be released. -/
def discard (h : Handle) : Op (Option Error) := do
  let freed := match ← Action.attempt (onMemory (Record.sizeAt h)) with
    | .ok n => n
    | .error _ => 0
  let failure? := match ← Action.attempt (onMemory (Memory.release h)) with
    | .ok () => none
    | .error e => some e
  onCounters (Counters.entryRemoved freed)
  return failure?

/-- Gives back records one after the other. Answers the last error. -/
def discardAll : List Handle → (failure? : Option Error) → Op (Option Error)
  | [], failure? => return failure?
  | h :: rest, failure? => do
    match ← discard h with
    | some e => discardAll rest (some e)
    | none => discardAll rest failure?

/-- Gives back every record and makes the table as it was at first. -/
def destroy : Op Unit := do
  let failure? ← discardAll (← currentHandles) none
  modifySegment fun s => empty s.minCapacity
  match failure? with
  | some e => Action.fail e
  | none => return

/-- What becomes of what a segment shares with others when the segment goes out of use. -/
def drop (s : State) : Shared :=
  match destroy s with
  | .ok _ s | .error _ s => s.toShared

end RecordStore.Segment
