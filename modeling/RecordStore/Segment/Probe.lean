import RecordStore.Segment.Table
import RecordStore.Shared

/-! # Probing

Finding a key, placing a handle, and moving the handles of a table. Keys are read from the records each time, so
every one of these can fail on a record that cannot be read. -/

namespace RecordStore.Segment

/-- A segment together with what it shares with others. -/
structure State extends Shared where
  segment : Segment

abbrev Op (α : Type) := Action State α

/-! ### Parts of the state -/

@[inline] def onMemory {α : Type} (x : Action Memory α) : Op α :=
  Action.on (·.memory) (fun s memory => { s with memory }) Memory.empty x

@[inline] def onNotifier {α : Type} (x : Action Notifier α) : Op α :=
  Action.on (·.notifier) (fun s notifier => { s with notifier }) (.silent "") x

@[inline] def onCounters {α : Type} (x : Action Counters α) : Op α :=
  Action.on (·.counters) (fun s counters => { s with counters }) {} x

@[inline] def modifySegment (f : Segment → Segment) : Op Unit := fun s =>
  .ok () { s with segment := f s.segment }

@[inline] def modifyCounters (f : Counters → Counters) : Op Unit := fun s =>
  .ok () { s with counters := f s.counters }

@[inline] def now : Op UInt64 := fun s => .ok s.clock.now s

@[inline] def slotAt (i : Nat) : Op (Option Handle) := fun s => .ok (s.segment.slot? i) s

@[inline] def nextSlot (i : Nat) : Op Nat := fun s => .ok (s.segment.next i) s

@[inline] def currentHandles : Op (List Handle) := fun s => .ok s.segment.handles s

/-! ### Keys -/

/-- The key of the record that a block holds. -/
def keyAt (h : Handle) : Op Value := do
  let payload ← onMemory (Record.payloadAt h)
  Action.ofCodec (Payload.key payload)

/-- Where the search for a key ended. -/
inductive Probe
  /-- At the record with the key. -/
  | found (i : Nat) (h : Handle)
  /-- At an empty slot. -/
  | absent (i : Nat)
  deriving DecidableEq

/-- Looks for a key in up to `steps` slots from `i` on. -/
def probeFrom (key : Value) : (steps i : Nat) → Op Probe
  | 0, _ => fun s => .error (.abort (.noEmptySlot s.segment.capacity)) s
  | steps + 1, i => do
    match ← slotAt i with
    | none => return .absent i
    | some h =>
      let k ← keyAt h
      if k = key then return .found i h
      let i ← nextSlot i
      probeFrom key steps i

/-- Looks for a key from its home on, to the first empty slot. -/
def probe (key : Value) : Op Probe := fun s =>
  probeFrom key s.segment.capacity (key.home s.segment.capacity) s

/-! ### Placing -/

/-- Puts a handle into the first empty slot from the home of its key on. -/
def place (key : Value) (h : Handle) : Op Unit := fun s =>
  match freeSlot? s.segment.slots key with
  | some i => .ok () { s with segment := s.segment.setSlot i (some h) }
  | none => .error (.abort (.noEmptySlot s.segment.capacity)) s

/-- Places handles one after the other into a table that is not in use yet. -/
def placeAll : List Handle → Array (Option Handle) → Op (Array (Option Handle))
  | [], slots => return slots
  | h :: rest, slots => do
    let key ← keyAt h
    match freeSlot? slots key with
    | some i => placeAll rest (slots.setIfInBounds i (some h))
    | none => Action.abort (.noEmptySlot slots.size)

/-- Lays the table out anew with that many slots. Until every handle has its place the old table stays. -/
def resize (capacity : Nat) : Op Unit := do
  let handles ← currentHandles
  let slots ← placeAll handles (Array.replicate capacity none)
  modifySegment ({ · with slots })

/-! ### Closing a gap -/

/-- More slots than a sweep from a gap ever visits. Each handle that a sweep moves comes nearer to its home, all
    handles together can do so at most `capacity * capacity` times, and between two such moves the sweep comes to
    an empty slot within one round. -/
def maxShifts (capacity : Nat) : Nat := capacity * (capacity * capacity + 1)

/-- Takes out and places anew the handles from slot `i` on, up to the first empty slot. -/
def backShiftFrom : (steps i : Nat) → Op Unit
  | 0, _ => fun s => .error (.abort (.noEmptySlot s.segment.capacity)) s
  | steps + 1, i => do
    match ← slotAt i with
    | none => return
    | some h =>
      let key ← keyAt h
      modifySegment (·.setSlot i none)
      place key h
      let i ← nextSlot i
      backShiftFrom steps i

/-- Places anew the handles that follow an emptied slot, so that none of them is cut off from its home. -/
def backShift (vacated : Nat) : Op Unit := fun s =>
  backShiftFrom (maxShifts s.segment.capacity) (s.segment.next vacated) s

end RecordStore.Segment
