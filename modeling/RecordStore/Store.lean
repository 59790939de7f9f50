import RecordStore.Schema
import RecordStore.Segment.Lookup
import RecordStore.Segment.Teardown
import RecordStore.Store.Config
import RecordStore.Store.Placement

/-! # The store

A store keeps entities of one type under their primary keys, spread over segments. An operation on a key goes to
the segment the key belongs to; one that concerns all entries visits the segments in turn. -/

namespace RecordStore

/-- Segments in some of the slots, with what they share. -/
structure Store extends Shared where
  schema : Schema
  slots : Placement.Slots
  segmentCount : Nat
  /-- How often entries were asked for, put and removed. -/
  gets : Nat := 0
  puts : Nat := 0
  removes : Nat := 0

namespace Store

abbrev Op (α : Type) := Action Store α

/-! ### Making a store -/

/-- More slots than this cannot be laid out: a slot takes 88 bytes. -/
def maxSlots : Nat := 0x7FFFFFFFFFFFFFFF / 88

/-- An empty store. `draw` gives, for each segment, the place where the search for its slot begins. -/
def create (schema : Schema) (config : StoreConfig) (memory : Memory) (notifier : Notifier) (clock : Clock)
    (draw : Nat → Nat) : Except Failure Store := do
  config.validate.mapError fun fault => .error (.invalidConfig fault)
  let shrink ← config.shrinkThreshold.mapError .abort
  if maxSlots < config.maxSegments then throw (.abort .capacityOverflow)
  let segment ← (Segment.create config.segmentCapacity).mapError .abort
  return {
    memory, notifier, clock, schema
    counters := {
      thresholds? := some ⟨config.growThreshold, shrink⟩
      maxBytes? := config.maxBytes?
      maxItems? := config.maxItems? }
    slots := Placement.populate segment config.minSegments config.maxSegments draw
    segmentCount := config.minSegments }

/-- An empty store with a memory of its own and nobody to tell of evictions. -/
def createPlain (schema : Schema) (config : StoreConfig) (clock : Clock) (draw : Nat → Nat) :
    Except Failure Store :=
  create schema config .empty (.silent schema.typeName) clock draw

/-! ### Segments -/

def segment? (s : Store) (i : Nat) : Option Segment := s.slots[i]?.join

/-- Runs an operation of the segment in slot `i`. -/
def onSegment {α : Type} (i : Nat) (x : Segment.Op α) : Op α := fun s =>
  match s.segment? i with
  | none => .error (.abort (.noSegment s.slots.size)) s
  | some segment =>
    let inner : Segment.State := { toShared := s.toShared, segment }
    let outer := { s with toShared := Shared.vacant, slots := s.slots.setIfInBounds i none }
    match x inner with
    | .ok a t => .ok a { outer with toShared := t.toShared, slots := outer.slots.setIfInBounds i (some t.segment) }
    | .error e t =>
      .error e { outer with toShared := t.toShared, slots := outer.slots.setIfInBounds i (some t.segment) }

/-- Runs an operation of the segment that a key belongs to. -/
def onSegmentOf {α : Type} (key : Value) (x : Segment.Op α) : Op α := fun s =>
  match Placement.route? s.slots key with
  | some i => onSegment i x s
  | none => .error (.abort (.noSegment s.slots.size)) s

def occupiedSlots : Op (List Nat) := fun s => .ok (Placement.occupied s.slots) s

/-! ### Entries -/

/-- Stores a payload under the key that it holds. Answers the size of the record that it replaces, or 0. -/
def put (payload : Bytes) (ttl : Lifetime) : Op Nat := do
  modify fun s => { s with puts := s.puts + 1 }
  let key ← Action.ofCodec (Payload.key payload)
  let now := (← get).clock.now
  onSegmentOf key (Segment.put key (Record.fresh payload ttl now))

/-- Stores an entity for a span of time, or for ever. -/
def putEntity (e : Entity) (lifetime? : Option Duration) : Op Nat := do
  let ttl ← Action.ofExcept ((Lifetime.ofDuration? lifetime?).mapError .invalidArgument)
  let payload ← Action.ofCodec ((← get).schema.encode e)
  put payload ttl

/-- Whether there is an entry of the key whose time is not over. -/
def contains (key : Value) : Op Bool := onSegmentOf key (Segment.contains key)

def countGet : Op Unit := modify fun s => { s with gets := s.gets + 1 }

/-- The record of the key, if its time is not over. -/
def getRecord? (key : Value) : Op (Option Record) := do
  countGet
  onSegmentOf key (Segment.getRecord? key)

def get? (key : Value) : Op (Option Bytes) := do
  countGet
  onSegmentOf key (Segment.get? key)

def getEntity? (key : Value) : Op (Option Entity) := do
  match ← get? key with
  | none => return none
  | some payload =>
    let e ← Action.ofCodec (Payload.decode payload)
    return some e

/-- Removes the entry of a key. Answers the size of its record, or 0. -/
def remove (key : Value) : Op Nat := do
  modify fun s => { s with removes := s.removes + 1 }
  onSegmentOf key (Segment.remove key)

/-! ### All entries -/

/-- The payloads that match a template in the segments of some slots, after those already found. -/
def matchingIn (t : Template) : List Nat → (matched : List Bytes) → Op (List Bytes)
  | [], matched => return matched
  | i :: rest, matched => do
    let more ← onSegment i (Segment.matching t)
    matchingIn t rest (matched ++ more)

def matching (t : Template) : Op (List Bytes) := do
  matchingIn t (← occupiedSlots) []

def fetch (t : Template) : Op (List Entity) := do
  let payloads ← matching t
  Action.ofCodec (payloads.mapM Payload.decode)

/-- Evicts what is over in the segments of some slots. -/
def evictIn : List Nat → (evicted : Nat) → Op Nat
  | [], evicted => return evicted
  | i :: rest, evicted => do
    let more ← onSegment i Segment.evictExpired
    evictIn rest (evicted + more)

/-- Evicts every entry whose time is over. Answers how many there were. -/
def evictExpired : Op Nat := do
  evictIn (← occupiedSlots) 0

/-- Empties the segments of some slots. Answers the last error. -/
def destroyIn : List Nat → (failure? : Option Error) → Op (Option Error)
  | [], failure? => return failure?
  | i :: rest, failure? => do
    match ← Action.attempt (onSegment i Segment.destroy) with
    | .ok () => destroyIn rest failure?
    | .error e => destroyIn rest (some e)

def destroy : Op Unit := do
  match ← destroyIn (← occupiedSlots) none with
  | some e => Action.fail e
  | none => return

/-! ### Figures -/

/-- The number of entries, those included whose time is over but that nobody has met. -/
def size (s : Store) : Nat := s.counters.items

def isEmpty (s : Store) : Bool := s.size = 0

def bytesUsed (s : Store) : UInt64 := s.counters.bytes

def summary (s : Store) : String :=
  "SegmentedSet \x7b type_name: " ++ Text.quoted s.schema.typeName ++ ", segments: " ++ toString s.segmentCount ++
    ", items: " ++ toString s.size ++ ", bytes: " ++ toString s.bytesUsed.toNat ++ " \x7d"

end Store

end RecordStore
