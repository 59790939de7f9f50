import RecordStore.Cyclic
import RecordStore.Failure
import RecordStore.Value.Hash

/-! # The table of a segment

A segment is a table of slots, a power of two of them, each empty or with the handle of a record. A handle lies
in the first slot from the home of its key forward that was empty when it came. The table knows handles only:
what their keys are is read from the records. -/

namespace RecordStore

structure Segment where
  slots : Array (Option Handle)
  /-- How many slots are taken. -/
  count : Nat
  /-- The number of slots it was made with. -/
  minCapacity : Nat

namespace Segment

def capacity (s : Segment) : Nat := s.slots.size

def isEmpty (s : Segment) : Bool := s.count = 0

def isPowerOfTwo (n : Nat) : Bool := n ≠ 0 && Nat.pow 2 n.log2 = n

/-- Whether a segment can have that many slots. -/
def isCapacity (n : Nat) : Bool := 2 ≤ n && isPowerOfTwo n

/-- Tables of more slots cannot be laid out: a slot takes eight bytes. -/
def maxCapacity : Nat := 0x7FFFFFFFFFFFFFFF / 8

def empty (capacity : Nat) : Segment := ⟨Array.replicate capacity none, 0, capacity⟩

/-- An empty segment, if it can have that many slots. -/
def create (capacity : Nat) : Except Abort Segment :=
  if !isCapacity capacity then .error (.segmentCapacity capacity)
  else if maxCapacity < capacity then .error .capacityOverflow
  else .ok (empty capacity)

def slot? (s : Segment) (i : Nat) : Option Handle := s.slots[i]?.join

/-- The slot after `i`, round the table. -/
def next (s : Segment) (i : Nat) : Nat := (i + 1) % s.capacity

def handles (s : Segment) : List Handle := s.slots.toList.filterMap id

def isFree (slots : Array (Option Handle)) (i : Nat) : Bool := slots[i]?.join.isNone

/-- The first empty slot from the home of a key on. -/
def freeSlot? (slots : Array (Option Handle)) (key : Value) : Option Nat :=
  Cyclic.find? slots.size (isFree slots) (key.home slots.size)

/-- Puts a handle into slot `i`, or empties it. -/
@[inline] def setSlot (s : Segment) (i : Nat) (h? : Option Handle) : Segment :=
  { s with slots := s.slots.setIfInBounds i h? }

/-- When a new entry comes, a table that is half full is doubled. -/
def mustGrow (s : Segment) : Bool := s.capacity / 2 ≤ s.count

/-- After an entry has gone, a table with an eighth of its slots taken is halved, but not when it is empty and not
    below the number of slots it was made with. -/
def mustShrink (s : Segment) : Bool :=
  0 < s.count && s.count ≤ s.capacity / 8 && s.minCapacity ≤ s.capacity / 2

def summary (s : Segment) : String :=
  "Segment \x7b capacity: " ++ toString s.capacity ++ ", count: " ++ toString s.count ++ " \x7d"

end Segment

end RecordStore
