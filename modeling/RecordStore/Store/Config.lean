import RecordStore.Failure
import RecordStore.Segment.Table

/-! # The configuration of a store

How many segments a store has and how they are laid out, and the limits on what it holds. A configuration is
checked before anything is built from it. -/

namespace RecordStore

/-- The layout and the limits of a store. -/
structure StoreConfig where
  /-- How many segments there are. -/
  minSegments : Nat := 16
  /-- How many slots the segments are spread over. -/
  maxSegments : Nat := 256
  /-- The slots a segment begins with, and never goes below. -/
  segmentCapacity : Nat := 16
  /-- The number of entries that the store is laid out for. -/
  nominalCapacity : Nat := 65536
  /-- The most bytes of records, headers included. -/
  maxBytes? : Option Nat := none
  /-- The most entries. -/
  maxItems? : Option Nat := none

namespace StoreConfig

/-- The number of entries at which the store should be spread over more segments. -/
def growThreshold (c : StoreConfig) : Nat := c.nominalCapacity / 4 * 3

/-- The number of entries at which it should be spread over fewer: fifteen in a hundred, if fifteen times the
    nominal capacity is a word. -/
def shrinkThreshold (c : StoreConfig) : Except Abort Nat :=
  if c.nominalCapacity * 15 < wordLimit then .ok (c.nominalCapacity * 15 / 100) else .error .productOverflow

def validate (c : StoreConfig) : Except ConfigFault Unit :=
  if c.minSegments = 0 then .error .noSegments
  else if c.maxSegments < c.minSegments then .error (.moreSegmentsThanSlots c.minSegments c.maxSegments)
  else if !Segment.isCapacity c.segmentCapacity then .error (.segmentCapacity c.segmentCapacity)
  else if c.nominalCapacity = 0 then .error .noNominalCapacity
  else if c.maxItems? = some 0 ∨ c.maxBytes? = some 0 then .error .zeroLimit
  else .ok ()

end StoreConfig

end RecordStore
