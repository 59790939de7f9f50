import RecordStore.Duration
import RecordStore.Handle
import RecordStore.Value

/-! # Failures

An operation that fails reports an `Error`, a cause that its caller can act on, or ends in an `Abort`: a broken
listener, a number that no longer fits, or a table that was laid out wrongly. Every cause has one wording. -/

namespace RecordStore

/-- Why bytes are no entity, or an entity has no bytes. -/
inductive CodecFault
  | truncated (needed available : Nat)
  | unknownTag (tag : Nat)
  | invalidText (fault : Utf8.Fault)
  | payloadWithoutKey
  | entityWithoutKey
  | fieldCount (typeName : String) (expected actual : Nat)
  | nullKey (name : String)
  | fieldKind (name : String) (expected actual : Kind)
  | tooManyFields (count : Nat)
  | fieldTooLong (length : Nat)
  | other (text : String)
  deriving DecidableEq

def CodecFault.message : CodecFault → String
  | .truncated needed available => s!"truncated payload: need {needed} bytes, have {available}"
  | .unknownTag tag => s!"unknown field tag {tag}"
  | .invalidText fault => fault.message
  | .payloadWithoutKey => "payload has no primary key"
  | .entityWithoutKey => "entity has no primary key"
  | .fieldCount typeName expected actual => s!"{typeName} expects {expected} fields, got {actual}"
  | .nullKey name => s!"primary key '{name}' is null"
  | .fieldKind name expected actual => s!"field '{name}' expects {expected.name}, got {actual.name}"
  | .tooManyFields count => s!"{count} fields exceed the u16 field count"
  | .fieldTooLong length => s!"field of {length} bytes exceeds the u32 length prefix"
  | .other text => text

/-- Which limit a record would break. -/
inductive LimitFault
  | items (max : Nat)
  | bytes (used delta max : Nat)
  | other (text : String)
  deriving DecidableEq

def LimitFault.message : LimitFault → String
  | .items max => s!"max_items {max} reached"
  | .bytes used delta max => s!"{used} + {delta} bytes exceeds max_bytes {max}"
  | .other text => text

/-- Which rule a configuration breaks. -/
inductive ConfigFault
  | noSegments
  | moreSegmentsThanSlots (min max : Nat)
  | segmentCapacity (capacity : Nat)
  | noNominalCapacity
  | zeroLimit
  | sweeperIntervals
  | sweeperThresholds
  | noQueueDepth
  | other (text : String)
  deriving DecidableEq

def ConfigFault.message : ConfigFault → String
  | .noSegments => "min_segments must be > 0"
  | .moreSegmentsThanSlots min max => s!"min_segments {min} exceeds max_segments {max}"
  | .segmentCapacity capacity => s!"segment_capacity {capacity} must be a power of two >= 2"
  | .noNominalCapacity => "nominal_capacity must be > 0"
  | .zeroLimit => "limits must be > 0 when set"
  | .sweeperIntervals => "sweeper intervals must satisfy 0 < min <= max"
  | .sweeperThresholds => "sweeper thresholds must be fractions"
  | .noQueueDepth => "queue_depth must be > 0"
  | .other text => text

/-- What is wrong with an argument. -/
inductive ArgumentFault
  | lifetimeTooLong (lifetime : Duration)
  | payloadTooLong (length : Nat)
  | other (text : String)
  deriving DecidableEq

def ArgumentFault.message : ArgumentFault → String
  | .lifetimeTooLong lifetime => s!"ttl {lifetime.text} is too large"
  | .payloadTooLong length => s!"payload of {length} bytes"
  | .other text => text

/-- A failure that is reported to the caller. -/
inductive Error
  /-- Memory could not give `requested` more bytes. -/
  | outOfMemory (requested limit : Nat)
  /-- The handle names no live block. -/
  | invalidHandle (handle : Handle)
  /-- A read or write that leaves its block. -/
  | outOfBounds (handle : Handle) (offset length size : Nat)
  /-- A record that is refused before any memory is taken; the payload goes back to the caller. -/
  | capacityExceeded (reason : LimitFault) (payload : Bytes)
  | codec (fault : CodecFault)
  | invalidConfig (fault : ConfigFault)
  | invalidArgument (fault : ArgumentFault)
  deriving DecidableEq

namespace Error

def message : Error → String
  | .outOfMemory requested limit => s!"off-heap allocation of {requested} bytes failed (limit {limit} bytes)"
  | .invalidHandle handle => s!"invalid off-heap handle: {handle.text}"
  | .outOfBounds handle offset length size =>
    s!"access of {length} bytes at offset {offset} is outside allocation {handle.text} of {size} bytes"
  | .capacityExceeded reason payload =>
    s!"store limit exceeded ({reason.message}); rejected payload of {payload.length} bytes"
  | .codec fault => s!"codec error: {fault.message}"
  | .invalidConfig fault => s!"invalid configuration: {fault.message}"
  | .invalidArgument fault => s!"invalid argument: {fault.message}"

/-- After a fatal error the store must not be used any more. -/
def isFatal : Error → Bool
  | .outOfMemory .. | .outOfBounds .. => true
  | _ => false

end Error

/-- A failure that no caller is expected to handle. -/
inductive Abort
  /-- The expiry listener broke off. -/
  | listener
  | sumOverflow
  | differenceOverflow
  | productOverflow
  /-- A buffer of more bytes than can be addressed. -/
  | capacityOverflow
  /-- A span of more seconds than a word can count. -/
  | durationOverflow
  | segmentCapacity (capacity : Nat)
  | queueDepth
  /-- A probe went round the whole table. -/
  | noEmptySlot (capacity : Nat)
  /-- No slot of the store holds a segment. -/
  | noSegment (slots : Nat)
  deriving DecidableEq

def Abort.message : Abort → String
  | .listener => "listener panic"
  | .sumOverflow => "attempt to add with overflow"
  | .differenceOverflow => "attempt to subtract with overflow"
  | .productOverflow => "attempt to multiply with overflow"
  | .capacityOverflow => "capacity overflow"
  | .durationOverflow => "overflow in Duration::new"
  | .segmentCapacity capacity => s!"segment capacity {capacity} must be a power of two >= 2"
  | .queueDepth => "a semaphore may not have more than MAX_PERMITS permits (2305843009213693951)"
  | .noEmptySlot capacity =>
    s!"internal error: entered unreachable code: segment of capacity {capacity} has no empty slot"
  | .noSegment slots => s!"internal error: entered unreachable code: no segment populated among {slots} slots"

inductive Failure
  | error (e : Error)
  | abort (a : Abort)
  deriving DecidableEq

end RecordStore
