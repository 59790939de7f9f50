import RecordStore.Lifetime
import RecordStore.Memory

/-! # Records

A stored entry is one block: a header of sixteen bytes with the length of the payload, the time it was made and
its lifetime, and then the payload. Expiry and size can be told from the header alone. -/

namespace RecordStore

/-- A payload with its stamp and lifetime. -/
structure Record where
  payload : Bytes
  createdAt : UInt64
  ttl : Lifetime
  /-- The block that holds the record, null before it is stored. -/
  handle : Handle
  deriving DecidableEq

namespace Record

/-! ### Layout -/

/-- Where the length of the payload lies, in four bytes. -/
def lengthOffset : Nat := 0

/-- Where the stamp lies, in eight bytes. -/
def createdAtOffset : Nat := 4

/-- Where the lifetime lies, in four bytes. -/
def ttlOffset : Nat := 12

/-- Where the payload lies, and the size of the header. -/
def payloadOffset : Nat := 16

/-- A payload has to be shorter than this: its length is written in four bytes. -/
def lengthLimit : Nat := 0x100000000

/-- The bytes that a record takes, header included. -/
def sizeFor (payloadLength : Nat) : Nat := payloadOffset + payloadLength

def size (r : Record) : Nat := sizeFor r.payload.length

/-- The bytes of the block that holds the record. -/
def encode (r : Record) : Bytes :=
  Bytes.littleEndian 4 r.payload.length ++ Bytes.littleEndian 8 r.createdAt.toNat ++
    Bytes.littleEndian 4 r.ttl.toNat ++ r.payload

/-! ### Records in hand -/

def fresh (payload : Bytes) (ttl : Lifetime) (now : UInt64) : Record := ⟨payload, now, ttl, .null⟩

def isOver (r : Record) (now : UInt64) : Bool := r.ttl.isOver r.createdAt now

/-! ### Reading -/

def load (h : Handle) : Action Memory Record := do
  let length ← Memory.readWord h lengthOffset 4
  let createdAt ← Memory.readUInt64 h createdAtOffset
  let ttl ← Memory.readUInt32 h ttlOffset
  let payload ← Memory.read h payloadOffset length
  return ⟨payload, createdAt, ttl, h⟩

def payloadAt (h : Handle) : Action Memory Bytes := do
  let length ← Memory.readWord h lengthOffset 4
  Memory.read h payloadOffset length

def sizeAt (h : Handle) : Action Memory Nat := do
  let length ← Memory.readWord h lengthOffset 4
  return sizeFor length

def ttlAt (h : Handle) : Action Memory Lifetime := Memory.readUInt32 h ttlOffset

def isOverAt (h : Handle) (now : UInt64) : Action Memory Bool := do
  let createdAt ← Memory.readUInt64 h createdAtOffset
  let ttl ← ttlAt h
  return ttl.isOver createdAt now

/-! ### Writing -/

/-- Writes the record into a block that is large enough. -/
def writeTo (r : Record) (h : Handle) : Action Memory Unit := do
  if lengthLimit ≤ r.payload.length then
    Action.fail (.invalidArgument (.payloadTooLong r.payload.length))
  Memory.writeWord h lengthOffset 4 r.payload.length
  Memory.writeUInt64 h createdAtOffset r.createdAt
  Memory.writeUInt32 h ttlOffset r.ttl
  Memory.write h payloadOffset r.payload

/-- Stores the record in a block of its own, which is given back if the writing fails. -/
def store (r : Record) : Action Memory Record := do
  let h ← Memory.allocate r.size
  match ← Action.attempt (r.writeTo h) with
  | .ok () => return { r with handle := h }
  | .error e =>
    let _ ← Action.attempt (Memory.release h)
    Action.fail e

/-- Stores the record in the place of another one, whose handle is not to be used any more. -/
def storeOver (r : Record) (old : Handle) : Action Memory Record := do
  let h ← Memory.reallocate old r.size
  r.writeTo h
  return { r with handle := h }

def release (r : Record) : Action Memory Unit :=
  if r.handle.isNull then Action.fail (.invalidHandle r.handle) else Memory.release r.handle

end Record

end RecordStore
