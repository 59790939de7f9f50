import RecordStore.Action

/-! # The arena

Memory is a set of blocks, each a byte string under a handle of its own. Handles are given out in order and never
given out again. A block has room for a power of two of bytes, fixed when it is made: it is resized in place as
long as it fits there, and moves to a new handle when it does not. The bytes in use are counted against an
optional limit. -/

namespace RecordStore

structure Block where
  bytes : ByteArray
  /-- How far the block can grow without moving. -/
  capacity : Nat

namespace Block

def size (b : Block) : Nat := b.bytes.size

def toList (b : Block) : Bytes := b.bytes.data.toList

/-- Every block has room for at least this many bytes. -/
def minCapacity : Nat := 16

/-- The longest buffer that can be addressed. -/
def maxCapacity : Nat := 0x7FFFFFFFFFFFFFFF

/-- The room a block of `size` bytes is made with: the least power of two that is not below it, nor below the
    room of every block. -/
def capacityFor (size : Nat) : Nat := Nat.pow 2 ((max size minCapacity - 1).log2 + 1)

def zeroBytes (size : Nat) : ByteArray := ⟨Array.replicate size 0⟩

def zeros (size : Nat) : Except Abort Block :=
  let capacity := capacityFor size
  if wordLimit ≤ capacity then .error .sumOverflow
  else if maxCapacity < capacity then .error .capacityOverflow
  else .ok ⟨zeroBytes size, capacity⟩

/-- The first `size` bytes, with zeros after them where there are fewer. -/
def resize (b : Block) (size : Nat) : Block :=
  { b with bytes := b.bytes.extract 0 size ++ zeroBytes (size - b.size) }

def slice (b : Block) (offset length : Nat) : Bytes := (b.bytes.extract offset (offset + length)).data.toList

/-- Puts `data` in the place of the bytes from `offset` on. -/
def overwrite (b : Block) (offset : Nat) (data : Bytes) : Block :=
  { b with bytes := b.bytes.extract 0 offset ++ data.toByteArray ++ b.bytes.extract (offset + data.length) b.size }

theorem toList_resize (b : Block) (size : Nat) :
    (b.resize size).toList = b.toList.take size ++ List.replicate (size - b.size) 0 := by
  simp [resize, toList, zeroBytes]

theorem slice_eq (b : Block) (offset length : Nat) : b.slice offset length = (b.toList.drop offset).take length := by
  simp [slice, toList]

theorem toList_overwrite (b : Block) (offset : Nat) (data : Bytes) :
    (b.overwrite offset data).toList = b.toList.take offset ++ data ++ b.toList.drop (offset + data.length) := by
  simp [overwrite, toList, size, List.take_of_length_le]

end Block

/-- The blocks, and what was counted of them. -/
structure Arena where
  /-- The blocks by handle number, `none` for one that is released. Number 0 is never a block. -/
  blocks : Array (Option Block) := #[none]
  /-- The sum of the sizes of the live blocks, as a word. -/
  allocatedBytes : UInt64 := 0
  /-- The most bytes that may be in use at a time. -/
  limit? : Option Nat := none
  /-- How many blocks were ever made, moved ones counted again. -/
  allocations : Nat := 0
  /-- How many blocks were ever given back, moved ones counted too. -/
  releases : Nat := 0

namespace Arena

def empty (limit? : Option Nat) : Arena := { limit? }

def block? (a : Arena) (h : Handle) : Option Block := a.blocks[h.number]?.join

def live (a : Arena) : List (Handle × Block) :=
  (a.blocks.toList.zipIdx).filterMap fun (b?, n) => b?.map fun b => (⟨n⟩, b)

def liveCount (a : Arena) : Nat := a.blocks.toList.countP (·.isSome)

@[inline] def nextHandle (a : Arena) : Handle := ⟨a.blocks.size⟩

/-- Counts `delta` more bytes, unless that would exceed the limit. -/
@[inline] def reserve (a : Arena) (delta : Nat) : Except Error Arena :=
  match a.limit? with
  | none => .ok { a with allocatedBytes := a.allocatedBytes + UInt64.ofNat delta }
  | some limit =>
    if a.allocatedBytes.toNat + delta ≤ limit then
      .ok { a with allocatedBytes := a.allocatedBytes + UInt64.ofNat delta }
    else .error (.outOfMemory delta limit)

@[inline] def unreserve (a : Arena) (delta : Nat) : Arena :=
  { a with allocatedBytes := a.allocatedBytes - UInt64.ofNat delta }

/-- Puts a block in the place of the one under a handle. -/
@[inline] def replace (a : Arena) (h : Handle) (b? : Option Block) : Arena :=
  { a with blocks := a.blocks.setIfInBounds h.number b? }

/-- Puts a block under the next handle. -/
@[inline] def append (a : Arena) (b? : Option Block) : Arena := { a with blocks := a.blocks.push b? }

def allocate (size : Nat) : Action Arena Handle := fun a =>
  match a.reserve size with
  | .error e => .error (.error e) a
  | .ok a =>
    match Block.zeros size with
    | .error x => .error (.abort x) (a.append none)
    | .ok b => .ok a.nextHandle { a.append (some b) with allocations := a.allocations + 1 }

/-- Moves a block to a new handle, with room for `size` bytes. -/
def move (h : Handle) (b : Block) (size : Nat) : Action Arena Handle := fun a =>
  match Block.zeros size with
  | .error x => .error (.abort x) (a.replace h none)
  | .ok room =>
    .ok a.nextHandle
      { (a.replace h none).append (some { b.resize size with capacity := room.capacity }) with
        allocations := a.allocations + 1
        releases := a.releases + 1 }

/-- Changes the size of a block and keeps its leading bytes; new ones are zero. The handle that comes back names
    the block from then on. -/
def reallocate (h : Handle) (size : Nat) : Action Arena Handle := fun a =>
  match a.block? h with
  | none => .error (.error (.invalidHandle h)) a
  | some b =>
    match if b.size < size then a.reserve (size - b.size) else .ok a with
    | .error e => .error (.error e) a
    | .ok a =>
      if size ≤ b.capacity then .ok h ((a.replace h (some (b.resize size))).unreserve (b.size - size))
      else move h b size a

def release (h : Handle) : Action Arena Unit := fun a =>
  match a.block? h with
  | none => .error (.error (.invalidHandle h)) a
  | some b => .ok () { (a.replace h none).unreserve b.size with releases := a.releases + 1 }

def sizeOf (a : Arena) (h : Handle) : Except Error Nat :=
  match a.block? h with
  | none => .error (.invalidHandle h)
  | some b => .ok b.size

/-- The block, if it is live and has `length` bytes from `offset` on. -/
def access (a : Arena) (h : Handle) (offset length : Nat) : Except Error Block :=
  match a.block? h with
  | none => .error (.invalidHandle h)
  | some b => if offset + length ≤ b.size then .ok b else .error (.outOfBounds h offset length b.size)

def read (a : Arena) (h : Handle) (offset length : Nat) : Except Error Bytes :=
  (a.access h offset length).map (·.slice offset length)

def write (h : Handle) (offset : Nat) (data : Bytes) : Action Arena Unit := fun a =>
  match a.access h offset data.length with
  | .error e => .error (.error e) a
  | .ok b => .ok () (a.replace h (some (b.overwrite offset data)))

end Arena

end RecordStore
