import RecordStore.Memory.Arena
import RecordStore.Memory.Faults

/-! # Memory

The memory of a store: an arena, and a plan of calls that fail whatever the arena would answer. A planned fault
reports that no memory is left, before the arena is touched. -/

namespace RecordStore

/-- An arena with a plan of faults. -/
structure Memory where
  arena : Arena := {}
  faults : Faults := {}

namespace Memory

def empty : Memory := {}

def withLimit (limit? : Option Nat) : Memory := { arena := Arena.empty limit? }

/-- The error that a planned fault reports. -/
def plannedFault : Error := .outOfMemory 0 0

/-- Makes a call of the arena, unless the plan lets it fail. -/
@[inline] def call {α : Type} (c : Call) (x : Action Arena α) : Action Memory α := fun ⟨arena, faults⟩ =>
  if faults.isDue c then .error (.error plannedFault) ⟨arena, faults.pass c⟩
  else
    match x arena with
    | .ok a arena => .ok a ⟨arena, faults.pass c⟩
    | .error e arena => .error e ⟨arena, faults.pass c⟩

/-- Plans one fault, and no other. -/
def arm (m : Memory) (c : Call) (skip : Nat) : Memory := { m with faults := Faults.single c skip }

def allocate (size : Nat) : Action Memory Handle := call .allocate (Arena.allocate size)

def reallocate (h : Handle) (size : Nat) : Action Memory Handle := call .reallocate (Arena.reallocate h size)

def release (h : Handle) : Action Memory Unit := call .release (Arena.release h)

/-- The size of a block; this call is never made to fail. -/
def sizeOf (h : Handle) : Action Memory Nat := fun m =>
  match m.arena.sizeOf h with
  | .ok n => .ok n m
  | .error e => .error (.error e) m

/-- The `length` bytes of a block from `offset` on. -/
@[inline] def read (h : Handle) (offset length : Nat) : Action Memory Bytes :=
  call .read fun a =>
    match a.read h offset length with
    | .ok b => .ok b a
    | .error e => .error (.error e) a

def write (h : Handle) (offset : Nat) (data : Bytes) : Action Memory Unit :=
  call .write (Arena.write h offset data)

@[inline] def readWord (h : Handle) (offset width : Nat) : Action Memory Nat := do
  let b ← read h offset width
  return Bytes.toNat b

/-- Writes a number in `width` bytes, least significant first. -/
def writeWord (h : Handle) (offset width n : Nat) : Action Memory Unit :=
  write h offset (Bytes.littleEndian width n)

@[inline] def readUInt32 (h : Handle) (offset : Nat) : Action Memory UInt32 := do
  return UInt32.ofNat (← readWord h offset 4)

@[inline] def readUInt64 (h : Handle) (offset : Nat) : Action Memory UInt64 := do
  return UInt64.ofNat (← readWord h offset 8)

def writeUInt32 (h : Handle) (offset : Nat) (n : UInt32) : Action Memory Unit := writeWord h offset 4 n.toNat

def writeUInt64 (h : Handle) (offset : Nat) (n : UInt64) : Action Memory Unit := writeWord h offset 8 n.toNat

end Memory

end RecordStore
