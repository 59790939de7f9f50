/-! # Planned faults

A memory that can be told to fail: for each kind of call, the plan says how many calls succeed before the next one
fails, and so on. A plan that is used up, or empty from the start, lets every call pass and stays as it is. -/

namespace RecordStore

/-- The calls of the memory that can be made to fail. -/
inductive Call
  | allocate
  | reallocate
  | release
  | read
  | write
  deriving DecidableEq

/-- For each kind of call, the gaps between the calls that fail. -/
structure Faults where
  allocate : List Nat := []
  reallocate : List Nat := []
  release : List Nat := []
  read : List Nat := []
  write : List Nat := []
  deriving DecidableEq

namespace Faults

def never : Faults := {}

@[inline] def gaps (f : Faults) : Call → List Nat
  | .allocate => f.allocate
  | .reallocate => f.reallocate
  | .release => f.release
  | .read => f.read
  | .write => f.write

def setGaps (f : Faults) : Call → List Nat → Faults
  | .allocate, gaps => { f with allocate := gaps }
  | .reallocate, gaps => { f with reallocate := gaps }
  | .release, gaps => { f with release := gaps }
  | .read, gaps => { f with read := gaps }
  | .write, gaps => { f with write := gaps }

/-- Whether the next call of the kind fails. -/
@[inline] def isDue (f : Faults) (c : Call) : Bool := (f.gaps c).head? = some 0

/-- The gaps after one more call. -/
def afterCall : List Nat → List Nat
  | [] => []
  | 0 :: gaps => gaps
  | (n + 1) :: gaps => n :: gaps

/-- The plan after one more call of the kind. -/
@[inline] def pass (f : Faults) (c : Call) : Faults :=
  match f.gaps c with
  | [] => f
  | gaps => f.setGaps c (afterCall gaps)

/-- The plan whose only fault is the call of the kind that comes after `skip` others. -/
def single (c : Call) (skip : Nat) : Faults := never.setGaps c [skip]

end Faults

end RecordStore
