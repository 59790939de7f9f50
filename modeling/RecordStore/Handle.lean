/-! # Handles

A handle names a block of memory. Number 0 names none and stands for "not stored yet". -/

namespace RecordStore

/-- The name of a block. -/
structure Handle where
  number : Nat
  deriving DecidableEq

namespace Handle

/-- The handle that names no block. -/
def null : Handle := ⟨0⟩

def isNull (h : Handle) : Bool := h.number = 0

def text (h : Handle) : String := s!"#{h.number}"

def summary (h : Handle) : String := s!"Handle({h.number})"

end Handle

end RecordStore
