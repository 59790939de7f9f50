/-! # The bit finalizer

A table of a power-of-two size looks at the low bits of a hash only. The finalizer lets every bit of the hash act
on them: three shifts, each folded back with an exclusive or, between two multiplications by odd numbers. -/

namespace RecordStore

/-- Folds the high bits of the word onto the low ones. -/
def foldHigh (h : UInt64) : UInt64 := h ^^^ (h >>> 33)

/-- Spreads the bits of a hash over the word. -/
def mix (h : UInt64) : UInt64 :=
  foldHigh (foldHigh (foldHigh h * 0xff51afd7ed558ccd) * 0xc4ceb9fe1a85ec53)

end RecordStore
