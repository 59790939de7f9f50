import RecordStore.Bytes

/-! # Text as bytes

Text is stored as UTF-8. Bytes that are no UTF-8 are refused together with the place where they go wrong: the
number of bytes that are well formed so far and the length of the ill-formed piece that follows them, which is
the longest start of a sequence that its last byte rules out (Unicode's maximal subpart). -/

namespace RecordStore

def utf8 (s : String) : Bytes := s.toUTF8.data.toList

namespace Utf8

/-- Where and how bytes stop being UTF-8. -/
inductive Fault
  /-- `length` bytes from `start` on are ruled out by the byte that follows them, or by themselves. -/
  | invalid (length start : Nat)
  /-- The bytes end inside a sequence that begins at `start`. -/
  | incomplete (start : Nat)
  deriving DecidableEq

def Fault.message : Fault → String
  | .invalid length start => s!"invalid utf-8 sequence of {length} bytes from index {start}"
  | .incomplete start => s!"incomplete utf-8 byte sequence from index {start}"

/-- A range of bytes, both ends included. -/
structure Range where
  low : UInt8
  high : UInt8

def Range.contains (r : Range) (b : UInt8) : Bool := r.low ≤ b && b ≤ r.high

/-- Any byte that continues a sequence. -/
def continuation : Range := ⟨0x80, 0xBF⟩

/-- What may follow a byte that begins a sequence: no overlong form, no surrogate, nothing above U+10FFFF. -/
def following (lead : UInt8) : Option (List Range) :=
  if lead < 0x80 then some []
  else if lead < 0xC2 then none
  else if lead < 0xE0 then some [continuation]
  else if lead = 0xE0 then some [⟨0xA0, 0xBF⟩, continuation]
  else if lead = 0xED then some [⟨0x80, 0x9F⟩, continuation]
  else if lead < 0xF0 then some [continuation, continuation]
  else if lead = 0xF0 then some [⟨0x90, 0xBF⟩, continuation, continuation]
  else if lead < 0xF4 then some [continuation, continuation, continuation]
  else if lead = 0xF4 then some [⟨0x80, 0x8F⟩, continuation, continuation]
  else none

/-- The first fault, given that the current sequence began at `start`, has `length` bytes so far and still
    wants a byte of each range of `wanted`. -/
def faultFrom (start length : Nat) : (wanted : List Range) → Bytes → Fault
  | _, [] => .incomplete start
  | [], b :: rest =>
    match following b with
    | none => .invalid 1 (start + length)
    | some wanted => faultFrom (start + length) 1 wanted rest
  | r :: wanted, b :: rest =>
    if r.contains b then faultFrom start (length + 1) wanted rest else .invalid length start

def fault (b : Bytes) : Fault := faultFrom 0 0 [] b

def decode (b : Bytes) : Except Fault String :=
  match String.fromUTF8? b.toByteArray with
  | some s => .ok s
  | none => .error (fault b)

end Utf8

end RecordStore
