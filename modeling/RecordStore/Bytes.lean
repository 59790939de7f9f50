/-! # Byte strings and words

Byte strings are lists of bytes. A word of a fixed width is written with its least significant byte first. -/

namespace RecordStore

abbrev Bytes := List UInt8

/-- How many values a machine word has: sizes, offsets and counts are below it. -/
def wordLimit : Nat := 0x10000000000000000

namespace Bytes

/-- The last `width` base-256 digits of `n`, least significant first. -/
def littleEndian : (width : Nat) → (n : Nat) → Bytes
  | 0, _ => []
  | width + 1, n => UInt8.ofNat n :: littleEndian width (n / 256)

/-- The number whose base-256 digits are the bytes, least significant first. -/
def toNat : Bytes → Nat
  | [] => 0
  | b :: rest => b.toNat + 256 * toNat rest

@[simp] theorem length_littleEndian (width n : Nat) : (littleEndian width n).length = width := by
  induction width generalizing n with
  | zero => rfl
  | succ width ih => simp [littleEndian, ih]

end Bytes

end RecordStore
