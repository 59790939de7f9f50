import RecordStore.Bytes

/-! # SipHash

The keyed hash SipHash: a state of four words takes up the input eight bytes at a time, with `c` rounds for each
word and `d` rounds at the end. -/

namespace RecordStore

structure Sip where
  v0 : UInt64
  v1 : UInt64
  v2 : UInt64
  v3 : UInt64

namespace Sip

/-- The word rotated by `n` bits, `0 < n < 64`. -/
def rotateLeft (x : UInt64) (n : UInt64) : UInt64 := (x <<< n) ||| (x >>> (64 - n))

/-- The starting state for a key of two words. -/
def start (k0 k1 : UInt64) : Sip :=
  ⟨k0 ^^^ 0x736f6d6570736575, k1 ^^^ 0x646f72616e646f6d, k0 ^^^ 0x6c7967656e657261, k1 ^^^ 0x7465646279746573⟩

/-- One round: additions, rotations and exclusive ors over the four words. -/
def round (s : Sip) : Sip :=
  let v0 := s.v0 + s.v1
  let v1 := rotateLeft s.v1 13 ^^^ v0
  let v0 := rotateLeft v0 32
  let v2 := s.v2 + s.v3
  let v3 := rotateLeft s.v3 16 ^^^ v2
  let v0 := v0 + v3
  let v3 := rotateLeft v3 21 ^^^ v0
  let v2 := v2 + v1
  let v1 := rotateLeft v1 17 ^^^ v2
  let v2 := rotateLeft v2 32
  ⟨v0, v1, v2, v3⟩

def rounds : Nat → Sip → Sip
  | 0, s => s
  | n + 1, s => rounds n s.round

/-- The word of up to eight bytes, least significant first. -/
def word : Bytes → UInt64
  | [] => 0
  | b :: rest => (word rest <<< 8) ||| b.toUInt64

def absorb (c : Nat) (m : UInt64) (s : Sip) : Sip :=
  let s := rounds c { s with v3 := s.v3 ^^^ m }
  { s with v0 := s.v0 ^^^ m }

/-- Takes up all bytes. The last word has what is left of them and, in its top byte, the length of the input. -/
def absorbAll (c length : Nat) : Bytes → Sip → Sip
  | b0 :: b1 :: b2 :: b3 :: b4 :: b5 :: b6 :: b7 :: rest, s =>
    absorbAll c length rest (absorb c (word [b0, b1, b2, b3, b4, b5, b6, b7]) s)
  | rest, s => absorb c (word rest ||| (UInt64.ofNat length <<< 56)) s

/-- The hash of the input with `c` rounds a word and `d` at the end. -/
def hash (c d : Nat) (k0 k1 : UInt64) (input : Bytes) : UInt64 :=
  let s := absorbAll c input.length input (start k0 k1)
  let s := rounds d { s with v2 := s.v2 ^^^ 0xff }
  s.v0 ^^^ s.v1 ^^^ s.v2 ^^^ s.v3

end Sip

end RecordStore
