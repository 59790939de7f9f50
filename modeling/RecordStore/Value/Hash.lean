import RecordStore.Hash.Finalizer
import RecordStore.Hash.Sip
import RecordStore.Value

/-! # Hashes of keys

A key is hashed with SipHash-1-3 under the zero key. The bytes hashed tell values of different kinds apart: the
kind comes first, in eight bytes, and no input is the start of another one. -/

namespace RecordStore

namespace Value

/-- The bytes that stand for a value in its hash. -/
def hashInput : Value → Bytes
  | .null => Bytes.littleEndian 8 0
  | .bool b => Bytes.littleEndian 8 1 ++ [if b then 1 else 0]
  | .int i => Bytes.littleEndian 8 2 ++ Bytes.littleEndian 8 i.toUInt64.toNat
  | .str s => Bytes.littleEndian 8 3 ++ (utf8 s ++ [0xff])
  | .bytes b => Bytes.littleEndian 8 4 ++ (Bytes.littleEndian 8 b.length ++ b)

def hash (v : Value) : UInt64 := Sip.hash 1 3 0 0 v.hashInput

/-- The slot where the search for a key begins, in a table of `capacity` slots. -/
def home (v : Value) (capacity : Nat) : Nat := (mix v.hash).toNat % capacity

end Value

end RecordStore
