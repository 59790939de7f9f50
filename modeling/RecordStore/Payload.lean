import RecordStore.Failure

/-! # Payloads

A payload is the byte form of an entity: the number of fields in two bytes, then for each field a tag and the
value. Null is the tag alone; a boolean has one byte, an integer eight; text and bytes come after their length
in four bytes. What follows the last field is ignored, and any byte but zero reads as true. -/

namespace RecordStore

/-! ### Writing -/

namespace Value

def nullTag : UInt8 := 0
def boolTag : UInt8 := 1
def intTag : UInt8 := 2
def strTag : UInt8 := 3
def bytesTag : UInt8 := 4

/-- A value that writes its own length has to keep it below this. -/
def lengthLimit : Nat := 0x100000000

/-- The bytes of a value whose length is written with it. -/
def content? : Value → Option Bytes
  | .str s => some (utf8 s)
  | .bytes b => some b
  | _ => none

def encode : Value → Bytes
  | .null => [nullTag]
  | .bool b => [boolTag, if b then 1 else 0]
  | .int i => intTag :: Bytes.littleEndian 8 i.toUInt64.toNat
  | .str s => let b := utf8 s; strTag :: (Bytes.littleEndian 4 b.length ++ b)
  | .bytes b => bytesTag :: (Bytes.littleEndian 4 b.length ++ b)

def encodedLength : Value → Nat
  | .null => 1
  | .bool _ => 2
  | .int _ => 9
  | .str s => 5 + (utf8 s).length
  | .bytes b => 5 + b.length

theorem length_encode (v : Value) : v.encode.length = v.encodedLength := by
  cases v <;> simp [encode, encodedLength] <;> omega

end Value

/-- More fields than this cannot be counted in a payload. -/
def Payload.maxFields : Nat := 65535

def Entity.encode (e : Entity) : Bytes :=
  Bytes.littleEndian 2 e.length ++ e.flatMap Value.encode

/-! ### Reading -/

/-- The first `n` bytes, and what follows them. -/
def Bytes.split (n : Nat) (b : Bytes) : Except CodecFault (Bytes × Bytes) :=
  let (head, rest) := b.splitAt n
  if head.length = n then .ok (head, rest) else .error (.truncated n b.length)

/-- A field as it lies in a payload: text is not yet known to be text. -/
inductive Field
  | null
  | bool (b : Bool)
  | int (i : Int64)
  | str (b : Bytes)
  | bytes (b : Bytes)
  deriving DecidableEq

namespace Field

/-- Bytes that come after their length. -/
def readContent (b : Bytes) : Except CodecFault (Bytes × Bytes) := do
  let (length, rest) ← Bytes.split 4 b
  Bytes.split (Bytes.toNat length) rest

/-- The field at the head of the bytes, and what follows it. -/
def read (b : Bytes) : Except CodecFault (Field × Bytes) :=
  match b with
  | [] => .error (.truncated 1 0)
  | tag :: rest =>
    if tag = Value.nullTag then .ok (.null, rest)
    else if tag = Value.boolTag then do
      let (word, rest) ← Bytes.split 1 rest
      return (.bool (Bytes.toNat word != 0), rest)
    else if tag = Value.intTag then do
      let (word, rest) ← Bytes.split 8 rest
      return (.int (UInt64.ofNat (Bytes.toNat word)).toInt64, rest)
    else if tag = Value.strTag then do
      let (content, rest) ← readContent rest
      return (.str content, rest)
    else if tag = Value.bytesTag then do
      let (content, rest) ← readContent rest
      return (.bytes content, rest)
    else .error (.unknownTag tag.toNat)

def value : Field → Except CodecFault Value
  | .null => .ok .null
  | .bool b => .ok (.bool b)
  | .int i => .ok (.int i)
  | .str b => match Utf8.decode b with
    | .ok s => .ok (.str s)
    | .error fault => .error (.invalidText fault)
  | .bytes b => .ok (.bytes b)

/-- The field that holds the value. -/
def ofValue : Value → Field
  | .null => .null
  | .bool b => .bool b
  | .int i => .int i
  | .str s => .str (utf8 s)
  | .bytes b => .bytes b

end Field

namespace Payload

/-- The number of fields, and the bytes after it. -/
def fieldCount (p : Bytes) : Except CodecFault (Nat × Bytes) := do
  let (word, rest) ← Bytes.split 2 p
  return (Bytes.toNat word, rest)

/-- The values of the next `n` fields after those already read, which come last read first. -/
def readValues : (n : Nat) → (done : List Value) → Bytes → Except CodecFault Entity
  | 0, done, _ => .ok done.reverse
  | n + 1, done, b => do
    let (field, rest) ← Field.read b
    let v ← field.value
    readValues n (v :: done) rest

/-- The entity that the payload holds. -/
def decode (p : Bytes) : Except CodecFault Entity := do
  let (count, rest) ← fieldCount p
  readValues count [] rest

def key (p : Bytes) : Except CodecFault Value := do
  let (count, rest) ← fieldCount p
  if count = 0 then throw .payloadWithoutKey
  let (field, _) ← Field.read rest
  if field = .null then throw .payloadWithoutKey
  field.value

end Payload

def Entity.key (e : Entity) : Except CodecFault Value :=
  match e.key? with
  | some key => .ok key
  | none => .error .entityWithoutKey

end RecordStore
