import RecordStore.Text.Utf8

/-! # Values

An entity is a row of values. The first one is its primary key, which may be anything but null. -/

namespace RecordStore

inductive Value
  | null
  | bool (b : Bool)
  | int (i : Int64)
  | str (s : String)
  | bytes (b : Bytes)
  deriving DecidableEq

/-- A declared kind of field. Null belongs to every kind. -/
inductive Kind
  | bool
  | int
  | str
  | bytes
  deriving DecidableEq

def Kind.name : Kind → String
  | .bool => "Bool"
  | .int => "Int"
  | .str => "Str"
  | .bytes => "Bytes"

/-- The kind a value must be declared with, null excepted. -/
def Value.kind? : Value → Option Kind
  | .null => none
  | .bool _ => some .bool
  | .int _ => some .int
  | .str _ => some .str
  | .bytes _ => some .bytes

/-- A row of values, the primary key first. -/
abbrev Entity := List Value

/-- The value in the key's place, if it can be a key. -/
def Entity.key? : Entity → Option Value
  | [] | .null :: _ => none
  | key :: _ => some key

end RecordStore
