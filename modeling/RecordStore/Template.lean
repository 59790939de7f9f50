import RecordStore.Payload

/-! # Templates

A template is a sparse entity: it asks for exact values at some positions and for none at the others. It is
compared with a payload field by field, without decoding the payload. -/

namespace RecordStore

/-- The wanted value at each position, if one is wanted there. -/
structure Template where
  fields : List (Option Value)

namespace Template

def any : Template := ⟨[]⟩

/-- Also asks for `v` at position `index`, whatever was asked for there before. -/
def set (t : Template) (index : Nat) (v : Value) : Template :=
  if index < t.fields.length then ⟨t.fields.set index (some v)⟩
  else ⟨t.fields ++ List.replicate (index - t.fields.length) none ++ [some v]⟩

/-- Asks for one primary key. -/
def ofKey (key : Value) : Template := any.set 0 key

def width (t : Template) : Nat := t.fields.length

/-- Whether the next fields of a payload are the wanted ones. What follows a difference is not read. -/
def matchFields : List (Option Value) → Bytes → Except CodecFault Bool
  | [], _ => .ok true
  | wanted :: fields, b =>
    match Field.read b with
    | .error fault => .error fault
    | .ok (field, rest) =>
      match wanted with
      | none => matchFields fields rest
      | some v => if field = Field.ofValue v then matchFields fields rest else .ok false

def matches? (t : Template) (p : Bytes) : Except CodecFault Bool := do
  let (count, rest) ← Payload.fieldCount p
  if count < t.width then return false
  matchFields t.fields rest

end Template

end RecordStore
