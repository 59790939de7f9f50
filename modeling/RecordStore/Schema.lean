import RecordStore.Payload

/-! # Schemas

A schema names a type of entities and declares the kind of each field. An entity is written only if it fits the
schema; reading needs no schema, because every field carries its kind. -/

namespace RecordStore

structure FieldDecl where
  name : String
  kind : Kind

/-- The fields of a type, the primary key first. -/
structure Schema where
  typeName : String
  fields : List FieldDecl

namespace Schema

/-- The position of the first field of that name. -/
def indexOf? (s : Schema) (name : String) : Option Nat := s.fields.findIdx? (·.name = name)

def size (s : Schema) : Nat := s.fields.length

def isEmpty (s : Schema) : Bool := s.fields.isEmpty

/-- Whether the values are of their declared kinds; the value at the key's place (`isKey`) is not null. -/
def checkFields : (isKey : Bool) → List FieldDecl → List Value → Except CodecFault Unit
  | isKey, decl :: decls, v :: values =>
    match v.kind? with
    | none => if isKey then .error (.nullKey decl.name) else checkFields false decls values
    | some kind =>
      if kind = decl.kind then checkFields false decls values else .error (.fieldKind decl.name decl.kind kind)
  | _, _, _ => .ok ()

/-- Whether the entity fits the schema. -/
def check (s : Schema) (e : Entity) : Except CodecFault Unit :=
  if e.length = s.size then checkFields true s.fields e
  else .error (.fieldCount s.typeName s.size e.length)

/-- The first value that is too long for its length to be written. -/
def tooLong? (e : Entity) : Option Nat :=
  e.findSome? fun v => v.content?.bind fun b => if b.length < Value.lengthLimit then none else some b.length

def encode (s : Schema) (e : Entity) : Except CodecFault Bytes := do
  s.check e
  if Payload.maxFields < e.length then throw (.tooManyFields e.length)
  match tooLong? e with
  | some length => throw (.fieldTooLong length)
  | none => return e.encode

end Schema

end RecordStore
