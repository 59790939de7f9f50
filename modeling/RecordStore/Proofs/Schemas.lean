import Mathlib.Algebra.Ring.Nat
import RecordStore.Proofs.Payloads
import RecordStore.Schema

/-! # Writing under a schema

A schema lets an entity be written just if the entity fits it and its parts can be counted. What is written is read
again as the same entity, so that no two entities share a payload. -/

namespace RecordStore

/-- Null suits every field, another value one of its kind. -/
def Value.Suits (v : Value) (decl : FieldDecl) : Prop := v = .null ∨ v.kind? = some decl.kind

namespace Schema

/-- What a schema asks of an entity: a suitable value for each field and a key, and no more fields and no longer
    content than can be counted. -/
structure Fits (s : Schema) (e : Entity) : Prop where
  suits : List.Forall₂ Value.Suits e s.fields
  few : e.length ≤ Payload.maxFields
  keyed : e[0]? ≠ some .null
  short : ∀ v ∈ e, v.Short

theorem checkFields_cons {isKey : Bool} {decl : FieldDecl} {decls : List FieldDecl} {v : Value} {values : List Value} :
    checkFields isKey (decl :: decls) (v :: values) = .ok () ↔
      v.Suits decl ∧ (isKey = true → v ≠ .null) ∧ checkFields false decls values = .ok () := by
  rw [checkFields]
  cases hkind : v.kind? with
  | none =>
    have hnull : v = .null := by
      cases v with
      | null => rfl
      | _ => cases hkind
    cases isKey with
    | true => exact iff_of_false (fun h => by cases h) fun h => h.2.1 rfl hnull
    | false => simp [Value.Suits, hnull]
  | some kind =>
    have hvalue : v ≠ .null := by
      rintro rfl
      cases hkind
    by_cases hsame : kind = decl.kind
    · simp [Value.Suits, hkind, hsame, hvalue]
    · simp [Value.Suits, hkind, hsame, hvalue]

theorem checkFields_eq_ok_iff {isKey : Bool} {decls : List FieldDecl} {values : List Value}
    (hlength : values.length = decls.length) :
    checkFields isKey decls values = .ok () ↔
      List.Forall₂ Value.Suits values decls ∧ (isKey = true → values[0]? ≠ some .null) := by
  induction decls generalizing isKey values with
  | nil =>
    rw [List.eq_nil_of_length_eq_zero hlength]
    exact iff_of_true rfl ⟨.nil, fun _ h => by cases h⟩
  | cons decl decls ih =>
    cases values with
    | nil => cases hlength
    | cons v values =>
      rw [checkFields_cons, ih (Nat.succ.inj hlength), List.forall₂_cons]
      simp
      tauto

theorem check_eq_ok_iff {s : Schema} {e : Entity} :
    s.check e = .ok () ↔ List.Forall₂ Value.Suits e s.fields ∧ e[0]? ≠ some .null := by
  unfold check
  by_cases hlength : e.length = s.size
  · rw [if_pos hlength, checkFields_eq_ok_iff hlength]
    simp only [forall_const]
  · rw [if_neg hlength]
    exact iff_of_false (fun h => by cases h) fun h => hlength h.1.length_eq

theorem tooLong?_eq_none_iff {e : Entity} : tooLong? e = none ↔ ∀ v ∈ e, v.Short := by
  unfold tooLong? Value.Short
  rw [List.findSome?_eq_none_iff]
  refine forall₂_congr fun v hv => ?_
  cases v.content? with
  | none => simp
  | some b => simp

theorem encode_of_check {s : Schema} {e : Entity} (h : s.check e = .ok ()) :
    s.encode e = if Payload.maxFields < e.length then .error (.tooManyFields e.length) else
      match tooLong? e with
      | some length => .error (.fieldTooLong length)
      | none => .ok e.encode := by
  unfold encode
  rw [h]
  by_cases hmany : Payload.maxFields < e.length
  · rw [if_pos hmany, if_pos hmany]
    rfl
  · rw [if_neg hmany, if_neg hmany]
    rfl

/-- An entity is written just if it fits the schema. -/
theorem encode_eq_ok_iff {s : Schema} {e : Entity} {b : Bytes} : s.encode e = .ok b ↔ s.Fits e ∧ e.encode = b := by
  constructor
  · intro h
    obtain ⟨⟨⟩, hcheck, -⟩ := bind_eq_ok_iff.mp h
    obtain ⟨hsuits, hkeyed⟩ := check_eq_ok_iff.mp hcheck
    rw [encode_of_check hcheck] at h
    split at h
    · cases h
    next hfew =>
    split at h
    · cases h
    next hshort =>
    exact ⟨⟨hsuits, Nat.le_of_not_lt hfew, hkeyed, tooLong?_eq_none_iff.mp hshort⟩, Except.ok.inj h⟩
  · rintro ⟨h, rfl⟩
    rw [encode_of_check (check_eq_ok_iff.mpr ⟨h.suits, h.keyed⟩), if_neg (Nat.not_lt_of_le h.few),
      tooLong?_eq_none_iff.mpr h.short]

/-! ### What is written is read -/

theorem Fits.parses {s : Schema} {e : Entity} (h : s.Fits e) :
    Payload.Parses e.encode e (Bytes.littleEndian 2 e.length) (e.map Value.encode) [] where
  payload := by rw [List.append_nil, Entity.encode, List.flatMap_def]
  width := Bytes.length_littleEndian ..
  number := Bytes.toNat_littleEndian (Nat.lt_succ_of_le h.few)
  spelled := List.forall₂_map_right_iff.mpr (List.forall₂_same.mpr fun v hv => Value.spells_encode (h.short v hv))

theorem Fits.decode {s : Schema} {e : Entity} (h : s.Fits e) : Payload.decode e.encode = .ok e :=
  Payload.decode_eq_ok_iff_parses.mpr ⟨_, _, _, h.parses⟩

theorem Fits.key {s : Schema} {e : Entity} {k : Value} (h : s.Fits e) (hk : e[0]? = some k) :
    Payload.key e.encode = .ok k := by
  cases e with
  | nil => cases hk
  | cons k' values =>
    obtain rfl : k' = k := Option.some.inj hk
    exact h.parses.key fun hnull => h.keyed (congrArg some hnull)

theorem length_encode (e : Entity) : e.encode.length = 2 + (e.map Value.encodedLength).sum := by
  rw [Entity.encode, List.length_append, Bytes.length_littleEndian, List.length_flatMap]
  simp only [Value.length_encode]

/-- An entity is written just if it fits the schema. Then its payload is as long as its fields need, the entity and its
    key are had back from it, and it is the payload of no other entity. -/
theorem encode_round_trip (typeName : String) (key : FieldDecl) (others : List FieldDecl) (e : Entity) :
    ((∃ b, encode ⟨typeName, key :: others⟩ e = .ok b) ↔ Fits ⟨typeName, key :: others⟩ e) ∧
    ∀ b, encode ⟨typeName, key :: others⟩ e = .ok b →
      Payload.decode b = .ok e ∧
      (∃ k, e[0]? = some k ∧ Entity.key e = .ok k ∧ Payload.key b = .ok k) ∧
      b.length = 2 + (e.map Value.encodedLength).sum ∧
      ∀ (s : Schema) (e' : Entity), s.encode e' = .ok b → e' = e := by
  refine ⟨by simp only [encode_eq_ok_iff, exists_and_left, exists_eq', and_true], fun b hb => ?_⟩
  obtain ⟨hfits, rfl⟩ := encode_eq_ok_iff.mp hb
  refine ⟨hfits.decode, ?_, length_encode e, fun s e' he' => ?_⟩
  · obtain ⟨k, values, -, -, rfl⟩ := List.forall₂_cons_right_iff.mp hfits.suits
    have hk : k ≠ .null := fun h => hfits.keyed (congrArg some h)
    exact ⟨k, rfl, Entity.key_cons hk, hfits.parses.key hk⟩
  · obtain ⟨hfits', hsame⟩ := encode_eq_ok_iff.mp he'
    have hdecode := hfits'.decode
    rw [hsame, hfits.decode] at hdecode
    exact (Except.ok.inj hdecode).symm

/-- A value of each kind, the text beyond one byte a character, and a null. -/
theorem round_trip_of_each_kind :
    let payload : Bytes := [5, 0, 2, 254, 255, 255, 255, 255, 255, 255, 255, 3, 2, 0, 0, 0, 195, 169, 1, 1, 4, 1, 0, 0,
      0, 0, 0]
    encode ⟨"Entry", [⟨"id", .int⟩, ⟨"name", .str⟩, ⟨"active", .bool⟩, ⟨"image", .bytes⟩, ⟨"note", .str⟩]⟩
        [.int (-2), .str "é", .bool true, .bytes [0], .null] = .ok payload ∧
      Payload.decode payload = .ok [.int (-2), .str "é", .bool true, .bytes [0], .null] ∧ payload.length = 2 + 25 := by
  intro payload
  have hwritten : encode ⟨"Entry", [⟨"id", .int⟩, ⟨"name", .str⟩, ⟨"active", .bool⟩, ⟨"image", .bytes⟩, ⟨"note", .str⟩]⟩
      [.int (-2), .str "é", .bool true, .bytes [0], .null] = .ok payload := rfl
  obtain ⟨hdecode, -, hlength, -⟩ := (encode_round_trip "Entry" ⟨"id", .int⟩
    [⟨"name", .str⟩, ⟨"active", .bool⟩, ⟨"image", .bytes⟩, ⟨"note", .str⟩] _).2 payload hwritten
  exact ⟨hwritten, hdecode, hlength⟩

end Schema

end RecordStore
