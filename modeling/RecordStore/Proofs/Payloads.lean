import Mathlib.Data.List.Forall2
import RecordStore.Proofs.Fields

/-! # Entities in payloads

A payload holds an entity if it is a count in two bytes, a spelling for each of so many values, and anything. Reading
accepts just these payloads. Writing the entity again gives back what was read of it, with true written as one. -/

namespace RecordStore

namespace Payload

theorem fieldCount_eq_ok_iff {p rest : Bytes} {n : Nat} :
    fieldCount p = .ok (n, rest) ↔ ∃ count, count.length = 2 ∧ Bytes.toNat count = n ∧ p = count ++ rest := by
  unfold fieldCount
  rw [bind_eq_ok_iff]
  constructor
  · rintro ⟨⟨count, rest'⟩, hsplit, h⟩
    obtain ⟨hwidth, rfl⟩ := Bytes.split_eq_ok_iff.mp hsplit
    cases h
    exact ⟨count, hwidth, rfl, rfl⟩
  · rintro ⟨count, hwidth, rfl, rfl⟩
    exact ⟨(count, rest), Bytes.split_eq_ok_iff.mpr ⟨hwidth, rfl⟩, rfl⟩

theorem decode_eq_ok_iff {p : Bytes} {e : Entity} :
    decode p = .ok e ↔ ∃ count rest, fieldCount p = .ok (count, rest) ∧ readValues count [] rest = .ok e := by
  unfold decode
  rw [bind_eq_ok_iff, Prod.exists]

theorem readValues_succ_iff {n : Nat} {done e : List Value} {b : Bytes} :
    readValues (n + 1) done b = .ok e ↔
      ∃ v rest, Field.read b = .ok (Field.ofValue v, rest) ∧ readValues n (v :: done) rest = .ok e := by
  rw [readValues, bind_eq_ok_iff]
  constructor
  · rintro ⟨⟨field, rest⟩, hread, h⟩
    obtain ⟨v, hv, hrest⟩ := bind_eq_ok_iff.mp h
    rw [Field.value_eq_ok_iff] at hv
    exact ⟨v, rest, hv ▸ hread, hrest⟩
  · rintro ⟨v, rest, hread, hrest⟩
    exact ⟨(Field.ofValue v, rest), hread, bind_eq_ok_iff.mpr ⟨v, Field.value_eq_ok_iff.mpr rfl, hrest⟩⟩

/-- The values in their order, each in a spelling of its own. -/
abbrev Spelled : List Value → List Bytes → Prop := List.Forall₂ fun v w => (Field.ofValue v).Spells w

/-- The next values are read if the bytes begin with a spelling for each of them. -/
theorem readValues_eq_ok_iff {n : Nat} {done e : List Value} {b : Bytes} :
    readValues n done b = .ok e ↔
      ∃ vs ws rest, e = done.reverse ++ vs ∧ vs.length = n ∧ Spelled vs ws ∧ b = ws.flatten ++ rest := by
  induction n generalizing done b with
  | zero =>
    constructor
    · intro h
      cases h
      exact ⟨[], [], b, (List.append_nil _).symm, rfl, .nil, rfl⟩
    · rintro ⟨vs, ws, rest, rfl, hlength, -, -⟩
      rw [List.eq_nil_of_length_eq_zero hlength, List.append_nil]
      rfl
  | succ n ih =>
    rw [readValues_succ_iff]
    constructor
    · rintro ⟨v, b', hread, hrest⟩
      obtain ⟨w, hw, rfl⟩ := Field.read_eq_ok_iff.mp hread
      obtain ⟨vs, ws, rest, rfl, hlength, hspelled, rfl⟩ := ih.mp hrest
      exact ⟨v :: vs, w :: ws, rest, by simp, congrArg (· + 1) hlength, .cons hw hspelled, by simp⟩
    · rintro ⟨vs, ws, rest, rfl, hlength, hspelled, rfl⟩
      cases hspelled with
      | nil => cases hlength
      | @cons v w vs ws hw hspelled =>
        exact ⟨v, ws.flatten ++ rest, Field.read_eq_ok_iff.mpr ⟨w, hw, by simp⟩,
          ih.mpr ⟨vs, ws, rest, by simp, Nat.succ.inj hlength, hspelled, rfl⟩⟩

/-- How an entity lies in a payload: the count of its fields in two bytes, a spelling for each field, and bytes that
    nobody reads. -/
structure Parses (p : Bytes) (e : Entity) (count : Bytes) (fields : List Bytes) (trailing : Bytes) : Prop where
  payload : p = count ++ fields.flatten ++ trailing
  width : count.length = 2
  number : Bytes.toNat count = e.length
  spelled : Spelled e fields

theorem decode_eq_ok_iff_parses {p : Bytes} {e : Entity} :
    decode p = .ok e ↔ ∃ count fields trailing, Parses p e count fields trailing := by
  rw [decode_eq_ok_iff]
  constructor
  · rintro ⟨n, b, hcount, hvalues⟩
    obtain ⟨count, hwidth, rfl, rfl⟩ := fieldCount_eq_ok_iff.mp hcount
    obtain ⟨vs, fields, trailing, rfl, hlength, hspelled, rfl⟩ := readValues_eq_ok_iff.mp hvalues
    exact ⟨count, fields, trailing, (List.append_assoc ..).symm, hwidth, hlength.symm, hspelled⟩
  · rintro ⟨count, fields, trailing, rfl, hwidth, hnumber, hspelled⟩
    exact ⟨e.length, fields.flatten ++ trailing,
      fieldCount_eq_ok_iff.mpr ⟨count, hwidth, hnumber, List.append_assoc ..⟩,
      readValues_eq_ok_iff.mpr ⟨e, fields, trailing, rfl, rfl, hspelled, rfl⟩⟩

theorem Spelled.encode {e : Entity} {fields : List Bytes} (h : Spelled e fields) :
    e.flatMap Value.encode = (fields.map Field.tidy).flatten := by
  induction h with
  | nil => rfl
  | cons hw _ ih => rw [List.flatMap_cons, List.map_cons, List.flatten_cons, (Value.encode_of_spells hw).1, ih]

theorem Spelled.short {e : Entity} {fields : List Bytes} (h : Spelled e fields) : ∀ v ∈ e, v.Short := by
  induction h with
  | nil => exact fun v hv => absurd hv List.not_mem_nil
  | cons hw _ ih => exact List.forall_mem_cons.mpr ⟨(Value.encode_of_spells hw).2, ih⟩

theorem Parses.few {p count trailing : Bytes} {e : Entity} {fields : List Bytes}
    (h : Parses p e count fields trailing) : e.length ≤ maxFields := by
  have hlt := Bytes.toNat_lt count
  rw [h.width, h.number] at hlt
  exact Nat.le_of_lt_succ hlt

theorem Parses.encode {p count trailing : Bytes} {e : Entity} {fields : List Bytes}
    (h : Parses p e count fields trailing) : e.encode = count ++ (fields.map Field.tidy).flatten := by
  rw [Entity.encode, ← h.number, ← h.width, Bytes.littleEndian_toNat, h.spelled.encode]

theorem key_of_fieldCount {p b : Bytes} {n : Nat} (h : fieldCount p = .ok (n, b)) :
    key p = if n = 0 then .error .payloadWithoutKey else
      Field.read b >>= fun next => if next.1 = .null then .error .payloadWithoutKey else next.1.value := by
  unfold key
  rw [h]
  show (if n = 0 then _ else _) = _
  split
  · rfl
  · refine congrArg (Except.bind (Field.read b)) (funext fun next => ?_)
    show (if next.1 = .null then _ else _) = _
    split
    · rfl
    · rfl

/-- A payload has a key if it counts a field and begins with a spelling of one that holds a value but null. -/
theorem key_eq_ok_iff {p : Bytes} {k : Value} :
    key p = .ok k ↔ k ≠ .null ∧ ∃ count w rest, p = count ++ w ++ rest ∧ count.length = 2 ∧ Bytes.toNat count ≠ 0 ∧
      (Field.ofValue k).Spells w := by
  constructor
  · intro h
    obtain ⟨⟨n, b⟩, hcount, -⟩ := bind_eq_ok_iff.mp h
    rw [key_of_fieldCount hcount] at h
    obtain ⟨count, hwidth, rfl, rfl⟩ := fieldCount_eq_ok_iff.mp hcount
    split at h
    · cases h
    next hnumber =>
    obtain ⟨⟨field, rest⟩, hread, hvalue⟩ := bind_eq_ok_iff.mp h
    obtain ⟨w, hw, rfl⟩ := Field.read_eq_ok_iff.mp hread
    dsimp only at hvalue
    split at hvalue
    · cases hvalue
    next hnull =>
    obtain rfl := Field.value_eq_ok_iff.mp hvalue
    exact ⟨fun hk => hnull (congrArg Field.ofValue hk), count, w, rest, (List.append_assoc ..).symm, hwidth, hnumber, hw⟩
  · rintro ⟨hk, count, w, rest, rfl, hwidth, hnumber, hw⟩
    have hcount : fieldCount (count ++ w ++ rest) = .ok (Bytes.toNat count, w ++ rest) :=
      fieldCount_eq_ok_iff.mpr ⟨count, hwidth, rfl, List.append_assoc ..⟩
    have hnull : Field.ofValue k ≠ .null := fun h => hk (Field.ofValue_inj.mp h)
    rw [key_of_fieldCount hcount, if_neg hnumber]
    exact bind_eq_ok_iff.mpr ⟨(Field.ofValue k, rest), Field.read_eq_ok_iff.mpr ⟨w, hw, rfl⟩,
      by rw [if_neg hnull, Field.value_eq_ok_iff.mpr rfl]⟩

theorem Parses.key {p count trailing : Bytes} {k : Value} {e : Entity} {fields : List Bytes}
    (h : Parses p (k :: e) count fields trailing) (hk : k ≠ .null) : key p = .ok k := by
  obtain ⟨w, ws, hw, -, rfl⟩ := List.forall₂_cons_left_iff.mp h.spelled
  refine key_eq_ok_iff.mpr ⟨hk, count, w, ws.flatten ++ trailing, ?_, h.width, ?_, hw⟩
  · rw [h.payload]
    simp
  · rw [h.number]
    exact Nat.succ_ne_zero _

/-- Just the payloads in which an entity lies are read, as that entity; the others fail. What is read can be written,
    and is written again as it was but for true and for what nobody reads. -/
theorem reads_grammar (p : Bytes) :
    (∀ e, decode p = .ok e ↔ ∃ count fields trailing, Parses p e count fields trailing) ∧
    ((∃ fault, decode p = .error fault) ↔ ¬ ∃ e count fields trailing, Parses p e count fields trailing) ∧
    ∀ e count fields trailing, Parses p e count fields trailing →
      e.encode = count ++ (fields.map Field.tidy).flatten ∧ e.length ≤ maxFields ∧ ∀ v ∈ e, v.Short := by
  refine ⟨fun e => decode_eq_ok_iff_parses, ?_, fun e count fields trailing h => ⟨h.encode, h.few, h.spelled.short⟩⟩
  simp only [← decode_eq_ok_iff_parses]
  cases decode p with
  | error fault => exact iff_of_true ⟨fault, rfl⟩ (by rintro ⟨e, h⟩; cases h)
  | ok e => exact iff_of_false (by rintro ⟨fault, h⟩; cases h) fun h => h ⟨e, rfl⟩

/-- Seven is true, and two bytes follow the text. -/
theorem reads_loosely : decode [2, 0, 1, 7, 3, 1, 0, 0, 0, 65, 9, 9] = .ok [.bool true, .str "A"] ∧
    Entity.encode [.bool true, .str "A"] = [2, 0, 1, 1, 3, 1, 0, 0, 0, 65] := by
  have hparses : Parses [2, 0, 1, 7, 3, 1, 0, 0, 0, 65, 9, 9] [.bool true, .str "A"] [2, 0]
      [[1, 7], [3, 1, 0, 0, 0, 65]] [9, 9] :=
    ⟨rfl, rfl, rfl, .cons (.bool 7) (.cons (@Field.Spells.str [1, 0, 0, 0] _ rfl rfl) .nil)⟩
  obtain ⟨hdecode, -, hencode⟩ := reads_grammar [2, 0, 1, 7, 3, 1, 0, 0, 0, 65, 9, 9]
  exact ⟨(hdecode _).mpr ⟨_, _, _, hparses⟩, (hencode _ _ _ _ hparses).1⟩

end Payload

theorem Entity.key_cons {k : Value} {e : Entity} (hk : k ≠ .null) : Entity.key (k :: e) = .ok k := by
  cases k with
  | null => exact absurd rfl hk
  | _ => rfl

end RecordStore
