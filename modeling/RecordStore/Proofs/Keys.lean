import RecordStore.Proofs.Payloads
import RecordStore.Template

/-! # Ways to a key

A key is read from a payload on its own, taken from the entity that the payload holds, or compared as it lies there with
a key that is wanted. Tables find their homes by the first way, answers come by the second and searches by the third.
All of them look at one field, whatever follows it. The main statement says that they agree on any bytes. -/

namespace RecordStore

variable {p : Bytes} {e : Entity} {k : Value}

namespace Payload

/-- The field that lies in the key's place, if the payload counts one. -/
def firstField? (p : Bytes) : Except CodecFault (Option Field) := do
  let (count, rest) ← fieldCount p
  if count = 0 then return none
  let (field, _) ← Field.read rest
  return some field

/-- A key is the value of the first field, and that is not null. -/
theorem key_eq_firstField (p : Bytes) :
    key p = firstField? p >>= fun field? =>
      match field? with
      | none | some .null => .error .payloadWithoutKey
      | some field => field.value := by
  unfold firstField?
  cases hcount : fieldCount p with
  | error fault =>
    unfold key
    rw [hcount]
    rfl
  | ok next =>
    obtain ⟨count, rest⟩ := next
    rw [key_of_fieldCount hcount]
    by_cases hzero : count = 0
    · simp only [hzero, bind, Except.bind, pure, Except.pure, if_true]
    · cases hread : Field.read rest with
      | error fault => simp only [hzero, hread, bind, Except.bind, if_false]
      | ok next =>
        obtain ⟨field, rest'⟩ := next
        simp only [hzero, hread, bind, Except.bind, pure, Except.pure, if_false]
        cases field <;> simp

/-- The first field of a payload that holds an entity is spelled for the first value of it. -/
theorem firstField?_of_decode (h : decode p = .ok e) : firstField? p = .ok (e.head?.map Field.ofValue) := by
  obtain ⟨count, rest, hcount, hvalues⟩ := decode_eq_ok_iff.mp h
  cases count with
  | zero =>
    cases hvalues
    simp only [firstField?, hcount, bind, Except.bind, pure, Except.pure, if_true]
    rfl
  | succ n =>
    obtain ⟨v, rest', hread, hrest⟩ := readValues_succ_iff.mp hvalues
    obtain ⟨vs, -, -, rfl, -, -, -⟩ := readValues_eq_ok_iff.mp hrest
    simp only [firstField?, hcount, hread, bind, Except.bind, pure, Except.pure, Nat.add_one_ne_zero, if_false]
    rfl

theorem firstField?_of_key (h : key p = .ok k) : k ≠ .null ∧ firstField? p = .ok (some (Field.ofValue k)) := by
  rw [key_eq_firstField] at h
  obtain ⟨field?, hfirst, hvalue⟩ := bind_eq_ok_iff.mp h
  cases field? with
  | none => cases hvalue
  | some field =>
    cases field with
    | null => cases hvalue
    | _ =>
      obtain hsame := Field.value_eq_ok_iff.mp hvalue
      refine ⟨?_, hsame ▸ hfirst⟩
      rintro rfl
      cases hsame

theorem key_of_firstField? (hk : k ≠ .null) (h : firstField? p = .ok (some (Field.ofValue k))) : key p = .ok k := by
  rw [key_eq_firstField]
  refine bind_eq_ok_iff.mpr ⟨_, h, ?_⟩
  cases k with
  | null => exact absurd rfl hk
  | _ => exact Field.value_eq_ok_iff.mpr rfl

/-- The key of a payload is the first value of its entity. -/
theorem key_of_decode (h : decode p = .ok e) (hk : key p = .ok k) : e[0]? = some k := by
  have hfirst := (firstField?_of_decode h).symm.trans (firstField?_of_key hk).2
  obtain ⟨v, hv, hsame⟩ := Option.map_eq_some_iff.mp (Except.ok.inj hfirst)
  rw [← List.head?_eq_getElem?, hv, Field.ofValue_inj.mp hsame]

/-- The key of a payload that holds an entity is the key of the entity, and if one has no key, then neither has the
    other. -/
theorem key_cases_of_decode (h : decode p = .ok e) :
    (∃ k, key p = .ok k ∧ Entity.key e = .ok k) ∨
      (key p = .error .payloadWithoutKey ∧ Entity.key e = .error .entityWithoutKey) := by
  have hfirst := firstField?_of_decode h
  cases e with
  | nil =>
    rw [key_eq_firstField, hfirst]
    exact Or.inr ⟨rfl, rfl⟩
  | cons v e =>
    by_cases hnull : v = .null
    · subst hnull
      rw [key_eq_firstField, hfirst]
      exact Or.inr ⟨rfl, rfl⟩
    · exact Or.inl ⟨v, key_of_firstField? hnull hfirst, Entity.key_cons hnull⟩

end Payload

namespace Template

/-- Of a payload that is asked for a key no more than its first field is read. -/
theorem matches?_ofKey_eq (v : Value) (p : Bytes) :
    (ofKey v).matches? p = (Payload.firstField? p).map fun field? => decide (field? = some (Field.ofValue v)) := by
  have hfields : (ofKey v).fields = [some v] := rfl
  have hwidth : (ofKey v).width = 1 := rfl
  unfold matches? Payload.firstField?
  cases hcount : Payload.fieldCount p with
  | error fault => rfl
  | ok next =>
    obtain ⟨count, rest⟩ := next
    simp only [bind, Except.bind, hwidth, hfields, Nat.lt_one_iff]
    by_cases hzero : count = 0
    · simp only [hzero, if_true]
      rfl
    · cases hread : Field.read rest with
      | error fault => simp only [hzero, hread, matchFields, if_false, Except.map]
      | ok next =>
        obtain ⟨field, rest'⟩ := next
        simp only [hzero, hread, matchFields, if_false, Except.map, pure, Except.pure, Option.some.injEq]
        by_cases hsame : field = Field.ofValue v
        · simp only [hsame, if_true, decide_true]
        · simp only [hsame, if_false, decide_false]

theorem matches?_ofKey {k' : Value} (h : Payload.key p = .ok k') : (ofKey k).matches? p = .ok (decide (k' = k)) := by
  rw [matches?_ofKey_eq, (Payload.firstField?_of_key h).2, Except.map]
  exact congrArg Except.ok (decide_eq_decide.mpr (Option.some_inj.trans Field.ofValue_inj))

theorem key_of_matches?_ofKey (hk : k ≠ .null) (h : (ofKey k).matches? p = .ok true) : Payload.key p = .ok k := by
  rw [matches?_ofKey_eq] at h
  cases hfirst : Payload.firstField? p with
  | error fault =>
    rw [hfirst] at h
    cases h
  | ok field? =>
    rw [hfirst] at h
    rw [of_decide_eq_true (Except.ok.inj h)] at hfirst
    exact Payload.key_of_firstField? hk hfirst

theorem key_of_matches?_error {fault : CodecFault} (h : (ofKey k).matches? p = .error fault) :
    Payload.key p = .error fault := by
  rw [matches?_ofKey_eq] at h
  rw [Payload.key_eq_firstField]
  cases hfirst : Payload.firstField? p with
  | error fault' =>
    rw [hfirst] at h
    cases h
    rfl
  | ok field? =>
    rw [hfirst] at h
    cases h

end Template

/-- The key that is read from a payload is the key of the entity in it, if there is one, and the only one that it is
    compared with successfully. It takes no entity for that: a key that is found by comparing can be read, and where
    the comparison fails, so does reading the key. -/
theorem Payload.keys_agree (p : Bytes) :
    (∀ e, decode p = .ok e →
      (∃ k, key p = .ok k ∧ Entity.key e = .ok k) ∨
        (key p = .error .payloadWithoutKey ∧ Entity.key e = .error .entityWithoutKey)) ∧
    (∀ k, key p = .ok k → ∀ v, (Template.ofKey v).matches? p = .ok (decide (v = k))) ∧
    (∀ v, v ≠ .null → (Template.ofKey v).matches? p = .ok true → key p = .ok v) ∧
    ∀ v fault, (Template.ofKey v).matches? p = .error fault → key p = .error fault := by
  refine ⟨fun e => key_cases_of_decode, fun k hk v => ?_, fun v => Template.key_of_matches?_ofKey,
    fun v fault => Template.key_of_matches?_error⟩
  rw [Template.matches?_ofKey hk, decide_eq_decide.mpr eq_comm]

/-- True is written as seven before a text that is none; the other payload has a null in the key's place. -/
theorem Payload.keys_of_damaged_and_null :
    (∃ fault, decode [2, 0, 1, 7, 3, 1, 0, 0, 0, 255] = .error fault) ∧
    key [2, 0, 1, 7, 3, 1, 0, 0, 0, 255] = .ok (.bool true) ∧
    (∀ v, (Template.ofKey v).matches? [2, 0, 1, 7, 3, 1, 0, 0, 0, 255] = .ok (decide (v = .bool true))) ∧
    decode [1, 0, 0] = .ok [.null] ∧
    key [1, 0, 0] = .error .payloadWithoutKey ∧ Entity.key [.null] = .error .entityWithoutKey := by
  have hkey : key [2, 0, 1, 7, 3, 1, 0, 0, 0, 255] = .ok (.bool true) := rfl
  have hdecode : decode [1, 0, 0] = .ok [.null] := rfl
  refine ⟨⟨_, rfl⟩, hkey, (keys_agree _).2.1 _ hkey, hdecode, ?_⟩
  rcases (keys_agree _).1 _ hdecode with ⟨k, hk, -⟩ | hneither
  · cases hk
  · exact hneither

end RecordStore
