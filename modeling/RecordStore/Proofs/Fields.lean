import Mathlib.Algebra.Group.Int.Defs
import RecordStore.Payload
import RecordStore.Proofs.Bytes

/-! # Fields as bytes

A field is spelled by its tag and by what the tag calls for. Reading takes exactly a spelled field off the head of
the bytes, and a value is one spelling of the field that holds it: the one with true written as one. -/

namespace RecordStore

theorem bind_eq_ok_iff {ε α β : Type} {x : Except ε α} {f : α → Except ε β} {b : β} :
    (x >>= f) = .ok b ↔ ∃ a, x = .ok a ∧ f a = .ok b := by
  cases x with
  | error e => exact iff_of_false (fun h => by cases h) (by rintro ⟨a, h, -⟩; cases h)
  | ok a => exact ⟨fun h => ⟨a, rfl, h⟩, fun ⟨_, ha, h⟩ => by cases ha; exact h⟩

theorem Bytes.split_eq_ok_iff {n : Nat} {b head rest : Bytes} :
    split n b = .ok (head, rest) ↔ head.length = n ∧ b = head ++ rest := by
  unfold split
  rw [List.splitAt_eq]
  constructor
  · intro h
    dsimp only at h
    split at h
    · next hn =>
      cases h
      exact ⟨hn, (List.take_append_drop n b).symm⟩
    · cases h
  · rintro ⟨rfl, rfl⟩
    simp

theorem Utf8.decode_eq_ok_iff {b : Bytes} {s : String} : Utf8.decode b = .ok s ↔ utf8 s = b := by
  unfold Utf8.decode utf8 String.fromUTF8?
  constructor
  · intro h
    split at h
    · next s' hs =>
      cases h
      split at hs
      · cases hs
        simp [String.fromUTF8, String.toUTF8]
      · cases hs
    · cases h
  · rintro rfl
    have hbytes : s.toUTF8.data.toList.toByteArray = s.toByteArray := by
      apply ByteArray.ext
      simp [String.toUTF8]
    rw [hbytes, dif_pos s.isValidUTF8]
    rfl

namespace Field

/-! ### Fields and values -/

/-- Fields tell their values apart, so that comparing fields compares values. -/
theorem value_eq_ok_iff {f : Field} {v : Value} : f.value = .ok v ↔ f = Field.ofValue v := by
  cases f with
  | str b =>
    constructor
    · intro h
      simp only [Field.value] at h
      split at h
      · next s hs =>
        cases h
        rw [Field.ofValue, Utf8.decode_eq_ok_iff.mp hs]
      · cases h
    · intro h
      cases v with
      | str s =>
        cases h
        simp only [Field.value, Utf8.decode_eq_ok_iff.mpr rfl]
      | _ => cases h
  | _ => cases v <;> simp [Field.value, Field.ofValue]

theorem ofValue_inj {v w : Value} : Field.ofValue v = Field.ofValue w ↔ v = w := by
  refine ⟨fun h => ?_, congrArg Field.ofValue⟩
  have hv := Field.value_eq_ok_iff.mpr h
  rw [Field.value_eq_ok_iff.mpr rfl] at hv
  exact Except.ok.inj hv

/-! ### Spelling -/

/-- How a field is written: its tag, and what the tag calls for. Any byte but zero is true, an integer is taken modulo
    2^64, and text need not be text yet. -/
inductive Spells : Field → Bytes → Prop
  | null : Spells .null [Value.nullTag]
  | bool (b : UInt8) : Spells (.bool (b != 0)) [Value.boolTag, b]
  | int {i : Int64} {word : Bytes} (width : word.length = 8) (number : i.toInt % 2 ^ 64 = Bytes.toNat word) :
    Spells (.int i) (Value.intTag :: word)
  | str {length content : Bytes} (width : length.length = 4) (number : Bytes.toNat length = content.length) :
    Spells (.str content) (Value.strTag :: (length ++ content))
  | bytes {length content : Bytes} (width : length.length = 4) (number : Bytes.toNat length = content.length) :
    Spells (.bytes content) (Value.bytesTag :: (length ++ content))

theorem toNat_toUInt64 (i : Int64) : (i.toUInt64.toNat : Int) = i.toInt % 2 ^ 64 := by
  show (i.toBitVec.toNat : Int) = i.toBitVec.toInt % 2 ^ 64
  have hlt := i.toBitVec.isLt
  rw [BitVec.toInt_eq_toNat_cond]
  split
  · omega
  · omega

/-- Eight bytes are read as the one integer that they give modulo 2^64. -/
theorem toInt64_eq_iff {word : Bytes} {i : Int64} (hword : word.length = 8) :
    (UInt64.ofNat (Bytes.toNat word)).toInt64 = i ↔ i.toInt % 2 ^ 64 = Bytes.toNat word := by
  have hlt : Bytes.toNat word < 2 ^ 64 := by
    have h := Bytes.toNat_lt word
    rwa [hword] at h
  have hmod : (UInt64.ofNat (Bytes.toNat word)).toNat = Bytes.toNat word := by
    rw [UInt64.toNat_ofNat', Nat.mod_eq_of_lt hlt]
  rw [← toNat_toUInt64, Int.ofNat_inj]
  constructor
  · rintro rfl
    rw [UInt64.toUInt64_toInt64, hmod]
  · intro h
    rw [← h, UInt64.ofNat_toNat, Int64.toInt64_toUInt64]

theorem readContent_eq_ok_iff {b content rest : Bytes} :
    readContent b = .ok (content, rest) ↔
      ∃ length, length.length = 4 ∧ Bytes.toNat length = content.length ∧ b = length ++ content ++ rest := by
  unfold readContent
  rw [bind_eq_ok_iff]
  constructor
  · rintro ⟨⟨length, b'⟩, hlength, hcontent⟩
    obtain ⟨hwidth, rfl⟩ := Bytes.split_eq_ok_iff.mp hlength
    obtain ⟨hnumber, rfl⟩ := Bytes.split_eq_ok_iff.mp hcontent
    exact ⟨length, hwidth, hnumber.symm, (List.append_assoc ..).symm⟩
  · rintro ⟨length, hwidth, hnumber, rfl⟩
    exact ⟨(length, content ++ rest), Bytes.split_eq_ok_iff.mpr ⟨hwidth, List.append_assoc ..⟩,
      Bytes.split_eq_ok_iff.mpr ⟨hnumber.symm, rfl⟩⟩

theorem toNat_singleton_ne (b : UInt8) : (Bytes.toNat [b] != 0) = (b != 0) := by
  rw [Bool.eq_iff_iff, bne_iff_ne, bne_iff_ne]
  exact not_congr (@UInt8.toNat_inj b 0)

/-- Reading takes a spelled field off the head of the bytes, and fails if there is none. -/
theorem read_eq_ok_iff {f : Field} {b rest : Bytes} : read b = .ok (f, rest) ↔ ∃ w, f.Spells w ∧ b = w ++ rest := by
  constructor
  · intro h
    cases b with
    | nil => cases h
    | cons tag b =>
      simp only [read] at h
      split at h
      · next htag =>
        cases h
        exact ⟨_, .null, by rw [htag]; rfl⟩
      split at h
      · next htag =>
        obtain ⟨⟨word, b'⟩, hword, hfield⟩ := bind_eq_ok_iff.mp h
        obtain ⟨hwidth, rfl⟩ := Bytes.split_eq_ok_iff.mp hword
        obtain ⟨x, rfl⟩ := List.length_eq_one_iff.mp hwidth
        cases hfield
        refine ⟨[Value.boolTag, x], ?_, by rw [htag]; rfl⟩
        rw [toNat_singleton_ne]
        exact .bool x
      split at h
      · next htag =>
        obtain ⟨⟨word, b'⟩, hword, hfield⟩ := bind_eq_ok_iff.mp h
        obtain ⟨hwidth, rfl⟩ := Bytes.split_eq_ok_iff.mp hword
        cases hfield
        exact ⟨_, .int hwidth ((toInt64_eq_iff hwidth).mp rfl), by rw [htag]; rfl⟩
      split at h
      · next htag =>
        obtain ⟨⟨content, b'⟩, hcontent, hfield⟩ := bind_eq_ok_iff.mp h
        obtain ⟨length, hwidth, hnumber, rfl⟩ := readContent_eq_ok_iff.mp hcontent
        cases hfield
        exact ⟨_, .str hwidth hnumber, by rw [htag]; rfl⟩
      split at h
      · next htag =>
        obtain ⟨⟨content, b'⟩, hcontent, hfield⟩ := bind_eq_ok_iff.mp h
        obtain ⟨length, hwidth, hnumber, rfl⟩ := readContent_eq_ok_iff.mp hcontent
        cases hfield
        exact ⟨_, .bytes hwidth hnumber, by rw [htag]; rfl⟩
      · cases h
  · rintro ⟨w, hw, rfl⟩
    cases hw with
    | null => rfl
    | bool x =>
      show read (Value.boolTag :: ([x] ++ rest)) = _
      have hsplit : Bytes.split 1 ([x] ++ rest) = .ok ([x], rest) := Bytes.split_eq_ok_iff.mpr ⟨rfl, rfl⟩
      refine bind_eq_ok_iff.mpr ⟨_, hsplit, ?_⟩
      rw [← toNat_singleton_ne]
      rfl
    | @int i word hwidth hnumber =>
      have hsplit : Bytes.split 8 (word ++ rest) = .ok (word, rest) := Bytes.split_eq_ok_iff.mpr ⟨hwidth, rfl⟩
      refine bind_eq_ok_iff.mpr ⟨_, hsplit, ?_⟩
      rw [← (toInt64_eq_iff hwidth).mpr hnumber]
      rfl
    | @str length content hwidth hnumber =>
      have hcontent : readContent (length ++ content ++ rest) = .ok (content, rest) :=
        readContent_eq_ok_iff.mpr ⟨length, hwidth, hnumber, rfl⟩
      exact bind_eq_ok_iff.mpr ⟨_, hcontent, rfl⟩
    | @bytes length content hwidth hnumber =>
      have hcontent : readContent (length ++ content ++ rest) = .ok (content, rest) :=
        readContent_eq_ok_iff.mpr ⟨length, hwidth, hnumber, rfl⟩
      exact bind_eq_ok_iff.mpr ⟨_, hcontent, rfl⟩

/-! ### Writing values -/

/-- The same field with true written as one. -/
def tidy : Bytes → Bytes
  | [] => []
  | tag :: rest => tag :: if tag = Value.boolTag then rest.map fun b => if b = 0 then 0 else 1 else rest

end Field

namespace Value

/-- What the value writes after a length is not too long for it. -/
def Short (v : Value) : Prop := ∀ b, v.content? = some b → b.length < lengthLimit

theorem toNat_length {content : Bytes} (h : content.length < lengthLimit) :
    Bytes.toNat (Bytes.littleEndian 4 content.length) = content.length :=
  Bytes.toNat_littleEndian h

theorem spells_encode {v : Value} (h : v.Short) : (Field.ofValue v).Spells v.encode := by
  cases v with
  | null => exact .null
  | bool b =>
    cases b with
    | false => exact .bool 0
    | true => exact .bool 1
  | int i =>
    refine .int (Bytes.length_littleEndian ..) ?_
    rw [Bytes.toNat_littleEndian i.toUInt64.toNat_lt, Field.toNat_toUInt64]
  | str s => exact .str (Bytes.length_littleEndian ..) (toNat_length (h _ rfl))
  | bytes b => exact .bytes (Bytes.length_littleEndian ..) (toNat_length (h _ rfl))

theorem littleEndian_of_number {length content : Bytes} (hwidth : length.length = 4)
    (hnumber : Bytes.toNat length = content.length) : Bytes.littleEndian 4 content.length = length := by
  rw [← hnumber, ← hwidth, Bytes.littleEndian_toNat]

theorem lt_of_number {length content : Bytes} (hwidth : length.length = 4)
    (hnumber : Bytes.toNat length = content.length) : content.length < lengthLimit := by
  have h := Bytes.toNat_lt length
  rwa [hwidth, hnumber] at h

/-- A value is written as any of its spellings, but for true. -/
theorem encode_of_spells {v : Value} {w : Bytes} (h : (Field.ofValue v).Spells w) :
    v.encode = Field.tidy w ∧ v.Short := by
  generalize hf : Field.ofValue v = f at h
  cases h with
  | null =>
    cases v with
    | null => exact ⟨rfl, fun b hb => by cases hb⟩
    | _ => cases hf
  | bool x =>
    cases v with
    | bool b =>
      cases hf
      refine ⟨?_, fun b hb => by cases hb⟩
      by_cases hx : x = 0
      · simp [encode, Field.tidy, hx]
      · simp [encode, Field.tidy, hx]
    | _ => cases hf
  | @int i word hwidth hnumber =>
    cases v with
    | int j =>
      cases hf
      refine ⟨?_, fun b hb => by cases hb⟩
      rw [← Field.toNat_toUInt64, Int.ofNat_inj] at hnumber
      rw [encode, hnumber, ← hwidth, Bytes.littleEndian_toNat]
      rfl
    | _ => cases hf
  | str hwidth hnumber =>
    cases v with
    | str s =>
      cases hf
      refine ⟨?_, fun b hb => by cases hb; exact lt_of_number hwidth hnumber⟩
      show strTag :: (Bytes.littleEndian 4 (utf8 s).length ++ utf8 s) = _
      rw [littleEndian_of_number hwidth hnumber]
      rfl
    | _ => cases hf
  | bytes hwidth hnumber =>
    cases v with
    | bytes b =>
      cases hf
      refine ⟨?_, fun b hb => by cases hb; exact lt_of_number hwidth hnumber⟩
      rw [encode, littleEndian_of_number hwidth hnumber]
      rfl
    | _ => cases hf

end Value

end RecordStore
