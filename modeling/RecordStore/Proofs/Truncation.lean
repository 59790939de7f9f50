import RecordStore.Proofs.Schemas

/-! # Cut payloads

A payload that was cut short is never read as a smaller entity. The count of the fields stands in front and each field
says at its head how long it is, so that a reader always asks for the bytes that are missing. The main statement says
this of every cut of every payload that was written, and that the key can be read just if the cut spares it. -/

namespace RecordStore

variable {α β : Type}

/-- A reader asked for more bytes than were left. -/
def RunsOut (result : Except CodecFault α) : Prop :=
  ∃ need left, left < need ∧ result = .error (.truncated need left)

namespace RunsOut

theorem bind {x : Except CodecFault α} (h : RunsOut x) (f : α → Except CodecFault β) : RunsOut (x >>= f) := by
  obtain ⟨need, left, hless, rfl⟩ := h
  exact ⟨need, left, hless, rfl⟩

theorem bind_ok {x : Except CodecFault α} {a : α} {f : α → Except CodecFault β} (hx : x = .ok a) (h : RunsOut (f a)) :
    RunsOut (x >>= f) := by
  rw [hx]
  exact h

theorem ne_ok {x : Except CodecFault α} (h : RunsOut x) (a : α) : x ≠ .ok a := by
  obtain ⟨need, left, -, rfl⟩ := h
  exact fun hok => by cases hok

end RunsOut

/-! ### Cut fields -/

theorem Bytes.split_runsOut {n : Nat} {b : Bytes} (h : b.length < n) : RunsOut (split n b) := by
  refine ⟨n, b.length, h, ?_⟩
  unfold split
  rw [List.splitAt_eq]
  exact if_neg (by rw [List.length_take]; omega)

theorem Bytes.length_take_lt {n : Nat} {b : Bytes} (h : n < b.length) : (b.take n).length < b.length := by
  rw [List.length_take]
  omega

/-- Two parts are cut within the first one or within the second. -/
theorem Bytes.take_append_cases (head rest : Bytes) (n : Nat) :
    (n < head.length ∧ (head ++ rest).take n = head.take n) ∨
      (head.length ≤ n ∧ (head ++ rest).take n = head ++ rest.take (n - head.length)) := by
  by_cases h : n < head.length
  · exact Or.inl ⟨h, List.take_append_of_le_length (Nat.le_of_lt h)⟩
  · refine Or.inr ⟨Nat.le_of_not_lt h, ?_⟩
    rw [List.take_append, List.take_of_length_le (Nat.le_of_not_lt h)]

namespace Field

theorem readContent_runsOut {length content : Bytes} {n : Nat} (hwidth : length.length = 4)
    (hnumber : Bytes.toNat length = content.length) (hn : n < (length ++ content).length) :
    RunsOut (readContent ((length ++ content).take n)) := by
  rw [List.length_append] at hn
  rcases Bytes.take_append_cases length content n with ⟨hlt, hcut⟩ | ⟨hle, hcut⟩
  · rw [hcut]
    exact (Bytes.split_runsOut (hwidth ▸ Bytes.length_take_lt hlt)).bind _
  · refine .bind_ok (Bytes.split_eq_ok_iff.mpr ⟨hwidth, hcut⟩) (Bytes.split_runsOut ?_)
    rw [hnumber]
    exact Bytes.length_take_lt (by omega)

/-- A spelling says at its head how long it is: of a part of it no field can be read. -/
theorem read_runsOut {f : Field} {w : Bytes} {n : Nat} (h : f.Spells w) (hn : n < w.length) :
    RunsOut (read (w.take n)) := by
  cases n with
  | zero => exact ⟨1, 0, Nat.zero_lt_one, rfl⟩
  | succ n =>
    cases h with
    | null => simp at hn
    | bool b =>
      obtain rfl : n = 0 := by
        simp only [List.length_cons, List.length_nil] at hn
        omega
      exact (Bytes.split_runsOut (show ([] : Bytes).length < 1 from Nat.zero_lt_one)).bind _
    | @int i word hwidth hnumber =>
      have hcut : (word.take n).length < 8 := hwidth ▸ Bytes.length_take_lt (Nat.lt_of_succ_lt_succ hn)
      exact (Bytes.split_runsOut hcut).bind _
    | str hwidth hnumber => exact (readContent_runsOut hwidth hnumber (Nat.lt_of_succ_lt_succ hn)).bind _
    | bytes hwidth hnumber => exact (readContent_runsOut hwidth hnumber (Nat.lt_of_succ_lt_succ hn)).bind _

end Field

/-! ### Cut payloads -/

namespace Payload

theorem readValues_runsOut {vs : List Value} {ws : List Bytes} {n : Nat} (h : Spelled vs ws) (hn : n < ws.flatten.length)
    (done : List Value) : RunsOut (readValues vs.length done (ws.flatten.take n)) := by
  induction h generalizing n done with
  | nil => simp at hn
  | @cons v w vs ws hw _ ih =>
    rw [List.flatten_cons, List.length_append] at hn
    rw [List.flatten_cons]
    rcases Bytes.take_append_cases w ws.flatten n with ⟨hlt, hcut⟩ | ⟨hle, hcut⟩
    · rw [hcut]
      exact (Field.read_runsOut hw hlt).bind _
    · rw [hcut]
      refine .bind_ok (Field.read_eq_ok_iff.mpr ⟨w, hw, rfl⟩) ?_
      exact .bind_ok (Field.value_eq_ok_iff.mpr rfl) (ih (by omega) (v :: done))

variable {p count : Bytes} {e : Entity} {fields : List Bytes} {n : Nat}

/-- How a payload without anything after it is cut: within the count of its fields, or within the fields. -/
theorem Parses.take_cases (h : Parses p e count fields []) (n : Nat) :
    (n < 2 ∧ RunsOut (fieldCount (p.take n))) ∨
      (2 ≤ n ∧ fieldCount (p.take n) = .ok (e.length, fields.flatten.take (n - 2))) := by
  have hpayload : p = count ++ fields.flatten := h.payload.trans (List.append_nil _)
  rw [hpayload]
  rcases Bytes.take_append_cases count fields.flatten n with ⟨hlt, hcut⟩ | ⟨hle, hcut⟩
  · rw [hcut]
    refine Or.inl ⟨h.width ▸ hlt, (Bytes.split_runsOut ?_).bind _⟩
    exact h.width ▸ Bytes.length_take_lt hlt
  · rw [hcut, h.width]
    exact Or.inr ⟨h.width ▸ hle, fieldCount_eq_ok_iff.mpr ⟨count, h.width, h.number, rfl⟩⟩

theorem Parses.decode_runsOut (h : Parses p e count fields []) (hn : n < p.length) : RunsOut (decode (p.take n)) := by
  have hlength : p.length = 2 + fields.flatten.length := by
    rw [h.payload, List.append_nil, List.length_append, h.width]
  rcases h.take_cases n with ⟨-, hcount⟩ | ⟨hle, hcount⟩
  · exact hcount.bind _
  · exact .bind_ok hcount (readValues_runsOut h.spelled (by omega) [])

/-- The key is read from a cut payload just if the cut spares the first field. -/
theorem Parses.key_take {k : Value} {w : Bytes} (h : Parses p (k :: e) count (w :: fields) []) (hk : k ≠ .null)
    (n : Nat) : (2 + w.length ≤ n → Payload.key (p.take n) = .ok k) ∧
      (n < 2 + w.length → RunsOut (Payload.key (p.take n))) := by
  obtain ⟨hw, -⟩ := List.forall₂_cons.mp h.spelled
  rcases h.take_cases n with ⟨hlt, hcount⟩ | ⟨hle, hcount⟩
  · exact ⟨fun hge => by omega, fun _ => hcount.bind _⟩
  · rw [key_of_fieldCount hcount, if_neg (show (k :: e).length ≠ 0 from Nat.succ_ne_zero _), List.flatten_cons]
    rcases Bytes.take_append_cases w fields.flatten (n - 2) with ⟨hcutoff, hcut⟩ | ⟨hspared, hcut⟩
    · rw [hcut]
      exact ⟨fun hge => by omega, fun _ => (Field.read_runsOut hw hcutoff).bind _⟩
    · rw [hcut]
      refine ⟨fun _ => bind_eq_ok_iff.mpr ⟨_, Field.read_eq_ok_iff.mpr ⟨w, hw, rfl⟩, ?_⟩, fun hlt => by omega⟩
      have hnull : Field.ofValue k ≠ .null := fun e => hk (Field.ofValue_inj.mp e)
      rw [if_neg hnull, Field.value_eq_ok_iff.mpr rfl]

end Payload

namespace Schema

/-- No cut of a payload goes unnoticed: reading the entity asks for what is missing, and so does reading the key unless
    the cut spares it. So no payload is the beginning of another one, of whatever schemas they are. -/
theorem runsOut_of_take {typeName : String} {keyDecl : FieldDecl} {others : List FieldDecl} {e : Entity} {b : Bytes}
    (h : encode ⟨typeName, keyDecl :: others⟩ e = .ok b) :
    (∀ n < b.length, RunsOut (Payload.decode (b.take n))) ∧
    (∃ k, Entity.key e = .ok k ∧ ∀ n < b.length,
      (Payload.key (b.take n) = .ok k ↔ 2 + k.encodedLength ≤ n) ∧
      (RunsOut (Payload.key (b.take n)) ↔ n < 2 + k.encodedLength)) ∧
    ∀ (s : Schema) (e' : Entity) (b' : Bytes), s.encode e' = .ok b' → b <+: b' → b' = b ∧ e' = e := by
  obtain ⟨hfits, rfl⟩ := encode_eq_ok_iff.mp h
  refine ⟨fun n hn => hfits.parses.decode_runsOut hn, ?_, fun s e' b' he' hbegins => ?_⟩
  · obtain ⟨k, values, -, -, rfl⟩ := List.forall₂_cons_right_iff.mp hfits.suits
    have hk : k ≠ .null := fun h => hfits.keyed (congrArg some h)
    refine ⟨k, Entity.key_cons hk, fun n _ => ?_⟩
    obtain ⟨hspared, hcut⟩ := hfits.parses.key_take hk n
    rw [Value.length_encode] at hspared hcut
    refine ⟨⟨fun hok => ?_, hspared⟩, ⟨fun hout => ?_, hcut⟩⟩
    · by_contra hlt
      exact (hcut (Nat.lt_of_not_le hlt)).ne_ok k hok
    · by_contra hge
      exact hout.ne_ok k (hspared (Nat.le_of_not_lt hge))
  · obtain ⟨hfits', rfl⟩ := encode_eq_ok_iff.mp he'
    -- A payload that went on after this one would be cut there, and the cut read as this entity.
    have hsame : e.encode = e'.encode := by
      refine hbegins.eq_of_length_le (Nat.le_of_not_lt fun hlt => ?_)
      have hcut := hfits'.parses.decode_runsOut hlt
      rw [← List.prefix_iff_eq_take.mp hbegins] at hcut
      exact hcut.ne_ok e hfits.decode
    have hdecode := hfits'.decode
    rw [← hsame, hfits.decode] at hdecode
    exact ⟨hsame.symm, (Except.ok.inj hdecode).symm⟩

/-- The cut lies in the last character of a text of two bytes a character, behind the key. -/
theorem runsOut_of_cut_text :
    encode ⟨"Entry", [⟨"id", .int⟩, ⟨"name", .str⟩]⟩ [.int (-2), .str "éé"] =
        .ok [2, 0, 2, 254, 255, 255, 255, 255, 255, 255, 255, 3, 4, 0, 0, 0, 195, 169, 195, 169] ∧
      RunsOut (Payload.decode [2, 0, 2, 254, 255, 255, 255, 255, 255, 255, 255, 3, 4, 0, 0, 0, 195, 169, 195]) ∧
      Payload.key [2, 0, 2, 254, 255, 255, 255, 255, 255, 255, 255, 3, 4, 0, 0, 0, 195, 169, 195] = .ok (.int (-2)) := by
  have hwritten : encode ⟨"Entry", [⟨"id", .int⟩, ⟨"name", .str⟩]⟩ [.int (-2), .str "éé"] =
      .ok [2, 0, 2, 254, 255, 255, 255, 255, 255, 255, 255, 3, 4, 0, 0, 0, 195, 169, 195, 169] := rfl
  obtain ⟨hdecode, ⟨k, hk, hkey⟩, -⟩ := runsOut_of_take hwritten
  cases hk
  exact ⟨hwritten, hdecode 19 (by decide), (hkey 19 (by decide)).1.mpr (by decide)⟩

end Schema

end RecordStore
