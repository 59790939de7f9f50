import Mathlib.Data.List.Induction
import RecordStore.Proofs.Payloads
import RecordStore.Template

/-! # What templates ask for

A template is compared with the bytes of a payload. Where the payload holds an entity this comes to a comparison of
values: the entity has to be as wide as the template and to have the wanted values. -/

namespace RecordStore

namespace Template

/-- The values are the wanted ones, wherever one is wanted. -/
def Agree (fields : List (Option Value)) (e : Entity) : Prop :=
  ∀ (i : Nat) v, fields[i]?.join = some v → e[i]? = some v

theorem agree_nil (e : Entity) : Agree [] e := fun i v h => by cases h

theorem agree_cons {wanted : Option Value} {fields : List (Option Value)} {v : Value} {e : Entity} :
    Agree (wanted :: fields) (v :: e) ↔ (∀ w, wanted = some w → v = w) ∧ Agree fields e := by
  constructor
  · intro h
    exact ⟨fun w hw => Option.some.inj (h 0 w hw), fun i w hw => h (i + 1) w hw⟩
  · rintro ⟨hhead, htail⟩ i w hw
    cases i with
    | zero => exact congrArg some (hhead w hw)
    | succ i => exact htail i w hw

/-- If the next fields hold values, the comparison of fields answers whether these are the wanted ones. -/
theorem matchFields_of_readValues {n : Nat} {done e : List Value} {b : Bytes}
    (h : Payload.readValues n done b = .ok e) :
    ∃ vs, e = done.reverse ++ vs ∧ vs.length = n ∧
      ∀ fields, fields.length ≤ n → ∃ found, matchFields fields b = .ok found ∧ (found = true ↔ Agree fields vs) := by
  induction n generalizing done b with
  | zero =>
    cases h
    refine ⟨[], (List.append_nil _).symm, rfl, fun fields hle => ?_⟩
    rw [List.eq_nil_of_length_eq_zero (Nat.le_zero.mp hle)]
    exact ⟨true, rfl, iff_of_true rfl (agree_nil [])⟩
  | succ n ih =>
    obtain ⟨v, rest, hread, hrest⟩ := Payload.readValues_succ_iff.mp h
    obtain ⟨vs, rfl, hlength, hall⟩ := ih hrest
    refine ⟨v :: vs, by simp, congrArg (· + 1) hlength, fun fields hle => ?_⟩
    cases fields with
    | nil => exact ⟨true, by simp only [matchFields], iff_of_true rfl (agree_nil _)⟩
    | cons wanted fields =>
      obtain ⟨found, hmatch, hfound⟩ := hall fields (Nat.le_of_succ_le_succ hle)
      simp only [matchFields, hread, agree_cons, Field.ofValue_inj]
      cases wanted with
      | none => exact ⟨found, hmatch, by simp [hfound]⟩
      | some w =>
        by_cases hvw : v = w
        · exact ⟨found, by simp only [if_pos hvw, hmatch], by simp [hfound, hvw]⟩
        · exact ⟨false, by simp only [if_neg hvw], by simp [hvw]⟩

/-- An entity in a payload matches if it is as wide as the template and has the wanted values. -/
theorem matches?_of_decode {t : Template} {p : Bytes} {e : Entity} (h : Payload.decode p = .ok e) :
    ∃ found, t.matches? p = .ok found ∧ (found = true ↔ t.width ≤ e.length ∧ Agree t.fields e) := by
  obtain ⟨count, rest, hcount, hvalues⟩ := Payload.decode_eq_ok_iff.mp h
  obtain ⟨vs, rfl, hlength, hall⟩ := matchFields_of_readValues hvalues
  simp only [matches?, hcount, bind, Except.bind]
  rw [hlength]
  by_cases hwide : count < t.width
  · exact ⟨false, by simp only [if_pos hwide]; rfl, by simp [Nat.not_le_of_lt hwide]⟩
  · obtain ⟨found, hmatch, hfound⟩ := hall t.fields (Nat.le_of_not_lt hwide)
    exact ⟨found, by simp only [if_neg hwide, hmatch], by simp [hfound, Nat.le_of_not_lt hwide]⟩

/-! ### Templates made step by step -/

theorem fields_set (t : Template) (i : Nat) (v : Value) (j : Nat) :
    (t.set i v).fields[j]?.join = if i = j then some v else t.fields[j]?.join := by
  unfold set
  split
  · next hlt =>
    rw [List.getElem?_set]
    by_cases hij : i = j
    · subst hij
      simp [hlt]
    · simp [hij]
  · next hge =>
    rw [List.append_assoc, List.getElem?_append]
    split
    · next hlt => rw [if_neg (by omega)]
    · next hle =>
      rw [List.getElem?_append, List.length_replicate]
      split
      · next hgap =>
        rw [List.getElem?_replicate, if_pos hgap, if_neg (by omega), List.getElem?_eq_none (Nat.le_of_not_lt hle)]
        rfl
      · next hend =>
        by_cases hij : i = j
        · subst hij
          simp
        · rw [if_neg hij, List.getElem?_eq_none (Nat.le_of_not_lt hle), List.getElem?_eq_none (by simp; omega)]

/-- The template that asks for one value after the other. -/
def asking (calls : List (Nat × Value)) : Template := calls.foldl (fun t c => t.set c.1 c.2) any

/-- The value that was asked for last at a position. -/
def last? (calls : List (Nat × Value)) (i : Nat) : Option Value :=
  (calls.reverse.find? (·.1 = i)).map (·.2)

theorem fields_asking (calls : List (Nat × Value)) (i : Nat) : (asking calls).fields[i]?.join = last? calls i := by
  induction calls using List.reverseRecOn with
  | nil => rfl
  | append_singleton calls c ih =>
    have hlast : last? (calls ++ [c]) i = if c.1 = i then some c.2 else last? calls i := by
      rw [last?, List.reverse_append, List.reverse_singleton, List.singleton_append, List.find?_cons]
      by_cases hi : c.1 = i
      · simp [hi]
      · simp [hi, last?]
    rw [hlast, ← ih]
    simp only [asking, List.foldl_append, List.foldl_cons, List.foldl_nil, fields_set]

/-- As wide as the template, and at each position asked about the value asked for last. -/
def Wants (calls : List (Nat × Value)) (e : Entity) : Prop :=
  (asking calls).width ≤ e.length ∧ ∀ c ∈ calls, e[c.1]? = last? calls c.1

instance (calls : List (Nat × Value)) (e : Entity) : Decidable (Wants calls e) :=
  inferInstanceAs (Decidable ((asking calls).width ≤ e.length ∧ ∀ c ∈ calls, e[c.1]? = last? calls c.1))

theorem agree_asking {calls : List (Nat × Value)} {e : Entity} :
    Agree (asking calls).fields e ↔ ∀ c ∈ calls, e[c.1]? = last? calls c.1 := by
  unfold Agree
  simp only [fields_asking]
  constructor
  · intro h c hc
    have hasked : (calls.reverse.find? (·.1 = c.1)).isSome := by
      rw [List.find?_isSome]
      exact ⟨c, List.mem_reverse.mpr hc, decide_eq_true rfl⟩
    obtain ⟨last, hlast⟩ := Option.isSome_iff_exists.mp hasked
    have hv : last? calls c.1 = some last.2 := by rw [last?, hlast, Option.map_some]
    rw [hv]
    exact h c.1 last.2 hv
  · intro h i v hv
    obtain ⟨last, hlast, rfl⟩ := Option.map_eq_some_iff.mp hv
    have hi : last.1 = i := of_decide_eq_true (List.find?_some (p := fun c : Nat × Value => decide (c.1 = i)) hlast)
    rw [← hv, ← hi]
    exact h last (List.mem_reverse.mp (List.mem_of_find?_eq_some hlast))

end Template

end RecordStore
