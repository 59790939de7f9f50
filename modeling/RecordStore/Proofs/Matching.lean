import RecordStore.Proofs.Templates

/-! # Templates on any bytes

A comparison with a template reads as many fields as the template is wide, and no more. Where the bytes hold an entity it
answers for the values of the entity; where they do not, a match still says that the wanted values are there. -/

namespace RecordStore

/-- A payload begins with the fields: it counts at least so many and has a spelling for each of them. Text need not be
    text, and what follows need not be fields. -/
def Payload.Begins (p : Bytes) (fields : List Field) : Prop :=
  ∃ count ws rest, p = count ++ ws.flatten ++ rest ∧ count.length = 2 ∧ fields.length ≤ Bytes.toNat count ∧
    List.Forall₂ Field.Spells fields ws

namespace Template

/-- Wherever a value is wanted, there is a field that decodes to it. -/
def Hold (wanted : List (Option Value)) (fields : List Field) : Prop :=
  ∀ (i : Nat) v, wanted[i]?.join = some v → ∃ f, fields[i]? = some f ∧ f.value = .ok v

theorem hold_nil (fields : List Field) : Hold [] fields := fun i v h => by cases h

theorem hold_cons {w : Option Value} {wanted : List (Option Value)} {f : Field} {fields : List Field} :
    Hold (w :: wanted) (f :: fields) ↔ (∀ v, w = some v → f = Field.ofValue v) ∧ Hold wanted fields := by
  constructor
  · intro h
    refine ⟨fun v hv => ?_, fun i v hv => h (i + 1) v hv⟩
    obtain ⟨g, hg, hvalue⟩ := h 0 v hv
    cases hg
    exact Field.value_eq_ok_iff.mp hvalue
  · rintro ⟨hhead, htail⟩ i v hv
    cases i with
    | zero => exact ⟨f, rfl, Field.value_eq_ok_iff.mpr (hhead v hv)⟩
    | succ i => exact htail i v hv

theorem matchFields_cons_iff {w : Option Value} {wanted : List (Option Value)} {b : Bytes} :
    matchFields (w :: wanted) b = .ok true ↔ ∃ f rest, Field.read b = .ok (f, rest) ∧
      (∀ v, w = some v → f = Field.ofValue v) ∧ matchFields wanted rest = .ok true := by
  cases hread : Field.read b with
  | error fault =>
    simp only [matchFields, hread]
    exact iff_of_false (fun h => by cases h) (by rintro ⟨f, rest, h, -⟩; cases h)
  | ok next =>
    obtain ⟨f, rest⟩ := next
    simp only [matchFields, hread, Except.ok.injEq, Prod.mk.injEq]
    cases w with
    | none => simp
    | some v =>
      by_cases hf : f = Field.ofValue v
      · simp [hf]
      · simp [hf]

/-- Fields are compared until there is a difference, so that a match has read a field for each place. -/
theorem matchFields_eq_true_iff {wanted : List (Option Value)} {b : Bytes} :
    matchFields wanted b = .ok true ↔ ∃ fields ws rest, fields.length = wanted.length ∧
      List.Forall₂ Field.Spells fields ws ∧ b = ws.flatten ++ rest ∧ Hold wanted fields := by
  induction wanted generalizing b with
  | nil => exact iff_of_true rfl ⟨[], [], b, rfl, .nil, rfl, hold_nil []⟩
  | cons w wanted ih =>
    rw [matchFields_cons_iff]
    constructor
    · rintro ⟨f, b', hread, hhead, hmatch⟩
      obtain ⟨piece, hpiece, rfl⟩ := Field.read_eq_ok_iff.mp hread
      obtain ⟨fields, ws, rest, hlength, hspells, rfl, hhold⟩ := ih.mp hmatch
      exact ⟨f :: fields, piece :: ws, rest, congrArg (· + 1) hlength, .cons hpiece hspells, by simp,
        hold_cons.mpr ⟨hhead, hhold⟩⟩
    · rintro ⟨fields, ws, rest, hlength, hspells, rfl, hhold⟩
      cases hspells with
      | nil => cases hlength
      | @cons f piece fields ws hpiece hspells =>
        obtain ⟨hhead, htail⟩ := hold_cons.mp hhold
        exact ⟨f, ws.flatten ++ rest, Field.read_eq_ok_iff.mpr ⟨piece, hpiece, by simp⟩, hhead,
          ih.mpr ⟨fields, ws, rest, Nat.succ.inj hlength, hspells, rfl, htail⟩⟩

theorem matches?_eq_true_iff {t : Template} {p : Bytes} :
    t.matches? p = .ok true ↔ ∃ fields, fields.length = t.width ∧ Payload.Begins p fields ∧ Hold t.fields fields := by
  unfold matches?
  rw [bind_eq_ok_iff, Prod.exists]
  constructor
  · rintro ⟨n, b, hcount, hmatch⟩
    obtain ⟨count, hwidth, rfl, rfl⟩ := Payload.fieldCount_eq_ok_iff.mp hcount
    dsimp only at hmatch
    split at hmatch
    · cases hmatch
    next hwide =>
    obtain ⟨fields, ws, rest, hlength, hspells, rfl, hhold⟩ := matchFields_eq_true_iff.mp hmatch
    refine ⟨fields, hlength, ⟨count, ws, rest, (List.append_assoc ..).symm, hwidth, ?_, hspells⟩, hhold⟩
    rw [hlength]
    exact Nat.le_of_not_lt hwide
  · rintro ⟨fields, hlength, ⟨count, ws, rest, rfl, hwidth, hnumber, hspells⟩, hhold⟩
    refine ⟨Bytes.toNat count, ws.flatten ++ rest,
      Payload.fieldCount_eq_ok_iff.mpr ⟨count, hwidth, rfl, List.append_assoc ..⟩, ?_⟩
    rw [hlength] at hnumber
    dsimp only
    rw [if_neg (Nat.not_lt_of_le hnumber)]
    exact matchFields_eq_true_iff.mpr ⟨fields, ws, rest, hlength, hspells, rfl, hhold⟩

/-- A template is compared with an entity in a payload by its values. On any bytes a match says just that they begin
    with as many fields as the template is wide, and that the wanted values are among them. -/
theorem matches_agree (t : Template) (p : Bytes) :
    (∀ e, Payload.decode p = .ok e →
      ∃ found, t.matches? p = .ok found ∧ (found = true ↔ t.width ≤ e.length ∧ Agree t.fields e)) ∧
    (t.matches? p = .ok true ↔
      ∃ fields, fields.length = t.width ∧ Payload.Begins p fields ∧ Hold t.fields fields) :=
  ⟨fun _ h => matches?_of_decode h, matches?_eq_true_iff⟩

/-- True is written as seven, and bytes follow the last field; the second payload has the same head and a text that is
    none after it. -/
theorem matches_loose_and_damaged :
    (Payload.decode [2, 0, 1, 7, 4, 1, 0, 0, 0, 65, 9] = .ok [.bool true, .bytes [65]] ∧
      ∃ found, matches? ⟨[none, some (.bytes [66])]⟩ [2, 0, 1, 7, 4, 1, 0, 0, 0, 65, 9] = .ok found ∧
        (found = true ↔ 2 ≤ 2 ∧ Agree [none, some (.bytes [66])] [.bool true, .bytes [65]])) ∧
    (∃ fault, Payload.decode [2, 0, 1, 7, 3, 1, 0, 0, 0, 255] = .error fault) ∧
    ∃ fields, fields.length = 1 ∧ Payload.Begins [2, 0, 1, 7, 3, 1, 0, 0, 0, 255] fields ∧
      Hold [some (.bool true)] fields :=
  ⟨⟨rfl, (matches_agree ⟨[none, some (.bytes [66])]⟩ _).1 [.bool true, .bytes [65]] rfl⟩, ⟨_, rfl⟩,
    (matches_agree ⟨[some (.bool true)]⟩ _).2.mp rfl⟩

end Template

end RecordStore
