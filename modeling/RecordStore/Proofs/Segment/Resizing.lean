import RecordStore.Proofs.Segment.Intact

/-! # Growing and shrinking

A table that is laid out anew keeps its records. It grows when a record comes and half of it is taken, and shrinks
when one has gone and only an eighth of it is; either way at most half of it is taken afterwards. -/

namespace RecordStore.Segment

variable {t : State}

theorem resize_inOrder (capacity : Nat) (ho : InOrder t.memory.arena t.segment) (hm : t.memory.Legible)
    (hdoubled : ∃ e, capacity = t.segment.minCapacity * 2 ^ e) (hroom : 2 * t.segment.count ≤ capacity)
    (hpos : 0 < capacity) :
    ∃ slots, resize capacity t = .ok () (t.withSlots slots) ∧ slots.size = capacity ∧
      InOrder t.memory.arena (t.withSlots slots).segment ∧ held slots = held t.segment.slots := by
  obtain ⟨slots, hrun, hsize, hchained, hheld⟩ := resize_ok (readable_key? hm) ho.chained
    (show (held t.segment.slots).card < capacity by rw [← ho.counted]; omega)
  refine ⟨slots, hrun, hsize, ⟨ho.made, ?_, ?_, ?_, ?_, hchained⟩, hheld⟩
  · obtain ⟨e, he⟩ := hdoubled
    exact ⟨e, hsize.trans he⟩
  · rw [withSlots_slots, hsize]
    exact hroom
  · rw [withSlots_slots, hheld]
    exact ho.counted
  · rw [withSlots_slots, hheld]
    exact ho.stored

/-- A table that has grown if it must has room for one more. -/
theorem grow_ok (ho : InOrder t.memory.arena t.segment) (hm : t.memory.Legible) :
    ∃ slots, 2 * (t.segment.count + 1) ≤ slots.size ∧
      (slots.size = t.segment.slots.size ∨ slots.size = 2 * t.segment.slots.size) ∧
      InOrder t.memory.arena (t.withSlots slots).segment ∧ held slots = held t.segment.slots ∧
      ∀ {α : Type} (x : Op α), (if t.segment.mustGrow then do resize (t.segment.capacity * 2); x else x) t =
        x (t.withSlots slots) := by
  have htwo := ho.two_le
  have hroomy := ho.roomy
  unfold mustGrow capacity
  by_cases hgrow : t.segment.slots.size / 2 ≤ t.segment.count
  · obtain ⟨slots, hrun, hsize, hgrown, hheld⟩ := resize_inOrder (t.segment.slots.size * 2) ho hm
      (doubled_twice ho.doubled) (by omega) (by omega)
    refine ⟨slots, by omega, Or.inr (by omega), hgrown, hheld, fun x => ?_⟩
    simp only [hgrow, decide_true, ↓reduceIte, Action.bind_ok hrun]
  · refine ⟨t.segment.slots, by omega, Or.inl rfl, ho, rfl, fun x => ?_⟩
    simp only [hgrow, decide_false, Bool.false_eq_true, ↓reduceIte, withSlots_self]

/-- A table that has shrunk if it should is in order still. -/
theorem shrink_ok (ho : InOrder t.memory.arena t.segment) (hm : t.memory.Legible) :
    ∃ slots, InOrder t.memory.arena (t.withSlots slots).segment ∧ held slots = held t.segment.slots ∧
      ∀ {α : Type} (x : Op α), (if t.segment.mustShrink then do resize (t.segment.capacity / 2); x else x) t =
        x (t.withSlots slots) := by
  have htwo := ho.two_le
  by_cases hshrink : t.segment.mustShrink = true
  · have hcases := hshrink
    simp only [mustShrink, Bool.and_eq_true, decide_eq_true_eq] at hcases
    unfold capacity at hcases
    obtain ⟨⟨htaken, heighth⟩, hmin⟩ := hcases
    obtain ⟨slots, hrun, hsize, hshrunk, hheld⟩ := resize_inOrder (t.segment.slots.size / 2) ho hm
      (doubled_half ho.doubled (by omega) hmin) (by omega) (by omega)
    refine ⟨slots, hshrunk, hheld, fun x => ?_⟩
    rw [if_pos hshrink]
    exact Action.bind_ok hrun
  · refine ⟨t.segment.slots, ho, rfl, fun x => ?_⟩
    rw [if_neg hshrink, withSlots_self]

end RecordStore.Segment
