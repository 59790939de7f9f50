import Mathlib.Tactic.Common
import RecordStore.Proofs.Counters
import RecordStore.Proofs.Moves

/-! # Marks at the thresholds

The rehash that is due is marked when the number of entries comes to a threshold, and only by the insertion or the
removal that brings it there. Entries come one at a time, and however many go at once, they are counted down one by
one: so no threshold is passed unmarked, and the mark agrees with the number of entries. -/

namespace RecordStore.Counters

open RecordStore.Action

variable {c c' : Counters} {t : Thresholds} {n : Nat}

/-- Entries have gone, or none has. If their number has come down to the lower threshold, that is marked. -/
structure Dwindles (c c' : Counters) : Prop where
  thresholds? : c'.thresholds? = c.thresholds?
  items : c'.items ≤ c.items
  rehash? : ∀ t, c.thresholds? = some t →
    c'.rehash? = if c'.items ≤ t.shrink ∧ t.shrink < c.items then some .shrink else c.rehash?

/-- One entry has come. If there are now as many as the upper threshold, that is marked. -/
structure Raises (c c' : Counters) : Prop where
  thresholds? : c'.thresholds? = c.thresholds?
  items : c'.items = c.items + 1
  rehash? : ∀ t, c.thresholds? = some t → c'.rehash? = if c'.items = t.grow then some .grow else c.rehash?

theorem Dwindles.of_eq (hthresholds : c'.thresholds? = c.thresholds?) (hitems : c'.items = c.items)
    (hrehash : c'.rehash? = c.rehash?) : c.Dwindles c' where
  thresholds? := hthresholds
  items := Nat.le_of_eq hitems
  rehash? t _ := by rw [hrehash, if_neg (by omega)]

instance : IsPreorder Counters Dwindles where
  refl _ := .of_eq rfl rfl rfl
  trans c₁ c₂ c₃ h₁ h₂ := by
    refine ⟨h₂.thresholds?.trans h₁.thresholds?, Nat.le_trans h₂.items h₁.items, fun t ht => ?_⟩
    have hitems₁ := h₁.items
    have hitems₂ := h₂.items
    -- The threshold is passed on one of the two ways, or on neither.
    rw [h₂.rehash? t (h₁.thresholds?.trans ht), h₁.rehash? t ht]
    by_cases hsecond : c₃.items ≤ t.shrink ∧ t.shrink < c₂.items
    · rw [if_pos hsecond, if_pos (by omega)]
    · rw [if_neg hsecond]
      by_cases hfirst : c₂.items ≤ t.shrink ∧ t.shrink < c₁.items
      · rw [if_pos hfirst, if_pos (by omega)]
      · rw [if_neg hfirst, if_neg (by omega)]

theorem dwindles_entryRemoved (n : Nat) : Moves Dwindles (entryRemoved n) := by
  intro c
  rcases entryRemoved_cases c n with ⟨-, hrun⟩ | ⟨hpos, rehash?, hrun, hmark⟩
  · rw [final_error hrun]
    exact .of_eq rfl rfl rfl
  · rw [final_ok hrun]
    refine ⟨rfl, Nat.sub_le c.items 1, fun t ht => ?_⟩
    show rehash? = if c.items - 1 ≤ t.shrink ∧ t.shrink < c.items then some .shrink else c.rehash?
    rw [hmark t ht]
    by_cases hlast : c.items - 1 = t.shrink
    · rw [if_pos hlast, if_pos (by omega)]
    · rw [if_neg hlast, if_neg (by omega)]

/-- A reserved entry that is stored has come. -/
theorem raises_insertCommitted (bytes : UInt64) :
    c.Raises (insertCommitted { c with bytes, items := c.items + 1 } (c.items + 1)) := by
  unfold insertCommitted
  cases hthresholds : c.thresholds? with
  | none =>
    refine ⟨hthresholds.symm ▸ rfl, rfl, fun t ht => ?_⟩
    rw [hthresholds] at ht
    cases ht
  | some t =>
    dsimp only
    split
    · next hgrow =>
      refine ⟨hthresholds.symm ▸ rfl, rfl, fun t' ht' => ?_⟩
      obtain rfl : t = t' := Option.some.inj (hthresholds.symm.trans ht')
      exact (if_pos hgrow).symm
    · next hstay =>
      refine ⟨hthresholds.symm ▸ rfl, rfl, fun t' ht' => ?_⟩
      obtain rfl : t = t' := Option.some.inj (hthresholds.symm.trans ht')
      exact (if_neg hstay).symm

/-! ### The mark and the number of entries -/

/-- Growing is marked if there are as many entries as the upper threshold, and not if there are no more than the
    lower one. -/
structure Heeds (t : Thresholds) (c : Counters) : Prop where
  thresholds? : c.thresholds? = some t
  grown : t.grow ≤ c.items → c.rehash? = some .grow
  shrunk : c.items ≤ t.shrink → c.rehash? ≠ some .grow

theorem Heeds.of_dwindles (h : c.Heeds t) (hlt : t.shrink < t.grow) (hc : c.Dwindles c') : c'.Heeds t := by
  have hitems := hc.items
  refine ⟨hc.thresholds?.trans h.thresholds?, fun hgrown => ?_, fun hshrunk => ?_⟩
  · rw [hc.rehash? t h.thresholds?, if_neg (by omega)]
    exact h.grown (by omega)
  · rw [hc.rehash? t h.thresholds?]
    split
    · nofun
    · exact h.shrunk (by omega)

theorem Heeds.of_raises (h : c.Heeds t) (hlt : t.shrink < t.grow) (hc : c.Raises c') : c'.Heeds t := by
  have hitems := hc.items
  refine ⟨hc.thresholds?.trans h.thresholds?, fun hgrown => ?_, fun hshrunk => ?_⟩
  · rw [hc.rehash? t h.thresholds?]
    split
    · rfl
    · exact h.grown (by omega)
  · rw [hc.rehash? t h.thresholds?, if_neg (by omega)]
    exact h.shrunk (by omega)

/-- As long as nothing is marked, the number of entries has come down to the lower threshold neither before nor now. -/
theorem Heeds.unmarked (h : c.Heeds t) (hc : c.Dwindles c' ∨ c.Raises c') (hnone : c'.rehash? = none) :
    c.rehash? = none ∧ ¬ (t.shrink < c.items ∧ c'.items ≤ t.shrink) := by
  rcases hc with hc | hc
  · have hitems := hc.items
    rw [hc.rehash? t h.thresholds?] at hnone
    split at hnone
    · cases hnone
    · exact ⟨hnone, by omega⟩
  · have hitems := hc.items
    rw [hc.rehash? t h.thresholds?] at hnone
    split at hnone
    · cases hnone
    · exact ⟨hnone, by omega⟩

end RecordStore.Counters
