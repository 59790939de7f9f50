import RecordStore.Proofs.Circle
import RecordStore.Proofs.Occupants
import RecordStore.Segment.Table

/-! # The slots of a table

A handle that comes into a table goes to the first empty slot from the home of its key on, past a run of taken
ones. -/

namespace RecordStore.Segment

/-- The slots of a table. -/
abbrev Slots := Array (Option Handle)

variable {slots : Slots} {i j : Nat} {h : Handle}

theorem isFree_eq_true_iff : isFree slots i = true ↔ occupant? slots i = none := by
  unfold isFree occupant?
  exact Option.isNone_iff_eq_none

theorem isFree_eq_false_iff : isFree slots i = false ↔ (occupant? slots i).isSome := by
  unfold isFree occupant?
  cases slots[i]?.join <;> simp

/-- All slots from `a` on up to `b` are taken. -/
def Taken (slots : Slots) (a b : Nat) : Prop :=
  ∀ j < slots.size, Cyclic.dist slots.size a j < Cyclic.dist slots.size a b → (occupant? slots j).isSome

theorem Taken.fill {a b : Nat} (ht : Taken slots a b) (hi : i < slots.size) :
    Taken (slots.setIfInBounds i (some h)) a b := by
  intro j hj hlt
  rw [Array.size_setIfInBounds] at hj hlt
  rw [occupant?_set hi]
  split
  · rfl
  · exact ht j hj hlt

theorem home_lt {key : Value} {n : Nat} (hn : 0 < n) : key.home n < n := Nat.mod_lt _ hn

/-- Some steps lead from the home of a key to the slot that it is in reach of, past taken slots only. -/
theorem Taken.steps {key : Value} (ht : Taken slots (key.home slots.size) i) (hi : i < slots.size) :
    ∃ steps, i = (key.home slots.size + steps) % slots.size ∧
      ∀ d < steps, (occupant? slots ((key.home slots.size + d) % slots.size)).isSome := by
  have hhome : key.home slots.size < slots.size := home_lt (Nat.zero_lt_of_lt hi)
  refine ⟨_, (Cyclic.steps_dist hhome hi).symm, fun d hd => ?_⟩
  have hdlt : d < slots.size := hd.trans (Cyclic.dist_lt hhome hi)
  refine ht _ (Nat.mod_lt _ (Nat.zero_lt_of_lt hi)) ?_
  rwa [Cyclic.dist_steps hhome hdlt]

/-- The slot that a key's handle goes to is the first empty one from the home of the key on. -/
theorem freeSlot?_eq_some_iff {key : Value} (hn : 0 < slots.size) :
    freeSlot? slots key = some i ↔
      i < slots.size ∧ occupant? slots i = none ∧ Taken slots (key.home slots.size) i := by
  unfold freeSlot? Taken
  rw [Cyclic.find?_eq_some_iff (home_lt hn), isFree_eq_true_iff]
  simp only [isFree_eq_false_iff]

/-- A search for that slot without a bound ends there. -/
theorem freeSlot?_eq_some_iff_walks {key : Value} (hn : 0 < slots.size) :
    freeSlot? slots key = some i ↔ Cyclic.Walks slots.size (isFree slots) (key.home slots.size) i :=
  Cyclic.find?_eq_some_iff_walks (home_lt hn)

theorem size_pos_of_freeSlot? {key : Value} (h : freeSlot? slots key = some i) : 0 < slots.size := by
  by_contra hzero
  rw [freeSlot?, Cyclic.find?, show slots.size = 0 by omega] at h
  cases h

theorem exists_freeSlot? (key : Value) (hi : i < slots.size) (hfree : occupant? slots i = none) :
    ∃ j, freeSlot? slots key = some j :=
  Cyclic.exists_find? (home_lt (by omega)) hi (isFree_eq_true_iff.mpr hfree)

/-- While there are fewer handles than slots, every key has an empty slot that its handle can go to. -/
theorem exists_freeSlot?_of_card_lt (key : Value) (hroom : (held slots).card < slots.size) :
    ∃ i < slots.size, freeSlot? slots key = some i ∧ occupant? slots i = none := by
  obtain ⟨f, hf, hfree⟩ := exists_free hroom
  obtain ⟨i, hi⟩ := exists_freeSlot? key hf hfree
  obtain ⟨hlt, hnone, -⟩ := (freeSlot?_eq_some_iff (size_pos_of_freeSlot? hi)).mp hi
  exact ⟨i, hlt, hi, hnone⟩

/-! ### Placing anew -/

section Anew
variable {p q : Nat} {k : Value}

theorem freeSlot?_anew (hq : freeSlot? (slots.setIfInBounds p none) k = some q) :
    q < slots.size ∧ occupant? (slots.setIfInBounds p none) q = none ∧
      Taken (slots.setIfInBounds p none) (k.home slots.size) q := by
  have hfirst := (freeSlot?_eq_some_iff (size_pos_of_freeSlot? hq)).mp hq
  rwa [Array.size_setIfInBounds] at hfirst

variable (hp : occupant? slots p = some h)
include hp

/-- A handle that is taken out can go to the slot that it leaves. -/
theorem exists_freeSlot?_anew (k : Value) : ∃ q, freeSlot? (slots.setIfInBounds p none) k = some q := by
  have hplt := lt_of_occupant? hp
  exact exists_freeSlot? k (by rwa [Array.size_setIfInBounds]) (occupant?_set_self hplt)

variable (hq : freeSlot? (slots.setIfInBounds p none) k = some q)
include hq

theorem held_anew : held ((slots.setIfInBounds p none).setIfInBounds q (some h)) = held slots := by
  obtain ⟨hqlt, hfree, -⟩ := freeSlot?_anew hq
  rw [held_fill (by rwa [Array.size_setIfInBounds]) hfree, held_clear hp]

theorem occupant?_anew : occupant? ((slots.setIfInBounds p none).setIfInBounds q (some h)) j =
    if j = q then some h else if j = p then none else occupant? slots j := by
  obtain ⟨hqlt, -, -⟩ := freeSlot?_anew hq
  rw [occupant?_set (by rwa [Array.size_setIfInBounds]), occupant?_set (lt_of_occupant? hp)]

/-- The other slots that were taken are still taken. -/
theorem isSome_anew (hj : j ≠ p) (hsome : (occupant? slots j).isSome) :
    (occupant? ((slots.setIfInBounds p none).setIfInBounds q (some h)) j).isSome := by
  rw [occupant?_anew hp hq, if_neg hj]
  split
  · rfl
  · exact hsome

/-- What lies in a slot is the handle that was placed anew, or has not moved. -/
theorem anew_cases {g : Handle}
    (hi : occupant? ((slots.setIfInBounds p none).setIfInBounds q (some h)) i = some g) :
    (i = q ∧ g = h) ∨ (i ≠ p ∧ occupant? slots i = some g) := by
  rw [occupant?_anew hp hq] at hi
  split at hi
  · next hiq => exact Or.inl ⟨hiq, (Option.some.inj hi).symm⟩
  · split at hi
    · cases hi
    · next hip => exact Or.inr ⟨hip, hi⟩

end Anew

end RecordStore.Segment
