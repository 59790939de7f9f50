import Mathlib.Algebra.BigOperators.Group.Multiset.Basic
import Mathlib.Algebra.Order.Group.Multiset
import Mathlib.Tactic.Abel

/-! # Slots and what lies in them

Some slots of an array are empty. What lies in the others is seen slot by slot, and as one collection. Setting a
slot changes both in one place. -/

namespace RecordStore

variable {α : Type} {slots : Array (Option α)} {i j : Nat} {x y : α} {x? : Option α}

/-- What lies in a slot. -/
def occupant? (slots : Array (Option α)) (i : Nat) : Option α := slots[i]?.join

/-- All that lies in the slots. -/
def held (slots : Array (Option α)) : Multiset α := ↑(slots.toList.filterMap id)

theorem lt_of_occupant? (hi : occupant? slots i = some x) : i < slots.size := by
  unfold occupant? at hi
  by_contra hge
  rw [Array.getElem?_eq_none (by omega)] at hi
  cases hi

theorem occupant?_eq_getElem (hi : i < slots.size) : occupant? slots i = slots[i] := by
  rw [occupant?, Array.getElem?_eq_getElem hi, Option.join_some]

theorem occupant?_set (hi : i < slots.size) :
    occupant? (slots.setIfInBounds i x?) j = if j = i then x? else occupant? slots j := by
  unfold occupant?
  rw [Array.getElem?_setIfInBounds]
  by_cases e : i = j
  · rw [if_pos e, if_pos hi, if_pos e.symm, Option.join_some]
  · rw [if_neg e, if_neg (Ne.symm e)]

theorem occupant?_set_self (hi : i < slots.size) : occupant? (slots.setIfInBounds i x?) i = x? := by
  rw [occupant?_set hi, if_pos rfl]

theorem occupant?_set_ne (hi : i < slots.size) (hne : j ≠ i) :
    occupant? (slots.setIfInBounds i x?) j = occupant? slots j := by
  rw [occupant?_set hi, if_neg hne]

theorem setIfInBounds_occupant (hi : occupant? slots i = some x) : slots.setIfInBounds i (some x) = slots := by
  have hlt := lt_of_occupant? hi
  rw [occupant?_eq_getElem hlt] at hi
  rw [← hi, Array.setIfInBounds_def, dif_pos hlt, Array.set_getElem_self]

theorem occupant?_replicate {n : Nat} : occupant? (Array.replicate n (none : Option α)) i = none := by
  unfold occupant?
  rw [Array.getElem?_replicate]
  split <;> rfl

/-! ### The collection -/

theorem mem_held : x ∈ held slots ↔ ∃ i, occupant? slots i = some x := by
  simp only [held, Multiset.mem_coe, List.mem_filterMap, id_eq, exists_eq_right]
  rw [List.mem_iff_getElem?]
  refine exists_congr fun i => ?_
  rw [occupant?, Array.getElem?_toList]
  cases slots[i]? <;> simp

theorem held_replicate {n : Nat} : held (Array.replicate n (none : Option α)) = 0 := by
  refine Multiset.eq_zero_of_forall_notMem fun x hx => ?_
  obtain ⟨i, hi⟩ := mem_held.mp hx
  rw [occupant?_replicate] at hi
  cases hi

theorem held_set (x? : Option α) (hi : i < slots.size) :
    held (slots.setIfInBounds i x?) + ↑(occupant? slots i).toList = held slots + ↑x?.toList := by
  have hsplit : slots.toList = slots.toList.take i ++ slots[i] :: slots.toList.drop (i + 1) := by
    rw [← Array.getElem_toList, List.getElem_cons_drop, List.take_append_drop]
  have hset : (slots.setIfInBounds i x?).toList = slots.toList.take i ++ x? :: slots.toList.drop (i + 1) := by
    rw [Array.toList_setIfInBounds, List.set_eq_take_append_cons_drop, if_pos (by simpa using hi)]
  have hmid (y? : Option α) (l r : List (Option α)) :
      ((l ++ y? :: r).filterMap id : Multiset α) = ↑(l.filterMap id) + ↑y?.toList + ↑(r.filterMap id) := by
    cases y? with
    | none => simp
    | some y =>
      rw [List.filterMap_append, List.filterMap_cons_some (f := id) rfl, ← Multiset.coe_add, ← Multiset.cons_coe,
        ← Multiset.singleton_add, add_assoc]
      rfl
  unfold held
  conv_rhs => rw [hsplit]
  rw [hset, occupant?_eq_getElem hi, hmid, hmid]
  abel

theorem held_fill (hi : i < slots.size) (hfree : occupant? slots i = none) :
    held (slots.setIfInBounds i (some x)) = x ::ₘ held slots := by
  have := held_set (some x) hi
  rw [hfree] at this
  simpa [add_comm, ← Multiset.singleton_add] using this

theorem held_clear (hi : occupant? slots i = some x) :
    x ::ₘ held (slots.setIfInBounds i none) = held slots := by
  have := held_set none (lt_of_occupant? hi)
  rw [hi] at this
  simpa [add_comm, ← Multiset.singleton_add] using this

theorem held_cleared {xs : Multiset α} (hi : occupant? slots i = some x) (hheld : held slots = x ::ₘ xs) :
    held (slots.setIfInBounds i none) = xs := by
  rw [← held_clear hi] at hheld
  exact (Multiset.cons_inj_right x).mp hheld

theorem held_swapped {xs : Multiset α} (hi : occupant? slots i = some x) (hheld : held slots = x ::ₘ xs) :
    held (slots.setIfInBounds i (some y)) = y ::ₘ xs := by
  have hset := held_set (some y) (lt_of_occupant? hi)
  rw [hi, hheld] at hset
  have hswap : x ::ₘ held (slots.setIfInBounds i (some y)) = x ::ₘ y ::ₘ xs := by
    rw [Multiset.cons_swap]
    simpa [add_comm, ← Multiset.singleton_add] using hset
  exact (Multiset.cons_inj_right x).mp hswap

theorem exists_free (hlt : (held slots).card < slots.size) : ∃ i < slots.size, occupant? slots i = none := by
  by_contra hnone
  have hall : ∀ x? ∈ slots.toList, x?.isSome := by
    intro x? hx
    obtain ⟨i, hi⟩ := List.mem_iff_getElem?.mp hx
    rw [Array.getElem?_toList] at hi
    obtain ⟨hlt, -⟩ := Array.getElem?_eq_some_iff.mp hi
    cases x? with
    | some x => rfl
    | none => exact absurd ⟨i, hlt, by rw [occupant?, hi]; rfl⟩ hnone
  have hlength : (slots.toList.filterMap id).length = slots.toList.length := by
    rw [List.length_filterMap_eq_countP, List.countP_eq_length]
    exact hall
  rw [held, Multiset.coe_card, hlength, Array.length_toList] at hlt
  omega

/-- What holds of the contents of any two slots, the earlier one first, holds along the list of all contents. -/
theorem pairwise_held {R : α → α → Prop}
    (h : ∀ {i j x y}, occupant? slots i = some x → occupant? slots j = some y → i < j → R x y) :
    (slots.toList.filterMap id).Pairwise R := by
  rw [List.pairwise_filterMap, List.pairwise_iff_getElem]
  intro a b ha hb hlt x hx y hy
  rw [id_eq, Array.getElem_toList] at hx hy
  exact h ((occupant?_eq_getElem (by simpa using ha)).trans hx) ((occupant?_eq_getElem (by simpa using hb)).trans hy) hlt

end RecordStore
