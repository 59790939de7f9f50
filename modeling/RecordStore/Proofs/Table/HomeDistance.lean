import Mathlib.Algebra.BigOperators.Group.Finset.Basic
import Mathlib.Algebra.Order.BigOperators.Group.Finset
import Mathlib.Data.Nat.Cast.Basic
import RecordStore.Proofs.Table.Slots

/-! # How far handles lie from their homes

A handle that lies away from the home of its key pulls at the table, the more the farther it lies. When a handle is
taken out and placed anew it never comes to lie farther from its home: it stays where it was, or the strain of the
table decreases. Nothing is asked of the order of the table for that. -/

namespace RecordStore.Segment

open Cyclic

variable {key? : Handle → Option Value} {slots : Slots} {i p q : Nat} {h : Handle} {k : Value}

/-- How far slot `i` of `n` is from the home of what lies in it. -/
def pull (key? : Handle → Option Value) (n i : Nat) (h? : Option Handle) : Nat :=
  match h?.bind key? with
  | some k => dist n (k.home n) i
  | none => 0

/-- How far all handles together lie from the homes of their keys. -/
def strain (key? : Handle → Option Value) (slots : Slots) : Nat :=
  ∑ i ∈ Finset.range slots.size, pull key? slots.size i (occupant? slots i)

theorem pull_none {n : Nat} : pull key? n i none = 0 := rfl

theorem pull_some {n : Nat} (hk : key? h = some k) : pull key? n i (some h) = dist n (k.home n) i := by
  rw [pull, Option.bind_some, hk]

theorem pull_le {n : Nat} {h? : Option Handle} (hi : i < n) : pull key? n i h? ≤ n := by
  unfold pull
  cases h?.bind key? with
  | none => exact Nat.zero_le n
  | some k => exact (dist_lt (home_lt (by omega)) hi).le

theorem strain_le (key? : Handle → Option Value) (slots : Slots) : strain key? slots ≤ slots.size * slots.size := by
  have hsum := Finset.sum_le_card_nsmul (Finset.range slots.size)
    (fun i => pull key? slots.size i (occupant? slots i)) slots.size fun i hi => pull_le (Finset.mem_range.mp hi)
  rw [Finset.card_range, nsmul_eq_mul, Nat.cast_id] at hsum
  exact hsum

theorem strain_set (key? : Handle → Option Value) (h? : Option Handle) (hi : i < slots.size) :
    strain key? (slots.setIfInBounds i h?) + pull key? slots.size i (occupant? slots i) =
      strain key? slots + pull key? slots.size i h? := by
  have hmem : i ∈ Finset.range slots.size := Finset.mem_range.mpr hi
  have hrest : ∑ j ∈ (Finset.range slots.size).erase i,
      pull key? slots.size j (occupant? (slots.setIfInBounds i h?) j) =
      ∑ j ∈ (Finset.range slots.size).erase i, pull key? slots.size j (occupant? slots j) :=
    Finset.sum_congr rfl fun j hj => by rw [occupant?_set_ne hi (Finset.ne_of_mem_erase hj)]
  unfold strain
  rw [Array.size_setIfInBounds, ← Finset.add_sum_erase _ _ hmem, ← Finset.add_sum_erase _ _ hmem, hrest,
    occupant?_set_self hi]
  omega

/-- The place that a handle is given anew is as near to the home of its key as its old one, or nearer. The strain
    decreases by as much. -/
theorem strain_replace (hp : occupant? slots p = some h) (hk : key? h = some k)
    (hq : freeSlot? (slots.setIfInBounds p none) k = some q) :
    dist slots.size (k.home slots.size) q ≤ dist slots.size (k.home slots.size) p ∧
    strain key? ((slots.setIfInBounds p none).setIfInBounds q (some h)) + dist slots.size (k.home slots.size) p =
      strain key? slots + dist slots.size (k.home slots.size) q := by
  have hplt := lt_of_occupant? hp
  have hsize : (slots.setIfInBounds p none).size = slots.size := Array.size_setIfInBounds ..
  obtain ⟨hqlt, hqfree, htaken⟩ := freeSlot?_anew hq
  have hout := strain_set key? none hplt
  have hin := strain_set key? (some h) (show q < (slots.setIfInBounds p none).size by omega)
  rw [hp, pull_some hk, pull_none] at hout
  rw [hqfree, hsize, pull_some hk, pull_none] at hin
  refine ⟨?_, by omega⟩
  by_contra hfar
  have hoccupied := htaken p (by omega) (by rw [hsize]; omega)
  rw [occupant?_set_self hplt] at hoccupied
  cases hoccupied

/-- A sweep that places the handle of slot `p` anew comes nearer to its end. If the handle stays, an empty slot ahead
    comes nearer. If it moves into that slot, the slot that it leaves is the empty one ahead: the way there is longer by
    less than the handle has come nearer to its home. -/
theorem strain_step {f : Nat} (hp : occupant? slots p = some h) (hk : key? h = some k)
    (hq : freeSlot? (slots.setIfInBounds p none) k = some q) (hf : f < slots.size) (hfree : occupant? slots f = none) :
    ∃ f' < slots.size, occupant? ((slots.setIfInBounds p none).setIfInBounds q (some h)) f' = none ∧
      strain key? ((slots.setIfInBounds p none).setIfInBounds q (some h)) +
          dist slots.size ((p + 1) % slots.size) f' <
        strain key? slots + dist slots.size p f := by
  have hplt := lt_of_occupant? hp
  obtain ⟨hqlt, -, -⟩ := freeSlot?_anew hq
  obtain ⟨hnear, hstrain⟩ := strain_replace hp hk hq
  have hpf : p ≠ f := fun e => by
    rw [e, hfree] at hp
    cases hp
  by_cases hqf : q = f
  · subst hqf
    have hleft : occupant? ((slots.setIfInBounds p none).setIfInBounds q (some h)) p = none := by
      rw [occupant?_anew hp hq, if_neg hpf, if_pos rfl]
    have hround := dist_lt (succ_mod_lt hplt) hplt
    have hback := dist_between (home_lt (Nat.zero_lt_of_lt hplt)) hqlt hplt hnear
    have hwhole := dist_add_dist hplt hqlt hpf
    exact ⟨p, hplt, hleft, by omega⟩
  · have hstays : occupant? ((slots.setIfInBounds p none).setIfInBounds q (some h)) f = none := by
      rw [occupant?_anew hp hq, if_neg (Ne.symm hqf), if_neg hpf.symm, hfree]
    have hnearer := dist_succ hplt hf hpf
    exact ⟨f, hf, hstays, by omega⟩

end RecordStore.Segment
