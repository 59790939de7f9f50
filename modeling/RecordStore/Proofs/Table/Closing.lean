import RecordStore.Proofs.Actions
import RecordStore.Proofs.Table.Chain

/-! # Closing a gap

A slot that is emptied may cut off the handles after it from their homes. The sweep that puts this right takes the
handles up to the next empty slot out and places them anew, one after the other. While it goes on, only the handles
still to come may be out of reach, and only because of slots that the sweep has left behind. -/

namespace RecordStore.Segment

open Cyclic

variable {key? : Handle → Option Value} {slots : Slots} {v p e i j : Nat} {h : Handle} {k : Value}

/-- A gap at `v` is being closed: the sweep stands at `p` and will stop at `e`, the first empty slot. -/
structure Sweeping (key? : Handle → Option Value) (slots : Slots) (v p e : Nat) : Prop where
  gap : v < slots.size
  here : p < slots.size
  stop : e < slots.size
  begun : 0 < dist slots.size v p
  ahead : dist slots.size v p ≤ dist slots.size v e
  empty : occupant? slots e = none
  rest : ∀ j < slots.size, dist slots.size v p ≤ dist slots.size v j → dist slots.size v j < dist slots.size v e →
    (occupant? slots j).isSome
  readable : ∀ {i h}, occupant? slots i = some h → ∃ k, key? h = some k
  distinct : ∀ {i j h h'}, occupant? slots i = some h → occupant? slots j = some h' → key? h = key? h' → i = j
  reached : ∀ {i h k}, occupant? slots i = some h → key? h = some k → ∀ j < slots.size,
    dist slots.size (k.home slots.size) j < dist slots.size (k.home slots.size) i →
      (occupant? slots j).isSome ∨ (dist slots.size v j < dist slots.size v p ∧
        dist slots.size v p ≤ dist slots.size v i ∧ dist slots.size v i < dist slots.size v e)

/-- A table in order with one of its slots emptied. -/
theorem Chained.sweeping (hc : Chained key? slots) (hv : occupant? slots v = some h)
    (he : find? slots.size (isFree slots) v = some e) :
    Sweeping key? (slots.setIfInBounds v none) v ((v + 1) % slots.size) e := by
  have hvlt := lt_of_occupant? hv
  obtain ⟨helt, hfree, hbefore⟩ := (find?_eq_some_iff hvlt).mp he
  rw [isFree_eq_true_iff] at hfree
  have hev : e ≠ v := fun e' => by rw [e', hv] at hfree; cases hfree
  have hpos : 0 < dist slots.size v e := by
    have := (dist_eq_zero_iff (b := e) hvlt).not.mpr hev.symm
    omega
  have hnext : dist slots.size v ((v + 1) % slots.size) = 1 := by
    have := dist_lt hvlt helt
    rw [dist_to_succ hvlt hvlt (by rw [dist_self]; omega), dist_self]
  have hback {i : Nat} {g : Handle} (hi : occupant? (slots.setIfInBounds v none) i = some g) :
      i ≠ v ∧ occupant? slots i = some g := by
    rw [occupant?_set hvlt] at hi
    split at hi
    · cases hi
    · exact ⟨by assumption, hi⟩
  refine ⟨?_, ?_, ?_, ?_, ?_, ?_, fun j hj hpj hje => ?_, fun hi => ?_, fun hi hj hk => ?_, fun {i g k} hi hk j hj hlt => ?_⟩
  · simpa using hvlt
  · simpa using succ_mod_lt hvlt
  · simpa using helt
  · rw [Array.size_setIfInBounds, hnext]
    exact Nat.one_pos
  · rw [Array.size_setIfInBounds, hnext]
    exact hpos
  · rw [occupant?_set_ne hvlt hev, hfree]
  · rw [Array.size_setIfInBounds] at hj hpj hje
    have hjv : j ≠ v := fun e' => by rw [hnext, e', dist_self] at hpj; omega
    rw [occupant?_set_ne hvlt hjv]
    exact isFree_eq_false_iff.mp (hbefore j hj hje)
  · exact hc.readable (hback hi).2
  · exact hc.distinct (hback hi).2 (hback hj).2 hk
  · rw [Array.size_setIfInBounds] at hj hlt ⊢
    obtain ⟨hiv, hi⟩ := hback hi
    have hilt := lt_of_occupant? hi
    have hhome : k.home slots.size < slots.size := home_lt (by omega)
    by_cases hjv : j = v
    · -- The way from the home leads past the gap, so it ends before the first empty slot after the gap.
      right
      have hi0 : 0 < dist slots.size v i := by
        have := (dist_eq_zero_iff (b := i) hvlt).not.mpr hiv.symm
        omega
      refine ⟨by rw [hjv, dist_self, hnext]; exact Nat.one_pos, by rw [hnext]; exact hi0, ?_⟩
      by_contra hge
      have hie : dist slots.size v e ≠ dist slots.size v i := fun e' => by
        rw [dist_inj hvlt helt hilt e', hi] at hfree
        cases hfree
      have hpast := dist_lt_of_outside hhome hvlt hvlt helt hilt (by rw [dist_self]; exact hpos)
        (Or.inr (by omega)) (hjv ▸ hlt)
      have := hc.reached hi hk e helt hpast
      rw [hfree] at this
      cases this
    · left
      rw [occupant?_set_ne hvlt hjv]
      exact hc.reached hi hk j hj hlt

namespace Sweeping

theorem congr {key?' : Handle → Option Value} (hs : Sweeping key? slots v p e)
    (hkey : ∀ h ∈ held slots, key?' h = key? h) : Sweeping key?' slots v p e where
  gap := hs.gap
  here := hs.here
  stop := hs.stop
  begun := hs.begun
  ahead := hs.ahead
  empty := hs.empty
  rest := hs.rest
  readable hi := by
    rw [hkey _ (mem_held.mpr ⟨_, hi⟩)]
    exact hs.readable hi
  distinct hi hj he := by
    rw [hkey _ (mem_held.mpr ⟨_, hi⟩), hkey _ (mem_held.mpr ⟨_, hj⟩)] at he
    exact hs.distinct hi hj he
  reached hi hk := by
    rw [hkey _ (mem_held.mpr ⟨_, hi⟩)] at hk
    exact hs.reached hi hk

/-- A sweep that comes to an empty slot leaves a table in order. -/
theorem chained (hs : Sweeping key? slots v e e) : Chained key? slots where
  readable := hs.readable
  distinct := hs.distinct
  reached hi hk j hj hlt := by
    rcases hs.reached hi hk j hj hlt with htaken | ⟨-, hge, hlt'⟩
    · exact htaken
    · omega

theorem behind (hs : Sweeping key? slots v p e) (hne : p ≠ e) :
    dist slots.size v p < dist slots.size v e ∧
      dist slots.size v ((p + 1) % slots.size) = dist slots.size v p + 1 := by
  have hahead := hs.ahead
  have hpe : dist slots.size v p ≠ dist slots.size v e := fun e' => hne (dist_inj hs.gap hs.here hs.stop e')
  have hlt : dist slots.size v p < dist slots.size v e := by omega
  exact ⟨hlt, dist_to_succ hs.gap hs.here (Nat.lt_of_le_of_lt hlt (dist_lt hs.gap hs.stop))⟩

theorem occupied (hs : Sweeping key? slots v p e) (hne : p ≠ e) : ∃ h, occupant? slots p = some h :=
  Option.isSome_iff_exists.mp (hs.rest p hs.here (Nat.le_refl _) (hs.behind hne).1)

/-- The handle in the sweep's slot goes back there, or to a slot that the sweep has left behind. -/
theorem freeSlot_le {q : Nat} (hs : Sweeping key? slots v p e) (hp : occupant? slots p = some h) (hk : key? h = some k)
    (hq : q < slots.size) (hfree : occupant? (slots.setIfInBounds p none) q = none)
    (htaken : Taken (slots.setIfInBounds p none) (k.home slots.size) q) :
    dist slots.size v q ≤ dist slots.size v p := by
  by_cases hqp : q = p
  · rw [hqp]
  · have hhome : k.home slots.size < slots.size := home_lt (Nat.lt_of_le_of_lt (Nat.zero_le _) hq)
    have hqnone : occupant? slots q = none := by rwa [occupant?_set_ne hs.here hqp] at hfree
    have hbefore : dist slots.size (k.home slots.size) q < dist slots.size (k.home slots.size) p := by
      by_contra hge
      have hpq : dist slots.size (k.home slots.size) p ≠ dist slots.size (k.home slots.size) q := fun e' =>
        hqp (dist_inj hhome hs.here hq e').symm
      have := htaken p (by simpa using hs.here) (by rw [Array.size_setIfInBounds]; omega)
      rw [occupant?_set_self hs.here] at this
      cases this
    rcases hs.reached hp hk q hq hbefore with hsome | ⟨hbehind, -⟩
    · rw [hqnone] at hsome
      cases hsome
    · omega

/-- A handle whose way from its home leads past the sweep's slot is still to come: otherwise its way would lead
    past the end as well. -/
theorem pending_of_past {i : Nat} {g : Handle} {k' : Value} (hs : Sweeping key? slots v p e) (hne : p ≠ e) (hip : i ≠ p)
    (hi : occupant? slots i = some g) (hk : key? g = some k')
    (hpast : dist slots.size (k'.home slots.size) p < dist slots.size (k'.home slots.size) i) :
    dist slots.size v p < dist slots.size v i ∧ dist slots.size v i < dist slots.size v e := by
  have hilt := lt_of_occupant? hi
  have hhome : k'.home slots.size < slots.size := home_lt (Nat.lt_of_le_of_lt (Nat.zero_le _) hilt)
  have hvp : dist slots.size v i ≠ dist slots.size v p := fun e' => hip (dist_inj hs.gap hilt hs.here e')
  have hve : dist slots.size v i ≠ dist slots.size v e := fun e' => by
    have := hs.empty
    rw [← dist_inj hs.gap hilt hs.stop e', hi] at this
    cases this
  by_contra hout
  have hpaste := dist_lt_of_outside hhome hs.gap hs.here hs.stop hilt (hs.behind hne).1 (by omega) hpast
  rcases hs.reached hi hk e hs.stop hpaste with hsome | ⟨hbehind, -⟩
  · rw [hs.empty] at hsome
    cases hsome
  · have := hs.ahead
    omega

/-- One step of a sweep: the handle in its slot is taken out and placed anew, no further than where it was. -/
theorem step (hs : Sweeping key? slots v p e) (hne : p ≠ e) (hp : occupant? slots p = some h)
    (hk : key? h = some k) {q : Nat} (hq : freeSlot? (slots.setIfInBounds p none) k = some q) :
    dist slots.size v q ≤ dist slots.size v p ∧
      Sweeping key? ((slots.setIfInBounds p none).setIfInBounds q (some h)) v ((p + 1) % slots.size) e := by
  obtain ⟨hlt, hnext⟩ := hs.behind hne
  obtain ⟨hqlt, hqfree, hqtaken⟩ := freeSlot?_anew hq
  have hqp := hs.freeSlot_le hp hk hqlt hqfree hqtaken
  have hqe : q ≠ e := fun e' => by rw [e'] at hqp; omega
  have hsize : (slots.setIfInBounds p none).size = slots.size := Array.size_setIfInBounds ..
  have hsize' : ((slots.setIfInBounds p none).setIfInBounds q (some h)).size = slots.size := by
    rw [Array.size_setIfInBounds, hsize]
  refine ⟨hqp, ?_⟩
  constructor <;> try rw [hsize']
  case gap => exact hs.gap
  case here => exact succ_mod_lt hs.here
  case stop => exact hs.stop
  case begun =>
    rw [hnext]
    omega
  case ahead =>
    rw [hnext]
    exact hlt
  case empty => rw [occupant?_anew hp hq, if_neg hqe.symm, if_neg hne.symm, hs.empty]
  case rest =>
    intro j hj hpj hje
    rw [hnext] at hpj
    exact isSome_anew hp hq (fun e' => by rw [e'] at hpj; omega) (hs.rest j hj (by omega) hje)
  case readable =>
    intro i g hi
    rcases anew_cases hp hq hi with ⟨-, rfl⟩ | ⟨-, hi⟩
    · exact ⟨k, hk⟩
    · exact hs.readable hi
  case distinct =>
    intro i j g g' hi hj hkk
    rcases anew_cases hp hq hi with ⟨hiq, rfl⟩ | ⟨hip, hi'⟩ <;>
      rcases anew_cases hp hq hj with ⟨hjq, rfl⟩ | ⟨hjp, hj'⟩
    · rw [hiq, hjq]
    · exact absurd (hs.distinct hp hj' hkk).symm hjp
    · exact absurd (hs.distinct hi' hp hkk) hip
    · exact hs.distinct hi' hj' hkk
  case reached =>
    intro i g k' hi hk' j hj hpast
    rcases anew_cases hp hq hi with ⟨rfl, rfl⟩ | ⟨hip, hi'⟩
    · rw [hk] at hk'
      cases hk'
      have htaken := hqtaken j (by rw [hsize]; exact hj) (by rw [hsize]; exact hpast)
      rw [occupant?_set hs.here] at htaken
      split at htaken
      · cases htaken
      · exact Or.inl (isSome_anew hp hq (by assumption) htaken)
    · rcases hs.reached hi' hk' j hj hpast with htaken | ⟨hbehind, hge, hbefore⟩
      · by_cases hjp : j = p
        · have := hs.pending_of_past hne hip hi' hk' (hjp ▸ hpast)
          right
          rw [hnext, hjp]
          omega
        · exact Or.inl (isSome_anew hp hq hjp htaken)
      · have hvp : dist slots.size v i ≠ dist slots.size v p := fun e' =>
          hip (dist_inj hs.gap (lt_of_occupant? hi') hs.here e')
        right
        rw [hnext]
        omega

end Sweeping

end RecordStore.Segment
