import RecordStore.Proofs.Table.Slots

/-! # The order of a table

A table is in order if each of its handles has a key, no two have the same one, and each lies in reach of the home
of its key: the slots from there up to its own are all taken. A search that starts at the home and stops at the
first empty slot then meets every handle it looks for. `key?` says which key a handle has. -/

namespace RecordStore.Segment

variable {key? : Handle → Option Value} {slots : Slots} {i j : Nat} {h h' : Handle} {k : Value}

/-- Each handle that has a key lies in reach of the home of it. -/
def Reached (key? : Handle → Option Value) (slots : Slots) : Prop :=
  ∀ {i h k}, occupant? slots i = some h → key? h = some k → Taken slots (k.home slots.size) i

theorem reached_replicate (n : Nat) : Reached key? (Array.replicate n none) := by
  intro i h k hi
  rw [occupant?_replicate] at hi
  cases hi

/-- A handle that goes to the first empty slot from the home of its key on is in reach of it, and cuts off no other. -/
theorem Reached.fill (hr : Reached key? slots) (hfree : freeSlot? slots k = some i) (hk : key? h = some k) :
    Reached key? (slots.setIfInBounds i (some h)) := by
  obtain ⟨hi, -, htaken⟩ := (freeSlot?_eq_some_iff (size_pos_of_freeSlot? hfree)).mp hfree
  intro j g k' hj hk'
  rw [Array.size_setIfInBounds]
  rw [occupant?_set hi] at hj
  split at hj
  · rename_i e
    cases hj
    rw [hk] at hk'
    cases hk'
    rw [e]
    exact htaken.fill hi
  · exact (hr hj hk').fill hi

/-- The handles of a table have keys, different ones, and lie in reach of their homes. -/
structure Chained (key? : Handle → Option Value) (slots : Slots) : Prop where
  readable : ∀ {i h}, occupant? slots i = some h → ∃ k, key? h = some k
  distinct : ∀ {i j h h'}, occupant? slots i = some h → occupant? slots j = some h' → key? h = key? h' → i = j
  reached : Reached key? slots

theorem chained_replicate (n : Nat) : Chained key? (Array.replicate n none) where
  readable hi := by rw [occupant?_replicate] at hi; cases hi
  distinct hi := by rw [occupant?_replicate] at hi; cases hi
  reached := reached_replicate n

namespace Chained

theorem congr {key?' : Handle → Option Value} (hc : Chained key? slots) (hkey : ∀ h ∈ held slots, key?' h = key? h) :
    Chained key?' slots where
  readable hi := by
    rw [hkey _ (mem_held.mpr ⟨_, hi⟩)]
    exact hc.readable hi
  distinct hi hj he := by
    rw [hkey _ (mem_held.mpr ⟨_, hi⟩), hkey _ (mem_held.mpr ⟨_, hj⟩)] at he
    exact hc.distinct hi hj he
  reached hi hk := by
    rw [hkey _ (mem_held.mpr ⟨_, hi⟩)] at hk
    exact hc.reached hi hk

theorem slot_eq (hc : Chained key? slots) (hi : occupant? slots i = some h) (hj : occupant? slots j = some h) :
    i = j := hc.distinct hi hj rfl

/-- A handle with a key that no other one has goes to the first empty slot from its home on. -/
theorem fill (hc : Chained key? slots) (hfree : freeSlot? slots k = some i) (hk : key? h = some k)
    (hnew : ∀ h' ∈ held slots, key? h' ≠ some k) : Chained key? (slots.setIfInBounds i (some h)) := by
  obtain ⟨hi, -, -⟩ := (freeSlot?_eq_some_iff (size_pos_of_freeSlot? hfree)).mp hfree
  refine ⟨fun {j g} hj => ?_, fun {a b g g'} ha hb he => ?_, Reached.fill hc.reached hfree hk⟩
  · rw [occupant?_set hi] at hj
    split at hj
    · cases hj
      exact ⟨k, hk⟩
    · exact hc.readable hj
  · rw [occupant?_set hi] at ha hb
    split at ha <;> split at hb
    · rename_i ea eb
      rw [ea, eb]
    · cases ha
      rw [hk] at he
      exact absurd he.symm (hnew _ (mem_held.mpr ⟨_, hb⟩))
    · cases hb
      rw [hk] at he
      exact absurd he (hnew _ (mem_held.mpr ⟨_, ha⟩))
    · exact hc.distinct ha hb he

/-- A handle may take the place of another one with the same key. -/
theorem swap {key?' : Handle → Option Value} (hc : Chained key? slots) (hi : occupant? slots i = some h)
    (hsame : key?' h' = key? h) (hkey : ∀ g ∈ held slots, g ≠ h → key?' g = key? g) :
    Chained key?' (slots.setIfInBounds i (some h')) := by
  have hilt := lt_of_occupant? hi
  -- The key in each slot is the one that was there before.
  have hback {j : Nat} {g : Handle} (hj : occupant? (slots.setIfInBounds i (some h')) j = some g) :
      ∃ g', occupant? slots j = some g' ∧ key?' g = key? g' := by
    rw [occupant?_set hilt] at hj
    split at hj
    · rename_i e
      cases hj
      exact ⟨h, e ▸ hi, hsame⟩
    · rename_i hne
      exact ⟨g, hj, hkey g (mem_held.mpr ⟨_, hj⟩) fun e => hne (hc.slot_eq (e ▸ hj) hi)⟩
  refine ⟨fun hj => ?_, fun ha hb he => ?_, fun hj hk => ?_⟩
  · obtain ⟨g', hj', hk⟩ := hback hj
    rw [hk]
    exact hc.readable hj'
  · obtain ⟨g, ha', hka⟩ := hback ha
    obtain ⟨g', hb', hkb⟩ := hback hb
    exact hc.distinct ha' hb' (by rw [← hka, ← hkb, he])
  · obtain ⟨g', hj', hk'⟩ := hback hj
    rw [Array.size_setIfInBounds]
    exact (hc.reached hj' (hk' ▸ hk)).fill hilt

theorem nodup (hc : Chained key? slots) : (held slots).Nodup := by
  rw [held, Multiset.coe_nodup]
  refine pairwise_held fun ha hb hlt e => ?_
  have := hc.slot_eq ha (e ▸ hb)
  omega

end Chained

end RecordStore.Segment
