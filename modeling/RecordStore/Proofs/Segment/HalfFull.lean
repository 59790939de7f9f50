import RecordStore.Proofs.Notices
import RecordStore.Proofs.Segment.LayingOut
import RecordStore.Proofs.Segment.Storing

/-! # Room in the table

A segment counts its handles right and keeps its table at most half full, whatever has become of the blocks that the
handles name. So a search always comes to an empty slot, and what is taken off the common count of entries has been
counted there. -/

namespace RecordStore.Segment

variable {t u : State} {n i : Nat} {h : Handle}

/-- The number of slots is the one that the segment was made with, doubled some times. The taken slots are counted, are
    half of them at most, and none of them holds the null handle. -/
structure Roomy (g : Segment) : Prop where
  made : isCapacity g.minCapacity = true
  doubled : ∃ e, g.capacity = g.minCapacity * 2 ^ e
  counted : g.count = g.handles.length
  half : 2 * g.count ≤ g.capacity
  named : ∀ h ∈ g.handles, h ≠ .null

/-- A segment with room in its table, whose entries are counted together with `n` others. -/
structure State.Safe (n : Nat) (t : State) : Prop where
  started : t.memory.Started
  roomy : t.segment.Roomy
  items : t.segment.count + n ≤ t.counters.items

namespace Roomy

variable {g g' : Segment}

theorem two_le (hg : g.Roomy) : 2 ≤ g.slots.size := two_le_size hg.made hg.doubled

theorem card_held (hg : g.Roomy) : (held g.slots).card = g.count := hg.counted.symm

theorem card_lt (hg : g.Roomy) : (held g.slots).card < g.slots.size := by
  have htwo := hg.two_le
  have hhalf := hg.half
  rw [capacity] at hhalf
  rw [hg.card_held]
  omega

/-- A table with the same number of slots, of which another number is taken. -/
theorem refill (hg : g.Roomy) (hmade : g'.minCapacity = g.minCapacity)
    (hsize : g'.slots.size = g.slots.size) (hcount : g'.count = (held g'.slots).card)
    (hhalf : 2 * g'.count ≤ g.slots.size) (hnamed : ∀ h ∈ held g'.slots, h ≠ .null) : g'.Roomy where
  made := hmade ▸ hg.made
  doubled := by
    obtain ⟨e, he⟩ := hg.doubled
    exact ⟨e, by rw [capacity, hsize, hmade]; exact he⟩
  counted := hcount
  half := by rw [capacity, hsize]; exact hhalf
  named := hnamed

end Roomy

theorem roomy_empty {capacity : Nat} (hmade : isCapacity capacity = true) : (empty capacity).Roomy := by
  have hnone : held (Array.replicate capacity (none : Option Handle)) = 0 := held_replicate
  refine ⟨hmade, ⟨0, ?_⟩, (congrArg Multiset.card hnone).symm, Nat.zero_le _, fun g hg => ?_⟩
  · rw [Nat.pow_zero, Nat.mul_one]
    exact Array.size_replicate
  · exact absurd (show g ∈ held (Array.replicate capacity none) from hg) (hnone ▸ Multiset.notMem_zero g)

namespace State.Safe

theorem relaid {c : Nat} (ht : t.Safe n) (hu : Relaid t c u) (hdoubled : ∃ e, c = t.segment.minCapacity * 2 ^ e)
    (hhalf : 2 * t.segment.count ≤ c) : u.Safe n := by
  obtain ⟨m, slots, hm, rfl, rfl, hheld⟩ := hu
  refine ⟨ht.started.grows hm.grows, ⟨ht.roomy.made, hdoubled, ?_, hhalf, fun h hh => ?_⟩, ht.items⟩
  · have hcard := congrArg Multiset.card hheld
    exact ht.roomy.counted.trans hcard.symm
  · have hmem : h ∈ held slots := hh
    rw [hheld] at hmem
    exact ht.roomy.named h hmem

theorem swept (ht : t.Safe n) (hu : Relaid t t.segment.slots.size u) : u.Safe n :=
  ht.relaid hu ht.roomy.doubled ht.roomy.half

theorem grown {m : Memory} (ht : t.Safe n) (hm : t.memory.Grows m) : State.Safe n { t with memory := m } :=
  ⟨ht.started.grows hm, ht.roomy, ht.items⟩

theorem unwritten (ht : t.Safe n) (hu : Unwritten t u) : u.Safe n := ht.swept hu.relaid

theorem counted {c : Counters} {n' : Nat} (ht : t.Safe n) (hc : t.segment.count + n' ≤ c.items) :
    State.Safe n' { t with counters := c } := ⟨ht.started, ht.roomy, hc⟩

/-- An entry that was removed has gone from the table and from the count. -/
theorem removed {m : Memory} {c : Counters} (ht : t.Safe n) (hi : occupant? t.segment.slots i = some h)
    (hm : t.memory.Grows m) (hc : c.items = t.counters.items - 1) :
    State.Safe n ⟨⟨m, c, t.notifier, t.clock⟩,
      { t.segment.setSlot i none with count := t.segment.count - 1 }⟩ := by
  have hheld := held_clear hi
  have hcard := congrArg Multiset.card hheld
  rw [Multiset.card_cons, ht.roomy.card_held] at hcard
  have hhalf := ht.roomy.half
  have hitems := ht.items
  rw [capacity] at hhalf
  refine ⟨ht.started.grows hm, ht.roomy.refill rfl (Array.size_setIfInBounds ..) ?_ ?_ fun g hg => ?_, ?_⟩
  · show t.segment.count - 1 = (held (t.segment.slots.setIfInBounds i none)).card
    omega
  · show 2 * (t.segment.count - 1) ≤ t.segment.slots.size
    omega
  · exact ht.roomy.named g (show g ∈ held t.segment.slots from hheld ▸ Multiset.mem_cons_of_mem hg)
  · show t.segment.count - 1 + n ≤ c.items
    omega

/-- A record that was stored takes an empty slot. -/
theorem filled (ht : t.Safe (n + 1)) (hi : i < t.segment.slots.size)
    (hempty : occupant? t.segment.slots i = none) (hhalf : 2 * (t.segment.count + 1) ≤ t.segment.slots.size)
    (hh : h ≠ .null) :
    State.Safe n { t with segment := { t.segment.setSlot i (some h) with count := t.segment.count + 1 } } := by
  have hheld := held_fill (x := h) hi hempty
  have hcard := congrArg Multiset.card hheld
  rw [Multiset.card_cons, ht.roomy.card_held] at hcard
  have hitems := ht.items
  refine ⟨ht.started, ht.roomy.refill rfl (Array.size_setIfInBounds ..) hcard.symm hhalf fun g hg => ?_, ?_⟩
  · have hmem : g ∈ h ::ₘ held t.segment.slots := hheld ▸ hg
    rcases Multiset.mem_cons.mp hmem with rfl | hg
    · exact hh
    · exact ht.roomy.named g hg
  · show t.segment.count + 1 + n ≤ t.counters.items
    omega

/-- Another record has taken the slot of one. -/
theorem swapped {h' : Handle} (ht : t.Safe n) (hi : occupant? t.segment.slots i = some h)
    (hh : h' ≠ .null) : State.Safe n { t with segment := t.segment.setSlot i (some h') } := by
  have hclear := held_clear hi
  have hheld := held_swapped (y := h') hi hclear.symm
  refine ⟨ht.started, ht.roomy.refill rfl (Array.size_setIfInBounds ..) ?_ ht.roomy.half fun g hg => ?_, ht.items⟩
  · show t.segment.count = (held (t.segment.slots.setIfInBounds i (some h'))).card
    rw [hheld, Multiset.card_cons, ← ht.roomy.card_held, ← hclear, Multiset.card_cons]
  · have hmem : g ∈ h' ::ₘ held (t.segment.slots.setIfInBounds i none) := hheld ▸ hg
    rcases Multiset.mem_cons.mp hmem with rfl | hg
    · exact hh
    · exact ht.roomy.named g (show g ∈ held t.segment.slots from hclear ▸ Multiset.mem_cons_of_mem hg)

end State.Safe

end RecordStore.Segment
