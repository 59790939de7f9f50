import RecordStore.Proofs.Segment.LossByEviction
import RecordStore.Proofs.Store.Lifting

/-! # Records of a store that go by eviction

Through all segments of a store, records go away unasked only by eviction, each counted and told once. Storing,
removing and tearing down tell nobody. -/

namespace RecordStore.Store

open RecordStore.Action

variable {α : Type} {s s' s'' : Store} {g : Segment} {i : Nat} {gone gone' : Multiset Record}

/-- From `s` to `s'` some records have been evicted, and no other one has come, gone or changed. -/
structure Evicts (s s' : Store) (gone : Multiset Record) : Prop where
  leads : Leads s s' s'.records
  split : s'.records + gone = s.records
  due : ∀ r ∈ gone, r.isOver s.clock.now
  expired : s'.counters.expired = s.counters.expired + gone.card
  told : ∀ l, s.notifier.Prompt l → s.notifier.Tells l s'.notifier (gone.map Record.notice)

namespace Evicts

theorem refl (hs : s.WellFormed) : Evicts s s 0 where
  leads := Leads.refl hs
  split := add_zero _
  due _ hr := absurd hr (Multiset.notMem_zero _)
  expired := rfl
  told _ hl := Notifier.Tells.refl hl

theorem trans (h₁ : Evicts s s' gone) (h₂ : Evicts s' s'' gone') : Evicts s s'' (gone + gone') where
  leads := h₁.leads.trans h₂.leads
  split := by rw [add_comm gone, ← add_assoc, h₂.split, h₁.split]
  due r hr := by
    rcases Multiset.mem_add.mp hr with hr | hr
    · exact h₁.due r hr
    · rw [← h₁.leads.keeps.clock]
      exact h₂.due r hr
  expired := by rw [h₂.expired, h₁.expired, Multiset.card_add, Nat.add_assoc]
  told l hl := by
    have htold := h₁.told l hl
    rw [Multiset.map_add]
    exact htold.trans (h₂.told l htold.prompt)

/-- What one segment evicts is evicted from the store. -/
theorem of_part {u : Segment.State} (hs : s.WellFormed) (hi : s.segment? i = some g)
    (h : Segment.Evicts (s.part g) u gone) : Evicts s (s.update i u) gone := by
  have hmine : ∀ r ∈ u.records, s.place? r = some i := fun r hr =>
    place?_of_mem_part hs hi (h.split ▸ Multiset.mem_add.mpr (Or.inl hr))
  have hleads := leads_update hs hi h.leads hmine
  refine ⟨hleads.records ▸ hleads, ?_, h.due, h.expired, h.told⟩
  have hall := records_eq hi
  rw [(records_part hs hi).2, ← h.split] at hall
  rw [hleads.records, add_right_comm, ← hall]

end Evicts

/-- Whatever goes, goes by eviction. -/
def Sheds (s s' : Store) : Prop := s.WellFormed → ∃ gone, Evicts s s' gone

instance : IsPreorder Store Sheds where
  refl _ hs := ⟨0, Evicts.refl hs⟩
  trans _ _ _ h₁ h₂ hs := by
    obtain ⟨gone, hgone⟩ := h₁ hs
    obtain ⟨gone', hgone'⟩ := h₂ hgone.leads.wellFormed
    exact ⟨gone + gone', hgone.trans hgone'⟩

/-- Nobody was told of anything, and no eviction was counted. -/
structure Silent (s s' : Store) : Prop where
  notifier : s'.notifier = s.notifier
  expired : s'.counters.expired = s.counters.expired

instance : IsPreorder Store Silent where
  refl _ := ⟨rfl, rfl⟩
  trans _ _ _ h₁ h₂ := ⟨h₂.notifier.trans h₁.notifier, h₂.expired.trans h₁.expired⟩

/-! ### One segment -/

theorem sheds_onSegment {x : Segment.Op α} (h : Moves Segment.Sheds x) (i : Nat) : Moves Sheds (onSegment i x) :=
  moves_onSegment h fun hi hu hs => by
    obtain ⟨gone, hgone⟩ := hu (part_wellFormed hs hi)
    exact ⟨gone, Evicts.of_part hs hi hgone⟩

theorem silent_onSegment {x : Segment.Op α} (h : Moves Segment.Silent x) (i : Nat) : Moves Silent (onSegment i x) :=
  moves_onSegment h fun _ hu => ⟨hu.notifier, hu.expired⟩

/-! ### Requests -/

theorem sheds_tally (s : Store) (gets puts removes : Nat) : Sheds s (s.tally gets puts removes) := fun hs =>
  ⟨0, { Evicts.refl hs with leads := leads_tally hs gets puts removes }⟩

theorem sheds_contains (k : Value) : Moves Sheds (contains k) :=
  moves_onSegmentOf (sheds_onSegment (Segment.sheds_contains k))

theorem sheds_getRecord? (k : Value) : Moves Sheds (getRecord? k) :=
  moves_getRecord? sheds_tally (sheds_onSegment (Segment.sheds_getRecord? k))

theorem sheds_get? (k : Value) : Moves Sheds (get? k) :=
  moves_get? sheds_tally (sheds_onSegment (Segment.sheds_get? k))

theorem sheds_getEntity? (k : Value) : Moves Sheds (getEntity? k) :=
  moves_getEntity? sheds_tally (sheds_onSegment (Segment.sheds_get? k))

theorem sheds_matching (tm : Template) : Moves Sheds (matching tm) :=
  moves_matching (sheds_onSegment (Segment.sheds_matching tm))

theorem sheds_fetch (tm : Template) : Moves Sheds (fetch tm) :=
  moves_fetch (sheds_onSegment (Segment.sheds_matching tm))

theorem sheds_evictExpired : Moves Sheds evictExpired :=
  moves_evictExpired (sheds_onSegment Segment.sheds_evictExpired)

theorem silent_put (payload : Bytes) (ttl : Lifetime) : Moves Silent (put payload ttl) := by
  have hcount : Moves Silent (modify fun s => { s with puts := s.puts + 1 } : Op Unit) := fun _ => ⟨rfl, rfl⟩
  refine hcount.bind fun _ => (Moves.ofCodec _).bind fun k => ?_
  exact Moves.bind (fun s => refl s) fun _ => moves_onSegmentOf (silent_onSegment (Segment.silent_put k _))

theorem silent_remove (k : Value) : Moves Silent (remove k) :=
  moves_remove (fun _ _ _ _ => ⟨rfl, rfl⟩) (silent_onSegment (Segment.silent_remove k))

theorem silent_destroy : Moves Silent destroy := moves_destroy (silent_onSegment Segment.silent_destroy)

end RecordStore.Store
