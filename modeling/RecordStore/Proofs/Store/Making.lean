import RecordStore.Proofs.Store.Parts

/-! # New stores

However its segments are placed, a store that was just made has at least one, all of them empty, and no record. -/

namespace RecordStore

namespace Placement

variable {segment g : Segment} {slots : Slots} {drawn i : Nat}

theorem size_addSegment : (addSegment segment slots drawn).size = slots.size := by
  unfold addSegment
  split
  · exact Array.size_setIfInBounds ..
  · rfl

/-- Where a segment was placed, and nowhere else, slots change. -/
theorem occupant?_addSegment (hg : occupant? (addSegment segment slots drawn) i = some g) :
    g = segment ∨ occupant? slots i = some g := by
  unfold addSegment at hg
  split at hg
  · rename_i j hj
    by_cases hlt : j < slots.size
    · rw [occupant?_set hlt] at hg
      split at hg
      · exact Or.inl (Option.some.inj hg).symm
      · exact Or.inr hg
    · rw [Array.setIfInBounds_eq_of_size_le (by omega)] at hg
      exact Or.inr hg
  · exact Or.inr hg

theorem isTaken_addSegment (hi : (occupant? slots i).isSome) :
    (occupant? (addSegment segment slots drawn) i).isSome := by
  unfold addSegment
  split
  · rename_i j hj
    by_cases hlt : j < slots.size
    · rw [occupant?_set hlt]
      split
      · rfl
      · exact hi
    · rw [Array.setIfInBounds_eq_of_size_le (by omega)]
      exact hi
  · exact hi

theorem exists_taken (segment : Segment) (drawn : Nat) (hpos : 0 < slots.size) :
    ∃ i, (occupant? (addSegment segment slots drawn) i).isSome := by
  have hdrawn : drawn % slots.size < slots.size := Nat.mod_lt _ hpos
  unfold addSegment
  split
  · rename_i j hj
    obtain ⟨hlt, -⟩ := (Cyclic.find?_eq_some_iff hdrawn).mp hj
    exact ⟨j, by rw [occupant?_set_self hlt]; rfl⟩
  · rename_i hnone
    refine ⟨0, ?_⟩
    by_contra hfree
    have hfree' : isFree slots 0 = true := by
      unfold occupant? at hfree
      unfold isFree
      simpa using hfree
    obtain ⟨j, hj⟩ := Cyclic.exists_find? hdrawn hpos hfree'
    rw [hnone] at hj
    cases hj

theorem foldl_addSegment (draw : Nat → Nat) (ordinals : List Nat) :
    let placed := ordinals.foldl (fun slots ordinal => addSegment segment slots (draw ordinal)) slots
    placed.size = slots.size ∧ (∀ {i g}, occupant? placed i = some g → g = segment ∨ occupant? slots i = some g) ∧
      ∀ {i}, (occupant? slots i).isSome → (occupant? placed i).isSome := by
  induction ordinals generalizing slots with
  | nil => exact ⟨rfl, Or.inr, id⟩
  | cons ordinal ordinals ih =>
    obtain ⟨hsize, hfrom, hkept⟩ := @ih (addSegment segment slots (draw ordinal))
    refine ⟨hsize.trans size_addSegment, fun hg => ?_, fun hi => hkept (isTaken_addSegment hi)⟩
    rcases hfrom hg with rfl | hg
    · exact Or.inl rfl
    · exact occupant?_addSegment hg

variable {count size : Nat} {draw : Nat → Nat}

theorem eq_of_populate (hg : occupant? (populate segment count size draw) i = some g) : g = segment := by
  rcases (foldl_addSegment draw (List.range count)).2.1 hg with rfl | hnone
  · rfl
  · rw [occupant?_replicate] at hnone
    cases hnone

theorem exists_populate (segment : Segment) (draw : Nat → Nat) (hcount : 0 < count) (hsize : 0 < size) :
    ∃ i, occupant? (populate segment count size draw) i = some segment := by
  obtain ⟨n, rfl⟩ := Nat.exists_eq_succ_of_ne_zero (by omega : count ≠ 0)
  have hpos : 0 < (Array.replicate size (none : Option Segment)).size := by
    rw [Array.size_replicate]
    exact hsize
  obtain ⟨i, hi⟩ := exists_taken segment (draw 0) hpos
  have hpopulate : populate segment (n + 1) size draw = ((List.range n).map Nat.succ).foldl
      (fun slots ordinal => addSegment segment slots (draw ordinal))
      (addSegment segment (Array.replicate size none) (draw 0)) := by
    rw [populate, List.range_succ_eq_map, List.foldl_cons]
  have htaken : (occupant? (populate segment (n + 1) size draw) i).isSome := by
    rw [hpopulate]
    exact (foldl_addSegment draw _).2.2 hi
  obtain ⟨g, hg⟩ := Option.isSome_iff_exists.mp htaken
  exact ⟨i, by rw [hg, eq_of_populate hg]⟩

end Placement

namespace StoreConfig

theorem validate_ok {c : StoreConfig} (h : c.validate = .ok ()) :
    0 < c.minSegments ∧ c.minSegments ≤ c.maxSegments ∧ Segment.isCapacity c.segmentCapacity = true := by
  unfold validate at h
  split at h
  · cases h
  · rename_i hmin
    split at h
    · cases h
    · rename_i hmax
      split at h
      · cases h
      · rename_i hcapacity
        exact ⟨by omega, by omega, by simpa using hcapacity⟩

end StoreConfig

namespace Store

variable {schema : Schema} {config : StoreConfig} {memory : Memory} {notifier : Notifier} {clock : Clock}
  {draw : Nat → Nat} {s : Store}

/-- The store that a configuration describes. -/
def made (schema : Schema) (config : StoreConfig) (memory : Memory) (notifier : Notifier) (clock : Clock)
    (draw : Nat → Nat) : Store where
  memory := memory
  notifier := notifier
  clock := clock
  schema := schema
  counters := {
    thresholds? := some ⟨config.growThreshold, config.nominalCapacity * 15 / 100⟩
    maxBytes? := config.maxBytes?
    maxItems? := config.maxItems? }
  slots := Placement.populate (Segment.empty config.segmentCapacity) config.minSegments config.maxSegments draw
  segmentCount := config.minSegments

/-- A valid configuration is carried out, unless its thresholds or its layout are too large. -/
theorem create_of_valid (hvalid : config.validate = .ok ()) (hthreshold : config.nominalCapacity * 15 < wordLimit) :
    create schema config memory notifier clock draw = .ok (made schema config memory notifier clock draw) ∨
      create schema config memory notifier clock draw = .error (.abort .capacityOverflow) ∧
        (maxSlots < config.maxSegments ∨ Segment.maxCapacity < config.segmentCapacity) := by
  have hcapacity := (StoreConfig.validate_ok hvalid).2.2
  have hshrink : config.shrinkThreshold = .ok (config.nominalCapacity * 15 / 100) := by
    rw [StoreConfig.shrinkThreshold, if_pos hthreshold]
  by_cases hslots : maxSlots < config.maxSegments
  · refine Or.inr ⟨?_, Or.inl hslots⟩
    simp only [create, hvalid, hshrink, if_pos hslots]
    rfl
  · by_cases hlarge : Segment.maxCapacity < config.segmentCapacity
    · have hsegment : Segment.create config.segmentCapacity = .error .capacityOverflow := by
        simp [Segment.create, hcapacity, hlarge]
      refine Or.inr ⟨?_, Or.inr hlarge⟩
      simp only [create, hvalid, hshrink, if_neg hslots, hsegment]
      rfl
    · have hsegment : Segment.create config.segmentCapacity = .ok (Segment.empty config.segmentCapacity) := by
        simp [Segment.create, hcapacity, hlarge]
      refine Or.inl ?_
      simp only [create, hvalid, hshrink, if_neg hslots, hsegment]
      rfl

theorem of_create (h : create schema config memory notifier clock draw = .ok s) :
    config.validate = .ok () ∧ s = made schema config memory notifier clock draw := by
  have hvalid : config.validate = .ok () := by
    cases hv : config.validate with
    | ok _ => rfl
    | error fault =>
      simp only [create, hv] at h
      cases h
  have hthreshold : config.nominalCapacity * 15 < wordLimit := by
    by_contra hlarge
    simp only [create, hvalid, StoreConfig.shrinkThreshold, if_neg hlarge] at h
    cases h
  rcases create_of_valid hvalid hthreshold with hok | ⟨herror, -⟩
  · rw [hok] at h
    cases h
    exact ⟨hvalid, rfl⟩
  · rw [herror] at h
    cases h

/-- A store is made of segments that can be made. -/
theorem segment_of_create (h : create schema config memory notifier clock draw = .ok s) :
    Segment.create config.segmentCapacity = .ok (Segment.empty config.segmentCapacity) := by
  obtain ⟨hvalid, -⟩ := of_create h
  cases hsegment : Segment.create config.segmentCapacity with
  | ok g => rw [(Segment.of_create hsegment).2]
  | error abort =>
    exfalso
    cases hshrink : config.shrinkThreshold with
    | error abort =>
      simp only [create, hvalid, hshrink] at h
      cases h
    | ok shrink =>
      by_cases hslots : maxSlots < config.maxSegments
      · simp only [create, hvalid, hshrink, if_pos hslots] at h
        cases h
      · simp only [create, hvalid, hshrink, if_neg hslots, hsegment] at h
        cases h

theorem held_made (hs : s = made schema config memory notifier clock draw) {i : Nat} {g : Segment}
    (hi : s.segment? i = some g) : held g.slots = 0 := by
  subst hs
  rw [Placement.eq_of_populate (show occupant? _ i = some g from hi)]
  exact held_replicate

theorem records_made : (made schema config memory notifier clock draw).records = 0 := by
  refine Multiset.eq_zero_of_forall_notMem fun r hr => ?_
  obtain ⟨i, g, hi, hr⟩ := mem_records.mp hr
  rw [held_made rfl hi] at hr
  cases hr

theorem wellFormed_made (hvalid : config.validate = .ok ()) (hsteady : memory.Steady) (hsound : memory.arena.Sound) :
    (made schema config memory notifier clock draw).WellFormed := by
  obtain ⟨hmin, hmax, hcapacity⟩ := StoreConfig.validate_ok hvalid
  have hpos : 0 < config.maxSegments := by omega
  obtain ⟨i, hi⟩ := Placement.exists_populate (Segment.empty config.segmentCapacity) draw hmin hpos
  refine ⟨⟨i, _, hi⟩, hsteady, hsound, fun hj => ?_, fun hj _ hh _ => ?_, fun hj hr => ?_, ?_, ?_⟩
  · rw [Placement.eq_of_populate hj]
    exact Segment.inOrder_empty hcapacity
  · rw [held_made rfl hj] at hh
    cases hh
  · rw [held_made rfl hj] at hr
    cases hr
  · rw [records_made]
    rfl
  · rw [records_made]
    rfl

end Store

end RecordStore
