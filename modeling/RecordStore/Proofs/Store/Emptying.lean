import RecordStore.Proofs.Segment.MadeWith
import RecordStore.Proofs.Store.Accounts
import RecordStore.Proofs.Store.EvictionSequences

/-! # Emptying a store

A store keeps its segments in their slots, and each of them the number of slots that it was made with. When the store is
torn down, the segments are emptied in turn. A release that fails is reported in the end, and holds up nothing: every
slot of every segment is visited, and only the blocks whose release failed stay. -/

namespace RecordStore

theorem ext_occupant? {α : Type} {slots slots' : Array (Option α)} (hsize : slots.size = slots'.size)
    (h : ∀ i, occupant? slots i = occupant? slots' i) : slots = slots' := by
  refine Array.ext hsize fun i hi hi' => ?_
  rw [← occupant?_eq_getElem hi, ← occupant?_eq_getElem hi', h]

/-- The segments in slot order are those of the occupied slots. -/
theorem Placement.filterMap_occupied (slots : Slots) :
    (occupied slots).filterMap (occupant? slots) = slots.toList.filterMap id := by
  have hall : slots.toList = (List.range slots.size).map (occupant? slots) := by
    refine List.ext_getElem (by simp) fun i hi hi' => ?_
    rw [Array.length_toList] at hi
    rw [List.getElem_map, List.getElem_range, occupant?_eq_getElem hi, Array.getElem_toList]
  rw [hall, List.filterMap_map, occupied, List.filterMap_filter]
  refine List.filterMap_congr fun i _ => ?_
  unfold isTaken
  rw [Function.comp_apply, id_eq, occupant?]
  cases slots[i]?.join <;> rfl

namespace Store

open RecordStore.Action
open Segment (Moored)

variable {α : Type} {s s' s'' : Store} {g : Segment} {i : Nat} {is : List Nat}

/-! ### The layout -/

/-- The segments are in the same slots, they were made with as many slots of their own, and what is counted is held
    against the same limits. -/
structure Anchored (s s' : Store) : Prop where
  schema : s'.schema = s.schema
  segmentCount : s'.segmentCount = s.segmentCount
  terms : s'.counters.terms = s.counters.terms
  size : s'.slots.size = s.slots.size
  segment? : ∀ i, (s'.segment? i).map Segment.minCapacity = (s.segment? i).map Segment.minCapacity

instance : IsPreorder Store Anchored where
  refl _ := ⟨rfl, rfl, rfl, rfl, fun _ => rfl⟩
  trans _ _ _ h₁ h₂ := ⟨h₂.schema.trans h₁.schema, h₂.segmentCount.trans h₁.segmentCount, h₂.terms.trans h₁.terms,
    h₂.size.trans h₁.size, fun i => (h₂.segment? i).trans (h₁.segment? i)⟩

theorem anchored_onSegment {x : Segment.Op α} (hx : Moves Moored x) (i : Nat) : Moves Anchored (onSegment i x) := by
  refine moves_onSegment hx fun {s g u} hi hu => ⟨rfl, rfl, hu.terms, Array.size_setIfInBounds, fun j => ?_⟩
  rw [segment?_update hi]
  split
  · rename_i hji
    rw [hji, hi]
    exact congrArg some hu.minCapacity
  · rfl

theorem bears_anchored : Bears Anchored where
  tally _ _ _ _ := ⟨rfl, rfl, rfl, rfl, fun _ => rfl⟩
  clock _ _ := ⟨rfl, rfl, rfl, rfl, fun _ => rfl⟩
  contains k := anchored_onSegment (Segment.moored_contains k)
  getRecord? k := anchored_onSegment (Segment.moored_getRecord? k)
  get? k := anchored_onSegment (Segment.moored_get? k)
  remove k := anchored_onSegment (Segment.moored_remove k)
  matching tm := anchored_onSegment (Segment.moored_matching tm)
  evictExpired := anchored_onSegment Segment.moored_evictExpired
  destroy := anchored_onSegment Segment.moored_destroy

theorem anchored_answer (s : Store) (q : Request) : Anchored s (answer q s).2 := by
  refine bears_anchored.answer fun payload ttl _ => ?_
  have hcount := bears_anchored.tally s s.gets (s.puts + 1) s.removes
  rcases put_runs s payload ttl with ⟨e, hrun⟩ | ⟨k, i, g, -, -, -, hrun⟩
  · rw [final_error hrun]
    exact hcount
  · rw [final, hrun]
    exact IsTrans.trans _ _ _ hcount (anchored_onSegment (Segment.moored_put k _) i _)

theorem anchored_run (s : Store) (requests : List Request) : Anchored s (run requests s).2 := by
  induction requests generalizing s with
  | nil => exact refl s
  | cons q requests ih => exact IsTrans.trans _ _ _ (anchored_answer s q) (ih (answer q s).2)

/-! ### One segment after the other -/

/-- The handles in the segments of some slots. -/
def handlesIn (s : Store) (is : List Nat) : List Handle := (is.filterMap s.segment?).flatMap Segment.handles

theorem handlesIn_occupied (s : Store) : s.handlesIn (Placement.occupied s.slots) = s.handles :=
  congrArg (·.flatMap Segment.handles) (Placement.filterMap_occupied s.slots)

theorem handlesIn_cons (hi : s.segment? i = some g) (is : List Nat) :
    s.handlesIn (i :: is) = g.handles ++ s.handlesIn is := by
  rw [handlesIn, List.filterMap_cons_some hi, List.flatMap_cons, handlesIn]

theorem handlesIn_singleton (hi : s.segment? i = some g) : s.handlesIn [i] = g.handles :=
  (handlesIn_cons hi []).trans (List.append_nil _)

/-- From `s` to `s'` the segments of some slots were emptied, and their blocks given back as far as the releases did not
    fail. -/
structure Emptied (is : List Nat) (s s' : Store) : Prop where
  orderly : s'.Orderly
  memory : s'.memory = s.memory.releaseAll (s.handlesIn is)
  segment? : ∀ j, s'.segment? j =
    if j ∈ is then (s.segment? j).map fun g => Segment.empty g.minCapacity else s.segment? j
  /-- Only what is counted of the entries has changed besides. -/
  same : ∃ items bytes rehash?, s' = { s with
    memory := s'.memory, slots := s'.slots, counters := { s.counters with items, bytes, rehash? } }

namespace Emptied

theorem refl (hs : s.Orderly) : Emptied [] s s :=
  ⟨hs, rfl, fun _ => rfl, s.counters.items, s.counters.bytes, s.counters.rehash?, rfl⟩

theorem notifier (h : Emptied is s s') : s'.notifier = s.notifier := by
  obtain ⟨items, bytes, rehash?, hs'⟩ := h.same
  rw [hs']

theorem expired (h : Emptied is s s') : s'.counters.expired = s.counters.expired := by
  obtain ⟨items, bytes, rehash?, hs'⟩ := h.same
  rw [hs']

theorem segment?_of_notMem {j : Nat} (h : Emptied is s s') (hj : j ∉ is) : s'.segment? j = s.segment? j := by
  rw [h.segment?, if_neg hj]

/-- The segments in other slots have the same handles still. -/
theorem handlesIn_eq {js : List Nat} (h : Emptied is s s') (hjs : ∀ j ∈ js, j ∉ is) :
    s'.handlesIn js = s.handlesIn js :=
  congrArg (·.flatMap Segment.handles) (List.filterMap_congr fun j hj => h.segment?_of_notMem (hjs j hj))

theorem cons (h : Emptied [i] s s') (h' : Emptied is s' s'') (hi : s.segment? i = some g) (hnot : i ∉ is) :
    Emptied (i :: is) s s'' := by
  have hapart : ∀ j ∈ is, j ∉ [i] := fun j hj hji => hnot (List.mem_singleton.mp hji ▸ hj)
  refine ⟨h'.orderly, ?_, fun j => ?_, ?_⟩
  · rw [h'.memory, h.memory, h.handlesIn_eq hapart, handlesIn_singleton hi, handlesIn_cons hi,
      Memory.releaseAll_append]
  · rw [h'.segment?]
    by_cases hj : j ∈ is
    · rw [if_pos hj, if_pos (List.mem_cons_of_mem i hj), h.segment?_of_notMem (hapart j hj)]
    · simp only [h.segment?, hj, List.mem_cons, List.not_mem_nil, or_false, if_false]
  · obtain ⟨items, bytes, rehash?, hs'⟩ := h.same
    obtain ⟨items', bytes', rehash?', hs''⟩ := h'.same
    refine ⟨items', bytes', rehash?', hs''.trans ?_⟩
    rw [hs']

end Emptied

/-- One segment is emptied, and what it reports is whether all its releases succeeded. -/
theorem onSegment_destroy (hs : s.Orderly) (hi : s.segment? i = some g) :
    Emptied [i] s (final (onSegment i Segment.destroy) s) ∧
      attempt (onSegment i Segment.destroy) s =
        .ok (if Memory.refused g.handles s.memory.faults = [] then .ok () else .error Memory.plannedFault)
          (final (onSegment i Segment.destroy) s) := by
  obtain ⟨rehash?, hrun⟩ := Segment.destroy_runs (hs.part hi)
  have hfinal : final (onSegment i Segment.destroy) s = s.update i ((s.part g).emptied rehash?) := by
    rw [final_onSegment _ hi]
    split at hrun
    · rw [final_ok hrun]
    · rw [final_error hrun]
  rw [hfinal]
  refine ⟨⟨?_, ?_, fun j => ?_, ?_⟩, ?_⟩
  · rw [← hfinal]
    exact bears_stays.destroy i s hs
  · rw [handlesIn_singleton hi]
    rfl
  · rw [segment?_update hi]
    by_cases hji : j = i
    · rw [if_pos hji, if_pos (List.mem_singleton.mpr hji), hji, hi]
      rfl
    · rw [if_neg hji, if_neg (fun hmem => hji (List.mem_singleton.mp hmem))]
  · exact ⟨_, _, _, rfl⟩
  · by_cases hgranted : Memory.refused g.handles s.memory.faults = []
    · rw [if_pos hgranted]
      exact attempt_ok (onSegment_ok hi (hrun.trans (if_pos hgranted)))
    · rw [if_neg hgranted]
      exact attempt_error (onSegment_error hi (hrun.trans (if_neg hgranted)))

/-- Every one of the segments is emptied, whatever became of those before it. -/
theorem destroyIn_runs (hs : s.Orderly) (failure? : Option Error) (hnodup : is.Nodup)
    (hoccupied : ∀ i ∈ is, (s.segment? i).isSome) :
    ∃ s', destroyIn is failure? s = .ok (Segment.failureAfter (s.handlesIn is) s.memory.faults failure?) s' ∧
      Emptied is s s' := by
  induction is generalizing s failure? with
  | nil => exact ⟨s, rfl, Emptied.refl hs⟩
  | cons i is ih =>
    rw [List.nodup_cons] at hnodup
    obtain ⟨g, hi⟩ := Option.isSome_iff_exists.mp (hoccupied i List.mem_cons_self)
    obtain ⟨hfirst, hrun⟩ := onSegment_destroy hs hi
    let s₁ := final (onSegment i Segment.destroy) s
    have hapart : ∀ j ∈ is, j ∉ [i] := fun j hj hji => hnodup.1 (List.mem_singleton.mp hji ▸ hj)
    obtain ⟨s', hrest, hemptied⟩ := ih hfirst.orderly (Segment.failureAfter g.handles s.memory.faults failure?) hnodup.2
      fun j hj => by
        rw [hfirst.segment?_of_notMem (hapart j hj)]
        exact hoccupied j (List.mem_cons_of_mem i hj)
    refine ⟨s', ?_, hfirst.cons hemptied hi hnodup.1⟩
    have hfaults : s₁.memory.faults = s.memory.faults.passes .release g.handles.length := by
      rw [hfirst.memory, handlesIn_singleton hi, Memory.faults_releaseAll]
    rw [handlesIn_cons hi, Segment.failureAfter_append, ← hfaults, ← hfirst.handlesIn_eq hapart, ← hrest]
    unfold Segment.failureAfter
    simp only [destroyIn, bind_ok hrun]
    split <;> rfl

/-- Tearing a store down empties all of its segments. It fails if a release does. -/
theorem destroy_runs (hs : s.Orderly) : ∃ s', Emptied (Placement.occupied s.slots) s s' ∧
    destroy s = if Memory.refused s.handles s.memory.faults = [] then .ok () s'
      else .error (.error Memory.plannedFault) s' := by
  have hnodup : (Placement.occupied s.slots).Nodup := List.nodup_range.filter _
  have hslots : occupiedSlots s = .ok (Placement.occupied s.slots) s := rfl
  obtain ⟨s', hrun, hemptied⟩ := destroyIn_runs hs none hnodup fun i hi => occupied_segment hi
  rw [handlesIn_occupied, Segment.failureAfter] at hrun
  refine ⟨s', hemptied, ?_⟩
  by_cases hgranted : Memory.refused s.handles s.memory.faults = []
  · rw [if_pos hgranted] at hrun
    simp only [destroy, bind_ok hslots, bind_ok hrun, if_pos hgranted, pure_run]
  · rw [if_neg hgranted] at hrun
    simp only [destroy, bind_ok hslots, bind_ok hrun, if_neg hgranted]
    rfl

/-! ### All segments -/

namespace Emptied

variable (h : Emptied (Placement.occupied s.slots) s s')
include h

theorem segment?_eq (j : Nat) : s'.segment? j = (s.segment? j).map fun g => Segment.empty g.minCapacity := by
  rw [h.segment?]
  split
  · rfl
  · rename_i hfree
    cases hj : s.segment? j with
    | none => rfl
    | some g =>
      refine absurd (List.mem_filter.mpr ⟨List.mem_range.mpr (lt_of_occupant? hj), ?_⟩) hfree
      exact congrArg Option.isSome hj

theorem records_eq : s'.records = 0 := by
  refine Multiset.eq_zero_of_forall_notMem fun r hr => ?_
  obtain ⟨i, g, hi, hr⟩ := mem_records.mp hr
  rw [h.segment?_eq] at hi
  obtain ⟨g₀, -, rfl⟩ := Option.map_eq_some_iff.mp hi
  have hheld : r.handle ∈ held (Segment.empty g₀.minCapacity).slots := (Arena.mem_records.mp hr).1
  rw [show held (Segment.empty g₀.minCapacity).slots = 0 from held_replicate] at hheld
  exact Multiset.notMem_zero _ hheld

theorem size_eq : s'.size = 0 := by
  have hitems : s'.size = s'.records.card := h.orderly.wellFormed.items
  rw [hitems, h.records_eq, Multiset.card_zero]

theorem bytesUsed_eq : s'.bytesUsed = 0 := by
  have hbytes : s'.bytesUsed = UInt64.ofNat (weight s'.records) := h.orderly.wellFormed.bytes
  rw [hbytes, h.records_eq]
  rfl

theorem memory_eq : s'.memory = s.memory.releaseAll s.handles := by
  rw [h.memory, handlesIn_occupied]

section Blocks
variable {b : Handle} (hs : s.Orderly)
include hs

theorem limit?_eq : s'.memory.arena.limit? = s.memory.arena.limit? := by
  rw [h.memory_eq]
  exact (Memory.becomes_releaseAll s.memory (nodup_handles (s := s.withFaults .never) hs.wellFormed)).limit?

/-- Of the blocks of the store those stay whose release failed. -/
theorem isSome_iff (hb : b ∈ s.handles) :
    (s'.memory.arena.block? b).isSome ↔ b ∈ Memory.refused s.handles s.memory.faults := by
  obtain ⟨i, g, hi, hheld⟩ := mem_handles.mp hb
  obtain ⟨r, hr, -⟩ := (hs.part hi).record? hheld
  obtain ⟨block, hblock, -⟩ := Option.bind_eq_some_iff.mp hr
  have hlive : (s.memory.arena.block? b).isSome := Option.isSome_of_eq_some hblock
  rw [h.memory_eq]
  exact Memory.isSome_releaseAll (nodup_handles (s := s.withFaults .never) hs.wellFormed) hb hlive

theorem block?_of_notMem (hb : b ∉ s.handles) : s'.memory.arena.block? b = s.memory.arena.block? b := by
  rw [h.memory_eq]
  exact Memory.block?_releaseAll_of_notMem (nodup_handles (s := s.withFaults .never) hs.wellFormed) hb

/-- A store that has its arena for itself leaves no other blocks than those. -/
theorem isSome_iff_of_owns (howns : s.Owns) (b : Handle) :
    (s'.memory.arena.block? b).isSome ↔ b ∈ Memory.refused s.handles s.memory.faults := by
  by_cases hb : b ∈ s.handles
  · exact h.isSome_iff hs hb
  · have hdead : s.memory.arena.block? b = none := by
      by_contra hlive
      exact hb (mem_handles.mpr (howns b hlive))
    rw [h.block?_of_notMem hs hb, hdead]
    exact iff_of_false Bool.false_ne_true fun hrefused => hb (Memory.refused_subset _ _ hrefused)

end Blocks

end Emptied

end Store

end RecordStore
