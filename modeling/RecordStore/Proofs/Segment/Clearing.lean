import RecordStore.Proofs.Counters
import RecordStore.Proofs.Releasing
import RecordStore.Proofs.Segment.Intact
import RecordStore.Segment.Teardown

/-! # Clearing a segment

All blocks of a segment are given back one after the other, and the table is made as it was at first. Releases that fail
are reported in the end and change nothing else: the blocks stay, but nobody holds them any more. -/

namespace RecordStore

open RecordStore.Action

/-- The counters without some entries that have so many bytes together. -/
def Counters.without (c : Counters) (entries bytes : Nat) (rehash? : Option Rehash) : Counters :=
  { c with bytes := c.bytes - UInt64.ofNat bytes, items := c.items - entries, rehash? }

theorem Counters.without_none (c : Counters) : c.without 0 0 c.rehash? = c := by
  have hbytes : c.bytes - UInt64.ofNat 0 = c.bytes := UInt64.sub_zero _
  rw [without, hbytes, Nat.sub_zero]

theorem Counters.without_without (c : Counters) (m n a b : Nat) (rehash? rehash?' : Option Rehash) :
    (c.without m a rehash?).without n b rehash?' = c.without (m + n) (a + b) rehash?' := by
  have hbytes : c.bytes - UInt64.ofNat a - UInt64.ofNat b = c.bytes - UInt64.ofNat (a + b) := by
    rw [UInt64.ofNat_add]
    grind
  simp only [without, hbytes, Nat.sub_sub]

namespace Segment

variable {t : State} {r : Record} {h : Handle}

/-- A state that has given some blocks back, as far as the releases did not fail, with other counters. -/
def State.drained (t : State) (hs : List Handle) (counters : Counters) : State :=
  { t with memory := t.memory.releaseAll hs, counters }

/-- The last error of some releases, after `failure?`. -/
def failureAfter (hs : List Handle) (f : Faults) (failure? : Option Error) : Option Error :=
  if Memory.refused hs f = [] then failure? else some Memory.plannedFault

theorem failureAfter_cons (h : Handle) (hs : List Handle) (f : Faults) (failure? : Option Error) :
    failureAfter (h :: hs) f failure? =
      failureAfter hs (f.pass .release) (if f.isDue .release then some Memory.plannedFault else failure?) := by
  unfold failureAfter
  rw [Memory.refused]
  cases f.isDue .release <;> simp

theorem failureAfter_append (hs hs' : List Handle) (f : Faults) (failure? : Option Error) :
    failureAfter (hs ++ hs') f failure? = failureAfter hs' (f.passes .release hs.length) (failureAfter hs f failure?) := by
  unfold failureAfter
  rw [Memory.refused_append]
  by_cases hgranted : Memory.refused hs f = [] <;> simp [hgranted]

/-- A record that is discarded is no longer counted, whether its block could be released or not. -/
theorem discard_runs (hm : t.memory.Legible) (hr : t.memory.arena.record? h = some r) (hpos : 0 < t.counters.items) :
    ∃ rehash?, discard h t = .ok (if t.memory.faults.isDue .release then some Memory.plannedFault else none)
      (t.drained [h] (t.counters.without 1 r.size rehash?)) := by
  obtain ⟨b, hb, -⟩ := Option.bind_eq_some_iff.mp hr
  obtain ⟨rehash?, hremoved⟩ := Counters.entryRemoved_ok r.size hpos
  have hsize := attempt_ok (onMemory_read (Record.sizeAt_ok hm hr))
  have hcount : onCounters (Counters.entryRemoved r.size) (t.drained [h] t.counters) =
      .ok () (t.drained [h] (t.counters.without 1 r.size rehash?)) := onCounters_ok hremoved
  have hrelease := Memory.release_runs hb
  refine ⟨rehash?, ?_⟩
  cases hdue : t.memory.faults.isDue .release with
  | true =>
    rw [hdue, if_pos rfl] at hrelease
    have hfailed := attempt_error (onMemory_error hrelease)
    simp only [discard, bind_ok hsize, bind_ok hfailed]
    exact bind_ok hcount
  | false =>
    rw [hdue, if_neg Bool.false_ne_true] at hrelease
    have hfreed := attempt_ok (onMemory_ok hrelease)
    simp only [discard, bind_ok hsize, bind_ok hfreed]
    exact bind_ok hcount

/-- Every one of the records is discarded, whatever became of those before it. -/
theorem discardAll_runs (hs : List Handle) (failure? : Option Error) (hm : t.memory.Legible) (hnodup : hs.Nodup)
    (hstored : ∀ h ∈ hs, ∃ r, t.memory.arena.record? h = some r) (hitems : hs.length ≤ t.counters.items) :
    ∃ rehash?, discardAll hs failure? t = .ok (failureAfter hs t.memory.faults failure?)
      (t.drained hs (t.counters.without hs.length (weight (t.memory.arena.records ↑hs)) rehash?)) := by
  induction hs generalizing t failure? with
  | nil =>
    have hnone := congrArg (t.drained []) t.counters.without_none
    exact ⟨t.counters.rehash?, congrArg (EStateM.Result.ok failure?) hnone.symm⟩
  | cons h hs ih =>
    obtain ⟨r, hr⟩ := hstored h List.mem_cons_self
    rw [List.length_cons] at hitems
    rw [List.nodup_cons] at hnodup
    obtain ⟨rehash?, hrun⟩ := discard_runs hm hr (Nat.zero_lt_of_lt hitems)
    have hothers : ∀ g ∈ hs, (t.memory.releaseAll [h]).arena.record? g = t.memory.arena.record? g := by
      intro g hg
      refine Arena.record?_congr ?_
      rw [show t.memory.releaseAll [h] = final (Memory.release h) t.memory from rfl,
        (Memory.becomes_final_release t.memory h).block?]
      split
      · rfl
      · exact Function.update_of_ne (ne_of_mem_of_not_mem hg hnodup.1) ..
    let t₁ := t.drained [h] (t.counters.without 1 r.size rehash?)
    obtain ⟨rehash?', hrest⟩ := ih (t := t₁) (if t.memory.faults.isDue .release then some Memory.plannedFault else failure?)
      (Memory.legible_releaseAll hm [h]) hnodup.2
      (fun g hg => by
        obtain ⟨r', hr'⟩ := hstored g (List.mem_cons_of_mem h hg)
        exact ⟨r', (hothers g hg).trans hr'⟩)
      (Nat.le_sub_one_of_lt hitems)
    have hdiscarded : discardAll (h :: hs) failure? t =
        discardAll hs (if t.memory.faults.isDue .release then some Memory.plannedFault else failure?) t₁ := by
      simp only [discardAll, bind_ok hrun]
      cases t.memory.faults.isDue .release <;> rfl
    have hfaults : t₁.memory.faults = t.memory.faults.pass .release := Memory.faults_final_release t.memory h
    have hcounters : t₁.counters.without hs.length (weight (t₁.memory.arena.records ↑hs)) rehash?' =
        t.counters.without (h :: hs).length (weight (t.memory.arena.records ↑(h :: hs))) rehash?' := by
      rw [show t₁.counters = t.counters.without 1 r.size rehash? from rfl, Counters.without_without,
        show t₁.memory.arena.records ↑hs = t.memory.arena.records ↑hs from Arena.records_congr hothers,
        ← Multiset.cons_coe, Arena.records_cons hr, weight_cons, List.length_cons, Nat.add_comm 1]
    refine ⟨rehash?', ?_⟩
    rw [hdiscarded, hrest, hcounters, hfaults, ← failureAfter_cons]
    rfl

/-- A state whose segment has been emptied. -/
def State.emptied (t : State) (rehash? : Option Rehash) : State :=
  { t.drained t.segment.handles (t.counters.without t.records.card (weight t.records) rehash?) with
    segment := empty t.segment.minCapacity }

/-- Tearing a segment down empties it. It fails if a release does. -/
theorem destroy_runs (ht : t.Orderly) : ∃ rehash?, destroy t =
    if Memory.refused t.segment.handles t.memory.faults = [] then .ok () (t.emptied rehash?)
    else .error (.error Memory.plannedFault) (t.emptied rehash?) := by
  have hwell := ht.wellFormed
  have hhandles : currentHandles t = .ok t.segment.handles t := rfl
  have hlength : t.segment.handles.length = t.records.card := by
    have hcount := hwell.table.card_records
    rw [hwell.table.counted] at hcount
    exact hcount.symm
  obtain ⟨rehash?, hrun⟩ := discardAll_runs t.segment.handles none ht.legible
    (Multiset.coe_nodup.mp hwell.table.chained.nodup)
    (fun h hh => by
      obtain ⟨r, hr, -⟩ := ht.record? (Multiset.mem_coe.mp hh)
      exact ⟨r, hr⟩)
    (hlength ▸ hwell.backed)
  rw [hlength, failureAfter] at hrun
  refine ⟨rehash?, ?_⟩
  by_cases hgranted : Memory.refused t.segment.handles t.memory.faults = []
  · rw [if_pos hgranted] at hrun
    simp only [destroy, bind_ok hhandles, bind_ok hrun, if_pos hgranted]
    rfl
  · rw [if_neg hgranted] at hrun
    simp only [destroy, bind_ok hhandles, bind_ok hrun, if_neg hgranted]
    rfl

/-- However it ends, the segment is empty. -/
theorem final_destroy (ht : t.Orderly) : ∃ rehash?, final destroy t = t.emptied rehash? := by
  obtain ⟨rehash?, hrun⟩ := destroy_runs ht
  refine ⟨rehash?, ?_⟩
  split at hrun
  · exact final_ok hrun
  · exact final_error hrun

theorem emptied_alters (ht : t.Orderly) (rehash? : Option Rehash) :
    Alters (t.replan .never) ((t.emptied rehash?).replan .never) 0 := by
  have hwell := ht.wellFormed
  have hnodup : t.segment.handles.Nodup := Multiset.coe_nodup.mp hwell.table.chained.nodup
  have hbecomes := Memory.becomes_releaseAll t.memory hnodup
  have hempty : held (empty t.segment.minCapacity).slots = 0 := held_replicate
  have hnone : (t.emptied rehash?).records = 0 := by
    rw [State.records, show (t.emptied rehash?).segment = empty t.segment.minCapacity from rfl, hempty]
    rfl
  have hbacked : t.records.card ≤ t.counters.items := hwell.backed
  refine ⟨⟨⟨inOrder_empty hwell.table.made, ⟨rfl, rfl, rfl⟩, hbecomes.sound hwell.sound⟩, ?_⟩, fun h hh _ => ⟨?_, ?_⟩,
    hnone, ?_, ?_⟩
  · show (t.emptied rehash?).records.card ≤ _
    rw [hnone]
    exact Nat.zero_le _
  · show h ∉ held (empty t.segment.minCapacity).slots
    rw [hempty]
    exact Multiset.notMem_zero h
  · show (t.memory.releaseAll t.segment.handles).arena.block? h = _
    rw [hbecomes.block?]
    exact if_neg fun hmem => hh (Multiset.mem_coe.mpr hmem.1)
  · exact Nat.sub_add_cancel hbacked
  · show t.counters.bytes - UInt64.ofNat (weight t.records) + UInt64.ofNat (weight t.records) = t.counters.bytes + 0
    rw [UInt64.sub_add_cancel, UInt64.add_zero]

/-- Where no release fails, tearing a segment down succeeds and leaves it without records. -/
theorem destroy_ok (ht : t.WellFormed) : ∃ u, destroy t = .ok () u ∧ Leads t u 0 ∧ u.segment = empty t.segment.minCapacity := by
  obtain ⟨rehash?, hrun⟩ := destroy_runs ht.orderly
  have hgranted := Memory.refused_unplanned ht.steady.release t.segment.handles
  rw [if_pos hgranted] at hrun
  refine ⟨_, hrun, ?_, rfl⟩
  have halters := emptied_alters ht.orderly rehash?
  have hnodup : t.segment.handles.Nodup := Multiset.coe_nodup.mp ht.table.chained.nodup
  have hbecomes := Memory.becomes_releaseAll t.memory hnodup
  have hfaults : (t.emptied rehash?).memory.faults = t.memory.faults :=
    (Memory.faults_releaseAll _ _).trans (Faults.passes_unplanned (c := .release) ht.steady.release _)
  have hkeeps : Keeps (t.replan .never) ((t.emptied rehash?).replan .never) := by
    refine Keeps.of_blocks rfl hbecomes.limit? rfl rfl rfl id id (fun h hh => ?_) (fun h hh _ => ?_) fun h hh _ => ?_
    · exact absurd (held_replicate ▸ hh) (Multiset.notMem_zero h)
    · refine (congrFun hbecomes.block? h).trans (if_pos ⟨Multiset.mem_coe.mp hh, ?_⟩)
      rw [hgranted]
      exact List.not_mem_nil
    · exact (congrFun hbecomes.block? h).trans (if_neg fun hmem => hh (Multiset.mem_coe.mpr hmem.1))
  refine Leads.of_replan ⟨halters.wellFormed, hkeeps, halters.records, halters.items, halters.bytes⟩ ?_ hfaults.trans
  show (t.emptied rehash?).memory.faults.OnlyRoom
  rw [hfaults]
  exact ht.steady

end Segment

end RecordStore
