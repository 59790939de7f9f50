import RecordStore.Proofs.Counters
import RecordStore.Proofs.Segment.Resizing
import RecordStore.Segment.Entries

/-! # Removing records

A removal gives the block of a record back, empties its slot and closes the gap. The other records stay. -/

namespace RecordStore.Segment

variable {t : State} {r : Record} {k : Value} {h : Handle} {i : Nat}

/-- The state after a record has lost its block and its slot, with the rest laid out in order. -/
def State.without (t : State) (arena : Arena) (counters : Counters) (slots : Slots) : State :=
  { t with
    memory := { t.memory with arena }
    counters
    segment := { t.segment with slots, count := t.segment.count - 1 } }

theorem without_ok {a : Arena} {c : Counters} {slots : Slots} {hs : Multiset Handle} (ht : t.Intact)
    (hbecomes : t.memory.arena.Becomes a (Function.update t.memory.arena.block? h none))
    (hheld : held t.segment.slots = h ::ₘ hs) (hnot : h ∉ hs) (hheld' : held slots = hs)
    (hsize : slots.size = t.segment.slots.size) (hchained : Chained a.key? slots)
    (hitems : c.maxItems? = t.counters.maxItems?) (hbytes : c.maxBytes? = t.counters.maxBytes?) :
    (t.without a c slots).Intact ∧ Keeps t (t.without a c slots) ∧
      (t.without a c slots).records = t.memory.arena.records hs := by
  have hlive : ∀ g ∈ hs, a.block? g = t.memory.arena.block? g := by
    intro g hg
    rw [hbecomes.block?, Function.update_of_ne (ne_of_mem_of_not_mem hg hnot)]
  refine ⟨⟨⟨ht.table.made, ?_, ?_, ?_, ?_, hchained⟩, ht.steady, hbecomes.sound ht.sound⟩, ?_, ?_⟩
  · obtain ⟨e, he⟩ := ht.table.doubled
    exact ⟨e, hsize.trans he⟩
  · have hroomy := ht.table.roomy
    show 2 * (t.segment.count - 1) ≤ slots.size
    omega
  · rw [State.without, hheld', ht.table.counted, hheld, Multiset.card_cons, Nat.add_sub_cancel]
  · intro g hg
    rw [State.without, hheld'] at hg
    obtain ⟨r', rfl, hr'⟩ := ht.table.stored g (hheld ▸ Multiset.mem_cons_of_mem hg)
    exact ⟨r', rfl, hr'.congr (hlive _ hg)⟩
  · refine Keeps.of_blocks rfl hbecomes.limit? hitems hbytes rfl id id ?_ ?_ ?_
    · intro g hg hnot
      rw [State.without, hheld'] at hg
      rw [hheld, Multiset.mem_cons, not_or] at hnot
      exact absurd hg hnot.2
    · intro g hg hnot
      rw [State.without, hheld'] at hnot
      rw [hheld, Multiset.mem_cons] at hg
      rw [State.without, hbecomes.block?, hg.resolve_right hnot, Function.update_self]
    · intro g hg _
      rw [hheld, Multiset.mem_cons, not_or] at hg
      rw [State.without, hbecomes.block?, Function.update_of_ne hg.1]
  · rw [State.records, State.without, hheld']
    exact Arena.records_congr fun g hg => Arena.record?_congr (hlive g hg)

/-- A removal is refused the release of the block, and nothing has changed then, or it is carried out. -/
theorem removeAt_cases (ht : t.Orderly) (hi : occupant? t.segment.slots i = some h)
    (hr : t.memory.arena.record? h = some r) (hk : r.key? = some k) :
    (t.memory.faults.isDue .release = true ∧
      removeAt i h t = .error (.error Memory.plannedFault) { t with memory := t.memory.passed .release }) ∨
    (t.memory.faults.isDue .release = false ∧ ∃ u, removeAt i h t = .ok (r.size, r.ttl) u ∧
      Leads (t.replan .never) (u.replan .never) (t.records.filter (·.key? ≠ some k)) ∧
      u.memory.faults = t.memory.faults.pass .release ∧ u.notifier = t.notifier ∧
      Memory.release h t.memory = .ok () u.memory) := by
  have hwell := ht.wellFormed
  have hsize := onMemory_read (Record.sizeAt_ok ht.legible hr)
  have hlifetime := onMemory_read (Record.ttlAt_ok ht.legible hr)
  obtain ⟨b, hb, -⟩ := Option.bind_eq_some_iff.mp hr
  rcases Memory.release_cases hb with ⟨hdue, hrelease⟩ | ⟨hdue, a, hrelease, hbecomes⟩
  · refine Or.inl ⟨hdue, ?_⟩
    simp only [removeAt, Action.bind_ok hsize, Action.bind_ok hlifetime, Action.bind_error (onMemory_error hrelease)]
  refine Or.inr ⟨hdue, ?_⟩
  obtain ⟨hs, hheld, hnot⟩ := hwell.table.others hi
  obtain ⟨hall, -⟩ := hwell.records_eq hi hr hk
  have hpos : 0 < t.counters.items := by
    have hbacked := hwell.backed
    rw [hall, Multiset.card_cons] at hbacked
    have : t.counters.items = (t.replan .never).counters.items := rfl
    omega
  obtain ⟨rehash?, hremoved⟩ := Counters.entryRemoved_ok r.size hpos
  -- The gap is closed in the table without the handle, whose block can no longer be read.
  have hclear : held (t.segment.slots.setIfInBounds i none) = hs := held_cleared hi hheld
  obtain ⟨f, hf, hfree⟩ := hwell.table.exists_free
  obtain ⟨e, he⟩ := Cyclic.exists_find? (lt_of_occupant? hi) hf (isFree_eq_true_iff.mpr hfree)
  have hkeys : ∀ g ∈ held (t.segment.slots.setIfInBounds i none), a.key? g = t.memory.arena.key? g := by
    intro g hg
    rw [hclear] at hg
    refine Arena.key?_congr (Arena.record?_congr ?_)
    rw [hbecomes.block?, Function.update_of_ne (ne_of_mem_of_not_mem hg hnot)]
  have hset : (t.segment.slots.setIfInBounds i none).size = t.segment.slots.size := Array.size_setIfInBounds ..
  have hsweeping : Sweeping a.key? (t.segment.slots.setIfInBounds i none) i ((i + 1) % t.segment.slots.size) e :=
    (hwell.table.chained.sweeping hi he).congr hkeys
  rw [← hset] at hsweeping
  let c : Counters := { t.counters with
    bytes := t.counters.bytes - UInt64.ofNat r.size, items := t.counters.items - 1, rehash? }
  let t₁ := t.replan (t.memory.faults.pass .release)
  have hlegible : t₁.memory.Legible := (t.memory.faults.gaps_pass (d := .read) (by decide)).trans ht.legible
  obtain ⟨slots, hshift, hsize', hchained, hheld', -⟩ := backShift_ok
    (t := t₁.without a c (t.segment.slots.setIfInBounds i none)) (readable_key? hlegible) hsweeping
  obtain ⟨hintact, hkeeps, hrecords⟩ := without_ok (c := c) hwell.toIntact hbecomes hheld hnot
    (hheld'.trans hclear) (hsize'.trans hset) hchained rfl rfl
  obtain ⟨slots', hshrunk, hheld'', hshrink⟩ := shrink_ok (t := t₁.without a c slots) hintact.table hlegible
  refine ⟨(t₁.without a c slots).withSlots slots', ?_,
    Leads.of_intact hwell ⟨hshrunk, hintact.steady, hintact.sound⟩ ?_ ?_ ?_ ?_, rfl, rfl, hrelease⟩
  · simp only [removeAt, Action.bind_ok hsize, Action.bind_ok hlifetime, Action.bind_ok (onMemory_ok hrelease)]
    have hempty : modifySegment (fun s => { s.setSlot i none with count := s.count - 1 })
        { t with memory := ⟨a, t.memory.faults.pass .release⟩ } =
        .ok () (t₁.without a t.counters (t.segment.slots.setIfInBounds i none)) := rfl
    have hcount : onCounters (Counters.entryRemoved r.size)
        (t₁.without a t.counters (t.segment.slots.setIfInBounds i none)) =
        .ok () (t₁.without a c (t.segment.slots.setIfInBounds i none)) := onCounters_ok hremoved
    rw [Action.bind_ok hempty, Action.bind_ok hcount, Action.bind_ok hshift]
    exact hshrink _
  · exact hkeeps.trans (Keeps.withSlots hheld'')
  · exact (records_withSlots hheld'').trans
      (hrecords.trans (hwell.table.records_of_occupant hi hheld hr hk).1)
  · show t.counters.items - 1 + (t.replan .never).records.card = _
    conv_lhs => rw [hall]
    rw [Multiset.card_cons]
    show t.counters.items - 1 + ((t.records.filter _).card + 1) = t.counters.items + _
    omega
  · show t.counters.bytes - UInt64.ofNat r.size + UInt64.ofNat (weight (t.replan .never).records) = _
    conv_lhs => rw [hall]
    rw [weight_cons, UInt64.ofNat_add, ← UInt64.add_assoc, UInt64.sub_add_cancel]
    rfl

theorem removeAt_ok (ht : t.WellFormed) (hi : occupant? t.segment.slots i = some h)
    (hr : t.memory.arena.record? h = some r) (hk : r.key? = some k) :
    ∃ u, removeAt i h t = .ok (r.size, r.ttl) u ∧ Leads t u (t.records.filter (·.key? ≠ some k)) ∧
      u.notifier = t.notifier := by
  have hpass : t.memory.faults.pass .release = t.memory.faults := by
    simp only [Faults.pass, Faults.gaps, ht.steady.release]
  rcases removeAt_cases ht.orderly hi hr hk with ⟨hdue, -⟩ | ⟨-, u, hrun, hleads, hfaults, hnotifier, -⟩
  · simp only [Faults.isDue, Faults.gaps, ht.steady.release] at hdue
    cases hdue
  · rw [hpass] at hfaults
    refine ⟨u, hrun, hleads.of_replan ?_ (fun hnever => hfaults.trans hnever), hnotifier⟩
    show u.memory.faults.OnlyRoom
    rw [hfaults]
    exact ht.steady

/-- A removal answers the bytes of the record with the key, and leaves the others. -/
theorem remove_ok (ht : t.WellFormed) (k : Value) :
    ∃ u, remove k t = .ok (weight (t.records.filter (·.key? = some k))) u ∧
      Leads t u (t.records.filter (·.key? ≠ some k)) := by
  rcases ht.probe_cases k with ⟨i, h, r, hprobe, hi, hr, hk⟩ | ⟨i, hprobe, -, hnew⟩
  · obtain ⟨u, hrun, hleads, -⟩ := removeAt_ok ht hi hr hk
    refine ⟨u, ?_, hleads⟩
    rw [(ht.records_eq hi hr hk).2, weight_singleton]
    simp only [remove, Action.bind_ok hprobe, Action.bind_ok hrun, Action.pure_run]
  · refine ⟨t, ?_, ?_⟩
    · rw [Multiset.filter_eq_nil.mpr hnew]
      simp only [remove, Action.bind_ok hprobe, Action.pure_run]
      rfl
    · rw [Multiset.filter_eq_self.mpr hnew]
      exact Leads.refl ht

end RecordStore.Segment
