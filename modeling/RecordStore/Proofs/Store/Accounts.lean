import RecordStore.Proofs.Store.Making
import RecordStore.Proofs.Store.Requests

/-! # Accounts of a store

A store counts its entries and bytes, each segment counts its own, and the arena counts blocks and bytes. For a store
that has its arena for itself these accounts agree at any time, since every block lies in one slot and holds one record. -/

namespace RecordStore

theorem Arena.Holds.size {a : Arena} {r : Record} (hr : a.Holds r) : ((a.block? r.handle).map Block.size).getD 0 = r.size := by
  obtain ⟨b, hb, hbytes⟩ := hr.block
  rw [hb, Option.map_some, Option.getD_some, Block.size_eq_length, hbytes, Record.length_encode]

theorem Arena.weight_records {a : Arena} {hs : Multiset Handle} (h : ∀ h ∈ hs, ∃ r, r.handle = h ∧ a.Holds r) :
    weight (a.records hs) = (hs.map fun h => ((a.block? h).map Block.size).getD 0).sum := by
  induction hs using Multiset.induction_on with
  | empty => rfl
  | cons g hs ih =>
    obtain ⟨r, rfl, hr⟩ := h g (Multiset.mem_cons_self g hs)
    rw [Arena.records_cons hr.record?, weight_cons, Multiset.map_cons, Multiset.sum_cons, hr.size,
      ih fun g' hg' => h g' (Multiset.mem_cons_of_mem hg')]

namespace Store

variable {s : Store} {h : Handle}

/-- The segments in slot order. -/
def segments (s : Store) : List Segment := s.slots.toList.filterMap id

/-- The handles of all segments. -/
def handles (s : Store) : List Handle := s.segments.flatMap Segment.handles

theorem coe_handles (s : Store) : (s.handles : Multiset Handle) = (held s.slots).bind fun g => held g.slots :=
  (Multiset.coe_bind _ _).symm

theorem mem_handles : h ∈ s.handles ↔ ∃ i g, s.segment? i = some g ∧ h ∈ held g.slots := by
  rw [← Multiset.mem_coe, coe_handles, Multiset.mem_bind]
  constructor
  · rintro ⟨g, hg, hh⟩
    obtain ⟨i, hi⟩ := mem_held.mp hg
    exact ⟨i, g, hi, hh⟩
  · rintro ⟨i, g, hi, hh⟩
    exact ⟨g, mem_held.mpr ⟨i, hi⟩, hh⟩

/-- All accounts agree, and each block has its place. -/
structure Accounted (s : Store) : Prop where
  /-- The entries counted are those of the segments. -/
  entries : s.size = (s.segments.map Segment.count).sum
  /-- There is a live block for each. -/
  live : s.size = s.memory.arena.liveCount
  /-- The bytes counted are those of the records, sixteen for each header. -/
  bytes : s.bytesUsed = UInt64.ofNat (s.records.map fun r => 16 + r.payload.length).sum
  /-- The arena counts the same bytes. -/
  allocated : s.bytesUsed = s.memory.arena.allocatedBytes
  /-- Each slot with a handle has a record, which is all that its block holds. -/
  stored : ∀ i g j h, s.segment? i = some g → g.slot? j = some h →
    ∃ r ∈ s.records, r.handle = h ∧ s.memory.arena.Holds r
  /-- There are as many records as entries. -/
  counted : s.size = s.records.card
  /-- Each live block lies in one slot of one segment. -/
  owned : ∀ h, (s.memory.arena.block? h).isSome →
    ∃! place : Nat × Nat, ∃ g, s.segment? place.1 = some g ∧ g.slot? place.2 = some h
  /-- The blocks made and not given back are those of the entries. -/
  balance : s.memory.arena.allocations = s.memory.arena.releases + s.size

/-- Where the count of bytes has not gone round it is exact. -/
theorem Accounted.bytes_eq (ha : s.Accounted) (hfits : (s.records.map fun r => 16 + r.payload.length).sum < wordLimit) :
    s.bytesUsed.toNat = (s.records.map fun r => 16 + r.payload.length).sum := by
  rw [ha.bytes, UInt64.toNat_ofNat_of_lt' hfits]

section WellFormed
variable (hs : s.WellFormed)
include hs

theorem nodup_handles : s.handles.Nodup := by
  refine List.nodup_flatMap.mpr ⟨fun g hg => ?_, ?_⟩
  · obtain ⟨i, hi⟩ := mem_held.mp (show g ∈ held s.slots from hg)
    exact Multiset.coe_nodup.mp (hs.inOrder hi).chained.nodup
  · refine pairwise_held fun {i j g g'} hi hj hlt h hh hh' => ?_
    have hsame := hs.apart hi hj (show h ∈ held g.slots from hh) (show h ∈ held g'.slots from hh')
    omega

/-- The store owns its arena if the live blocks are those of its handles. -/
theorem mem_handles_iff (howns : s.Owns) (h : Handle) : h ∈ s.handles ↔ (s.memory.arena.block? h).isSome := by
  constructor
  · intro hh
    obtain ⟨i, g, hi, hh⟩ := mem_handles.mp hh
    obtain ⟨r, -, rfl, hr⟩ := exists_record hs hi hh
    obtain ⟨b, hb, -⟩ := hr.block
    rw [hb]
    rfl
  · intro hlive
    exact mem_handles.mpr (howns h (Option.isSome_iff_ne_none.mp hlive))

theorem size_eq_counts : s.size = (s.segments.map Segment.count).sum := by
  have hcard : s.records.card = ((held s.slots).map Segment.count).sum := by
    rw [records, Multiset.card_bind]
    refine congrArg Multiset.sum (Multiset.map_congr rfl fun g hg => ?_)
    obtain ⟨i, hi⟩ := mem_held.mp hg
    exact (hs.inOrder hi).card_records
  rw [size, hs.items, hcard]
  rfl

theorem length_handles : s.handles.length = s.size := by
  rw [← Multiset.coe_card, coe_handles, Multiset.card_bind, size_eq_counts hs]
  refine congrArg Multiset.sum (Multiset.map_congr rfl fun g hg => ?_)
  obtain ⟨i, hi⟩ := mem_held.mp hg
  exact (hs.inOrder hi).counted.symm

theorem weight_eq_sum :
    weight s.records = (s.handles.map fun h => ((s.memory.arena.block? h).map Block.size).getD 0).sum := by
  rw [← Multiset.sum_coe, ← Multiset.map_coe, coe_handles, Multiset.map_bind, Multiset.sum_bind, weight, records,
    Multiset.map_bind, Multiset.sum_bind]
  refine congrArg Multiset.sum (Multiset.map_congr rfl fun g hg => ?_)
  obtain ⟨i, hi⟩ := mem_held.mp hg
  exact Arena.weight_records (hs.inOrder hi).stored

theorem liveCount_eq_size (howns : s.Owns) : s.memory.arena.liveCount = s.size := by
  rw [Arena.liveCount_eq_length (nodup_handles hs) (mem_handles_iff hs howns), length_handles hs]

theorem existsUnique_slot (howns : s.Owns) (hlive : (s.memory.arena.block? h).isSome) :
    ∃! place : Nat × Nat, ∃ g, s.segment? place.1 = some g ∧ g.slot? place.2 = some h := by
  obtain ⟨i, g, hi, hh⟩ := mem_handles.mp ((mem_handles_iff hs howns h).mpr hlive)
  obtain ⟨j, hj⟩ := mem_held.mp hh
  refine ⟨(i, j), ⟨g, hi, hj⟩, ?_⟩
  rintro ⟨i', j'⟩ ⟨g', hi', hj'⟩
  have hsegment : i' = i := hs.apart hi' hi (mem_held.mpr ⟨j', hj'⟩) hh
  subst hsegment
  rw [hi] at hi'
  cases hi'
  have hslot : j' = j := (hs.inOrder hi).chained.distinct hj' hj rfl
  rw [hslot]

theorem accounted (howns : s.Owns) : s.Accounted := by
  have hlive := liveCount_eq_size hs howns
  refine ⟨size_eq_counts hs, hlive.symm, hs.bytes, ?_, fun i g j h hi hj => ?_, hs.items,
    fun h hh => existsUnique_slot hs howns hh, ?_⟩
  · rw [bytesUsed, hs.bytes, hs.sound.bytes, weight_eq_sum hs,
      Arena.total_eq_sum (nodup_handles hs) (mem_handles_iff hs howns)]
  · exact exists_record hs hi (mem_held.mpr ⟨j, hj⟩)
  · rw [hs.sound.balance, hlive]

end WellFormed

variable {schema : Schema} {config : StoreConfig} {memory : Memory} {notifier : Notifier} {clock : Clock}
  {draw : Nat → Nat}

/-- Whatever is asked of a store that has its arena for itself, refused or answered, with whatever limits and in a
    memory that runs out of room whenever it does, its accounts agree. -/
theorem accounted_of_run (hs : create schema config memory notifier clock draw = .ok s) (hsteady : memory.Steady)
    (hsound : memory.arena.Sound) (hunused : ∀ h, memory.arena.block? h = none) (requests : List Request)
    (hfits : ∀ q ∈ requests, q.Fits schema) : (run requests s).2.Accounted := by
  obtain ⟨hvalid, rfl⟩ := of_create hs
  have hmade : (made schema config memory notifier clock draw).WellFormed := wellFormed_made hvalid hsteady hsound
  have howns : (made schema config memory notifier clock draw).Owns := fun h hlive => absurd (hunused h) hlive
  obtain ⟨hrun, howned⟩ := run_wellFormed hmade hfits
  exact accounted hrun (howned howns)

/-- Of two entries one is allowed. It is put again, longer, and evicted; a payload without a key is refused. -/
theorem accounted_of_refusal :
    (run [.put [1, 0, 1, 1] 5, .put [1, 0, 1, 0] 5, .put [] 5, .put [1, 0, 1, 1, 7] 5, .setClock 9, .evictExpired]
      (made ⟨"Entry", []⟩ { minSegments := 2, maxSegments := 3, segmentCapacity := 2, maxItems? := some 1 }
        (.withLimit (some 64)) (.silent "Entry") ⟨0⟩ (Placement.evenly 2 3))).2.Accounted := by
  have hmade : create ⟨"Entry", []⟩ { minSegments := 2, maxSegments := 3, segmentCapacity := 2, maxItems? := some 1 }
      (.withLimit (some 64)) (.silent "Entry") ⟨0⟩ (Placement.evenly 2 3) = .ok (made _ _ _ _ _ _) := rfl
  refine accounted_of_run hmade ⟨rfl, rfl, rfl⟩ (Arena.sound_empty (some 64)) (Arena.block?_empty (some 64)) _
    fun q hq => ?_
  simp only [List.mem_cons, List.not_mem_nil, or_false] at hq
  rcases hq with rfl | rfl | rfl | rfl | rfl | rfl
  · exact show 4 < Record.lengthLimit by decide
  · exact show 4 < Record.lengthLimit by decide
  · exact show 0 < Record.lengthLimit by decide
  · exact show 5 < Record.lengthLimit by decide
  · trivial
  · trivial

end Store

end RecordStore
