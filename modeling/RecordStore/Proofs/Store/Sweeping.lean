import RecordStore.Proofs.Store.Evictions
import RecordStore.Proofs.Store.Tolerance

/-! # Sweeps

A sweep notes the keys of all records of a segment that are over and evicts them one after the other, and each eviction
moves other records about in the table, and may halve it. Even so none of them is left out or met twice, and no other
record is harmed. -/

namespace RecordStore

namespace Record

/-- The record does not last for ever, and its end has come. -/
def Spent (r : Record) (now : UInt64) : Prop :=
  r.ttl ≠ Lifetime.forever ∧ r.createdAt.toNat + r.ttl.toNat ≤ now.toNat

instance (r : Record) (now : UInt64) : Decidable (r.Spent now) :=
  inferInstanceAs (Decidable (r.ttl ≠ Lifetime.forever ∧ r.createdAt.toNat + r.ttl.toNat ≤ now.toNat))

theorem spent_iff {r : Record} {now : UInt64} : r.Spent now ↔ r.isOver now = true := by
  simp [Spent, isOver, Lifetime.isOver]

end Record

namespace Store

open RecordStore.Action

variable {α : Type} {s s' : Store} {k : Value} {r : Record} {n : Nat} {p : Record → Prop} [DecidablePred p]

/-- The store after a sweep that evicted `n` records. -/
structure Swept (s s' : Store) (n : Nat) : Prop where
  /-- All records whose end has come are gone, and the others are there as they were. -/
  records : s'.records = s.records.filter fun r => ¬ r.Spent s.clock.now
  number : n = (s.records.filter fun r => r.Spent s.clock.now).card
  /-- The blocks of those that are gone are given back, and no other block has changed. -/
  blocks : ∀ h, s'.memory.arena.block? h =
    if h ∈ (s.records.filter fun r => r.Spent s.clock.now).map (·.handle) then none else s.memory.arena.block? h
  found : ∀ r ∈ s'.records, ∀ k, r.key? = some k → (∃ s'', contains k s' = .ok true s'') ∧
    (∃ s'', getRecord? k s' = .ok (some r) s'') ∧ ∃ s'', get? k s' = .ok (some r.payload) s''
  missing : ∀ k, (∀ r ∈ s'.records, r.key? ≠ some k) → ∃ s'', contains k s' = .ok false s''
  expired : s'.counters.expired = s.counters.expired + n
  again : evictExpired s' = .ok 0 s'

/-- A sweep is carried out, unless a listener breaks it off. -/
def Sweeps (s : Store) : Prop := (∃ n s', evictExpired s = .ok n s' ∧ Swept s s' n) ∨ Breaks evictExpired s

/-! ### Nothing to evict -/

theorem overdue_eq (s : Store) : s.overdue = s.records.filter fun r => r.Spent s.clock.now :=
  Multiset.filter_congr fun _ _ => Record.spent_iff.symm

theorem unexpired_eq (s : Store) : s.unexpired = s.records.filter fun r => ¬ r.Spent s.clock.now :=
  Multiset.filter_congr fun _ _ => not_congr Record.spent_iff.symm

theorem Course.answered {res : EStateM.Result Failure Store α} (h : Course False p s res) (hnone : s.overdue = 0) :
    ∃ a s', res = .ok a s' := by
  have hempty : s.overdue.filter p = 0 := by rw [hnone, Multiset.filter_zero]
  have hnot {gone : List Record} {r : Record} (hwithin : ((gone ++ [r] : List Record) : Multiset Record) ≤
      s.overdue.filter p) : False := by
    rw [hempty] at hwithin
    exact Multiset.notMem_zero r (Multiset.mem_of_le hwithin (List.mem_append_right gone (List.mem_singleton_self r)))
  cases h with
  | finishes _ _ _ => exact ⟨_, _, rfl⟩
  | refused _ _ _ within => exact (hnot within).elim
  | broken _ _ _ _ within => exact (hnot within).elim
  | stopped _ _ _ spoilt => exact spoilt.elim

theorem evictIn_settled (hs : s.Orderly) (hnone : s.overdue = 0) (slots : List Nat)
    (hslots : ∀ i ∈ slots, (s.segment? i).isSome) (n : Nat) : evictIn slots n s = .ok n s := by
  induction slots generalizing n with
  | nil => rfl
  | cons i slots ih =>
    obtain ⟨g, hi⟩ := Option.isSome_iff_exists.mp (hslots i List.mem_cons_self)
    obtain ⟨keys, hrun, hkeys⟩ := Segment.evictExpired_runs (hs.part hi)
    have hempty : keys = [] := by
      refine List.eq_nil_iff_forall_not_mem.mpr fun k hk => ?_
      obtain ⟨r, hr, hdue, -⟩ := (hkeys k).mp hk
      exact Multiset.notMem_zero r (hnone ▸ Multiset.mem_filter.mpr ⟨((mem_part_iff hs hi).mp hr).1, hdue⟩)
    have hsegment : onSegment i Segment.evictExpired s = .ok 0 s := onSegment_same hi (by rw [hrun, hempty]; rfl)
    exact (bind_ok hsegment).trans (ih (fun j hj => hslots j (List.mem_cons_of_mem i hj)) (n + 0))

/-- A sweep over a store where nothing is over changes nothing at all. -/
theorem evictExpired_settled (hs : s.Orderly) (hnone : s.overdue = 0) : evictExpired s = .ok 0 s :=
  evictIn_settled hs hnone (Placement.occupied s.slots) (fun _ => occupied_segment) 0

theorem lasting_settled (hnone : s.overdue = 0) (k : Value) : s.lasting k = s.records := by
  refine Multiset.filter_eq_self.mpr fun r hr hdue => ?_
  exact Multiset.notMem_zero r (hnone ▸ Multiset.mem_filter.mpr ⟨hr, hdue.1⟩)

theorem contains_settled (hs : s.WellFormed) (hnone : s.overdue = 0) (k : Value) :
    ∃ b s', contains k s = .ok b s' ∧ (b = true ↔ ∃ r ∈ s.records, r.key? = some k) := by
  obtain ⟨b, s', hrun⟩ := (course_contains hs.orderly k).answered hnone
  rcases contains_ok hs k with ⟨b', s'', hrun', hleads, hb⟩ | ⟨s'', rs, hbroken, -⟩
  · rw [hleads.records, lasting_settled hnone] at hb
    exact ⟨b', s'', hrun', hb⟩
  · rw [hrun] at hbroken
    cases hbroken

theorem getRecord?_settled (hs : s.WellFormed) (hnone : s.overdue = 0) (hr : r ∈ s.records) (hk : r.key? = some k) :
    ∃ s', getRecord? k s = .ok (some r) s' := by
  obtain ⟨r?, s', hrun⟩ := (course_getRecord? hs.orderly k).answered hnone
  rcases getRecord?_ok hs k with ⟨r?', s'', hrun', hleads, hr'⟩ | ⟨s'', rs, hbroken, -⟩
  · rw [hleads.records, lasting_settled hnone] at hr'
    rw [(hr' r).mpr ⟨hr, hk⟩] at hrun'
    exact ⟨s'', hrun'⟩
  · rw [hrun] at hbroken
    cases hbroken

/-! ### Sweeping -/

theorem swept (hs : s.WellFormed) (hrun : evictExpired s = .ok n s') : Swept s s' n := by
  rcases evictExpired_ok hs with ⟨n', s'', hrun', hleads, hcard⟩ | ⟨s'', rs, hbroken, -⟩
  swap
  · rw [hrun] at hbroken
    cases hbroken
  obtain ⟨rfl, rfl⟩ : n = n' ∧ s' = s'' := by
    rw [hrun] at hrun'
    cases hrun'
    exact ⟨rfl, rfl⟩
  have hcourse : Course False (fun _ => True) s (evictExpired s) := course_evictExpired hs.orderly
  rw [hrun] at hcourse
  cases hcourse with
  | @finishes _ _ gone retires told all =>
    rw [Multiset.filter_true] at all
    have hnone : s'.overdue = 0 := by
      have hsplit := retires.overdue retires.due
      rw [all] at hsplit
      exact add_eq_left.mp hsplit
    have hnumber : n = s.overdue.card := by
      have hsplit := congrArg Multiset.card retires.split
      rw [Multiset.card_add, all] at hsplit
      omega
    have hwell := hleads.wellFormed
    refine ⟨by rw [hleads.records, unexpired_eq], by rw [hnumber, overdue_eq], fun h => ?_, fun r hr k hk => ?_,
      fun k hnew => ?_, ?_, evictExpired_settled hwell.orderly hnone⟩
    · rw [retires.block? hs.orderly, ← overdue_eq, ← all]
      rfl
    · have hlasts : r ∈ s'.unexpired := Multiset.mem_filter.mpr ⟨hr, fun hdue =>
        Multiset.notMem_zero r (hnone ▸ Multiset.mem_filter.mpr ⟨hr, hdue⟩)⟩
      obtain ⟨b, s'', hcontains, hb⟩ := contains_settled hwell hnone k
      rw [hb.mpr ⟨r, hr, hk⟩] at hcontains
      exact ⟨⟨s'', hcontains⟩, getRecord?_settled hwell hnone hr hk, get?_of_mem hwell hlasts hk⟩
    · obtain ⟨b, s'', hcontains, hb⟩ := contains_settled hwell hnone k
      have hfalse : b = false := by
        refine Bool.eq_false_iff.mpr fun htrue => ?_
        obtain ⟨r, hr, hk⟩ := hb.mp htrue
        exact hnew r hr hk
      rw [hfalse] at hcontains
      exact ⟨s'', hcontains⟩
    · rw [retires.expired, hnumber, ← all, Multiset.coe_card]

theorem sweeps (hs : s.WellFormed) : s.Sweeps :=
  (evictExpired_ok hs).imp (fun ⟨n, s', hrun, _⟩ => ⟨n, s', hrun, swept hs hrun⟩) id

variable {schema : Schema} {config : StoreConfig} {memory : Memory} {notifier : Notifier} {clock : Clock}
  {draw : Nat → Nat}

/-- Whatever a store has gone through and whatever the time, a sweep evicts just what is over. -/
theorem sweeps_of_run (hs : create schema config memory notifier clock draw = .ok s) (hsteady : memory.Steady)
    (hsound : memory.arena.Sound) (requests : List Request) (hfits : ∀ q ∈ requests, q.Fits schema) (now : Clock) :
    Sweeps { (run requests s).2 with clock := now } := by
  obtain ⟨hvalid, rfl⟩ := of_create hs
  have hmade : (made schema config memory notifier clock draw).WellFormed := wellFormed_made hvalid hsteady hsound
  exact sweeps ((run_wellFormed hmade hfits).1.setClock now)

/-- Of three entries in two segments two are over. -/
theorem sweeps_of_lifetimes : Sweeps { (run [.put [1, 0, 1, 1] 5, .put [1, 0, 1, 0] 8, .put [1, 0, 2, 0] Lifetime.forever]
    (made ⟨"Entry", []⟩ { minSegments := 2, maxSegments := 3, segmentCapacity := 2 } .empty (.silent "Entry") ⟨0⟩
      (Placement.evenly 2 3))).2 with clock := ⟨9⟩ } := by
  have hmade : create ⟨"Entry", []⟩ { minSegments := 2, maxSegments := 3, segmentCapacity := 2 } .empty
      (.silent "Entry") ⟨0⟩ (Placement.evenly 2 3) = .ok (made _ _ _ _ _ _) := rfl
  refine sweeps_of_run hmade ⟨rfl, rfl, rfl⟩ (Arena.sound_empty none) _ ?_ ⟨9⟩
  have hfour : 4 < Record.lengthLimit := by decide
  simp only [List.forall_mem_cons]
  exact ⟨hfour, hfour, hfour, fun _ hq => absurd hq List.not_mem_nil⟩

end Store

end RecordStore
