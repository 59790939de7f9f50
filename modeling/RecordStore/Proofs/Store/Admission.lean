import RecordStore.Proofs.Store.Making
import RecordStore.Proofs.Store.Steps

/-! # Admission

A store never has more entries or bytes than its limits allow. So what it declines can be told exactly from the
figures that it shows: a new entry at either limit, and an entry in the place of another one only for the bytes that
it takes more. -/

namespace RecordStore.Store

variable {s s' : Store} {k : Value} {r : Record}

/-- The records are within the limits. A limit that is no word limits nothing. -/
structure Limited (s : Store) : Prop where
  items : ∀ max, s.counters.maxItems? = some max → s.records.card ≤ max
  bytes : ∀ max, s.counters.maxBytes? = some max → max < wordLimit → weight s.records ≤ max

theorem weight_mono {rs rs' : Multiset Record} (h : rs ≤ rs') : weight rs ≤ weight rs' := by
  obtain ⟨more, rfl⟩ := Multiset.le_iff_exists_add.mp h
  rw [weight_add]
  exact Nat.le_add_right _ _

theorem Limited.of_le (hs : s.Limited) (hkeeps : Keeps s s') (hle : s'.records ≤ s.records) : s'.Limited where
  items max hmax := (Multiset.card_le_card hle).trans (hs.items max (hkeeps.maxItems? ▸ hmax))
  bytes max hmax hword := (weight_mono hle).trans (hs.bytes max (hkeeps.maxBytes? ▸ hmax) hword)

theorem Limited.toNat_bytes {max : Nat} (hl : s.Limited) (hs : s.WellFormed)
    (hmax : s.counters.maxBytes? = some max) (hword : max < wordLimit) : s.counters.bytes.toNat = weight s.records := by
  have hweight := hl.bytes max hmax hword
  rw [hs.bytes, UInt64.toNat_ofNat_of_lt' (Nat.lt_of_le_of_lt hweight hword)]

/-- What is admitted is within the limits. -/
theorem Limited.admitted {payload : Bytes} {ttl : Lifetime} {h : Handle} (hl : s.Limited) (hs : s.WellFormed)
    (hadmitted : ∀ reason, ¬ s.Declines k (Record.sizeFor payload.length) reason)
    (hleads : Leads s s' (⟨payload, s.clock.now, ttl, h⟩ ::ₘ s.records.filter (·.key? ≠ some k))) : s'.Limited := by
  have hsize : Record.size ⟨payload, s.clock.now, ttl, h⟩ = Record.sizeFor payload.length := rfl
  rw [← not_exists] at hadmitted
  by_cases hstored : ∃ r ∈ s.records, r.key? = some k
  -- In the place of another record, as many entries as before, and the bytes that the limit has been asked about.
  · obtain ⟨r, hr, hk⟩ := hstored
    rw [declines_old_iff hs hr hk, not_and] at hadmitted
    have hsplit : s.records.filter (·.key? = some k) + s.records.filter (·.key? ≠ some k) = s.records :=
      Multiset.filter_add_not _ _
    rw [filter_key hs hr hk] at hsplit
    have hcard := congrArg Multiset.card hsplit
    have hweight := congrArg weight hsplit
    rw [Multiset.card_add, Multiset.card_singleton] at hcard
    rw [weight_add, weight_singleton] at hweight
    refine ⟨fun max hmax => ?_, fun max hmax hword => ?_⟩
    · have hitems := hl.items max (hleads.keeps.maxItems? ▸ hmax)
      rw [hleads.records, Multiset.card_cons]
      omega
    · rw [hleads.keeps.maxBytes?] at hmax
      have hbytes := hl.bytes max hmax hword
      rw [hl.toNat_bytes hs hmax hword] at hadmitted
      rw [hleads.records, weight_cons, hsize]
      by_cases hgrow : r.size < Record.sizeFor payload.length
      · have hle := Nat.le_of_not_lt fun hlt => hadmitted hgrow ⟨max, hmax, hlt⟩
        omega
      · omega
  · have hnew : ∀ r ∈ s.records, r.key? ≠ some k := fun r hr hk => hstored ⟨r, hr, hk⟩
    rw [declines_new_iff hnew, not_or] at hadmitted
    rw [Multiset.filter_eq_self.mpr hnew] at hleads
    refine ⟨fun max hmax => ?_, fun max hmax hword => ?_⟩
    · have hroom := Nat.lt_of_not_le fun hle => hadmitted.1 ⟨max, hleads.keeps.maxItems? ▸ hmax, hle⟩
      rw [hs.items] at hroom
      rw [hleads.records, Multiset.card_cons]
      omega
    · rw [hleads.keeps.maxBytes?] at hmax
      have hroom := Nat.le_of_not_lt fun hlt => hadmitted.2 ⟨max, hmax, hlt⟩
      rw [hl.toNat_bytes hs hmax hword] at hroom
      rw [hleads.records, weight_cons, hsize]
      omega

theorem Does.limited {q : Request} {response : Response} (h : Does s q response s') (hs : s.WellFormed)
    (hl : s.Limited) : s'.Limited := by
  cases h with
  | stores _ _ admitted leads _ => exact hl.admitted hs admitted leads
  | refuses _ leads _ => exact hl.of_le leads.keeps leads.records.le
  | removes leads _ => exact hl.of_le leads.keeps (leads.records.trans_le (Multiset.filter_le _ _))
  | clears leads _ => exact hl.of_le leads.keeps (leads.records.trans_le (Multiset.zero_le _))
  | looks _ evicts => exact hl.of_le evicts.leads.keeps (evicts.split ▸ Multiset.le_add_right _ _)
  | sets => exact ⟨hl.items, hl.bytes⟩

/-- The limits of a store are those of its configuration. -/
structure Configured (config : StoreConfig) (s : Store) : Prop where
  maxItems? : s.counters.maxItems? = config.maxItems?
  maxBytes? : s.counters.maxBytes? = config.maxBytes?

theorem Does.configured {config : StoreConfig} {q : Request} {response : Response} (h : Does s q response s')
    (hc : s.Configured config) : s'.Configured config := by
  have hkept {rs : Multiset Record} (hleads : Leads s s' rs) : s'.Configured config :=
    ⟨hleads.keeps.maxItems?.trans hc.maxItems?, hleads.keeps.maxBytes?.trans hc.maxBytes?⟩
  cases h with
  | stores _ _ _ leads _ => exact hkept leads
  | refuses _ leads _ => exact hkept leads
  | removes leads _ => exact hkept leads
  | clears leads _ => exact hkept leads
  | looks _ evicts => exact hkept evicts.leads
  | sets => exact ⟨hc.maxItems?, hc.maxBytes?⟩

/-- Refused for want of capacity: the payload comes back with a reason. -/
def Exceeds (s : Store) (payload : Bytes) (ttl : Lifetime) : Prop :=
  ∃ reason returned s', put payload ttl s = .error (.error (.capacityExceeded reason returned)) s'

/-- Entries are admitted as the limits of a configuration say, and nothing else than the limits is looked at. -/
structure Admits (config : StoreConfig) (s : Store) : Prop where
  items : ∀ max, config.maxItems? = some max → s.size ≤ max
  bytes : ∀ max, config.maxBytes? = some max → s.bytesUsed.toNat ≤ max
  /-- A new entry is refused just if there is no room for another one, or for its bytes. -/
  new : ∀ payload ttl k, payload.length < Record.lengthLimit → Payload.key payload = .ok k →
    (∀ r ∈ s.records, r.key? ≠ some k) →
    (s.Exceeds payload ttl ↔ (∃ max, config.maxItems? = some max ∧ max ≤ s.size) ∨
      ∃ max, config.maxBytes? = some max ∧ max < s.bytesUsed.toNat + 16 + payload.length)
  /-- An entry in the place of another one is refused just if it is larger and there is no room for the difference. -/
  old : ∀ payload ttl k r, payload.length < Record.lengthLimit → Payload.key payload = .ok k → r ∈ s.records →
    r.key? = some k →
    (s.Exceeds payload ttl ↔ r.payload.length < payload.length ∧
      ∃ max, config.maxBytes? = some max ∧ max < s.bytesUsed.toNat + (payload.length - r.payload.length))
  /-- What is refused is returned as it came, and leaves nothing but the count of the request. -/
  refused : ∀ payload ttl reason returned s', payload.length < Record.lengthLimit →
    put payload ttl s = .error (.error (.capacityExceeded reason returned)) s' →
    returned = payload ∧ s' = { s with puts := s.puts + 1 }

theorem exceeds_iff {payload : Bytes} {ttl : Lifetime} (hs : s.WellFormed) (hfits : payload.length < Record.lengthLimit)
    (hk : Payload.key payload = .ok k) :
    s.Exceeds payload ttl ↔ ∃ reason, s.Declines k (Record.sizeFor payload.length) reason := by
  constructor
  · rintro ⟨reason, returned, s', hrun⟩
    exact ⟨reason, declines_of_put hs hfits hk hrun⟩
  · rintro ⟨reason, hdeclined⟩
    exact ⟨reason, payload, _, put_declined hs ttl hk hdeclined⟩

theorem admits {config : StoreConfig} (hs : s.WellFormed) (hl : s.Limited) (hc : s.Configured config) :
    s.Admits config where
  items max hmax := by
    rw [size, hs.items]
    exact hl.items max (hc.maxItems?.trans hmax)
  bytes max hmax := by
    have hmax' := hc.maxBytes?.trans hmax
    by_cases hword : max < wordLimit
    · rw [bytesUsed, hl.toNat_bytes hs hmax' hword]
      exact hl.bytes max hmax' hword
    · have hlt : s.bytesUsed.toNat < wordLimit := s.bytesUsed.toNat_lt
      omega
  new payload ttl k hfits hk hnew := by
    rw [exceeds_iff hs hfits hk, declines_new_iff hnew, hc.maxItems?, hc.maxBytes?, Nat.add_assoc]
    rfl
  old payload ttl k r hfits hk hr hkr := by
    have hgrow : r.size < Record.sizeFor payload.length ↔ r.payload.length < payload.length := by
      unfold Record.size Record.sizeFor
      omega
    have hdelta : Record.sizeFor payload.length - r.size = payload.length - r.payload.length := by
      unfold Record.size Record.sizeFor
      omega
    rw [exceeds_iff hs hfits hk, declines_old_iff hs hr hkr, hc.maxBytes?, hgrow, hdelta]
    rfl
  refused payload ttl reason returned s' hfits hrun := by
    cases hk : Payload.key payload with
    | error fault =>
      obtain ⟨s'', hrun', -⟩ := put_of_no_key hs ttl hk
      rw [hrun'] at hrun
      cases hrun
    | ok k =>
      rw [put_declined hs ttl hk (declines_of_put hs hfits hk hrun)] at hrun
      cases hrun
      exact ⟨rfl, rfl⟩

variable {schema : Schema} {config : StoreConfig} {memory : Memory} {notifier : Notifier} {clock : Clock}
  {draw : Nat → Nat}

/-- In every state that a store comes to it keeps to its limits, and refuses just what would exceed them. -/
theorem admits_of_run (hs : create schema config memory notifier clock draw = .ok s) (hsteady : memory.Steady)
    (hsound : memory.arena.Sound) (requests : List Request) (hfits : ∀ q ∈ requests, q.Fits schema) :
    (run requests s).2.Admits config := by
  obtain ⟨hvalid, rfl⟩ := of_create hs
  have hmade : (made schema config memory notifier clock draw).WellFormed := wellFormed_made hvalid hsteady hsound
  have hlimited : (made schema config memory notifier clock draw).Limited := by
    refine ⟨fun max _ => ?_, fun max _ _ => ?_⟩
    · rw [records_made]
      exact Nat.zero_le max
    · rw [records_made]
      exact Nat.zero_le max
  have hkept := run_keeps (P := fun s => s.Limited ∧ s.Configured config)
    (fun hs h hdoes => ⟨hdoes.limited hs h.1, hdoes.configured h.2⟩) hmade rfl hfits ⟨hlimited, rfl, rfl⟩
  exact admits (run_wellFormed hmade hfits).1 hkept.1 hkept.2

/-- Forty bytes are allowed. A second entry is one byte too long, and fits after the first one has been replaced
    by a shorter one. -/
theorem admits_of_refusal :
    (run [.put [1, 0, 1, 1, 0] 5, .put [1, 0, 1, 0] 5, .put [1, 0, 1, 1] 5, .put [1, 0, 1, 0] 5]
      (made ⟨"Entry", []⟩ { minSegments := 1, maxSegments := 2, segmentCapacity := 2, maxBytes? := some 40 }
        .empty (.silent "Entry") ⟨0⟩ (Placement.evenly 1 2))).2.Admits
      { minSegments := 1, maxSegments := 2, segmentCapacity := 2, maxBytes? := some 40 } := by
  have hmade : create ⟨"Entry", []⟩ { minSegments := 1, maxSegments := 2, segmentCapacity := 2, maxBytes? := some 40 }
      .empty (.silent "Entry") ⟨0⟩ (Placement.evenly 1 2) = .ok (made _ _ _ _ _ _) := rfl
  refine admits_of_run hmade ⟨rfl, rfl, rfl⟩ (Arena.sound_empty none) _ fun q hq => ?_
  simp only [List.mem_cons, List.not_mem_nil, or_false] at hq
  rcases hq with rfl | rfl | rfl | rfl
  · exact show 5 < Record.lengthLimit by decide
  · exact show 4 < Record.lengthLimit by decide
  · exact show 4 < Record.lengthLimit by decide
  · exact show 4 < Record.lengthLimit by decide

end RecordStore.Store
