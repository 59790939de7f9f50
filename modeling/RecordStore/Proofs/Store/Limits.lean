import RecordStore.Proofs.Store.Entries

/-! # Limits of a store

The counters decline a record before anything of the store is touched, and on account of nothing but their limits: as
a new one at either limit, in the place of another one only for the bytes that it takes more. -/

namespace RecordStore.Store

variable {s s' : Store} {g : Segment} {i n : Nat} {k : Value} {r : Record} {reason : LimitFault} {payload : Bytes}

/-- Why the counters decline a record of `n` bytes: as one that replaces another, or as a new one. -/
def Declines (s : Store) (k : Value) (n : Nat) (reason : LimitFault) : Prop :=
  (∃ r ∈ s.records, r.key? = some k ∧ s.counters.reserveReplace r.size n = .error reason) ∨
    (∀ r ∈ s.records, r.key? ≠ some k) ∧ s.counters.reserveInsert n = .error reason

theorem declines_new_iff (hnew : ∀ r ∈ s.records, r.key? ≠ some k) :
    (∃ reason, s.Declines k n reason) ↔ (∃ max, s.counters.maxItems? = some max ∧ max ≤ s.counters.items) ∨
      ∃ max, s.counters.maxBytes? = some max ∧ max < s.counters.bytes.toNat + n := by
  rw [← Counters.reserveInsert_error_iff]
  refine exists_congr fun reason => ⟨?_, fun h => Or.inr ⟨hnew, h⟩⟩
  rintro (⟨r, hr, hk, -⟩ | ⟨-, h⟩)
  · exact absurd hk (hnew r hr)
  · exact h

theorem declines_old_iff (hs : s.WellFormed) (hr : r ∈ s.records) (hk : r.key? = some k) :
    (∃ reason, s.Declines k n reason) ↔
      r.size < n ∧ ∃ max, s.counters.maxBytes? = some max ∧ max < s.counters.bytes.toNat + (n - r.size) := by
  rw [← Counters.reserveReplace_error_iff]
  refine exists_congr fun reason => ⟨?_, fun h => Or.inl ⟨r, hr, hk, h⟩⟩
  rintro (⟨r', hr', hk', h⟩ | ⟨hnew, -⟩)
  · have hmem : r' ∈ s.records.filter (·.key? = some k) := Multiset.mem_filter.mpr ⟨hr', hk'⟩
    rw [filter_key hs hr hk, Multiset.mem_singleton] at hmem
    exact hmem ▸ h
  · exact absurd hk (hnew r hr)

/-- The segment of a key declines what the store does. -/
theorem refuses_part_iff (hs : s.WellFormed) (hroute : Placement.route? s.slots k = some i)
    (hi : s.segment? i = some g) : (s.part g).Refuses k r reason ↔ s.Declines k r.size reason := by
  have hpart {r' : Record} (hk' : r'.key? = some k) : r' ∈ (s.part g).records ↔ r' ∈ s.records := by
    have hsame := filter_part hs hroute hi
    constructor
    · intro hr'
      exact Multiset.mem_of_mem_filter (hsame ▸ Multiset.mem_filter.mpr ⟨hr', hk'⟩)
    · exact fun hr' => mem_part hs hroute hi hr' hk'
  refine or_congr (exists_congr fun r' => ?_) (and_congr_left fun _ => forall_congr' fun r' => ?_)
  · constructor
    · rintro ⟨hr', hk', h⟩
      exact ⟨(hpart hk').mp hr', hk', h⟩
    · rintro ⟨hr', hk', h⟩
      exact ⟨(hpart hk').mpr hr', hk', h⟩
  · constructor
    · exact fun h hr' hk' => h ((hpart hk').mpr hr') hk'
    · exact fun h hr' hk' => h ((hpart hk').mp hr') hk'

theorem update_part (hi : s.segment? i = some g) : s.update i (s.part g) = s := by
  have hsame : s.slots.setIfInBounds i (some g) = s.slots := setIfInBounds_occupant hi
  unfold update part
  rw [hsame]

/-- What is declined goes back to the caller, and only the count of requests is another one. -/
theorem put_declined (hs : s.WellFormed) (ttl : Lifetime) (hk : Payload.key payload = .ok k)
    (h : s.Declines k (Record.sizeFor payload.length) reason) :
    put payload ttl s = .error (.error (.capacityExceeded reason payload)) (s.tally s.gets (s.puts + 1) s.removes) := by
  have hcount := leads_tally hs s.gets (s.puts + 1) s.removes
  obtain ⟨i, g, hroute, hi⟩ := exists_route hcount.wellFormed k
  have hrefused := Segment.put_refused (r := Record.fresh payload ttl s.clock.now)
    (part_wellFormed hcount.wellFormed hi) ((refuses_part_iff hcount.wellFormed hroute hi).mpr h)
  rw [put_eq s ttl hk hroute, onSegment_error hi hrefused, update_part hi]
  rfl

theorem not_refuses_exceeded {m : Memory} {c : Call} {reason : LimitFault} {p : Bytes} :
    ¬ m.Refuses c (.capacityExceeded reason p) := by
  rintro (⟨-, h⟩ | ⟨_, _, -, h⟩)
  · cases h
  · cases h

/-- What comes back as too much was declined. -/
theorem declines_of_put {ttl : Lifetime} {p : Bytes} (hs : s.WellFormed) (hfits : payload.length < Record.lengthLimit)
    (hk : Payload.key payload = .ok k) (h : put payload ttl s = .error (.error (.capacityExceeded reason p)) s') :
    s.Declines k (Record.sizeFor payload.length) reason := by
  have hcount := leads_tally hs s.gets (s.puts + 1) s.removes
  obtain ⟨i, g, hroute, hi⟩ := exists_route hcount.wellFormed k
  have hkey : (Record.fresh payload ttl s.clock.now).key? = some k := Record.key?_eq_some_iff.mpr hk
  rw [put_eq s ttl hk hroute] at h
  rcases Segment.put_cases (part_wellFormed hcount.wellFormed hi) hfits hkey with
    ⟨reason', hrefuses, hsegment⟩ | ⟨c, e, u, hrefuses, hsegment, -⟩ | ⟨h', u, hsegment, -⟩
  · rw [onSegment_error hi hsegment] at h
    cases h
    exact (refuses_part_iff hcount.wellFormed hroute hi).mp hrefuses
  · rw [onSegment_error hi hsegment] at h
    cases h
    exact absurd hrefuses not_refuses_exceeded
  · rw [onSegment_ok hi hsegment] at h
    cases h

end RecordStore.Store
