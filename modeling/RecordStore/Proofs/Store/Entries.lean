import RecordStore.Proofs.Segment.Clearing
import RecordStore.Proofs.Segment.Finding
import RecordStore.Proofs.Segment.Storing
import RecordStore.Proofs.Store.Parts

/-! # Entries of a store

What the operations on one key answer and leave, over the records of all segments. The segment that a key is routed
to has all records with that key, so that what it answers and drops is what the store does. -/

namespace RecordStore.Store

variable {s s' : Store} {g : Segment} {i : Nat} {k : Value} {r : Record} {rs : Multiset Record}

/-- The records, but for that of a key if its time is over. -/
def lasting (s : Store) (k : Value) : Multiset Record :=
  s.records.filter fun r => ¬ (r.isOver s.clock.now ∧ r.key? = some k)

/-- The records whose time is not over. -/
def unexpired (s : Store) : Multiset Record := s.records.filter fun r => ¬ r.isOver s.clock.now

/-- An operation breaks off on a listener. -/
def Breaks {α : Type} (x : Op α) (s : Store) : Prop :=
  ∃ s' rs, x s = .error (.abort .listener) s' ∧ Leads s s' rs ∧ ¬ s.notifier.Calm

theorem Breaks.not_calm {α : Type} {x : Op α} (h : Breaks x s) : ¬ s.notifier.Calm := by
  obtain ⟨-, -, -, -, hbreaks⟩ := h
  exact hbreaks

/-! ### The segment of a key -/

theorem exists_route (hs : s.WellFormed) (k : Value) :
    ∃ i g, Placement.route? s.slots k = some i ∧ s.segment? i = some g := by
  obtain ⟨j, g', hj⟩ := hs.served
  have hjlt : j < s.slots.size := lt_of_occupant? hj
  have hstart : k.hash.toNat % s.slots.size < s.slots.size := Nat.mod_lt _ (by omega)
  have htaken : Placement.isTaken s.slots j = true := by
    show (s.segment? j).isSome = true
    rw [hj]
    rfl
  obtain ⟨i, hi⟩ := Cyclic.exists_find? hstart hjlt htaken
  obtain ⟨-, htaken', -⟩ := (Cyclic.find?_eq_some_iff hstart).mp hi
  obtain ⟨g, hg⟩ := Option.isSome_iff_exists.mp htaken'
  exact ⟨i, g, hi, hg⟩

theorem place?_of_key (hk : r.key? = some k) : s.place? r = Placement.route? s.slots k := by
  rw [place?, hk, Option.bind_some]

theorem onSegmentOf_eq {α : Type} (x : Segment.Op α) (hroute : Placement.route? s.slots k = some i) :
    onSegmentOf k x s = onSegment i x s := by
  simp only [onSegmentOf, hroute]

/-- What is taken from the records of one segment is taken from those of the store. -/
theorem filter_part_add {p : Record → Prop} [DecidablePred p] (hs : s.WellFormed) (hi : s.segment? i = some g)
    (hp : ∀ r ∈ s.records, s.place? r ≠ some i → p r) :
    (s.part g).records.filter p + s.records.filter (s.place? · ≠ some i) = s.records.filter p := by
  have hkept : s.records.filter (s.place? · ≠ some i) = (s.records.filter p).filter (s.place? · ≠ some i) := by
    rw [Multiset.filter_filter]
    exact Multiset.filter_congr fun r hr => ⟨fun hne => ⟨hne, hp r hr hne⟩, And.left⟩
  rw [(records_part hs hi).1, hkept, Multiset.filter_comm, Multiset.filter_add_not]

theorem place?_of_mem_part (hs : s.WellFormed) (hi : s.segment? i = some g) (hr : r ∈ (s.part g).records) :
    s.place? r = some i := by
  rw [(records_part hs hi).1] at hr
  exact (Multiset.mem_filter.mp hr).2

theorem leads_filter {p : Record → Prop} [DecidablePred p] {u : Segment.State} (hs : s.WellFormed)
    (hi : s.segment? i = some g) (hu : Segment.Leads (s.part g) u ((s.part g).records.filter p))
    (hp : ∀ r ∈ s.records, s.place? r ≠ some i → p r) : Leads s (s.update i u) (s.records.filter p) := by
  rw [← filter_part_add hs hi hp]
  exact leads_update hs hi hu fun r hr => place?_of_mem_part hs hi (Multiset.mem_of_mem_filter hr)

theorem leads_same {u : Segment.State} (hs : s.WellFormed) (hi : s.segment? i = some g)
    (hu : Segment.Leads (s.part g) u (s.part g).records) : Leads s (s.update i u) s.records := by
  have hleads := leads_filter (p := fun _ => True) hs hi (by rw [Multiset.filter_true]; exact hu) fun _ _ _ => trivial
  rw [Multiset.filter_true] at hleads
  exact hleads

/-- The segment of a key has all records with the key. -/
theorem filter_part (hs : s.WellFormed) (hroute : Placement.route? s.slots k = some i) (hi : s.segment? i = some g) :
    (s.part g).records.filter (·.key? = some k) = s.records.filter (·.key? = some k) := by
  rw [(records_part hs hi).1, Multiset.filter_filter]
  refine Multiset.filter_congr fun r _ => ⟨And.left, fun hk => ⟨hk, ?_⟩⟩
  rw [place?_of_key hk, hroute]

theorem mem_part (hs : s.WellFormed) (hroute : Placement.route? s.slots k = some i) (hi : s.segment? i = some g)
    (hr : r ∈ s.records) (hk : r.key? = some k) : r ∈ (s.part g).records := by
  rw [(records_part hs hi).1]
  exact Multiset.mem_filter.mpr ⟨hr, by rw [place?_of_key hk, hroute]⟩

theorem exists_key (hs : s.WellFormed) (hr : r ∈ s.records) : ∃ k, r.key? = some k := by
  obtain ⟨i, g, hi, hmem⟩ := mem_records.mp hr
  obtain ⟨k, hk, -⟩ := Option.bind_eq_some_iff.mp (hs.routed hi hmem)
  exact ⟨k, hk⟩

/-- A key has one record at most. -/
theorem filter_key (hs : s.WellFormed) (hr : r ∈ s.records) (hk : r.key? = some k) :
    s.records.filter (·.key? = some k) = {r} := by
  obtain ⟨i, g, hroute, hi⟩ := exists_route hs k
  rw [← filter_part hs hroute hi]
  exact (part_wellFormed hs hi).filter_key (mem_part hs hroute hi hr hk) hk

theorem eq_of_key {r' : Record} (hs : s.WellFormed) (hr : r ∈ s.records) (hk : r.key? = some k)
    (hr' : r' ∈ s.records) (hk' : r'.key? = some k) : r = r' := by
  have hmem : r ∈ s.records.filter (·.key? = some k) := Multiset.mem_filter.mpr ⟨hr, hk⟩
  rw [filter_key hs hr' hk'] at hmem
  exact Multiset.mem_singleton.mp hmem

theorem nodup_records (hs : s.WellFormed) : s.records.Nodup := by
  refine Multiset.nodup_iff_count_le_one.mpr fun r => ?_
  by_cases hr : r ∈ s.records
  · obtain ⟨k, hk⟩ := exists_key hs hr
    rw [← Multiset.count_filter_of_pos (p := (·.key? = some k)) hk, filter_key hs hr hk]
    exact Multiset.count_le_card r {r}
  · rw [Multiset.count_eq_zero_of_notMem hr]
    exact Nat.zero_le 1

/-- Each record lies in a block of its own. -/
theorem nodup_blocks {gone : List Record} (hs : s.WellFormed) (hgone : (gone : Multiset Record) ≤ s.records) :
    (gone.map (·.handle)).Nodup := by
  have hnodup : gone.Nodup := Multiset.coe_nodup.mp (Multiset.nodup_of_le hgone (nodup_records hs))
  refine List.Nodup.map_on (fun r hr r' hr' hsame => ?_) hnodup
  have hlies := record?_of_mem (Multiset.mem_of_le hgone hr)
  have hlies' := record?_of_mem (Multiset.mem_of_le hgone hr')
  rw [← hsame, hlies] at hlies'
  exact Option.some.inj hlies'

theorem leads_without {u : Segment.State} (hs : s.WellFormed) (hroute : Placement.route? s.slots k = some i)
    (hi : s.segment? i = some g) (hu : Segment.Leads (s.part g) u ((s.part g).records.filter (·.key? ≠ some k))) :
    Leads s (s.update i u) (s.records.filter (·.key? ≠ some k)) :=
  leads_filter hs hi hu fun r _ hne hk => hne (by rw [place?_of_key hk, hroute])

theorem leads_stored {u : Segment.State} (hs : s.WellFormed) (hroute : Placement.route? s.slots k = some i)
    (hi : s.segment? i = some g) (hk : r.key? = some k)
    (hu : Segment.Leads (s.part g) u (r ::ₘ (s.part g).records.filter (·.key? ≠ some k))) :
    Leads s (s.update i u) (r ::ₘ s.records.filter (·.key? ≠ some k)) := by
  have hother : ∀ r ∈ s.records, s.place? r ≠ some i → r.key? ≠ some k := fun r _ hne hk' =>
    hne (by rw [place?_of_key hk', hroute])
  rw [← filter_part_add hs hi hother, ← Multiset.cons_add]
  refine leads_update hs hi hu fun r' hr' => ?_
  rcases Multiset.mem_cons.mp hr' with rfl | hr'
  · rw [place?_of_key hk, hroute]
  · exact place?_of_mem_part hs hi (Multiset.mem_of_mem_filter hr')

theorem leads_lasting {u : Segment.State} (hs : s.WellFormed) (hroute : Placement.route? s.slots k = some i)
    (hi : s.segment? i = some g) (hu : Segment.Leads (s.part g) u ((s.part g).lasting k)) :
    Leads s (s.update i u) (s.lasting k) :=
  leads_filter hs hi hu fun r _ hne hdue => hne (by rw [place?_of_key hdue.2, hroute])

theorem mem_update {u : Segment.State} (hs : s.WellFormed) (hroute : Placement.route? s.slots k = some i)
    (hi : s.segment? i = some g) (hu : Segment.Leads (s.part g) u ((s.part g).lasting k)) (hk : r.key? = some k) :
    r ∈ u.records ↔ r ∈ (s.update i u).records := by
  rw [records_update hs hi hu.alters, hu.records, Multiset.mem_add]
  refine ⟨Or.inl, fun hr => hr.resolve_right fun hother => ?_⟩
  refine (Multiset.mem_filter.mp hother).2 ?_
  rw [place?_of_key hk, hroute]

theorem breaks_of_part {α : Type} {x : Segment.Op α} (hs : s.WellFormed) (hi : s.segment? i = some g)
    (h : Segment.Breaks x (s.part g)) : Breaks (onSegment i x) s := by
  obtain ⟨u, rs, hrun, hu, hle, hbreaks⟩ := h
  exact ⟨_, _, onSegment_error hi hrun,
    leads_update hs hi hu fun r hr => place?_of_mem_part hs hi (Multiset.mem_of_le hle hr), hbreaks⟩

/-! ### Requests for a key -/

/-- The store with other counts of what was asked for. -/
def tally (s : Store) (gets puts removes : Nat) : Store := { s with gets, puts, removes }

theorem leads_tally (hs : s.WellFormed) (gets puts removes : Nat) : Leads s (s.tally gets puts removes) s.records where
  wellFormed := { served := hs.served, steady := hs.steady, sound := hs.sound, inOrder := hs.inOrder, apart := hs.apart,
                  routed := hs.routed, items := hs.items, bytes := hs.bytes }
  keeps := { Keeps.refl s with }
  records := rfl

theorem Breaks.of_leads {α β : Type} {x : Op α} {y : Op β} (h : Breaks x s') (hleads : Leads s s' rs)
    (hrun : ∀ e s'', x s' = .error e s'' → y s = .error e s'') : Breaks y s := by
  obtain ⟨s'', rs', hbroken, hleads', hbreaks⟩ := h
  exact ⟨s'', rs', hrun _ _ hbroken, hleads.trans hleads', fun hcalm => hbreaks (hleads.keeps.calm hcalm)⟩

theorem contains_ok (hs : s.WellFormed) (k : Value) :
    (∃ b s', contains k s = .ok b s' ∧ Leads s s' (s.lasting k) ∧ (b = true ↔ ∃ r ∈ s'.records, r.key? = some k)) ∨
    Breaks (contains k) s := by
  obtain ⟨i, g, hroute, hi⟩ := exists_route hs k
  have hrun : contains k s = onSegment i (Segment.contains k) s := onSegmentOf_eq _ hroute
  rcases Segment.contains_ok (part_wellFormed hs hi) k with ⟨b, u, hsegment, hu, hb⟩ | hbreaks
  · refine Or.inl ⟨b, s.update i u, hrun.trans (onSegment_ok hi hsegment), leads_lasting hs hroute hi hu, ?_⟩
    rw [hb]
    exact exists_congr fun r => and_congr_left fun hk => mem_update hs hroute hi hu hk
  · obtain ⟨s', rs, hbroken, hrest⟩ := breaks_of_part hs hi hbreaks
    exact Or.inr ⟨s', rs, hrun.trans hbroken, hrest⟩

theorem remove_ok (hs : s.WellFormed) (k : Value) :
    ∃ s', remove k s = .ok (weight (s.records.filter (·.key? = some k))) s' ∧
      Leads s s' (s.records.filter (·.key? ≠ some k)) := by
  have hcount := leads_tally hs s.gets s.puts (s.removes + 1)
  obtain ⟨i, g, hroute, hi⟩ := exists_route hcount.wellFormed k
  obtain ⟨u, hsegment, hu⟩ := Segment.remove_ok (part_wellFormed hcount.wellFormed hi) k
  refine ⟨_, ?_, hcount.trans (leads_without hcount.wellFormed hroute hi hu)⟩
  rw [filter_part hcount.wellFormed hroute hi] at hsegment
  exact (onSegmentOf_eq _ hroute).trans (onSegment_ok hi hsegment)

/-- A lookup that is counted first tells of the store what it tells of the segment that the key belongs to. -/
theorem counted_ok {α : Type} {x : Segment.Op α} {y : Op α} {f : Option Record → α} (hs : s.WellFormed) (k : Value)
    (hy : y s = onSegmentOf k x (s.tally (s.gets + 1) s.puts s.removes))
    (hx : ∀ t : Segment.State, t.WellFormed → (∃ r? u, x t = .ok (f r?) u ∧ Segment.Leads t u (t.lasting k) ∧
      ∀ r, r? = some r ↔ r ∈ u.records ∧ r.key? = some k) ∨ Segment.Breaks x t) :
    (∃ r? s', y s = .ok (f r?) s' ∧ Leads s s' (s.lasting k) ∧ ∀ r, r? = some r ↔ r ∈ s'.records ∧ r.key? = some k) ∨
    Breaks y s := by
  have hcount := leads_tally hs (s.gets + 1) s.puts s.removes
  obtain ⟨i, g, hroute, hi⟩ := exists_route hcount.wellFormed k
  have hrun : y s = onSegment i x _ := hy.trans (onSegmentOf_eq _ hroute)
  rcases hx _ (part_wellFormed hcount.wellFormed hi) with ⟨r?, u, hsegment, hu, hr⟩ | hbreaks
  · refine Or.inl ⟨r?, _, hrun.trans (onSegment_ok hi hsegment),
      hcount.trans (leads_lasting hcount.wellFormed hroute hi hu), fun r => ?_⟩
    rw [hr]
    exact and_congr_left fun hk => mem_update hcount.wellFormed hroute hi hu hk
  · exact Or.inr ((breaks_of_part hcount.wellFormed hi hbreaks).of_leads hcount fun e s'' h => hrun.trans h)

theorem getRecord?_ok (hs : s.WellFormed) (k : Value) :
    (∃ r? s', getRecord? k s = .ok r? s' ∧ Leads s s' (s.lasting k) ∧
      ∀ r, r? = some r ↔ r ∈ s'.records ∧ r.key? = some k) ∨
    Breaks (getRecord? k) s :=
  counted_ok (f := id) hs k rfl fun _ ht => Segment.getRecord?_ok ht k

theorem get?_ok (hs : s.WellFormed) (k : Value) :
    (∃ r? s', get? k s = .ok (r?.map (·.payload)) s' ∧ Leads s s' (s.lasting k) ∧
      ∀ r, r? = some r ↔ r ∈ s'.records ∧ r.key? = some k) ∨
    Breaks (get? k) s :=
  counted_ok hs k rfl fun _ ht => Segment.get?_ok ht k

theorem getEntity?_ok (hs : s.WellFormed) (k : Value) :
    (∃ r? s', Leads s s' (s.lasting k) ∧ (∀ r, r? = some r ↔ r ∈ s'.records ∧ r.key? = some k) ∧
      getEntity? k s = (match r? with
        | none => .ok none s'
        | some r => match Payload.decode r.payload with
          | .ok e => .ok (some e) s'
          | .error fault => .error (.error (.codec fault)) s')) ∨
    Breaks (getEntity? k) s := by
  rcases get?_ok hs k with ⟨r?, s', hrun, hleads, hr⟩ | hbreaks
  · refine Or.inl ⟨r?, s', hleads, hr, ?_⟩
    cases r? with
    | none => simp only [getEntity?, Action.bind_ok hrun, Option.map_none, Action.pure_run]
    | some r =>
      simp only [getEntity?, Action.bind_ok hrun, Option.map_some]
      cases Payload.decode r.payload <;> rfl
  · exact Or.inr (hbreaks.of_leads (Leads.refl hs) fun e s'' h => Action.bind_error h)

/-! ### Putting -/

/-- Why a store without room refuses a record. -/
def Refuses (s : Store) (e : Error) : Prop :=
  (∃ reason payload, e = .capacityExceeded reason payload ∧
    ¬ (s.counters.maxItems? = none ∧ s.counters.maxBytes? = none)) ∨ ∃ c, s.memory.Refuses c e

/-- No limits are set, and the memory has room for whatever is asked for. -/
structure Unlimited (s : Store) : Prop where
  maxItems? : s.counters.maxItems? = none
  maxBytes? : s.counters.maxBytes? = none
  limit? : s.memory.arena.limit? = none
  faultless : s.memory.faults = .never

instance : Decidable s.Unlimited :=
  decidable_of_iff (s.counters.maxItems? = none ∧ s.counters.maxBytes? = none ∧ s.memory.arena.limit? = none ∧
    s.memory.faults = .never)
    ⟨fun ⟨hitems, hbytes, hlimit, hfaultless⟩ => ⟨hitems, hbytes, hlimit, hfaultless⟩,
      fun h => ⟨h.maxItems?, h.maxBytes?, h.limit?, h.faultless⟩⟩

theorem Unlimited.not_refuses {e : Error} (hs : s.Unlimited) : ¬ s.Refuses e := by
  rintro (⟨reason, payload, -, hlimited⟩ | ⟨call, hrefuses⟩)
  · exact hlimited ⟨hs.maxItems?, hs.maxBytes?⟩
  · exact Memory.not_refuses hs.faultless hs.limit? hrefuses

theorem put_eq {payload : Bytes} (s : Store) (ttl : Lifetime) (hk : Payload.key payload = .ok k)
    (hroute : Placement.route? s.slots k = some i) :
    put payload ttl s = onSegment i (Segment.put k (Record.fresh payload ttl s.clock.now))
      (s.tally s.gets (s.puts + 1) s.removes) := by
  simp only [put, Action.modify_bind, hk]
  exact onSegmentOf_eq _ hroute

/-- A put under the key of its payload answers the bytes that it replaces. If it is refused all records stay. -/
theorem put_cases {payload : Bytes} (hs : s.WellFormed) (ttl : Lifetime) (hfits : payload.length < Record.lengthLimit)
    (hk : Payload.key payload = .ok k) :
    (∃ e s', s.Refuses e ∧ put payload ttl s = .error (.error e) s' ∧ Leads s s' s.records) ∨
    ∃ h s', put payload ttl s = .ok (weight (s.records.filter (·.key? = some k))) s' ∧
      Leads s s' (⟨payload, s.clock.now, ttl, h⟩ ::ₘ s.records.filter (·.key? ≠ some k)) := by
  have hcount := leads_tally hs s.gets (s.puts + 1) s.removes
  obtain ⟨i, g, hroute, hi⟩ := exists_route hcount.wellFormed k
  have hkey {h : Handle} : Record.key? ⟨payload, s.clock.now, ttl, h⟩ = some k := Record.key?_eq_some_iff.mpr hk
  have hrun := put_eq s ttl hk hroute
  rcases Segment.put_cases (part_wellFormed hcount.wellFormed hi) hfits (hkey (h := .null)) with
    ⟨reason, hrefuses, hsegment⟩ | ⟨c, e, u, hrefuses, hsegment, hu⟩ | ⟨h, u, hsegment, hu⟩
  · exact Or.inl ⟨_, _, Or.inl ⟨reason, payload, rfl, hrefuses.limited⟩, hrun.trans (onSegment_error hi hsegment),
      hcount.trans (leads_same hcount.wellFormed hi (Segment.Leads.refl (part_wellFormed hcount.wellFormed hi)))⟩
  · exact Or.inl ⟨e, _, Or.inr ⟨c, hrefuses⟩, hrun.trans (onSegment_error hi hsegment),
      hcount.trans (leads_same hcount.wellFormed hi hu)⟩
  · rw [filter_part hcount.wellFormed hroute hi] at hsegment
    exact Or.inr ⟨h, _, hrun.trans (onSegment_ok hi hsegment),
      hcount.trans (leads_stored hcount.wellFormed hroute hi hkey hu)⟩

theorem put_of_no_key {payload : Bytes} {fault : CodecFault} (hs : s.WellFormed) (ttl : Lifetime)
    (hk : Payload.key payload = .error fault) :
    ∃ s', put payload ttl s = .error (.error (.codec fault)) s' ∧ Leads s s' s.records := by
  refine ⟨_, ?_, leads_tally hs s.gets (s.puts + 1) s.removes⟩
  simp only [put, Action.modify_bind, hk]
  rfl

end RecordStore.Store
