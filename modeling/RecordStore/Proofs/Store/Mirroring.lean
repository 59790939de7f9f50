import RecordStore.Proofs.Store.Catalog
import RecordStore.Proofs.Store.Making

/-! # Stores are maps

A store without limits answers every request as the catalog of its entries does, however its segments are placed. So
where records lie, and when tables grow, shrink and close up, shows in no answer. -/

namespace RecordStore

/-- What a record says, with the key that its payload gives. -/
def Record.binding (r : Record) : Option Value × Entry := (r.key?, r.entry)

/-- The records say what the bindings do. -/
def Lists (bindings : List (Value × Entry)) (rs : Multiset Record) : Prop :=
  rs.map Record.binding = ↑(bindings.map fun b => (some b.1, b.2))

namespace Lists

variable {bindings : List (Value × Entry)} {rs : Multiset Record} {r : Record} {k : Value} {e : Entry}

theorem nil : Lists [] 0 := rfl

theorem cons (h : Lists bindings rs) (hk : r.key? = some k) : Lists ((k, r.entry) :: bindings) (r ::ₘ rs) := by
  unfold Lists at h ⊢
  rw [Multiset.map_cons, h, List.map_cons, ← Multiset.cons_coe, Record.binding, hk]

theorem map_entry (h : Lists bindings rs) {α : Type} (f : Entry → α) :
    rs.map (fun r => f r.entry) = ↑(bindings.map fun b => f b.2) := by
  have hsame := congrArg (Multiset.map fun x => f x.2) h
  rw [Multiset.map_map, Multiset.map_coe, List.map_map] at hsame
  exact hsame

theorem card (h : Lists bindings rs) : rs.card = bindings.length := by
  have hsame := congrArg Multiset.card h
  rw [Multiset.card_map, Multiset.coe_card, List.length_map] at hsame
  exact hsame

theorem weight (h : Lists bindings rs) : weight rs = (bindings.map fun b => b.2.size).sum := by
  have hsum := congrArg Multiset.sum (h.map_entry Entry.size)
  rw [Multiset.sum_coe] at hsum
  exact hsum

theorem mem (h : Lists bindings rs) (hr : r ∈ rs) (hk : r.key? = some k) : (k, r.entry) ∈ bindings := by
  have hmem : r.binding ∈ rs.map Record.binding := Multiset.mem_map_of_mem _ hr
  rw [h, Multiset.mem_coe, Record.binding, hk] at hmem
  obtain ⟨b, hb, heq⟩ := List.mem_map.mp hmem
  obtain ⟨hkey, hentry⟩ := Prod.mk.inj heq
  rw [← hentry, ← Option.some.inj hkey]
  exact hb

theorem exists_record (h : Lists bindings rs) (hb : (k, e) ∈ bindings) : ∃ r ∈ rs, r.key? = some k ∧ r.entry = e := by
  have hmem : (some k, e) ∈ rs.map Record.binding := by
    rw [h]
    exact List.mem_map.mpr ⟨(k, e), hb, rfl⟩
  obtain ⟨r, hr, heq⟩ := Multiset.mem_map.mp hmem
  obtain ⟨hk, he⟩ := Prod.mk.inj heq
  exact ⟨r, hr, hk, he⟩

theorem exists_key (h : Lists bindings rs) (hr : r ∈ rs) : ∃ k, r.key? = some k := by
  have hmem : r.binding ∈ rs.map Record.binding := Multiset.mem_map_of_mem _ hr
  rw [h] at hmem
  obtain ⟨b, -, heq⟩ := List.mem_map.mp hmem
  exact ⟨b.1, (congrArg Prod.fst heq).symm⟩

theorem filter {p : Value × Entry → Bool} {q : Record → Prop} [DecidablePred q] (h : Lists bindings rs)
    (hpq : ∀ r k, r.key? = some k → (p (k, r.entry) = true ↔ q r)) : Lists (bindings.filter p) (rs.filter q) := by
  have hsame := congrArg (Multiset.filter fun x => x.1.elim false (fun k => p (k, x.2)) = true) h
  rw [Multiset.filter_map, Multiset.filter_coe, List.filter_map] at hsame
  have hrecords : rs.filter q = rs.filter ((fun x => x.1.elim false (fun k => p (k, x.2)) = true) ∘ Record.binding) := by
    refine Multiset.filter_congr fun r hr => ?_
    obtain ⟨k, hk⟩ := h.exists_key hr
    rw [Function.comp_apply, Record.binding, hk]
    exact (hpq r k hk).symm
  have hbindings : bindings.filter ((fun x => decide (x.1.elim false (fun k => p (k, x.2)) = true)) ∘
      fun b => (some b.1, b.2)) = bindings.filter p := List.filter_congr fun b _ => by simp
  rw [← hrecords, hbindings] at hsame
  exact hsame

end Lists

namespace Store

open Catalog (Accepts)

/-- Nothing hinders a store that is in order, without limits, planned faults or listeners that break. -/
structure Unhindered (s : Store) : Prop where
  wellFormed : s.WellFormed
  maxItems? : s.counters.maxItems? = none
  maxBytes? : s.counters.maxBytes? = none
  limit? : s.memory.arena.limit? = none
  faultless : s.memory.faults = .never
  calm : s.notifier.Calm

/-- The store has the entries that the catalog binds, no others, and counts them. -/
structure Shows (s : Store) (c : Catalog) : Prop where
  clock : s.clock = c.clock
  entries : Lists c.bindings s.records
  size : s.size = c.size
  bytes : s.bytesUsed = UInt64.ofNat c.bytes

variable {s s' : Store} {c c' : Catalog} {k : Value} {rs : Multiset Record}

theorem Unhindered.of_leads {clock : Clock} (hs : s.Unhindered) (h : Leads { s with clock } s' rs) : s'.Unhindered where
  wellFormed := h.wellFormed
  maxItems? := h.keeps.maxItems?.trans hs.maxItems?
  maxBytes? := h.keeps.maxBytes?.trans hs.maxBytes?
  limit? := h.keeps.limit?.trans hs.limit?
  faultless := h.keeps.faultless hs.faultless
  calm := h.keeps.calm hs.calm

theorem Unhindered.unlimited (hs : s.Unhindered) : s.Unlimited := ⟨hs.maxItems?, hs.maxBytes?, hs.limit?, hs.faultless⟩

theorem Unhindered.not_refuses {e : Error} (hs : s.Unhindered) : ¬ s.Refuses e := hs.unlimited.not_refuses

theorem Unhindered.not_breaks {α : Type} {x : Op α} (hs : s.Unhindered) : ¬ Breaks x s := fun h =>
  h.not_calm hs.calm

theorem shows_of_wellFormed (hs : s.WellFormed) (hclock : s.clock = c.clock) (h : Lists c.bindings s.records) :
    s.Shows c where
  clock := hclock
  entries := h
  size := hs.items.trans h.card
  bytes := by rw [bytesUsed, hs.bytes, h.weight, Catalog.bytes]

theorem Leads.shows (h : Leads s s' rs) (hc : s.Shows c) (hclock : c'.clock = c.clock) (hrs : Lists c'.bindings rs) :
    s'.Shows c' :=
  shows_of_wellFormed h.wellFormed (h.keeps.clock.trans (hc.clock.trans hclock.symm)) (h.records ▸ hrs)

/-! ### What is found -/

theorem Shows.find?_eq {r? : Option Record} (hc : s.Shows c) (hr : ∀ r, r? = some r ↔ r ∈ s.records ∧ r.key? = some k) :
    r?.map Record.entry = c.find? k := by
  cases r? with
  | some r =>
    obtain ⟨hmem, hk⟩ := (hr r).mp rfl
    exact (Catalog.find?_eq_some_iff.mpr (hc.entries.mem hmem hk)).symm
  | none =>
    cases hfind : c.find? k with
    | none => rfl
    | some e =>
      obtain ⟨r, hmem, hk, -⟩ := hc.entries.exists_record (Catalog.find?_eq_some_iff.mp hfind)
      cases (hr r).mpr ⟨hmem, hk⟩

/-- The record with a key takes what the entry of the key does. -/
theorem Shows.weight_eq (hc : s.Shows c) (k : Value) : weight (s.records.filter (·.key? = some k)) = c.sizeOf k := by
  have hlists : Lists (c.bindings.filter fun b => b.1 = k) (s.records.filter (·.key? = some k)) :=
    hc.entries.filter fun r k' hk => by simp [hk]
  rw [hlists.weight, Catalog.sizeOf]
  cases hfind : c.find? k with
  | none =>
    rw [List.filter_eq_nil_iff.mpr fun b hb => by simpa using Catalog.find?_eq_none hfind hb]
    rfl
  | some e =>
    have hone : c.bindings.filter (fun b => b.1 = k) = [(k, e)] := by
      refine List.perm_singleton.mp ((List.perm_ext_iff_of_nodup (c.distinct.of_map.filter _) (List.nodup_singleton _)).mpr
        fun b => ?_)
      rw [List.mem_filter, List.mem_singleton, decide_eq_true_eq]
      constructor
      · rintro ⟨hb, rfl⟩
        rw [← Catalog.eq_of_mem hfind hb rfl]
      · rintro rfl
        exact ⟨Catalog.find?_eq_some_iff.mp hfind, rfl⟩
    rw [hone]
    rfl

theorem Shows.unbind (hc : s.Shows c) (k : Value) : Lists (c.unbind k).bindings (s.records.filter (·.key? ≠ some k)) :=
  hc.entries.filter fun r k' hk => by simp [hk]

theorem Shows.unexpired (hc : s.Shows c) : Lists c.unexpired.bindings s.unexpired :=
  hc.entries.filter fun r k hk => by rw [hc.clock]; simp [Record.entry, Entry.isOver, Record.isOver]

theorem Shows.see (hc : s.Shows c) (k : Value) : Lists (c.see k).2.bindings (s.lasting k) := by
  rw [congrArg Prod.snd (Catalog.see_eq c k)]
  refine hc.entries.filter fun r k' hk => ?_
  rw [hc.clock, hk, decide_eq_true_eq, Option.some.injEq]
  exact Iff.rfl

/-! ### Answers -/

/-- The answers are the same, and the store shows what the catalog has become. -/
structure Mirrors (x : Response × Store) (y : Response × Catalog) : Prop where
  response : x.1 = y.1
  shows : x.2.Shows y.2

theorem put_mirrors {payload : Bytes} (hs : s.Unhindered) (hc : s.Shows c) (ttl : Lifetime)
    (hfits : payload.length < Record.lengthLimit) :
    Mirrors (respond .number (put payload ttl) s) (c.put payload ttl) := by
  cases hk : Payload.key payload with
  | error fault =>
    obtain ⟨s', hrun, hleads⟩ := put_of_no_key hs.wellFormed ttl hk
    simp only [respond_error hrun, Catalog.put, hk]
    exact ⟨rfl, hleads.shows hc rfl hc.entries⟩
  | ok k =>
    rcases put_cases hs.wellFormed ttl hfits hk with ⟨e, s', hrefuses, -⟩ | ⟨h, s', hrun, hleads⟩
    · exact absurd hrefuses hs.not_refuses
    · simp only [respond_ok hrun, Catalog.put, hk]
      refine ⟨by rw [hc.weight_eq], hleads.shows hc rfl ?_⟩
      rw [← hc.clock]
      exact (hc.unbind k).cons (Record.key?_eq_some_iff.mpr hk)

theorem putEntity_mirrors {e : Entity} {lifetime? : Option Duration} (hs : s.Unhindered) (hc : s.Shows c)
    (hfits : ∀ payload, s.schema.encode e = .ok payload → payload.length < Record.lengthLimit) :
    Mirrors (answer (.putEntity e lifetime?) s) (c.answer s.schema (.putEntity e lifetime?)) := by
  rw [answer, Catalog.answer]
  rcases putEntity_cases s e lifetime? with
    ⟨fault, hl, hrun⟩ | ⟨ttl, fault, hl, he, hrun⟩ | ⟨ttl, payload, hl, he, hrun⟩
  · simp only [respond_error hrun, hl]
    exact ⟨rfl, hc⟩
  · simp only [respond_error hrun, hl, he]
    exact ⟨rfl, hc⟩
  · simp only [hl, he]
    have hput := put_mirrors hs hc ttl (hfits payload he)
    unfold respond at hput ⊢
    rw [hrun]
    exact hput

/-- What is found under a key is what the catalog sees, and so is what is left. -/
theorem Leads.seen {r? : Option Record} (hleads : Leads s s' (s.lasting k)) (hc : s.Shows c)
    (hr : ∀ r, r? = some r ↔ r ∈ s'.records ∧ r.key? = some k) :
    r?.map Record.entry = (c.see k).1 ∧ s'.Shows (c.see k).2 := by
  have hsee := Catalog.see_eq c k
  have hclock : (c.see k).2.clock = c.clock := by
    rw [congrArg Prod.snd hsee]
    rfl
  have hshows := hleads.shows hc hclock (hc.see k)
  exact ⟨(hshows.find?_eq hr).trans (congrArg Prod.fst hsee).symm, hshows⟩

theorem contains_mirrors (hs : s.Unhindered) (hc : s.Shows c) (k : Value) :
    Mirrors (answer (.contains k) s) (c.answer s.schema (.contains k)) := by
  rcases contains_ok hs.wellFormed k with ⟨b, s', hrun, hleads, hb⟩ | hbreaks
  · rw [answer, respond_ok hrun]
    have hsee := Catalog.see_eq c k
    have hshows : s'.Shows (c.see k).2 := hleads.shows hc (by rw [congrArg Prod.snd hsee]; rfl) (hc.see k)
    refine ⟨congrArg Response.flag (Bool.eq_iff_iff.mpr ?_), hshows⟩
    rw [hb, congrArg Prod.fst hsee, Option.isSome_iff_exists]
    constructor
    · rintro ⟨r, hr, hk⟩
      exact ⟨r.entry, Catalog.find?_eq_some_iff.mpr (hshows.entries.mem hr hk)⟩
    · rintro ⟨e, he⟩
      obtain ⟨r, hr, hk, -⟩ := hshows.entries.exists_record (Catalog.find?_eq_some_iff.mp he)
      exact ⟨r, hr, hk⟩
  · exact absurd hbreaks hs.not_breaks

theorem getRecord_mirrors (hs : s.Unhindered) (hc : s.Shows c) (k : Value) :
    Mirrors (answer (.getRecord k) s) (c.answer s.schema (.getRecord k)) := by
  rcases getRecord?_ok hs.wellFormed k with ⟨r?, s', hrun, hleads, hr⟩ | hbreaks
  · obtain ⟨hseen, hshows⟩ := hleads.seen hc hr
    rw [answer, respond_ok hrun, hseen]
    exact ⟨rfl, hshows⟩
  · exact absurd hbreaks hs.not_breaks

theorem get_mirrors (hs : s.Unhindered) (hc : s.Shows c) (k : Value) :
    Mirrors (answer (.get k) s) (c.answer s.schema (.get k)) := by
  rcases get?_ok hs.wellFormed k with ⟨r?, s', hrun, hleads, hr⟩ | hbreaks
  · obtain ⟨hseen, hshows⟩ := hleads.seen hc hr
    rw [answer, respond_ok hrun, Catalog.answer, ← hseen, Option.map_map]
    exact ⟨rfl, hshows⟩
  · exact absurd hbreaks hs.not_breaks

theorem getEntity_mirrors (hs : s.Unhindered) (hc : s.Shows c) (k : Value) :
    Mirrors (answer (.getEntity k) s) (c.answer s.schema (.getEntity k)) := by
  rcases getEntity?_ok hs.wellFormed k with ⟨r?, s', hleads, hr, hrun⟩ | hbreaks
  · obtain ⟨hseen, hshows⟩ := hleads.seen hc hr
    rw [answer, Catalog.answer, ← hseen]
    cases r? with
    | none =>
      rw [respond_ok hrun]
      exact ⟨rfl, hshows⟩
    | some r =>
      have hpayload : r.entry.payload = r.payload := rfl
      cases hd : Payload.decode r.payload with
      | ok e =>
        simp only [hd] at hrun
        simp only [respond_ok hrun, Option.map_some, hpayload, hd]
        exact ⟨rfl, hshows⟩
      | error fault =>
        simp only [hd] at hrun
        simp only [respond_error hrun, Option.map_some, hpayload, hd]
        exact ⟨rfl, hshows⟩
  · exact absurd hbreaks hs.not_breaks

theorem remove_mirrors (hs : s.Unhindered) (hc : s.Shows c) (k : Value) :
    Mirrors (answer (.remove k) s) (c.answer s.schema (.remove k)) := by
  obtain ⟨s', hrun, hleads⟩ := remove_ok hs.wellFormed k
  rw [answer, respond_ok hrun, hc.weight_eq]
  exact ⟨rfl, hleads.shows hc rfl (hc.unbind k)⟩

/-! ### Answers about all entries -/

theorem matchedBy_iff {tm : Template} {r : Record} :
    Segment.matchedBy tm r = true ↔ tm.matches? r.payload = .ok true := by
  unfold Segment.matchedBy
  cases tm.matches? r.payload <;> simp

/-- The matches are those of the catalog, in some order. -/
theorem matching_mirrors {tm : Template} (hs : s.Unhindered) (hc : s.Shows c)
    (hreadable : ∀ b ∈ c.unexpired.bindings, ∃ found, tm.matches? b.2.payload = .ok found) :
    ∃ matched s', matching tm s = .ok matched s' ∧ (matched : Multiset Bytes) = c.matched tm ∧ s'.Shows c.unexpired := by
  rcases matching_cases hs.wellFormed tm with
    ⟨matched, s', hrun, hleads, hmatched, -⟩ | ⟨fault, s', rs, r, hr, hfault, -⟩ | hbreaks
  · refine ⟨matched, s', hrun, ?_, hleads.shows hc rfl hc.unexpired⟩
    have hlists : Lists (c.unexpired.bindings.filter fun b => tm.matches? b.2.payload = .ok true)
        (s.unexpired.filter (Segment.matchedBy tm ·)) :=
      hc.unexpired.filter fun r k hk => by rw [matchedBy_iff, decide_eq_true_eq]; rfl
    exact hmatched.trans (hlists.map_entry Entry.payload)
  · obtain ⟨k, hk⟩ := hc.unexpired.exists_key hr
    obtain ⟨found, hfound⟩ := hreadable _ (hc.unexpired.mem hr hk)
    rw [show r.entry.payload = r.payload from rfl, hfault] at hfound
    cases hfound
  · exact absurd hbreaks hs.not_breaks

theorem mapM_decode {payloads : List Bytes} (h : ∀ p ∈ payloads, ∃ e, Payload.decode p = .ok e) :
    payloads.mapM Payload.decode = .ok (payloads.filterMap fun p => (Payload.decode p).toOption) := by
  induction payloads with
  | nil => rfl
  | cons p payloads ih =>
    obtain ⟨e, he⟩ := h p List.mem_cons_self
    have hrest := ih fun p' hp' => h p' (List.mem_cons_of_mem p hp')
    rw [List.mapM_cons, he, hrest, List.filterMap_cons_some (by rw [he]; rfl)]
    rfl

theorem fetch_mirrors {tm : Template} (hs : s.Unhindered) (hc : s.Shows c) (hq : c.Accepts s.schema (.fetch tm)) :
    Mirrors (answer (.fetch tm) s) (c.answer s.schema (.fetch tm)) := by
  obtain ⟨hreadable, hdecodable⟩ := hq
  obtain ⟨matched, s', hrun, hmatched, hshows⟩ := matching_mirrors hs hc hreadable
  have hdecode := mapM_decode fun p hp => hdecodable p ((Multiset.coe_eq_coe.mp hmatched).mem_iff.mp hp)
  have hfetch : fetch tm s = .ok _ s' := (fetch_ok hrun).trans (by rw [hdecode, Action.ofCodec_ok])
  rw [answer, respond_ok hfetch]
  refine ⟨?_, hshows⟩
  have hentities := congrArg (Multiset.filterMap fun p => (Payload.decode p).toOption) hmatched
  rw [Multiset.filterMap_coe, Multiset.filterMap_coe] at hentities
  exact congrArg Response.entities hentities

theorem evictExpired_mirrors (hs : s.Unhindered) (hc : s.Shows c) :
    Mirrors (answer .evictExpired s) (c.answer s.schema .evictExpired) := by
  rcases evictExpired_ok hs.wellFormed with ⟨n, s', hrun, hleads, hcount⟩ | hbreaks
  · rw [answer, respond_ok hrun]
    refine ⟨congrArg Response.number ?_, hleads.shows hc rfl hc.unexpired⟩
    rw [hleads.records, hc.entries.card, hc.unexpired.card] at hcount
    have hsplit := List.length_eq_countP_add_countP (fun b : Value × Entry => b.2.isOver c.clock.now) (l := c.bindings)
    have hrest : c.unexpired.bindings.length = c.bindings.countP fun b => !b.2.isOver c.clock.now :=
      List.countP_eq_length_filter.symm
    simp only [Bool.not_eq_true, Bool.decide_eq_false] at hsplit
    omega
  · exact absurd hbreaks hs.not_breaks

theorem destroy_mirrors (hs : s.Unhindered) (hc : s.Shows c) :
    Mirrors (answer .destroy s) (c.answer s.schema .destroy) := by
  obtain ⟨s', hrun, hleads⟩ := destroy_ok hs.wellFormed
  rw [answer, respond_ok hrun]
  exact ⟨rfl, hleads.shows hc rfl Lists.nil⟩

/-! ### Runs -/

theorem answer_mirrors {q : Request} (hs : s.Unhindered) (hc : s.Shows c) (hq : c.Accepts s.schema q) :
    Mirrors (answer q s) (c.answer s.schema q) := by
  cases q with
  | put payload ttl => exact put_mirrors hs hc ttl hq
  | putEntity e lifetime? => exact putEntity_mirrors hs hc hq
  | contains key => exact contains_mirrors hs hc key
  | getRecord key => exact getRecord_mirrors hs hc key
  | get key => exact get_mirrors hs hc key
  | getEntity key => exact getEntity_mirrors hs hc key
  | remove key => exact remove_mirrors hs hc key
  | matching tm =>
    obtain ⟨matched, s', hrun, hmatched, hshows⟩ := matching_mirrors hs hc hq
    rw [answer, respond_ok hrun, hmatched]
    exact ⟨rfl, hshows⟩
  | fetch tm => exact fetch_mirrors hs hc hq
  | evictExpired => exact evictExpired_mirrors hs hc
  | destroy => exact destroy_mirrors hs hc
  | setClock wall =>
    refine ⟨rfl, ?_⟩
    exact { clock := congrArg (·.set wall) hc.clock, entries := hc.entries, size := hc.size, bytes := hc.bytes }

theorem run_mirrors {requests : List Request} (hs : s.Unhindered) (hc : s.Shows c)
    (hall : c.AcceptsAll s.schema requests) :
    (run requests s).1 = (c.run s.schema requests).1 ∧ (run requests s).2.Shows (c.run s.schema requests).2 := by
  induction requests generalizing s c with
  | nil => exact ⟨rfl, hc⟩
  | cons q requests ih =>
    obtain ⟨hq, hrest⟩ := hall
    obtain ⟨clock, rs, hleads⟩ := answer_leads hs.wellFormed hq.fits
    obtain ⟨hresponse, hshows⟩ := answer_mirrors hs hc hq
    have hschema : (answer q s).2.schema = s.schema := hleads.keeps.schema
    obtain ⟨hresponses, hfinal⟩ := ih (hs.of_leads hleads) hshows (hschema ▸ hrest)
    rw [hschema] at hresponses hfinal
    exact ⟨congrArg₂ List.cons hresponse hresponses, hfinal⟩

variable {schema : Schema} {config : StoreConfig} {memory : Memory} {notifier : Notifier} {clock : Clock}
  {draw : Nat → Nat}

/-- Without limits a valid configuration gives a store that answers all requests as a map from keys to entries does,
    and always has the entries of that map, unless the layout it asks for cannot be addressed. -/
theorem mirrors_of_create (hvalid : config.validate = .ok ()) (hitems : config.maxItems? = none)
    (hbytes : config.maxBytes? = none) (hthreshold : config.nominalCapacity * 15 < wordLimit)
    (hsound : memory.arena.Sound) (hlimit : memory.arena.limit? = none) (hfaults : memory.faults = .never)
    (hcalm : notifier.Calm) :
    (∃ s, create schema config memory notifier clock draw = .ok s ∧
      ∀ requests, (Catalog.empty clock).AcceptsAll schema requests →
        (run requests s).1 = ((Catalog.empty clock).run schema requests).1 ∧
        (run requests s).2.Shows ((Catalog.empty clock).run schema requests).2) ∨
    create schema config memory notifier clock draw = .error (.abort .capacityOverflow) ∧
      (maxSlots < config.maxSegments ∨ Segment.maxCapacity < config.segmentCapacity) := by
  rcases create_of_valid hvalid hthreshold with hok | hlarge
  · refine Or.inl ⟨_, hok, fun requests hall => ?_⟩
    have hsteady : memory.Steady := by
      rw [Memory.Steady, hfaults]
      exact ⟨rfl, rfl, rfl⟩
    have hmade : (made schema config memory notifier clock draw).WellFormed := wellFormed_made hvalid hsteady hsound
    have hshows : (made schema config memory notifier clock draw).Shows (Catalog.empty clock) :=
      shows_of_wellFormed hmade rfl (records_made ▸ Lists.nil)
    exact run_mirrors ⟨hmade, hitems, hbytes, hlimit, hfaults, hcalm⟩ hshows hall
  · exact Or.inr hlarge

/-- An entry is put, found and replaced, and not found any more when its time is over; another one is removed. -/
theorem mirrors_of_lifetime :
    ∃ s, createPlain ⟨"Entry", []⟩ {} ⟨0⟩ (Placement.evenly 16 256) = .ok s ∧
      (run [.put [1, 0, 1, 1, 7] 5, .get (.bool true), .put [1, 0, 1, 1] 5, .setClock 9, .contains (.bool true),
        .put [1, 0, 1, 0] 5, .remove (.bool false), .destroy] s).1 =
        [.number 0, .payload (some [1, 0, 1, 1, 7]), .number 21, .done, .flag false, .number 0, .number 20, .done] := by
  have hfits {n : Nat} (hn : n ≤ 5) : n < Record.lengthLimit := Nat.lt_of_le_of_lt hn (by decide)
  rcases @mirrors_of_create ⟨"Entry", []⟩ {} .empty (.silent "Entry") ⟨0⟩ (Placement.evenly 16 256) rfl rfl rfl
    (by decide) (Arena.sound_empty none) rfl rfl (Notifier.calm_silent "Entry") with ⟨s, hs, hall⟩ | ⟨-, hlarge⟩
  · refine ⟨s, hs, (hall _ ?_).1.trans rfl⟩
    exact ⟨hfits (by decide), trivial, hfits (by decide), trivial, trivial, hfits (by decide), trivial, trivial, trivial⟩
  · rcases hlarge with hlarge | hlarge
    · exact absurd hlarge (by decide)
    · exact absurd hlarge (by decide)

end Store

end RecordStore
