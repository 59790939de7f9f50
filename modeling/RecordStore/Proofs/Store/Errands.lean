import RecordStore.Proofs.Keys
import RecordStore.Proofs.Store.Accounts
import RecordStore.Proofs.Store.FailingCalls
import RecordStore.Proofs.Store.Mirroring

/-! # Errands

An errand asks for the entry of one key, or puts one that lasts for ever. What it is told and what becomes of the key
depends on the payload of that key alone, wherever the records lie. -/

namespace RecordStore.Store

/-! ### What is asked -/

/-- What may be asked about one key. What is put lasts for ever. -/
inductive Errand
  | put (payload : Bytes)
  | putEntity (e : Entity)
  | contains (key : Value)
  | get (key : Value)
  | getEntity (key : Value)
  | remove (key : Value)
  | matching (key : Value)

namespace Errand

/-- The request that is made of a store. -/
def request : Errand → Request
  | put payload => .put payload Lifetime.forever
  | putEntity e => .putEntity e none
  | contains key => .contains key
  | get key => .get key
  | getEntity key => .getEntity key
  | remove key => .remove key
  | matching key => .matching (.ofKey key)

/-- The key that is asked about. What is to be put may have none. -/
def key? (schema : Schema) : Errand → Option Value
  | put payload => (Payload.key payload).toOption
  | putEntity e => (schema.encode e).toOption.bind fun payload => (Payload.key payload).toOption
  | contains key => some key
  | get key => some key
  | getEntity key => some key
  | remove key => some key
  | matching key => some key

/-- The bytes that the entry of a key takes, or 0. -/
def taken (old? : Option Bytes) : Nat := (old?.map fun p => Record.sizeFor p.length).getD 0

/-- What a put is told, and the payload that the key has then. -/
def putOver (payload : Bytes) (old? : Option Bytes) : Response × Option Bytes :=
  match Payload.key payload with
  | .error fault => (.failed (.error (.codec fault)), old?)
  | .ok _ =>
    if payload.length < Record.lengthLimit then (.number (taken old?), some payload)
    else (.failed (.error (.invalidArgument (.payloadTooLong payload.length))), old?)

/-- What is told to whom asks about a key with that payload, or with none, and the payload that the key has then. -/
def exchange (schema : Schema) (old? : Option Bytes) : Errand → Response × Option Bytes
  | put payload => putOver payload old?
  | putEntity e =>
    match schema.encode e with
    | .error fault => (.failed (.error (.codec fault)), old?)
    | .ok payload => putOver payload old?
  | contains _ => (.flag old?.isSome, old?)
  | get _ => (.payload old?, old?)
  | getEntity _ =>
    match old?.map Payload.decode with
    | none => (.entity none, old?)
    | some (.ok e) => (.entity (some e), old?)
    | some (.error fault) => (.failed (.error (.codec fault)), old?)
  | remove _ => (.number (taken old?), none)
  | matching _ => (.payloads old?.toList, old?)

/-- What an errand is told, and the payloads of the keys afterwards. -/
def carryOut (schema : Schema) (q : Errand) (f : Value → Option Bytes) : Response × (Value → Option Bytes) :=
  match q.key? schema with
  | none => ((q.exchange schema none).1, f)
  | some k => ((q.exchange schema (f k)).1, Function.update f k (q.exchange schema (f k)).2)

variable {schema : Schema} {q : Errand} {f g : Value → Option Bytes} {k : Value}

theorem carryOut_of_key (hk : q.key? schema = some k) :
    q.carryOut schema f = ((q.exchange schema (f k)).1, Function.update f k (q.exchange schema (f k)).2) := by
  rw [carryOut, hk]

theorem carryOut_of_no_key (hk : q.key? schema = none) : q.carryOut schema f = ((q.exchange schema none).1, f) := by
  rw [carryOut, hk]

/-- An errand leaves the other keys alone. -/
theorem carryOut_other (hk : q.key? schema ≠ some k) : (q.carryOut schema f).2 k = f k := by
  cases hkey : q.key? schema with
  | none => rw [carryOut_of_no_key hkey]
  | some k' =>
    rw [carryOut_of_key hkey]
    refine Function.update_of_ne (fun h => hk ?_) _ _
    rw [hkey, h]

/-- Where its key has the same payload an errand does the same. -/
theorem carryOut_congr (h : ∀ k, q.key? schema = some k → f k = g k) :
    (q.carryOut schema f).1 = (q.carryOut schema g).1 ∧
      ∀ k, f k = g k → (q.carryOut schema f).2 k = (q.carryOut schema g).2 k := by
  cases hkey : q.key? schema with
  | none =>
    rw [carryOut_of_no_key hkey, carryOut_of_no_key hkey]
    exact ⟨rfl, fun k => id⟩
  | some k' =>
    rw [carryOut_of_key hkey, carryOut_of_key hkey, h k' hkey]
    refine ⟨rfl, fun k hk => ?_⟩
    dsimp only
    by_cases hkk : k = k'
    · rw [hkk, Function.update_self, Function.update_self]
    · rw [Function.update_of_ne hkk, Function.update_of_ne hkk, hk]

end Errand

/-- What is to be put is short enough to be written, or is put where there is no entry that it would replace. -/
def Errand.Bearable (s : Store) (q : Errand) : Prop :=
  ∀ payload, q.request.Offers s.schema payload Lifetime.forever → payload.length < Record.lengthLimit ∨
    Record.sizeFor payload.length ≤ Block.addressable ∧
      ∀ k, Payload.key payload = .ok k → ∀ r ∈ s.records, r.key? ≠ some k

variable {s s' : Store} {f f' : Value → Option Bytes} {q : Errand} {k : Value} {p payload : Bytes}
  {rs : Multiset Record}

/-! ### What is stored -/

/-- Nothing hinders the store, it has its arena for itself, and its entries, which last for ever, are one for each key
    with a payload. -/
structure Stocks (s : Store) (f : Value → Option Bytes) : Prop where
  unhindered : s.Unhindered
  owns : s.Owns
  lasting : ∀ r ∈ s.records, r.ttl = Lifetime.forever
  stored : ∀ k p, f k = some p ↔ ∃ r ∈ s.records, r.key? = some k ∧ r.payload = p

namespace Stocks

theorem not_isOver (hs : s.Stocks f) {r : Record} (hr : r ∈ s.records) (now : UInt64) : r.isOver now = false := by
  simp [Record.isOver, Lifetime.isOver, hs.lasting r hr]

theorem lasting_eq (hs : s.Stocks f) (k : Value) : s.lasting k = s.records :=
  Multiset.filter_eq_self.mpr fun r hr => by simp [hs.not_isOver hr]

theorem unexpired_eq (hs : s.Stocks f) : s.unexpired = s.records :=
  Multiset.filter_eq_self.mpr fun r hr => by simp [hs.not_isOver hr]

theorem absent (hs : s.Stocks f) (hnew : ∀ r ∈ s.records, r.key? ≠ some k) : f k = none := by
  cases hk : f k with
  | none => rfl
  | some p =>
    obtain ⟨r, hr, hkey, -⟩ := (hs.stored k p).mp hk
    exact absurd hkey (hnew r hr)

/-- Under a key there is the payload of the key, and no other. -/
theorem filter_key (hs : s.Stocks f) (k : Value) :
    (s.records.filter (·.key? = some k)).map (·.payload) = (f k).toList := by
  cases hk : f k with
  | none =>
    rw [Multiset.filter_eq_nil.mpr fun r hr hkey => ?_]
    · rfl
    · have hsome := (hs.stored k r.payload).mpr ⟨r, hr, hkey, rfl⟩
      rw [hk] at hsome
      cases hsome
  | some p =>
    obtain ⟨r, hr, hkey, rfl⟩ := (hs.stored k p).mp hk
    rw [Store.filter_key hs.unhindered.wellFormed hr hkey]
    rfl

theorem weight_key (hs : s.Stocks f) (k : Value) :
    weight (s.records.filter (·.key? = some k)) = Errand.taken (f k) := by
  have hsizes := congrArg (Multiset.map fun p : Bytes => Record.sizeFor p.length) (hs.filter_key k)
  rw [Multiset.map_map] at hsizes
  refine (congrArg Multiset.sum hsizes).trans ?_
  cases f k <;> rfl

theorem found {r? : Option Record} (hs : s.Stocks f) (hr : ∀ r, r? = some r ↔ r ∈ s.records ∧ r.key? = some k) :
    r?.map (·.payload) = f k := by
  refine Option.ext fun p => ?_
  rw [Option.map_eq_some_iff, hs.stored]
  simp only [hr, and_assoc]

/-- What is stored is told by the records. -/
theorem of_leads (hs : s.Stocks f) (h : Leads s s' rs) (hlasting : ∀ r ∈ rs, r.ttl = Lifetime.forever)
    (hstored : ∀ k p, f' k = some p ↔ ∃ r ∈ rs, r.key? = some k ∧ r.payload = p) : s'.Stocks f' where
  unhindered := hs.unhindered.of_leads (show Leads { s with clock := s.clock } s' rs from h)
  owns := h.keeps.owns hs.owns
  lasting := h.records ▸ hlasting
  stored := h.records ▸ hstored

theorem same (hs : s.Stocks f) (h : Leads s s' s.records) : s'.Stocks f := hs.of_leads h hs.lasting hs.stored

theorem unbind (hs : s.Stocks f) (k k' : Value) (p : Bytes) : Function.update f k none k' = some p ↔
    ∃ r ∈ s.records.filter (·.key? ≠ some k), r.key? = some k' ∧ r.payload = p := by
  by_cases hk : k' = k
  · subst hk
    rw [Function.update_self]
    refine iff_of_false (fun h => by cases h) ?_
    rintro ⟨r, hr, hkey, -⟩
    exact (Multiset.mem_filter.mp hr).2 hkey
  · rw [Function.update_of_ne hk, hs.stored]
    refine exists_congr fun r => ?_
    rw [Multiset.mem_filter]
    constructor
    · rintro ⟨hr, hkey, hp⟩
      exact ⟨⟨hr, fun h => hk (Option.some.inj (hkey.symm.trans h))⟩, hkey, hp⟩
    · rintro ⟨⟨hr, -⟩, h⟩
      exact ⟨hr, h⟩

theorem bind {r : Record} (hs : s.Stocks f) (hk : r.key? = some k) (k' : Value) (p : Bytes) :
    Function.update f k (some r.payload) k' = some p ↔
      ∃ r' ∈ r ::ₘ s.records.filter (·.key? ≠ some k), r'.key? = some k' ∧ r'.payload = p := by
  have hothers := hs.unbind k k' p
  simp only [Multiset.mem_cons, or_and_right, exists_or, exists_eq_left, ← hothers]
  by_cases hkk : k' = k
  · simp [hkk, hk]
  · have hne : r.key? ≠ some k' := fun h => hkk (Option.some.inj (h.symm.trans hk))
    simp [Function.update_of_ne hkk, hne]

/-- What is stored names the payload of each key. -/
theorem unique {g : Value → Option Bytes} (hf : s.Stocks f) (hg : s.Stocks g) : f = g :=
  funext fun k => Option.ext fun p => (hf.stored k p).trans (hg.stored k p).symm

end Stocks

/-! ### What is told -/

/-- The store does what is asked as the payloads of its keys tell. -/
structure Executes (s : Store) (f : Value → Option Bytes) (q : Errand) : Prop where
  told : (answer q.request s).1 = (q.carryOut s.schema f).1
  stocks : (answer q.request s).2.Stocks (q.carryOut s.schema f).2
  schema : (answer q.request s).2.schema = s.schema

theorem Executes.of_answer {response : Response} (hrun : answer q.request s = (response, s'))
    (hcarry : q.carryOut s.schema f = (response, f')) (hstocks : s'.Stocks f') (hschema : s'.schema = s.schema) :
    Executes s f q := by
  refine ⟨?_, ?_, ?_⟩
  · rw [hrun, hcarry]
  · rw [hrun, hcarry]
    exact hstocks
  · rw [hrun]
    exact hschema

/-- What changes no payload changes nothing that is stored. -/
theorem Executes.of_same (hs : s.Stocks f) (hk : q.key? s.schema = some k)
    (hold : (q.exchange s.schema (f k)).2 = f k) (hleads : Leads s s' s.records)
    (hrun : answer q.request s = ((q.exchange s.schema (f k)).1, s')) : Executes s f q := by
  refine .of_answer hrun ?_ (hs.same hleads) hleads.keeps.schema
  rw [Errand.carryOut_of_key hk, hold, Function.update_eq_self]

theorem executes_contains (hs : s.Stocks f) (k : Value) : Executes s f (.contains k) := by
  obtain ⟨b, s', hrun, hleads, hb⟩ := (contains_ok hs.unhindered.wellFormed k).resolve_right hs.unhindered.not_breaks
  rw [hs.lasting_eq] at hleads
  refine .of_same hs rfl rfl hleads ((respond_ok hrun).trans (congrArg (Response.flag ·, s') ?_))
  rw [Bool.eq_iff_iff, hb, hleads.records, Option.isSome_iff_exists]
  simp only [hs.stored, exists_comm (α := Bytes), exists_and_left, exists_eq', and_true]

theorem executes_get (hs : s.Stocks f) (k : Value) : Executes s f (.get k) := by
  obtain ⟨r?, s', hrun, hleads, hr⟩ := (get?_ok hs.unhindered.wellFormed k).resolve_right hs.unhindered.not_breaks
  rw [hs.lasting_eq] at hleads
  have hfound := hs.found fun r => hleads.records ▸ hr r
  exact .of_same hs rfl rfl hleads ((respond_ok hrun).trans (congrArg (Response.payload ·, s') hfound))

theorem executes_getEntity (hs : s.Stocks f) (k : Value) : Executes s f (.getEntity k) := by
  obtain ⟨r?, s', hleads, hr, hrun⟩ := (getEntity?_ok hs.unhindered.wellFormed k).resolve_right hs.unhindered.not_breaks
  rw [hs.lasting_eq] at hleads
  have hfound := hs.found fun r => hleads.records ▸ hr r
  have hold : (Errand.exchange s.schema (f k) (.getEntity k)).2 = f k := by
    rw [Errand.exchange]
    split <;> rfl
  refine .of_same hs rfl hold hleads ?_
  show respond _ _ s = _
  rw [Errand.exchange, ← hfound, Option.map_map, respond, hrun]
  cases r? with
  | none => rfl
  | some r =>
    dsimp only [Option.map_some, Function.comp_apply]
    cases Payload.decode r.payload <;> rfl

theorem executes_remove (hs : s.Stocks f) (k : Value) : Executes s f (.remove k) := by
  obtain ⟨s', hrun, hleads⟩ := remove_ok hs.unhindered.wellFormed k
  have hanswer := (respond_ok hrun).trans (congrArg (Response.number ·, s') (hs.weight_key k))
  refine .of_answer hanswer rfl ?_ hleads.keeps.schema
  exact hs.of_leads hleads (fun r hr => hs.lasting r (Multiset.mem_of_mem_filter hr)) (hs.unbind k)

theorem executes_matching (hs : s.Stocks f) (k : Value) : Executes s f (.matching k) := by
  have hmatches (r : Record) (hr : r ∈ s.records) :
      ∃ k', r.key? = some k' ∧ (Template.ofKey k).matches? r.payload = .ok (decide (k' = k)) := by
    obtain ⟨k', hk'⟩ := exists_key hs.unhindered.wellFormed hr
    exact ⟨k', hk', Template.matches?_ofKey (Record.key?_eq_some_iff.mp hk')⟩
  rcases matching_cases hs.unhindered.wellFormed (.ofKey k) with
    ⟨matched, s', hrun, hleads, hmatched, -⟩ | ⟨fault, s', rs, r, hr, hfault, -⟩ | hbreaks
  · rw [hs.unexpired_eq] at hleads hmatched
    refine .of_same hs rfl rfl hleads ((respond_ok hrun).trans (congrArg (Response.payloads ·, s') ?_))
    rw [hmatched, ← hs.filter_key k]
    refine congrArg _ (Multiset.filter_congr fun r hr => ?_)
    obtain ⟨k', hk', hfound⟩ := hmatches r hr
    rw [matchedBy_iff, hfound, hk']
    simp
  · obtain ⟨k', -, hfound⟩ := hmatches r (hs.unexpired_eq ▸ hr)
    rw [hfault] at hfound
    cases hfound
  · exact absurd hbreaks hs.unhindered.not_breaks

/-- A new record that is too long is refused, and leaves the records as they are. -/
theorem put_too_long (hs : s.Unhindered) (ttl : Lifetime) (hk : Payload.key payload = .ok k)
    (hnew : ∀ r ∈ s.records, r.key? ≠ some k) (hsize : Record.sizeFor payload.length ≤ Block.addressable)
    (hlong : Record.lengthLimit ≤ payload.length) :
    ∃ s', put payload ttl s = .error (.error (.invalidArgument (.payloadTooLong payload.length))) s' ∧
      Leads s s' s.records := by
  have hcount := leads_tally hs.wellFormed s.gets (s.puts + 1) s.removes
  obtain ⟨i, g, hroute, hi⟩ := exists_route hcount.wellFormed k
  obtain ⟨u, hsegment, hu⟩ := Segment.put_too_long (r := Record.fresh payload ttl s.clock.now)
    (part_wellFormed hcount.wellFormed hi) hs.faultless hs.limit? ⟨hs.maxItems?, hs.maxBytes?⟩
    (fun r hr => hnew r (mem_records.mpr ⟨i, g, hi, hr⟩)) hsize hlong
  exact ⟨_, (put_eq s ttl hk hroute).trans (onSegment_error hi hsegment),
    hcount.trans (leads_same hcount.wellFormed hi hu)⟩

theorem executes_put (hs : s.Stocks f) (hq : Errand.Bearable s (.put payload)) : Executes s f (.put payload) := by
  cases hk : Payload.key payload with
  | error fault =>
    obtain ⟨s', hrun, hleads⟩ := put_of_no_key hs.unhindered.wellFormed Lifetime.forever hk
    have hkey : Errand.key? s.schema (.put payload) = none := by rw [Errand.key?, hk]; rfl
    refine .of_answer (respond_error hrun) ?_ (hs.same hleads) hleads.keeps.schema
    rw [Errand.carryOut_of_no_key hkey, Errand.exchange, Errand.putOver, hk]
  | ok k =>
    have hkey : Errand.key? s.schema (.put payload) = some k := by rw [Errand.key?, hk]; rfl
    by_cases hfits : payload.length < Record.lengthLimit
    · rcases put_cases hs.unhindered.wellFormed Lifetime.forever hfits hk with
        ⟨e, s', hrefuses, -⟩ | ⟨h, s', hrun, hleads⟩
      · exact absurd hrefuses hs.unhindered.not_refuses
      have hcarry : Errand.carryOut s.schema (.put payload) f =
          (.number (Errand.taken (f k)), Function.update f k (some payload)) := by
        rw [Errand.carryOut_of_key hkey, Errand.exchange, Errand.putOver, hk]
        simp only [if_pos hfits]
      have hbound : Record.key? ⟨payload, s.clock.now, Lifetime.forever, h⟩ = some k := Record.key?_eq_some_iff.mpr hk
      refine .of_answer ((respond_ok hrun).trans (congrArg (Response.number ·, s') (hs.weight_key k))) hcarry
        (hs.of_leads hleads (fun r hr => ?_) (hs.bind hbound)) hleads.keeps.schema
      rcases Multiset.mem_cons.mp hr with rfl | hr
      · rfl
      · exact hs.lasting r (Multiset.mem_of_mem_filter hr)
    · obtain ⟨hsize, hnew⟩ := (hq payload ⟨rfl, rfl⟩).resolve_left hfits
      obtain ⟨s', hrun, hleads⟩ :=
        put_too_long hs.unhindered Lifetime.forever hk (hnew k hk) hsize (Nat.le_of_not_lt hfits)
      refine .of_same hs hkey ?_ hleads ((respond_error hrun).trans ?_)
      · rw [Errand.exchange, Errand.putOver, hk]
        simp only [if_neg hfits]
      · rw [Errand.exchange, Errand.putOver, hk]
        simp only [if_neg hfits]

theorem executes_putEntity {e : Entity} (hs : s.Stocks f) (hq : Errand.Bearable s (.putEntity e)) :
    Executes s f (.putEntity e) := by
  rcases putEntity_cases s e none with ⟨fault, hl, -⟩ | ⟨ttl, fault, -, he, hrun⟩ | ⟨ttl, payload, hl, he, hrun⟩
  · cases hl
  · have hkey : Errand.key? s.schema (.putEntity e) = none := by rw [Errand.key?, he]; rfl
    refine .of_answer (respond_error hrun) ?_ hs rfl
    rw [Errand.carryOut_of_no_key hkey, Errand.exchange, he]
  · cases hl
    -- The entity is put as its payload is.
    have hanswer : answer (Errand.request (.putEntity e)) s = answer (Errand.request (.put payload)) s := by
      show respond _ _ s = respond _ _ s
      rw [respond, respond, hrun]
    have hcarry : Errand.carryOut s.schema (.putEntity e) f = Errand.carryOut s.schema (.put payload) f := by
      simp only [Errand.carryOut, Errand.key?, Errand.exchange, he]
      rfl
    have hput : Executes s f (.put payload) := executes_put hs fun payload' hoffers => by
      obtain ⟨rfl, -⟩ := hoffers
      exact hq payload ⟨he, rfl⟩
    exact .of_answer (hanswer.trans (Prod.ext hput.told rfl)) hcarry hput.stocks hput.schema

/-- Every errand is carried out as the payload of its key tells. -/
theorem Stocks.executes (hs : s.Stocks f) (hq : q.Bearable s) : Executes s f q := by
  cases q with
  | put payload => exact executes_put hs hq
  | putEntity e => exact executes_putEntity hs hq
  | contains key => exact executes_contains hs key
  | get key => exact executes_get hs key
  | getEntity key => exact executes_getEntity hs key
  | remove key => exact executes_remove hs key
  | matching key => exact executes_matching hs key

end RecordStore.Store
