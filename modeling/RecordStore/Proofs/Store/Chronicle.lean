import RecordStore.Proofs.Store.Making
import RecordStore.Proofs.Store.Steps

/-! # The chronicle of a store

A chronicle keeps book of every stay of an entry in a store, from the put that stored it to its end: by another put, by
removal, with everything else, or by eviction. What a listener is told is then a matter of counting: one event for
each stay that an eviction ended, and no other one. -/

namespace RecordStore

/-- How the stay of an entry ends. -/
inductive Ending
  | overwritten
  | removed
  | destroyed
  | evicted
  deriving DecidableEq

/-- The stay of an entry, numbered in the order of the puts. -/
structure Stay where
  number : Nat
  entry : Entry
  deriving DecidableEq

/-- A stay that is over, with what the clock said when it ended. -/
structure Ended where
  stay : Stay
  ending : Ending
  time : UInt64
  deriving DecidableEq

/-- What a listener is told of an entry that was evicted. -/
def Entry.notice (e : Entry) : Notice := ⟨e.payload, e.ttl⟩

structure Chronicle where
  /-- How many stays have begun. -/
  begun : Nat
  present : Multiset Stay
  ended : Multiset Ended

namespace Chronicle

open Store (Request Response)

def empty : Chronicle := ⟨0, 0, 0⟩

/-- Some stays end. -/
def close (c : Chronicle) (p : Entry → Prop) [DecidablePred p] (ending : Ending) (time : UInt64) : Chronicle where
  begun := c.begun
  present := c.present.filter fun x => ¬ p x.entry
  ended := c.ended + (c.present.filter fun x => p x.entry).map fun x => ⟨x, ending, time⟩

def begin (c : Chronicle) (e : Entry) : Chronicle := { c with begun := c.begun + 1, present := ⟨c.begun, e⟩ ::ₘ c.present }

/-- How stays end that a request ends, unless it puts an entry in their place. -/
def ending? : Request → Option Ending
  | .remove .. => some .removed
  | .destroy => some .destroyed
  | .contains .. | .getRecord .. | .get .. | .getEntity .. | .matching .. | .fetch .. | .evictExpired => some .evicted
  | .put .. | .putEntity .. | .setClock .. => none

/-- A request that was answered with a number of bytes has stored its payload, in the place of an entry with the same
    key. Others end the stays of the entries that are no longer there. -/
def next (c : Chronicle) (q : Request) (response : Response) (s s' : Store) : Chronicle :=
  match ending? q, q.stored? s.schema, response with
  | some ending, _, _ => c.close (· ∉ s'.records.map Record.entry) ending s.clock.now
  | none, some (payload, ttl), .number _ =>
    (c.close (fun e => Payload.key e.payload = Payload.key payload) .overwritten s.clock.now).begin
      ⟨payload, s.clock.now, ttl⟩
  | none, _, _ => c

/-- The chronicle of a store after some requests. -/
def through : List Request → Store → Chronicle → Chronicle
  | [], _, c => c
  | q :: requests, s, c => through requests (Store.answer q s).2 (c.next q (Store.answer q s).1 s (Store.answer q s).2)

/-- What is told of the stays that an eviction ended. -/
def events (c : Chronicle) (typeName : String) (wantsEntity : Bool) : Multiset Event :=
  (c.ended.filter (·.ending = .evicted)).map fun x => x.stay.entry.notice.event typeName wantsEntity

end Chronicle

/-- The chronicle agrees with what a store holds and has told its listener. -/
structure Store.Chronicled (typeName : String) (l : Listener) (c : Chronicle) (s : Store) : Prop where
  /-- The stays that are not over are those of the entries in the store. -/
  stored : c.present.map Stay.entry = s.records.map Record.entry
  /-- Each stay that has begun is present, or has ended once. -/
  once : c.present.map Stay.number + c.ended.map (·.stay.number) = Multiset.range c.begun
  /-- For each stay that was ended by eviction there was one event, and no other one. -/
  told : (s.notifier.delivered.toList : Multiset Event) = c.events typeName l.wantsEntity
  /-- Only what is over is evicted. -/
  due : ∀ x ∈ c.ended, x.ending = .evicted →
    x.stay.entry.ttl ≠ Lifetime.forever ∧ x.stay.entry.createdAt.toNat + x.stay.entry.ttl.toNat ≤ x.time.toNat
  expired : s.counters.expired = s.notifier.delivered.size
  dispatched : s.notifier.dispatched = s.notifier.delivered.size

namespace Chronicle

open Store (Request Response)

variable {c : Chronicle} {p : Entry → Prop} [DecidablePred p] {ending : Ending} {time : UInt64} {typeName : String}
  {wantsEntity : Bool}

theorem present_close (es : Multiset Entry) (h : c.present.map Stay.entry = es) :
    (c.close p ending time).present.map Stay.entry = es.filter fun e => ¬ p e := by
  rw [← h, Multiset.filter_map]
  rfl

theorem numbers_close (h : c.present.map Stay.number + c.ended.map (·.stay.number) = Multiset.range c.begun) :
    (c.close p ending time).present.map Stay.number + (c.close p ending time).ended.map (·.stay.number) =
      Multiset.range c.begun := by
  have hsplit := Multiset.filter_add_not (fun x : Stay => p x.entry) c.present
  rw [← h, close, Multiset.map_add, Multiset.map_map]
  conv_rhs => rw [← hsplit, Multiset.map_add]
  show _ + (_ + (c.present.filter fun x => p x.entry).map Stay.number) = _
  abel

theorem numbers_begin (e : Entry) (h : c.present.map Stay.number + c.ended.map (·.stay.number) = Multiset.range c.begun) :
    (c.begin e).present.map Stay.number + (c.begin e).ended.map (·.stay.number) = Multiset.range (c.begin e).begun := by
  rw [begin, Multiset.map_cons, Multiset.cons_add, h, Multiset.range_succ]

theorem events_close_of_ne (hne : ending ≠ .evicted) :
    (c.close p ending time).events typeName wantsEntity = c.events typeName wantsEntity := by
  have hnone : ((c.present.filter fun x => p x.entry).map fun x => (⟨x, ending, time⟩ : Ended)).filter
      (·.ending = .evicted) = 0 := by
    refine Multiset.filter_eq_nil.mpr fun x hx => ?_
    obtain ⟨y, -, rfl⟩ := Multiset.mem_map.mp hx
    exact hne
  rw [events, events, close, Multiset.filter_add, hnone, add_zero]

theorem events_close_evicted (es : Multiset Entry) (h : c.present.map Stay.entry = es) :
    (c.close p .evicted time).events typeName wantsEntity =
      c.events typeName wantsEntity + (es.filter p).map fun e => e.notice.event typeName wantsEntity := by
  have hall : ((c.present.filter fun x => p x.entry).map fun x => (⟨x, .evicted, time⟩ : Ended)).filter
      (·.ending = .evicted) = (c.present.filter fun x => p x.entry).map fun x => ⟨x, .evicted, time⟩ := by
    refine Multiset.filter_eq_self.mpr fun x hx => ?_
    obtain ⟨y, -, rfl⟩ := Multiset.mem_map.mp hx
    rfl
  rw [events, events, close, Multiset.filter_add, hall, Multiset.map_add, Multiset.map_map, ← h, Multiset.filter_map,
    Multiset.map_map]
  rfl

theorem ended_close_of_ne (hne : ending ≠ .evicted) {x : Ended} (hx : x ∈ (c.close p ending time).ended)
    (hevicted : x.ending = .evicted) : x ∈ c.ended := by
  rcases Multiset.mem_add.mp hx with hx | hx
  · exact hx
  · obtain ⟨y, -, rfl⟩ := Multiset.mem_map.mp hx
    exact absurd hevicted hne

variable {q : Request} {s s' : Store}

theorem events_begin (e : Entry) : (c.begin e).events typeName wantsEntity = c.events typeName wantsEntity := rfl

theorem next_of_stored {payload : Bytes} {ttl : Lifetime} (n : Nat) (hq : q.stored? s.schema = some (payload, ttl)) :
    c.next q (.number n) s s' =
      (c.close (fun e => Payload.key e.payload = Payload.key payload) .overwritten s.clock.now).begin
        ⟨payload, s.clock.now, ttl⟩ := by
  have hending : ending? q = none := by
    cases q <;> first | rfl | cases hq
  simp only [next, hending, hq]

theorem next_of_failed (e : Failure) (hq : q.Puts) : c.next q (.failed e) s s' = c := by
  have hending : ending? q = none := by
    cases q <;> first | rfl | cases hq
  simp only [next, hending]
  cases q.stored? s.schema <;> rfl

theorem next_of_looks (response : Response) (hq : q.Looks) :
    c.next q response s s' = c.close (· ∉ s'.records.map Record.entry) .evicted s.clock.now := by
  have hending : ending? q = some .evicted := by
    cases q <;> first | rfl | cases hq
  simp only [next, hending]

end Chronicle

namespace Store

variable {s s' : Store} {r : Record} {k : Value} {c : Chronicle} {typeName : String} {l : Listener}

/-- No two records are the same, nor say the same. -/
theorem nodup_entries (hs : s.WellFormed) : (s.records.map Record.entry).Nodup := by
  -- Records that say the same have the same key, and there is one record of a key.
  refine (nodup_records hs).map_on fun r hr r' hr' he => ?_
  obtain ⟨k, hk⟩ := exists_key hs hr
  have hk' : r'.key? = some k := by
    rw [← hk, Record.key?, Record.key?]
    exact congrArg (fun e : Entry => (Payload.key e.payload).toOption) he.symm
  exact eq_of_key hs hr hk hr' hk'

/-- The entries that are no longer there are those of the records that have gone. -/
theorem filter_gone {gone : Multiset Record} (hs : s.WellFormed) (hsplit : s'.records + gone = s.records) :
    (s.records.map Record.entry).filter (· ∉ s'.records.map Record.entry) = gone.map Record.entry ∧
      (s.records.map Record.entry).filter (fun e => ¬ e ∉ s'.records.map Record.entry) = s'.records.map Record.entry := by
  have hnodup := nodup_entries hs
  rw [← hsplit, Multiset.map_add, Multiset.nodup_add] at hnodup
  obtain ⟨-, -, hapart⟩ := hnodup
  rw [← hsplit, Multiset.map_add, Multiset.filter_add, Multiset.filter_add]
  constructor
  · rw [Multiset.filter_eq_nil.mpr fun e he => not_not.mpr he, zero_add, Multiset.filter_eq_self]
    exact fun e he he' => Multiset.disjoint_left.mp hapart he' he
  · rw [Multiset.filter_eq_self.mpr fun e he => not_not.mpr he, Multiset.filter_eq_nil.mpr, add_zero]
    exact fun e he he' => Multiset.disjoint_left.mp hapart (not_not.mp he') he

/-- The listener is told at once and takes everything, and the chronicle has kept up with it. -/
structure Followed (typeName : String) (l : Listener) (c : Chronicle) (s : Store) : Prop
    extends Chronicled typeName l c s where
  prompt : s.notifier.Prompt l
  typeName : s.notifier.typeName = typeName

/-- Where nobody was told, no stay was ended by eviction. -/
theorem Followed.of_silent {c' : Chronicle} (h : s.Followed typeName l c) (hsilent : Silent s s')
    (hstored : c'.present.map Stay.entry = s'.records.map Record.entry)
    (honce : c'.present.map Stay.number + c'.ended.map (·.stay.number) = Multiset.range c'.begun)
    (hevents : c'.events typeName l.wantsEntity = c.events typeName l.wantsEntity)
    (hended : ∀ x ∈ c'.ended, x.ending = .evicted → x ∈ c.ended) : s'.Followed typeName l c' where
  stored := hstored
  once := honce
  told := by rw [hsilent.notifier, hevents, h.told]
  due x hx hevicted := h.due x (hended x hx hevicted) hevicted
  expired := by rw [hsilent.notifier, hsilent.expired, h.expired]
  dispatched := by rw [hsilent.notifier, h.dispatched]
  prompt := by rw [hsilent.notifier]; exact h.prompt
  typeName := by rw [hsilent.notifier, h.typeName]

theorem Followed.close {gone : Multiset Record} {ending : Ending} (h : s.Followed typeName l c) (hs : s.WellFormed)
    (hsplit : s'.records + gone = s.records) (hsilent : Silent s s') (hne : ending ≠ .evicted) :
    s'.Followed typeName l (c.close (· ∉ s'.records.map Record.entry) ending s.clock.now) := by
  refine h.of_silent hsilent ?_ (Chronicle.numbers_close h.once) (Chronicle.events_close_of_ne hne)
    fun x hx hevicted => Chronicle.ended_close_of_ne hne hx hevicted
  rw [Chronicle.present_close _ h.stored, (filter_gone hs hsplit).2]

theorem Followed.evict {gone : Multiset Record} (h : s.Followed typeName l c) (hs : s.WellFormed)
    (hevicts : Evicts s s' gone) :
    s'.Followed typeName l (c.close (· ∉ s'.records.map Record.entry) .evicted s.clock.now) := by
  have htold := hevicts.told l h.prompt
  have hsize : s'.notifier.delivered.size = s.notifier.delivered.size + gone.card := by
    have hcard := congrArg Multiset.card htold.delivered
    simpa using hcard
  refine ⟨⟨?_, Chronicle.numbers_close h.once, ?_, ?_, ?_, ?_⟩, htold.prompt, htold.typeName.trans h.typeName⟩
  · rw [Chronicle.present_close _ h.stored, (filter_gone hs hevicts.split).2]
  · rw [htold.delivered, Chronicle.events_close_evicted _ h.stored, (filter_gone hs hevicts.split).1, h.told, h.typeName,
      Multiset.map_map, Multiset.map_map]
    rfl
  · intro x hx hevicted
    rcases Multiset.mem_add.mp hx with hx | hx
    · exact h.due x hx hevicted
    · obtain ⟨y, hy, rfl⟩ := Multiset.mem_map.mp hx
      obtain ⟨hmem, hgone⟩ := Multiset.mem_filter.mp hy
      have hy' : y.entry ∈ (s.records.map Record.entry).filter (· ∉ s'.records.map Record.entry) :=
        Multiset.mem_filter.mpr ⟨h.stored ▸ Multiset.mem_map_of_mem _ hmem, hgone⟩
      rw [(filter_gone hs hevicts.split).1] at hy'
      obtain ⟨r, hr, he⟩ := Multiset.mem_map.mp hy'
      have hover := hevicts.due r hr
      simp only [Record.isOver, Lifetime.isOver, Bool.and_eq_true, decide_eq_true_eq] at hover
      show y.entry.ttl ≠ Lifetime.forever ∧ y.entry.createdAt.toNat + y.entry.ttl.toNat ≤ s.clock.now.toNat
      rw [← he]
      exact hover
  · rw [hsize, hevicts.expired, h.expired]
  · rw [hsize, htold.dispatched, h.dispatched, Multiset.card_map]

theorem Followed.begin {p : Entry → Prop} [DecidablePred p] (h : s.Followed typeName l c) (hsilent : Silent s s')
    (e : Entry) (time : UInt64)
    (hentries : s'.records.map Record.entry = e ::ₘ (s.records.map Record.entry).filter fun e => ¬ p e) :
    s'.Followed typeName l ((c.close p .overwritten time).begin e) := by
  have hne : Ending.overwritten ≠ .evicted := by decide
  refine h.of_silent hsilent ?_ (Chronicle.numbers_begin e (Chronicle.numbers_close h.once)) ?_
    fun x hx hevicted => Chronicle.ended_close_of_ne hne hx hevicted
  · rw [hentries, ← Chronicle.present_close _ h.stored]
    exact Multiset.map_cons ..
  · rw [Chronicle.events_begin, Chronicle.events_close_of_ne hne]

theorem Followed.next {q : Request} {response : Response} (h : s.Followed typeName l c) (hs : s.WellFormed)
    (hdoes : Does s q response s') : s'.Followed typeName l (c.next q response s s') := by
  cases hdoes with
  | stores wanted key _ leads silent =>
    rw [Chronicle.next_of_stored _ wanted]
    refine h.begin silent _ _ ?_
    rw [leads.records, Multiset.map_cons, Multiset.filter_map]
    refine congrArg (_ ::ₘ ·) (congrArg _ (Multiset.filter_congr fun r _ => not_congr ?_))
    rw [Record.key?_eq_some_iff, key]
    rfl
  | refuses puts leads silent =>
    rw [Chronicle.next_of_failed _ puts]
    exact h.of_silent silent (by rw [leads.records, h.stored]) h.once rfl fun _ hx _ => hx
  | removes leads silent =>
    rename_i k n
    have hsplit : s'.records + s.records.filter (·.key? = some k) = s.records := by
      rw [leads.records, add_comm]
      exact Multiset.filter_add_not _ _
    exact h.close hs hsplit silent (by decide)
  | clears leads silent => exact h.close hs (by rw [leads.records, zero_add]) silent (by decide)
  | looks looks evicts =>
    rw [Chronicle.next_of_looks _ looks]
    exact h.evict hs evicts
  | sets => exact ⟨⟨h.stored, h.once, h.told, h.due, h.expired, h.dispatched⟩, h.prompt, h.typeName⟩

theorem run_followed {requests : List Request} {schema : Schema} (h : s.Followed typeName l c) (hs : s.WellFormed)
    (hschema : s.schema = schema) (hfits : ∀ q ∈ requests, q.Fits schema) :
    (run requests s).2.Followed typeName l (Chronicle.through requests s c) := by
  induction requests generalizing s c with
  | nil => exact h
  | cons q requests ih =>
    have hq : q.Fits s.schema := hschema ▸ hfits q List.mem_cons_self
    obtain ⟨clock, rs, hleads⟩ := answer_leads hs hq
    have hschema' : (answer q s).2.schema = s.schema := hleads.keeps.schema
    exact ih (h.next hs (answer_does hs hq)) hleads.wellFormed (hschema'.trans hschema)
      fun q' hq' => hfits q' (List.mem_cons_of_mem q hq')

variable {schema : Schema} {config : StoreConfig} {memory : Memory} {clock : Clock} {draw : Nat → Nat}

/-- Whatever is asked of a store whose listener is told at once and never breaks: it is told once of each stay that
    an eviction ends, and of nothing else. -/
theorem chronicled_of_run
    (hs : create schema config memory (.toListener typeName l .inline) clock draw = .ok s) (hsteady : memory.Steady)
    (hsound : memory.arena.Sound) (hunbroken : ∀ before event, l.breaksOn before event = false)
    (requests : List Request) (hfits : ∀ q ∈ requests, q.Fits schema) :
    (run requests s).2.Chronicled typeName l (Chronicle.through requests s .empty) := by
  obtain ⟨hvalid, rfl⟩ := of_create hs
  have hmade : (made schema config memory (.toListener typeName l .inline) clock draw).WellFormed :=
    wellFormed_made hvalid hsteady hsound
  have hfollowed : (made schema config memory (.toListener typeName l .inline) clock draw).Followed typeName l .empty := by
    refine ⟨⟨?_, rfl, rfl, fun x hx => absurd hx (Multiset.notMem_zero x), rfl, rfl⟩, ⟨rfl, rfl, hunbroken⟩, rfl⟩
    rw [records_made]
    rfl
  exact (run_followed hfollowed hmade rfl hfits).toChronicled

/-- Three entries are put, the first one twice. One is removed; of the others one is looked up when both are over, and
    the last one is swept away. -/
theorem chronicled_of_eviction :
    (run [.put [1, 0, 1, 1] 5, .put [1, 0, 1, 1, 7] 5, .put [1, 0, 1, 0] 5, .put [1, 0, 4, 0, 0, 0, 0] 5,
        .remove (.bool false), .setClock 9, .contains (.bool true), .evictExpired]
      (made ⟨"Entry", []⟩ { minSegments := 2, maxSegments := 3, segmentCapacity := 2 } .empty
        (.toListener "Entry" ⟨true, fun _ _ => false⟩ .inline) ⟨0⟩ (Placement.evenly 2 3))).2.Chronicled "Entry"
      ⟨true, fun _ _ => false⟩
      (Chronicle.through [.put [1, 0, 1, 1] 5, .put [1, 0, 1, 1, 7] 5, .put [1, 0, 1, 0] 5,
          .put [1, 0, 4, 0, 0, 0, 0] 5, .remove (.bool false), .setClock 9, .contains (.bool true), .evictExpired]
        (made ⟨"Entry", []⟩ { minSegments := 2, maxSegments := 3, segmentCapacity := 2 } .empty
          (.toListener "Entry" ⟨true, fun _ _ => false⟩ .inline) ⟨0⟩ (Placement.evenly 2 3)) .empty) := by
  have hmade : create ⟨"Entry", []⟩ { minSegments := 2, maxSegments := 3, segmentCapacity := 2 } .empty
      (.toListener "Entry" ⟨true, fun _ _ => false⟩ .inline) ⟨0⟩ (Placement.evenly 2 3) = .ok (made _ _ _ _ _ _) := rfl
  refine chronicled_of_run hmade ⟨rfl, rfl, rfl⟩ (Arena.sound_empty none) (fun _ _ => rfl) _ fun q hq => ?_
  simp only [List.mem_cons, List.not_mem_nil, or_false] at hq
  rcases hq with rfl | rfl | rfl | rfl | rfl | rfl | rfl | rfl
  · exact show 4 < Record.lengthLimit by decide
  · exact show 5 < Record.lengthLimit by decide
  · exact show 4 < Record.lengthLimit by decide
  · exact show 7 < Record.lengthLimit by decide
  all_goals trivial

end Store

end RecordStore
