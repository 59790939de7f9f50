import RecordStore.Proofs.Segment.Tearing
import RecordStore.Proofs.Store.Making
import RecordStore.Proofs.Store.Requests

/-! # Failed replacements

A put that fails over a stored record takes back what it has counted, but not what it has written. So it is undone just
if nothing was resized yet, or the block has stayed in its place and what stands in it still reads as the old record. -/

namespace RecordStore.Store

variable {s s' : Store} {k : Value} {r₀ r : Record}

/-- The store with another plan of faults. -/
def withFaults (s : Store) (f : Faults) : Store := { s with memory := { s.memory with faults := f } }

/-- The record that a search for a key comes to, when no call fails. -/
def finds (s : Store) (k : Value) : Option Record :=
  (Placement.route? s.slots k).bind fun i => (s.segment? i).bind fun g =>
    match Segment.probe k ((s.withFaults .never).part g) with
    | .ok (.found _ h) _ => s.memory.arena.record? h
    | _ => none

/-- What a failed put over `r₀` never changes. -/
structure Contained (s s' : Store) (r₀ : Record) : Prop where
  slots : s'.slots = s.slots
  items : s'.size = s.size
  bytes : s'.bytesUsed = s.bytesUsed
  blocks : s'.memory.arena.liveCount = s.memory.arena.liveCount
  others : ∀ r ∈ s.records, r ≠ r₀ → s'.memory.arena.record? r.handle = some r

/-- Nothing has changed for those who use the store. -/
structure Unharmed (s s' : Store) : Prop where
  /-- Every key has the record that it had. -/
  answers : ∀ k, s'.finds k = s.finds k
  records : s'.records = s.records
  items : s'.size = s.size
  bytes : s'.bytesUsed = s.bytesUsed
  /-- The bytes counted are those of the records still. -/
  summed : s'.bytesUsed = UInt64.ofNat (s'.records.map fun r => 16 + r.payload.length).sum
  /-- Every handle names a block. -/
  live : ∀ i g j h, s'.segment? i = some g → g.slot? j = some h → (s'.memory.arena.block? h).isSome
  blocks : s'.memory.arena.liveCount = s.memory.arena.liveCount

/-- When a put of `r` over `r₀` that fails can be made good: it was refused, or `r` fits into the block of `r₀` and stops
    before anything in it is different. -/
def Recoverable (s : Store) (r₀ r : Record) : Prop :=
  (∃ reason, s.counters.reserveReplace r₀.size r.size = .error reason) ∨
    (∃ e m, Memory.reallocate r₀.handle r.size s.memory = .error (.error e) m) ∨
      ∃ b n, s.memory.arena.block? r₀.handle = some b ∧ r.size ≤ b.capacity ∧ r.StopsAt s.memory.faults n ∧
        r₀.Agrees r n

/-! ### Searching -/

theorem finds_eq {i : Nat} {g : Segment} (hroute : Placement.route? s.slots k = some i) (hi : s.segment? i = some g) :
    s.finds k = match Segment.probe k ((s.withFaults .never).part g) with
      | .ok (.found _ h) _ => s.memory.arena.record? h
      | _ => none := by
  rw [finds, hroute, Option.bind_some, hi, Option.bind_some]

theorem finds_record (hs : s.WellFormed) (hr : r ∈ s.records) (hk : r.key? = some k) : s.finds k = some r := by
  obtain ⟨i, g, hroute, hi⟩ := exists_route hs k
  have hmem := mem_part hs hroute hi hr hk
  obtain ⟨j, -, hprobe⟩ := (hs.inOrder hi).probe_record (t := (s.withFaults .never).part g) rfl hmem hk
  rw [finds_eq hroute hi, hprobe]
  exact record?_of_mem hr

theorem finds_none (hs : s.WellFormed) (hnew : ∀ r ∈ s.records, r.key? ≠ some k) : s.finds k = none := by
  obtain ⟨i, g, hroute, hi⟩ := exists_route hs k
  rw [finds_eq hroute hi]
  rcases (hs.inOrder hi).probe_cases (t := (s.withFaults .never).part g) rfl k with
    ⟨j, h, r, -, hj, hr, hk⟩ | ⟨j, hprobe, -, -⟩
  · have hhandle := Record.handle_of_record? hr
    refine absurd hk (hnew r (mem_records.mpr ⟨i, g, hi, Arena.mem_records.mpr ⟨?_, ?_⟩⟩))
    · rw [hhandle]
      exact mem_held.mpr ⟨j, hj⟩
    · rw [hhandle]
      exact hr
  · rw [hprobe]

theorem finds_congr (hs : s.WellFormed) (hslots : s'.slots = s.slots)
    (hsame : ∀ i g h, s.segment? i = some g → h ∈ held g.slots →
      s'.memory.arena.record? h = s.memory.arena.record? h) (k : Value) : s'.finds k = s.finds k := by
  obtain ⟨i, g, hroute, hi⟩ := exists_route hs k
  have hroute' : Placement.route? s'.slots k = some i := by rw [hslots, hroute]
  have hi' : s'.segment? i = some g := by
    rw [segment?, hslots]
    exact hi
  have hchained := (hs.inOrder hi).chained
  have hchained' : Segment.Chained s'.memory.arena.key? g.slots :=
    hchained.congr fun h hh => Arena.key?_congr (hsame i g h hi hh)
  have hread' : Segment.Readable (s'.withFaults .never).memory s'.memory.arena.key? :=
    Segment.readable_key? (m := (s'.withFaults .never).memory) rfl
  rw [finds_eq hroute hi, finds_eq hroute' hi']
  rcases (hs.inOrder hi).probe_cases (t := (s.withFaults .never).part g) rfl k with
    ⟨j, h, r, hprobe, hj, hr, hk⟩ | ⟨j, hprobe, hj, hnone⟩
  · have hh : h ∈ held g.slots := mem_held.mpr ⟨j, hj⟩
    have hkey : s'.memory.arena.key? h = some k :=
      (Arena.key?_congr (hsame i g h hi hh)).trans ((Arena.key?_of_record? hr).trans hk)
    rw [hprobe, Segment.probe_found (t := (s'.withFaults .never).part g) hread' hchained' hj hkey]
    exact hsame i g h hi hh
  · have hsize : 0 < g.slots.size := by
      have := (hs.inOrder hi).two_le
      omega
    obtain ⟨hlt, -⟩ := (Segment.freeSlot?_eq_some_iff hsize).mp hj
    have hnew : ∀ h ∈ held g.slots, s'.memory.arena.key? h ≠ some k := by
      intro h hh
      rw [Arena.key?_congr (hsame i g h hi hh)]
      exact (hs.inOrder hi).key?_ne hnone hh
    rw [hprobe, Segment.probe_absent (t := (s'.withFaults .never).part g) hread' hchained' hj hlt hnew]

theorem finds_mem (hfind : s.finds k = some r) : s.memory.arena.record? r.handle = some r := by
  unfold finds at hfind
  obtain ⟨i, -, hfind⟩ := Option.bind_eq_some_iff.mp hfind
  obtain ⟨g, -, hfind⟩ := Option.bind_eq_some_iff.mp hfind
  split at hfind
  · rw [Record.handle_of_record? hfind]
    exact hfind
  · cases hfind

/-- A search that meets a handle without a block at the home of its key fails. -/
theorem contains_dead {i : Nat} {g : Segment} {h : Handle} (hm : s.memory.Legible)
    (hroute : Placement.route? s.slots k = some i) (hi : s.segment? i = some g)
    (hhome : g.slot? (k.home g.capacity) = some h) (hdead : s.memory.arena.block? h = none) :
    (answer (.contains k) s).1 = .failed (.error (.invalidHandle h)) := by
  have hprobe := Segment.probe_dead (t := s.part g) hm hhome hdead
  have hsegment : Segment.contains k (s.part g) = .error (.error (.invalidHandle h)) (s.part g) :=
    Action.bind_error hprobe
  exact congrArg Prod.fst (respond_error ((onSegmentOf_eq _ hroute).trans (onSegment_error hi hsegment)))

/-! ### The failed put -/

/-- A put that fails over a record leaves all but the arena, which it leaves too if it was refused. -/
theorem put_over_error {f : Faults} {payload : Bytes} {ttl : Lifetime} {e : Error} (hs : s.WellFormed)
    (hread : f.read = []) (hr₀ : r₀ ∈ s.records) (hk₀ : r₀.key? = some k) (hk : Payload.key payload = .ok k)
    (hfail : put payload ttl (s.withFaults f) = .error (.error e) s') :
    s'.slots = s.slots ∧ s'.counters = s.counters ∧
      let r := Record.fresh payload ttl s.clock.now
      let refused := (∃ reason, s.counters.reserveReplace r₀.size r.size = .error reason) ∨
        ∃ e m, Memory.reallocate r₀.handle r.size (s.withFaults f).memory = .error (.error e) m
      (refused ∧ s'.memory.arena = s.memory.arena ∨
        ¬ refused ∧ ∃ b n, s.memory.arena.block? r₀.handle = some b ∧ r.StopsAt f n ∧
          s.memory.arena.Tears s'.memory.arena r₀ b r n) := by
  obtain ⟨i, g, hroute, hi⟩ := exists_route hs k
  have hmem := mem_part hs hroute hi hr₀ hk₀
  have hput : put payload ttl (s.withFaults f) =
      onSegment i (Segment.put k (Record.fresh payload ttl s.clock.now))
        ((s.withFaults f).tally s.gets (s.puts + 1) s.removes) := by
    simp only [put, Action.modify_bind, hk]
    exact onSegmentOf_eq _ hroute
  have hi' : ((s.withFaults f).tally s.gets (s.puts + 1) s.removes).segment? i = some g := hi
  rw [hput] at hfail
  cases hsegment : Segment.put k (Record.fresh payload ttl s.clock.now)
      (((s.withFaults f).tally s.gets (s.puts + 1) s.removes).part g) with
  | ok n u =>
    rw [onSegment_ok hi' hsegment] at hfail
    cases hfail
  | error e' u =>
    rw [onSegment_error hi' hsegment] at hfail
    cases hfail
    obtain ⟨m, rfl, houtcome⟩ := Segment.put_over_error
      (t := ((s.withFaults f).tally s.gets (s.puts + 1) s.removes).part g) (hs.inOrder hi) hread hmem hk₀
      hsegment
    refine ⟨?_, rfl, houtcome⟩
    exact setIfInBounds_occupant hi

theorem unharmed_of_records (hs : s.WellFormed) (hslots : s'.slots = s.slots) (hcounters : s'.counters = s.counters)
    (hblocks : s'.memory.arena.liveCount = s.memory.arena.liveCount)
    (hlie : ∀ r ∈ s.records, s'.memory.arena.record? r.handle = some r) : s.Unharmed s' := by
  have hsame : ∀ i g h, s.segment? i = some g → h ∈ held g.slots →
      s'.memory.arena.record? h = s.memory.arena.record? h := by
    intro i g h hi hh
    obtain ⟨r, hr, rfl, -⟩ := exists_record hs hi hh
    rw [hlie r hr, record?_of_mem hr]
  have hrecords : s'.records = s.records := by
    rw [records, records, hslots]
    refine Multiset.bind_congr fun g hg => ?_
    obtain ⟨i, hi⟩ := mem_held.mp hg
    exact Arena.records_congr fun h hh => hsame i g h hi hh
  refine ⟨finds_congr hs hslots hsame, hrecords, congrArg Counters.items hcounters, congrArg Counters.bytes hcounters,
    ?_, fun i g j h hi hj => ?_, hblocks⟩
  · rw [hrecords, bytesUsed, hcounters]
    exact hs.bytes
  · rw [segment?, hslots] at hi
    obtain ⟨r, hr, rfl, -⟩ := exists_record hs hi (mem_held.mpr ⟨j, hj⟩)
    obtain ⟨b, hb, -⟩ := Option.bind_eq_some_iff.mp (hlie r hr)
    rw [hb]
    rfl

theorem record?_of_tears {b : Block} {r' : Record} {n : Nat} (hs : s.WellFormed)
    (ht : s.memory.arena.Tears s'.memory.arena r₀ b r' n) (hr₀ : r₀ ∈ s.records) (hr : r ∈ s.records) (hne : r ≠ r₀) :
    s'.memory.arena.record? r.handle = some r := by
  have hapart : r.handle ≠ r₀.handle := by
    intro hsame
    have hrecord := record?_of_mem hr
    rw [hsame, record?_of_mem hr₀] at hrecord
    exact hne (Option.some.inj hrecord).symm
  obtain ⟨b', hb', -⟩ := (holds_of_mem hs hr).block
  have hlive : s.memory.arena.block? r.handle ≠ none := by
    rw [hb']
    exact Option.some_ne_none b'
  rw [Arena.record?_congr (ht.block?_eq hapart hlive), record?_of_mem hr]

/-- A put that fails over a record harms no other one, and nothing at all just if it can be made good. -/
theorem contained_of_put_error {f : Faults} {payload : Bytes} {ttl : Lifetime} {e : Error} (hs : s.WellFormed)
    (hread : f.read = []) (hr₀ : r₀ ∈ s.records) (hk₀ : r₀.key? = some k) (hk : Payload.key payload = .ok k)
    (hfail : put payload ttl (s.withFaults f) = .error (.error e) s') :
    s.Contained s' r₀ ∧ (s.Unharmed s' ↔ (s.withFaults f).Recoverable r₀ (Record.fresh payload ttl s.clock.now)) := by
  obtain ⟨hslots, hcounters, houtcome⟩ := put_over_error hs hread hr₀ hk₀ hk hfail
  have hsize : s'.size = s.size := congrArg Counters.items hcounters
  have hused : s'.bytesUsed = s.bytesUsed := congrArg Counters.bytes hcounters
  rcases houtcome with ⟨hrefused, harena⟩ | ⟨hgranted, b, n, hb, hstops, htears⟩
  · have hblocks := congrArg Arena.liveCount harena
    have hlie : ∀ r ∈ s.records, s'.memory.arena.record? r.handle = some r := by
      intro r hr
      rw [harena, record?_of_mem hr]
    refine ⟨⟨hslots, hsize, hused, hblocks, fun r hr _ => hlie r hr⟩, fun _ => ?_, fun _ => ?_⟩
    · exact hrefused.imp_right Or.inl
    · exact unharmed_of_records hs hslots hcounters hblocks hlie
  · have hblocks := htears.liveCount_eq hb
    have hothers : ∀ r ∈ s.records, r ≠ r₀ → s'.memory.arena.record? r.handle = some r :=
      fun r hr hne => record?_of_tears hs htears hr₀ hr hne
    have hiff := htears.record?_eq_iff hb hstops.lt (holds_of_mem hs hr₀).fits hstops.fits
    refine ⟨⟨hslots, hsize, hused, hblocks, hothers⟩, fun hunharmed => ?_, fun hrecoverable => ?_⟩
    · have hfound := hunharmed.answers k
      rw [finds_record hs hr₀ hk₀] at hfound
      obtain ⟨hroom, hagrees⟩ := hiff.mp (finds_mem hfound)
      exact Or.inr (Or.inr ⟨b, n, hb, hroom, hstops, hagrees⟩)
    · rcases hrecoverable with hreason | hmemory | ⟨b', n', hb', hroom, hstops', hagrees⟩
      · exact absurd (Or.inl hreason) hgranted
      · exact absurd (Or.inr hmemory) hgranted
      · rw [show s.memory.arena.block? r₀.handle = some b' from hb'] at hb
        cases hb
        rw [hstops'.unique hstops] at hagrees
        refine unharmed_of_records hs hslots hcounters hblocks fun r hr => ?_
        by_cases hsame : r = r₀
        · rw [hsame]
          exact hiff.mpr ⟨hroom, hagrees⟩
        · exact hothers r hr hsame

/-- Where nothing else fails, a payload that is too long leaves a handle without a block in the place of a record. -/
theorem put_over_too_long {payload : Bytes} {b : Block} (hs : s.WellFormed) (hunlimited : s.Unlimited) (ttl : Lifetime)
    (hr₀ : r₀ ∈ s.records) (hk₀ : r₀.key? = some k) (hk : Payload.key payload = .ok k)
    (hb : s.memory.arena.block? r₀.handle = some b) (hmoves : b.capacity < Record.sizeFor payload.length)
    (hsize : Record.sizeFor payload.length ≤ Block.addressable) (hlong : Record.lengthLimit ≤ payload.length) :
    ∃ s', put payload ttl s = .error (.error (.invalidArgument (.payloadTooLong payload.length))) s' ∧
      s'.slots = s.slots ∧ s'.memory.Legible ∧ s'.memory.arena.block? r₀.handle = none := by
  have hcount := leads_tally hs s.gets (s.puts + 1) s.removes
  obtain ⟨i, g, hroute, hi⟩ := exists_route hs k
  obtain ⟨a, hsegment, hdead⟩ := Segment.put_over_too_long (r := Record.fresh payload ttl s.clock.now)
    (hcount.wellFormed.inOrder hi) hunlimited.faultless hunlimited.limit? hunlimited.maxBytes?
    (mem_part hs hroute hi hr₀ hk₀) hk₀ hb hmoves hsize hlong
  exact ⟨_, (put_eq s ttl hk hroute).trans (onSegment_error hi hsegment), setIfInBounds_occupant hi, rfl, hdead⟩

variable {schema : Schema} {config : StoreConfig} {memory : Memory} {notifier : Notifier} {clock : Clock}
  {draw : Nat → Nat} {s₀ : Store}

/-- Whatever was asked of a store before, and whichever call for room or write fails while an entry is put over another
    one: a put that fails harms no other record, and nothing at all just if it can be made good. -/
theorem unharmed_iff_recoverable {requests : List Request} {f : Faults} {payload : Bytes} {ttl : Lifetime} {e : Error}
    (hs₀ : create schema config memory notifier clock draw = .ok s₀) (hsteady : memory.Steady)
    (hsound : memory.arena.Sound) (hfits : ∀ q ∈ requests, q.Fits schema) (hs : s = (run requests s₀).2)
    (hread : f.read = []) (hr₀ : r₀ ∈ s.records) (hk : Payload.key payload = .ok k) (hk₀ : r₀.key? = some k)
    (hfail : put payload ttl (s.withFaults f) = .error (.error e) s') :
    s.Contained s' r₀ ∧ (s.Unharmed s' ↔ (s.withFaults f).Recoverable r₀ (Record.fresh payload ttl s.clock.now)) := by
  obtain ⟨hvalid, rfl⟩ := of_create hs₀
  subst hs
  have hmade : (made schema config memory notifier clock draw).WellFormed := wellFormed_made hvalid hsteady hsound
  exact contained_of_put_error (run_wellFormed hmade hfits).1 hread hr₀ hk₀ hk hfail

/-- A store with one segment of two slots, and a short entry in the first one. -/
def tight : Store :=
  (run [.put [1, 0, 1, 1] Lifetime.forever] (made ⟨"Entry", []⟩
    { minSegments := 1, maxSegments := 1, segmentCapacity := 2 } .empty (.silent "Entry") ⟨0⟩
    (Placement.evenly 1 1))).2

/-- Puts a longer payload with the key of that entry. -/
def lengthen : Op Nat := put ([1, 0, 1, 1] ++ List.replicate 13 0) Lifetime.forever

/-- A longer payload moves the block of the entry, and the first write into the new one fails. The entry is lost. -/
theorem not_unharmed_of_moved : ∃ s, lengthen (tight.withFaults (.single .write 0)) =
    .error (.error Memory.plannedFault) s ∧ tight.Contained s ⟨[1, 0, 1, 1], 0, Lifetime.forever, ⟨1⟩⟩ ∧
      ¬ tight.Unharmed s ∧ (getRecord? (.bool true) s matches .error (.error (.invalidHandle ⟨1⟩)) _) := by
  have hmade : create ⟨"Entry", []⟩ { minSegments := 1, maxSegments := 1, segmentCapacity := 2 } .empty
      (.silent "Entry") ⟨0⟩ (Placement.evenly 1 1) = .ok (made _ _ _ _ _ _) := rfl
  have hfits : ∀ q ∈ [Request.put [1, 0, 1, 1] Lifetime.forever], q.Fits ⟨"Entry", []⟩ := by
    intro q hq
    rw [List.mem_singleton.mp hq]
    exact show 4 < Record.lengthLimit by decide
  have hstored : ⟨[1, 0, 1, 1], 0, Lifetime.forever, ⟨1⟩⟩ ∈ tight.records :=
    mem_records.mpr ⟨0, _, rfl, Arena.mem_records.mpr ⟨mem_held.mpr ⟨0, rfl⟩, rfl⟩⟩
  have hfail : lengthen (tight.withFaults (.single .write 0)) = .error (.error Memory.plannedFault)
      (Action.final lengthen (tight.withFaults (.single .write 0))) := rfl
  obtain ⟨hcontained, hiff⟩ := unharmed_iff_recoverable (k := .bool true) hmade ⟨rfl, rfl, rfl⟩
    (Arena.sound_empty none) hfits rfl rfl hstored rfl rfl hfail
  refine ⟨_, hfail, hcontained, fun hunharmed => ?_, by decide⟩
  rcases hiff.mp hunharmed with ⟨reason, hreason⟩ | ⟨e, m, hmemory⟩ | ⟨b, n, hb, hroom, -⟩
  · cases hreason
  · cases hmemory
  · cases hb
    exact absurd hroom (by decide)

end RecordStore.Store
