import RecordStore.Proofs.Arena.Ledger
import RecordStore.Proofs.Segment.Runs
import RecordStore.Proofs.Store.FailingCalls

/-! # Failed insertions

A put of a new key that fails at any one of its steps leaves nothing behind but room in a table. -/

namespace RecordStore

namespace Arena

/-- Arenas with the same blocks have counted the same bytes. -/
theorem allocatedBytes_eq {a a' : Arena} (ha : a.Sound) (ha' : a'.Sound) (hblocks : a'.block? = a.block?) :
    a'.allocatedBytes = a.allocatedBytes := by
  have hle := Nat.le_max_left a.blocks.size a'.blocks.size
  have hle' := Nat.le_max_right a.blocks.size a'.blocks.size
  rw [ha.bytes, ha'.bytes, total_eq_range hle, total_eq_range hle', hblocks]

end Arena

namespace Store

variable {s s' : Store} {k : Value} {payload : Bytes} {ttl : Lifetime}

/-- Asks for the entry of a key. -/
def Request.LooksUp : Request → Prop
  | .contains _ | .getRecord _ | .get _ | .getEntity _ => True
  | _ => False

/-- Nobody who uses the store or its memory can tell that the key was to be put. -/
structure Traceless (s s' : Store) (k : Value) : Prop where
  /-- Every key has the record that it had. -/
  finds : ∀ k', s'.finds k' = s.finds k'
  /-- Whoever looks a key up is told the same, as long as no listener breaks off and no call fails any more. -/
  answers : s.notifier.Calm → ∀ q : Request, q.LooksUp →
    (answer q (s'.withFaults .never)).1 = (answer q (s.withFaults .never)).1
  absent : s'.finds k = none
  records : s'.records = s.records
  items : s'.size = s.size
  bytes : s'.bytesUsed = s.bytesUsed
  rehash : s'.counters.rehash? = s.counters.rehash?
  /-- The same handles name blocks, with the same bytes in them. -/
  blocks : s'.memory.arena.block? = s.memory.arena.block?
  allocatedBytes : s'.memory.arena.allocatedBytes = s.memory.arena.allocatedBytes
  /-- Searches in every segment end where they should. -/
  searchable : ∀ i g, s'.segment? i = some g → (s'.part g).Searchable
  /-- Each segment holds the same handles, in a table that may have been doubled if the key belongs there. -/
  tables : ∀ i g, s.segment? i = some g → ∃ g', s'.segment? i = some g' ∧ held g'.slots = held g.slots ∧
    (g' = g ∨ Placement.route? s.slots k = some i ∧
      (g'.capacity = g.capacity ∨ g'.capacity = 2 * g.capacity))

theorem Orderly.finds_record {r : Record} (hs : s.Orderly) (hr : r ∈ s.records) (hk : r.key? = some k) :
    s.finds k = some r := Store.finds_record (s := s.withFaults .never) hs.wellFormed hr hk

theorem Orderly.finds_none (hs : s.Orderly) (hnew : ∀ r ∈ s.records, r.key? ≠ some k) : s.finds k = none :=
  Store.finds_none (s := s.withFaults .never) hs.wellFormed hnew

theorem Orderly.finds_congr (hs : s.Orderly) (hs' : s'.Orderly) (hrecords : s'.records = s.records) (k : Value) :
    s'.finds k = s.finds k := by
  by_cases hstored : ∃ r ∈ s.records, r.key? = some k
  · obtain ⟨r, hr, hk⟩ := hstored
    rw [hs.finds_record hr hk, hs'.finds_record (hrecords ▸ hr) hk]
  · have hnew : ∀ r ∈ s.records, r.key? ≠ some k := fun r hr hk => hstored ⟨r, hr, hk⟩
    rw [hs.finds_none hnew, hs'.finds_none (hrecords ▸ hnew)]

/-- What is told of a key depends on the records and the clock alone. -/
theorem looks_congr {q : Request} (hs : s.WellFormed) (hs' : s'.WellFormed) (hrecords : s'.records = s.records)
    (hclock : s'.clock = s.clock) (hcalm : s.notifier.Calm) (hcalm' : s'.notifier.Calm) (hq : q.LooksUp) :
    (answer q s').1 = (answer q s).1 := by
  have hlasting (k : Value) : s'.lasting k = s.lasting k := by
    unfold lasting
    rw [hrecords, hclock]
  -- What is found is told by the records that are left, and these are the same.
  have hfound {k : Value} {t t' : Store} {r? r?' : Option Record} (ht : Leads s t (s.lasting k))
      (ht' : Leads s' t' (s'.lasting k)) (hr : ∀ r, r? = some r ↔ r ∈ t.records ∧ r.key? = some k)
      (hr' : ∀ r, r?' = some r ↔ r ∈ t'.records ∧ r.key? = some k) : r?' = r? := by
    refine Option.ext fun r => ?_
    rw [hr, hr', ht.records, ht'.records, hlasting]
  cases q with
  | contains key =>
    obtain ⟨b, t, hrun, ht, hb⟩ := (contains_ok hs key).resolve_right fun h => h.not_calm hcalm
    obtain ⟨b', t', hrun', ht', hb'⟩ := (contains_ok hs' key).resolve_right fun h => h.not_calm hcalm'
    rw [answer, respond_ok hrun, respond_ok hrun']
    refine congrArg Response.flag (Bool.eq_iff_iff.mpr ?_)
    rw [hb, hb', ht.records, ht'.records, hlasting]
  | getRecord key =>
    obtain ⟨r?, t, hrun, ht, hr⟩ := (getRecord?_ok hs key).resolve_right fun h => h.not_calm hcalm
    obtain ⟨r?', t', hrun', ht', hr'⟩ := (getRecord?_ok hs' key).resolve_right fun h => h.not_calm hcalm'
    rw [answer, respond_ok hrun, respond_ok hrun', hfound ht ht' hr hr']
  | get key =>
    obtain ⟨r?, t, hrun, ht, hr⟩ := (get?_ok hs key).resolve_right fun h => h.not_calm hcalm
    obtain ⟨r?', t', hrun', ht', hr'⟩ := (get?_ok hs' key).resolve_right fun h => h.not_calm hcalm'
    rw [answer, respond_ok hrun, respond_ok hrun', hfound ht ht' hr hr']
  | getEntity key =>
    obtain ⟨r?, t, ht, hr, hrun⟩ := (getEntity?_ok hs key).resolve_right fun h => h.not_calm hcalm
    obtain ⟨r?', t', ht', hr', hrun'⟩ := (getEntity?_ok hs' key).resolve_right fun h => h.not_calm hcalm'
    rw [hfound ht ht' hr hr'] at hrun'
    rw [answer, respond, respond, hrun, hrun']
    cases r? with
    | none => rfl
    | some r =>
      dsimp only
      cases Payload.decode r.payload <;> rfl
  | _ => exact hq.elim

/-- A put of a new key of which a step fails is taken back. -/
theorem put_new_traceless (hs : s.Orderly) (hk : Payload.key payload = .ok k)
    (hnew : ∀ r ∈ s.records, r.key? ≠ some k) (hsize : Record.sizeFor payload.length ≤ Block.addressable)
    (hfails : (Record.fresh payload ttl s.clock.now).Fails s.memory)
    (hrelease : s.memory.faults.isDue .release = false) :
    ∃ e s', put payload ttl s = .error (.error e) s' ∧ s.Traceless s' k := by
  obtain ⟨i, g, hroute, hi⟩ := hs.exists_route k
  let s₁ := s.tally s.gets (s.puts + 1) s.removes
  have hs₁ : s₁.Orderly := hs.tally s.gets (s.puts + 1) s.removes
  have hi₁ : s₁.segment? i = some g := hi
  obtain ⟨e, u, hrun, hu⟩ := Segment.put_new_fails (r := Record.fresh payload ttl s.clock.now) (hs₁.part hi₁) hsize
    (Record.key?_eq_some_iff.mpr hk) (fun r hr => hnew r (mem_records.mpr ⟨i, g, hi, hr⟩)) hfails
  refine ⟨e, s₁.update i u, (put_eq s ttl hk hroute).trans (onSegment_error hi₁ hrun), ?_⟩
  have halters := hu.alters (hs₁.part hi₁)
  have hafter : (s₁.update i u).Orderly :=
    hs₁.update hi₁ (Segment.Sustains.of_alters (fun _ => hu.legible) hu.alters id)
  have hrecords : (s₁.update i u).records = s.records := by
    have hmine := (records_part hs₁.wellFormed hi₁).1
    have hall := records_update hs₁.wellFormed hi₁ halters
    rw [show (s₁.part g).records = _ from hmine, Multiset.filter_add_not] at hall
    exact hall
  have hblocks : u.memory.arena.block? = s.memory.arena.block? := by
    obtain ⟨b?, hbecomes, hleft⟩ := hu.arena
    rw [hbecomes.block?, hleft hrelease]
    exact Function.update_eq_self_iff.mpr Arena.block?_nextHandle.symm
  exact {
    finds := hs.finds_congr hafter hrecords
    answers := fun hcalm q => looks_congr hs.wellFormed hafter.wellFormed hrecords hu.clock hcalm (hu.notifier ▸ hcalm)
    absent := hafter.finds_none fun r hr => hnew r (hrecords ▸ hr)
    records := hrecords
    items := congrArg Counters.items hu.counters
    bytes := congrArg Counters.bytes hu.counters
    rehash := congrArg Counters.rehash? hu.counters
    blocks := hblocks
    allocatedBytes := Arena.allocatedBytes_eq hs.wellFormed.sound hafter.wellFormed.sound hblocks
    searchable := fun j g' hj => (hafter.wellFormed.inOrder hj).searchable hafter.legible
    tables := fun j g' hj => by
      rw [segment?_update hi₁]
      by_cases hji : j = i
      · subst hji
        rw [hi] at hj
        cases hj
        exact ⟨u.segment, if_pos rfl, hu.held, Or.inr ⟨hroute, hu.capacity⟩⟩
      · exact ⟨g', (if_neg hji).trans hj, rfl, Or.inl rfl⟩ }

variable {schema : Schema} {config : StoreConfig} {memory : Memory} {notifier : Notifier} {clock : Clock}
  {draw : Nat → Nat} {s₀ : Store}

/-- Whatever a store has gone through without an entry being torn: if the allocation, one of the writes or the check of
    the length fails while a new key is put, and the block can be given back, the put fails and leaves no trace. -/
theorem traceless_of_failed_insert {trials : List Trial}
    (hs₀ : create schema config memory notifier clock draw = .ok s₀) (hlegible : memory.Legible)
    (hsound : memory.arena.Sound) (hendures : Endures trials s₀) (hs : s = endure trials s₀)
    (hk : Payload.key payload = .ok k) (hnew : ∀ r ∈ s.records, r.key? ≠ some k)
    (hsize : Record.sizeFor payload.length ≤ Block.addressable)
    (hfails : (Record.fresh payload ttl s.clock.now).Fails s.memory)
    (hrelease : s.memory.faults.isDue .release = false) :
    ∃ e s', put payload ttl s = .error (.error e) s' ∧ s.Traceless s' k := by
  have horderly : s.Orderly := hs ▸ endure_orderly hendures (orderly_of_create hs₀ hlegible hsound)
  exact put_new_traceless horderly hk hnew hsize hfails hrelease

/-- In a table of two slots with one entry a second one is to be put. The table grows, a block is made and the length is
    written, and then the second write fails. -/
theorem traceless_of_second_write : ∃ e s', put [1, 0, 1, 0] Lifetime.forever (tight.withFaults (.single .write 1)) =
    .error (.error e) s' ∧ (tight.withFaults (.single .write 1)).Traceless s' (.bool false) := by
  have hmade : create ⟨"Entry", []⟩ { minSegments := 1, maxSegments := 1, segmentCapacity := 2 } .empty
      (.silent "Entry") ⟨0⟩ (Placement.evenly 1 1) = .ok (made _ _ _ _ _ _) := rfl
  have hendures : Endures [.ask (.put [1, 0, 1, 1] Lifetime.forever), .plan (.single .write 1)]
      (made ⟨"Entry", []⟩ { minSegments := 1, maxSegments := 1, segmentCapacity := 2 } .empty (.silent "Entry") ⟨0⟩
        (Placement.evenly 1 1)) := by
    have hwell : (made ⟨"Entry", []⟩ { minSegments := 1, maxSegments := 1, segmentCapacity := 2 } .empty
        (.silent "Entry") ⟨0⟩ (Placement.evenly 1 1)).WellFormed :=
      wellFormed_made rfl ⟨rfl, rfl, rfl⟩ (Arena.sound_empty none)
    refine ⟨?_, rfl, trivial⟩
    rintro _ _ ⟨rfl, rfl⟩
    exact ⟨by decide, hwell.not_tears (by decide)⟩
  refine traceless_of_failed_insert hmade rfl (Arena.sound_empty none) hendures rfl rfl ?_ (by decide)
    (Or.inr ⟨1, Or.inr ⟨by decide, by decide, rfl⟩⟩) rfl
  intro r hr
  obtain ⟨i, g, hi, hr⟩ := mem_records.mp hr
  obtain ⟨hmem, hrecord⟩ := Arena.mem_records.mp hr
  cases i with
  | succ i => cases hi
  | zero =>
    cases hi
    obtain hfirst : r.handle = ⟨1⟩ := Multiset.mem_singleton.mp hmem
    rw [hfirst] at hrecord
    cases hrecord
    decide

/-! ### What a failed read can do to it -/

/-- Beside the entry that was cut off there is another one, so that the next put makes the table grow. The next write
    fails. -/
@[irreducible] def crowded : Store :=
  endure [.ask (.put [1, 0, 2, 1, 0, 0, 0, 0, 0, 0, 0] Lifetime.forever), .plan (.single .write 0)]
    (severed Lifetime.forever)

/-- Once a read has failed while an entry was removed, a put that fails may leave a trace. The table that has grown for
    it holds the entry again that was cut off, at its home. -/
theorem not_traceless_of_failed_read :
    (∀ r ∈ crowded.records, r.key? ≠ some (.int 7)) ∧
    let (response, s) := answer (.put [1, 0, 2, 7, 0, 0, 0, 0, 0, 0, 0] Lifetime.forever) crowded
    response = .failed (.error Memory.plannedFault) ∧ crowded.finds (.bool false) = none ∧
      s.finds (.bool false) = some ⟨[1, 0, 1, 0], 0, Lifetime.forever, ⟨2⟩⟩ ∧ ¬ crowded.Traceless s (.int 7) := by
  have hbefore : crowded.finds (.bool false) = none := by decide +kernel
  have hafter : (answer (.put [1, 0, 2, 7, 0, 0, 0, 0, 0, 0, 0] Lifetime.forever) crowded).2.finds (.bool false) =
      some ⟨[1, 0, 1, 0], 0, Lifetime.forever, ⟨2⟩⟩ := by decide +kernel
  refine ⟨by decide +kernel, by decide +kernel, hbefore, hafter, fun h => ?_⟩
  have hfound := h.finds (.bool false)
  rw [hbefore] at hfound
  exact Option.some_ne_none _ (hafter.symm.trans hfound)

end Store

end RecordStore
