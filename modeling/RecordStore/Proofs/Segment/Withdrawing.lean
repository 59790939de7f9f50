import RecordStore.Proofs.Moves
import RecordStore.Proofs.Segment.Tearing

/-! # Withdrawn records

A new record gets a place in the counters, room in the table, a block, its bytes and then a slot. If one of these steps
fails, what the others have done is taken back, but for the room in the table. Only the block can be left, if giving it
back fails as well. -/

namespace RecordStore

open RecordStore.Action

namespace Memory

variable {α : Type} {c : Call}

/-- The plan for the calls of a kind is what it was. -/
def SamePlan (c : Call) (m m' : Memory) : Prop := m'.faults.gaps c = m.faults.gaps c

instance : IsPreorder Memory (SamePlan c) where
  refl _ := rfl
  trans _ _ _ h₁ h₂ := h₂.trans h₁

theorem samePlan_call {c' : Call} (h : c ≠ c') (x : Action Arena α) : Moves (SamePlan c) (call c' x) := by
  intro m
  have hpass : (m.faults.pass c').gaps c = m.faults.gaps c := m.faults.gaps_pass h
  cases hdue : m.faults.isDue c' with
  | true =>
    rw [final_error (call_due hdue)]
    exact hpass
  | false =>
    cases hx : x m.arena with
    | ok v a =>
      rw [final_ok (call_ok hdue hx)]
      exact hpass
    | error e a =>
      rw [final_error (call_error hdue hx)]
      exact hpass

/-- A block of so many bytes is not to be had: by plan, or because of the limit. -/
def LacksRoom (m : Memory) (size : Nat) : Prop :=
  m.faults.isDue .allocate = true ∨
    ∃ limit, m.arena.limit? = some limit ∧ limit < m.arena.allocatedBytes.toNat + size

theorem allocate_outcomes {m : Memory} {size : Nat} (hsize : size ≤ Block.addressable) :
    (m.LacksRoom size ∧ ∃ e, allocate size m = .error (.error e) (m.passed .allocate)) ∨
    (¬ m.LacksRoom size ∧ ∃ m', allocate size m = .ok m.arena.nextHandle m' ∧ m'.faults = m.faults.pass .allocate ∧
      m.arena.Becomes m'.arena (Function.update m.arena.block? m.arena.nextHandle (some (Block.fresh size)))) := by
  cases hdue : m.faults.isDue .allocate with
  | true => exact Or.inl ⟨Or.inl hdue, _, call_due hdue⟩
  | false =>
    by_cases hfull : ∃ limit, m.arena.limit? = some limit ∧ limit < m.arena.allocatedBytes.toNat + size
    · obtain ⟨limit, hlimit, hlt⟩ := hfull
      exact Or.inl ⟨Or.inr ⟨limit, hlimit, hlt⟩, _, call_error hdue (Arena.allocate_refused hlimit hlt)⟩
    · rcases Arena.allocate_cases m.arena size with
        ⟨limit, hlimit, hlt, -⟩ | ⟨a, hok, hbecomes⟩ | ⟨-, -, hlarge, -⟩
      · exact absurd ⟨limit, hlimit, hlt⟩ hfull
      · refine Or.inr ⟨fun hlacks => ?_, ⟨a, _⟩, call_ok hdue hok, rfl, hbecomes⟩
        rcases hlacks with hdue' | hfull'
        · rw [hdue] at hdue'
          cases hdue'
        · exact hfull hfull'
      · exact absurd hsize (Nat.not_le_of_lt hlarge)

end Memory

namespace Record

open Memory (SamePlan samePlan_call)

variable {c : Call} {m : Memory} {r : Record} {h : Handle}

theorem samePlan_writeTo (hc : c ≠ .write) (r : Record) (h : Handle) : Moves (SamePlan c) (r.writeTo h) := by
  have hwrite (offset : Nat) (data : Bytes) : Moves (SamePlan c) (Memory.write h offset data) := samePlan_call hc _
  have hpieces : Moves (SamePlan c) (do
      Memory.writeWord h lengthOffset 4 r.payload.length
      Memory.writeUInt64 h createdAtOffset r.createdAt
      Memory.writeUInt32 h ttlOffset r.ttl
      Memory.write h payloadOffset r.payload) :=
    (hwrite _ _).bind fun _ => (hwrite _ _).bind fun _ => (hwrite _ _).bind fun _ => hwrite _ _
  unfold writeTo
  split
  · exact Moves.bind (Moves.throw _) fun _ => hpieces
  · exact hpieces

theorem samePlan_store (hallocate : c ≠ .allocate) (hrelease : c ≠ .release) (hwrite : c ≠ .write) (r : Record) :
    Moves (SamePlan c) r.store := by
  refine Moves.bind (samePlan_call hallocate _) fun h => (samePlan_writeTo hwrite r h).attempt.bind fun result => ?_
  cases result with
  | ok _ => exact Moves.pure _
  | error e => exact Moves.bind (samePlan_call hrelease _).attempt fun _ => Moves.throw _

theorem samePlan_storeOver (hreallocate : c ≠ .reallocate) (hwrite : c ≠ .write) (r : Record) (old : Handle) :
    Moves (SamePlan c) (r.storeOver old) :=
  Moves.bind (samePlan_call hreallocate _) fun h => (samePlan_writeTo hwrite r h).bind fun _ => Moves.pure _

/-- The writing of a record stops where it must, and is carried out if there is no such place. -/
theorem writeTo_outcomes {b : Block} (hb : m.arena.block? h = some b) (hsize : b.size = r.size) :
    ((∃ n, r.StopsAt m.faults n) ∧ ∃ e m' b', r.writeTo h m = .error (.error e) m' ∧
      m.arena.Becomes m'.arena (Function.update m.arena.block? h (some b'))) ∨
    ((¬ ∃ n, r.StopsAt m.faults n) ∧ r.payload.length < lengthLimit ∧ ∃ m' b', r.writeTo h m = .ok () m' ∧
      b'.toList = r.encode ∧ m.arena.Becomes m'.arena (Function.update m.arena.block? h (some b'))) := by
  by_cases hlong : lengthLimit ≤ r.payload.length
  · exact Or.inl ⟨⟨0, Or.inl ⟨hlong, rfl⟩⟩, _, m, b, writeTo_rejected hlong h m, Arena.Becomes.same hb⟩
  rw [Nat.not_le] at hlong
  have hold : b.toList.length = r.encode.length := by rw [← Block.size_eq_length, hsize, length_encode]
  rw [writeTo_eq hlong]
  rcases writeAll_cases (h := h) r.pieces 0 hb rfl hold (flatten_pieces r).symm (Nat.zero_le _) with
    ⟨n, hn, hplan, a, f, b', hrun, -, hbecomes⟩ | ⟨hplan, a, f, b', hrun, -, hbytes, hbecomes⟩
  · exact Or.inl ⟨⟨n, Or.inr ⟨hlong, hn, hplan⟩⟩, _, ⟨a, f⟩, b', hrun, hbecomes⟩
  · refine Or.inr ⟨?_, hlong, ⟨a, f⟩, b', hrun, hbytes, hbecomes⟩
    rintro ⟨n, ⟨hlong', -⟩ | ⟨-, hn, hplan'⟩⟩
    · omega
    · exact hplan n hn hplan'

/-- A step of storing the record in a block of its own fails: the allocation, one of the writes, or the check of its
    length before them. -/
def Fails (r : Record) (m : Memory) : Prop := m.LacksRoom r.size ∨ ∃ n, r.StopsAt m.faults n

/-- A record is stored in a block of its own, or a step of it fails. Then no block is left, unless the release of it
    fails too. -/
theorem store_outcomes (hsize : r.size ≤ Block.addressable) :
    (r.Fails m ∧ ∃ e m' b?, r.store m = .error (.error e) m' ∧
      m.arena.Becomes m'.arena (Function.update m.arena.block? m.arena.nextHandle b?) ∧
      (m.faults.isDue .release = false → b? = none)) ∨
    (¬ r.Fails m ∧ r.payload.length < lengthLimit ∧ ∃ m' b, r.store m = .ok { r with handle := m.arena.nextHandle } m' ∧
      b.toList = r.encode ∧
      m.arena.Becomes m'.arena (Function.update m.arena.block? m.arena.nextHandle (some b))) := by
  rcases Memory.allocate_outcomes hsize with 
    ⟨hlacks, e, hallocate⟩ | ⟨hroom, m₁, hallocate, hfaults, hbecomes⟩
  · refine Or.inl ⟨Or.inl hlacks, e, m.passed .allocate, none, Action.bind_error hallocate, ?_, fun _ => rfl⟩
    rw [Function.update_eq_self_iff.mpr Arena.block?_nextHandle.symm]
    exact Arena.Becomes.refl m.arena
  -- From here on the block is there, and the plan for what follows is still the same.
  have hplan {c : Call} (hc : c ≠ .allocate) : m₁.faults.gaps c = m.faults.gaps c := hfaults ▸ m.faults.gaps_pass hc
  have hstops (n : Nat) : r.StopsAt m₁.faults n ↔ r.StopsAt m.faults n := by
    unfold StopsAt
    rw [show m₁.faults.write = m.faults.write from hplan (c := .write) (by decide)]
  have hblock : m₁.arena.block? m.arena.nextHandle = some (Block.fresh r.size) := by
    rw [hbecomes.block?, Function.update_self]
  rcases writeTo_outcomes (m := m₁) (r := r) hblock (Block.size_fresh _) with
    ⟨⟨n, hn⟩, e, m₂, b, hwrite, hbecomes'⟩ | ⟨hnone, hfits, m₂, b, hwrite, hbytes, hbecomes'⟩
  · have hall := hbecomes.trans hbecomes'
    rw [hbecomes.block?, Function.update_idem] at hall
    refine Or.inl ⟨Or.inr ⟨n, (hstops n).mp hn⟩, e, ?_⟩
    have hblock' : m₂.arena.block? m.arena.nextHandle = some b := by rw [hall.block?, Function.update_self]
    have hdue : m₂.faults.isDue .release = m.faults.isDue .release := by
      unfold Faults.isDue
      rw [(samePlan_writeTo (c := .release) (by decide) r m.arena.nextHandle).error hwrite, hplan (by decide)]
    rcases Memory.release_cases hblock' with ⟨hfails, hrelease⟩ | ⟨-, a₃, hrelease, hbecomes''⟩
    · refine ⟨m₂.passed .release, some b, ?_, hall, fun hpasses => ?_⟩
      · simp only [store, Action.bind_ok hallocate, Action.bind_ok (Action.attempt_error hwrite),
          Action.bind_ok (Action.attempt_error hrelease)]
        rfl
      · rw [hdue, hpasses] at hfails
        cases hfails
    · have hgone := hall.trans hbecomes''
      rw [hall.block?, Function.update_idem] at hgone
      refine ⟨⟨a₃, m₂.faults.pass .release⟩, none, ?_, hgone, fun _ => rfl⟩
      simp only [store, Action.bind_ok hallocate, Action.bind_ok (Action.attempt_error hwrite),
        Action.bind_ok (Action.attempt_ok hrelease)]
      rfl
  · have hall := hbecomes.trans hbecomes'
    rw [hbecomes.block?, Function.update_idem] at hall
    refine Or.inr ⟨?_, hfits, m₂, b, ?_, hbytes, hall⟩
    · rintro (hlacks | ⟨n, hn⟩)
      · exact hroom hlacks
      · exact hnone ⟨n, (hstops n).mpr hn⟩
    · simp only [store, Action.bind_ok hallocate, Action.bind_ok (Action.attempt_ok hwrite), Action.pure_run]

/-- Where nothing else fails, a record that is too long gets a block and loses it again. -/
theorem store_too_long (hfaults : m.faults = .never) (hlimit : m.arena.limit? = none)
    (hsize : r.size ≤ Block.addressable) (hlong : lengthLimit ≤ r.payload.length) :
    ∃ a, r.store m = .error (.error (.invalidArgument (.payloadTooLong r.payload.length))) ⟨a, .never⟩ ∧
      m.arena.Becomes a m.arena.block? := by
  rcases Memory.allocate_cases m hsize with ⟨e, hrefuses, -⟩ | ⟨a₁, hallocate, hbecomes⟩
  · exact absurd hrefuses (Memory.not_refuses hfaults hlimit)
  rw [hfaults, Memory.pass_never] at hallocate
  have hblock : a₁.block? m.arena.nextHandle = some (Block.fresh r.size) := by
    rw [hbecomes.block?, Function.update_self]
  obtain ⟨a, hrelease, hbecomes'⟩ := Memory.release_ok (m := ⟨a₁, .never⟩) ⟨rfl, rfl, rfl⟩ hblock
  refine ⟨a, ?_, ?_⟩
  · simp only [store, Action.bind_ok hallocate, Action.bind_ok (Action.attempt_error (writeTo_rejected hlong _ _)),
      Action.bind_ok (Action.attempt_ok hrelease)]
    rfl
  · have hall := hbecomes.trans hbecomes'
    rw [hbecomes.block?, Function.update_idem, Function.update_eq_self_iff.mpr Arena.block?_nextHandle.symm] at hall
    exact hall

end Record

namespace Segment

variable {t u : State} {r : Record} {k : Value}

/-- A record was to be inserted, and what was done for it has been taken back. -/
structure Withdrawn (t u : State) : Prop where
  clock : u.clock = t.clock
  notifier : u.notifier = t.notifier
  counters : u.counters = t.counters
  legible : u.memory.Legible
  inOrder : InOrder u.memory.arena u.segment
  held : held u.segment.slots = held t.segment.slots
  /-- The table is as large as before, or has grown. -/
  capacity : u.segment.capacity = t.segment.capacity ∨ u.segment.capacity = 2 * t.segment.capacity
  /-- No block is left under the new handle, unless its release has failed. -/
  arena : ∃ b?, t.memory.arena.Becomes u.memory.arena
      (Function.update t.memory.arena.block? t.memory.arena.nextHandle b?) ∧
    (t.memory.faults.isDue .release = false → b? = none)

theorem Withdrawn.refl (ht : t.Orderly) : Withdrawn t t where
  clock := rfl
  notifier := rfl
  counters := rfl
  legible := ht.legible
  inOrder := ht.wellFormed.table
  held := rfl
  capacity := Or.inl rfl
  arena := by
    refine ⟨none, ?_, fun _ => rfl⟩
    rw [Function.update_eq_self_iff.mpr Arena.block?_nextHandle.symm]
    exact Arena.Becomes.refl _

theorem Withdrawn.block?_eq {h : Handle} (hu : Withdrawn t u) (hlive : t.memory.arena.block? h ≠ none) :
    u.memory.arena.block? h = t.memory.arena.block? h := by
  obtain ⟨b?, hbecomes, -⟩ := hu.arena
  rw [hbecomes.block?, Function.update_of_ne]
  rintro rfl
  exact hlive Arena.block?_nextHandle

theorem Withdrawn.records (hu : Withdrawn t u) (ht : t.Orderly) : u.records = t.records := by
  rw [State.records, State.records, hu.held]
  refine Arena.records_congr fun h hh => Arena.record?_congr (hu.block?_eq fun hdead => ?_)
  exact ht.wellFormed.table.ne_of_dead hh hdead rfl

theorem Withdrawn.alters (hu : Withdrawn t u) (ht : t.Orderly) :
    Alters (t.replan .never) (u.replan .never) t.records := by
  obtain ⟨b?, hbecomes, -⟩ := hu.arena
  have hrecords := hu.records ht
  refine ⟨⟨⟨hu.inOrder, ⟨rfl, rfl, rfl⟩, hbecomes.sound ht.wellFormed.sound⟩, ?_⟩, fun h hh hlive => ⟨?_, ?_⟩, hrecords,
    ?_, ?_⟩
  · show u.records.card ≤ u.counters.items
    rw [hrecords, hu.counters]
    exact ht.wellFormed.backed
  · show h ∉ RecordStore.held u.segment.slots
    rw [hu.held]
    exact hh
  · exact hu.block?_eq hlive
  · show u.counters.items + t.records.card = _
    rw [hu.counters]
    rfl
  · show u.counters.bytes + UInt64.ofNat (weight t.records) = _
    rw [hu.counters]
    rfl

/-- A record with a new key gets a block and a slot, or is withdrawn because a step fails. -/
theorem insert_outcomes (ho : InOrder t.memory.arena t.segment) (hm : t.memory.Legible) (ha : t.memory.arena.Sound)
    (hsize : r.size ≤ Block.addressable) (hk : r.key? = some k) (hnew : ∀ r' ∈ t.records, r'.key? ≠ some k) :
    (r.Fails t.memory ∧ ∃ e u, insert k r t = .error (.error e) u ∧ Withdrawn t u) ∨
    (¬ r.Fails t.memory ∧ ∃ h u, insert k r t = .ok () u ∧ u.memory.Legible ∧ (u.replan .never).Intact ∧
      Keeps (t.replan .never) (u.replan .never) ∧ u.counters = t.counters ∧
      u.records = { r with handle := h } ::ₘ t.records) := by
  have hreads : Action.Moves (Memory.SamePlan .read) r.store :=
    Record.samePlan_store (by decide) (by decide) (by decide) r
  rcases Record.store_outcomes (m := t.memory) (r := r) hsize with
    ⟨hfails, e, m, b?, hstore, hbecomes, hleft⟩ | ⟨hstores, hfits, m, b, hstore, hbytes, hbecomes⟩
  · obtain ⟨slots, -, hcapacity, hgrown, hheld, hgrow⟩ := grow_ok ho hm
    refine Or.inl ⟨hfails, e, { t.withSlots slots with memory := m }, ?_, ?_⟩
    · have hrun := onMemory_error (t := t.withSlots slots) hstore
      simp only [insert, Action.get_bind, hgrow, Action.bind_error hrun]
    · refine ⟨rfl, rfl, rfl, (hreads.error hstore).trans hm, hgrown.congr fun h hh => ?_, hheld, hcapacity, b?,
        hbecomes, hleft⟩
      show m.arena.block? h = t.memory.arena.block? h
      rw [hbecomes.block?, Function.update_of_ne (hgrown.ne_of_dead hh Arena.block?_nextHandle)]
  · obtain ⟨u, hrun, hmemory, hu⟩ := insert_stored ho hm ha hfits hk hnew hstore hbytes hbecomes
    exact Or.inr ⟨hstores, _, u, hrun, hmemory ▸ (hreads.ok hstore).trans hm, hu⟩

/-- The search for a key without a record ends at a free slot. -/
theorem InOrder.probe_new (ho : InOrder t.memory.arena t.segment) (hm : t.memory.Legible)
    (hnew : ∀ r ∈ t.records, r.key? ≠ some k) : ∃ i, probe k t = .ok (.absent i) t := by
  rcases ho.probe_cases hm k with ⟨i, h, r₀, -, hi, hr₀, hk₀⟩ | ⟨i, hprobe, -, -⟩
  · exact absurd hk₀ (hnew r₀ (Arena.mem_records.mpr ⟨Record.handle_of_record? hr₀ ▸ mem_held.mpr ⟨i, hi⟩,
      (Record.handle_of_record? hr₀).symm ▸ hr₀⟩))
  · exact ⟨i, hprobe⟩

/-- A put of a new key stores its record, or withdraws it because the counters refuse it or a step fails. -/
theorem put_new_outcomes (ht : t.Orderly) (hsize : r.size ≤ Block.addressable) (hk : r.key? = some k)
    (hnew : ∀ r' ∈ t.records, r'.key? ≠ some k) :
    (∃ e u, put k r t = .error (.error e) u ∧ Withdrawn t u) ∨
    (¬ r.Fails t.memory ∧ ∃ h u, put k r t = .ok 0 u ∧ u.memory.Legible ∧
      Leads (t.replan .never) (u.replan .never) ({ r with handle := h } ::ₘ t.records)) := by
  obtain ⟨i, hprobe⟩ := ht.wellFormed.table.probe_new (t := t) ht.legible hnew
  rcases Counters.reserveInsert_cases t.counters r.size with ⟨reason, hres, -⟩ | hres
  · have hrefused := reserve_error (t := t) (p := r.payload) (·.reserveInsert r.size) hres
    exact Or.inl ⟨.capacityExceeded reason r.payload, t,
      by simp only [put, Action.bind_ok hprobe, Action.bind_error hrefused], Withdrawn.refl ht⟩
  have hreserved := reserveInsert_ok hres
  rcases insert_outcomes (t := t.reserved r) ht.wellFormed.table ht.legible ht.wellFormed.sound hsize hk hnew with
    ⟨-, e, u, hrun, hu⟩ | ⟨hstores, h, u, hrun, hlegible, hintact, hkeeps, hcounters, hrecords⟩
  · refine Or.inl ⟨e, _, put_new_cancelled hprobe hreserved hrun hu.counters, ?_⟩
    exact ⟨hu.clock, hu.notifier, rfl, hu.legible, hu.inOrder, hu.held, hu.capacity, hu.arena⟩
  · obtain ⟨u', hput, hmemory, hleads⟩ := put_new_stored ht hprobe hreserved hrun hintact hkeeps hcounters hrecords
    exact Or.inr ⟨hstores, h, u', hput, hmemory ▸ hlegible, hleads⟩

/-- If a step fails, a put of a new key fails. -/
theorem put_new_fails (ht : t.Orderly) (hsize : r.size ≤ Block.addressable) (hk : r.key? = some k)
    (hnew : ∀ r' ∈ t.records, r'.key? ≠ some k) (hfails : r.Fails t.memory) :
    ∃ e u, put k r t = .error (.error e) u ∧ Withdrawn t u :=
  (put_new_outcomes ht hsize hk hnew).resolve_right fun h => h.1 hfails

/-- Where nothing else fails, a put of a new record that is too long is refused and leaves the records as they are. -/
theorem put_too_long (ht : t.WellFormed) (hfaults : t.memory.faults = .never) (hlimit : t.memory.arena.limit? = none)
    (hunlimited : t.counters.maxItems? = none ∧ t.counters.maxBytes? = none) (hnew : ∀ r' ∈ t.records, r'.key? ≠ some k)
    (hsize : r.size ≤ Block.addressable) (hlong : Record.lengthLimit ≤ r.payload.length) :
    ∃ u, put k r t = .error (.error (.invalidArgument (.payloadTooLong r.payload.length))) u ∧ Leads t u t.records := by
  obtain ⟨i, hprobe⟩ := ht.table.probe_new ht.steady.legible hnew
  rcases Counters.reserveInsert_cases t.counters r.size with ⟨reason, -, hlimited⟩ | hres
  · exact absurd hunlimited hlimited
  obtain ⟨a, hstore, hbecomes⟩ := Record.store_too_long hfaults hlimit hsize hlong
  obtain ⟨slots, -, -, hgrown, hheld, hgrow⟩ := grow_ok (t := t.reserved r) ht.table ht.steady.legible
  let u : State := { (t.reserved r).withSlots slots with memory := ⟨a, .never⟩ }
  have hrun : insert k r (t.reserved r) =
      .error (.error (.invalidArgument (.payloadTooLong r.payload.length))) u := by
    have hstored := onMemory_error (t := (t.reserved r).withSlots slots) hstore
    simp only [insert, Action.get_bind, hgrow, Action.bind_error hstored]
    rfl
  have hrecords : u.records = t.records := by
    rw [State.records, State.records, ← show held u.segment.slots = held t.segment.slots from hheld]
    exact Arena.records_congr fun h _ => Arena.record?_congr (congrFun hbecomes.block? h)
  refine ⟨_, put_new_cancelled hprobe (reserveInsert_ok hres) hrun rfl, Leads.of_same ht ?_ ?_ hrecords rfl⟩
  · exact ⟨hgrown.congr fun h _ => congrFun hbecomes.block? h, ⟨rfl, rfl, rfl⟩, hbecomes.sound ht.sound⟩
  · refine Keeps.of_blocks rfl hbecomes.limit? rfl rfl rfl (fun _ => rfl) id (fun h hh hnot => ?_) (fun h hh hnot => ?_)
      fun h _ _ => congrFun hbecomes.block? h
    · exact absurd (hheld ▸ hh) hnot
    · exact absurd (hheld.symm ▸ hh) hnot

end Segment

end RecordStore
