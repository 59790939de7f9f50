import RecordStore.Proofs.Counters
import RecordStore.Proofs.Segment.Resizing
import RecordStore.Segment.Entries

/-! # Storing records

A put stores its record in the place of the one with the same key, or beside the others if there is none. If it is
refused, by a limit or for want of room, the records stay what they are. -/

namespace RecordStore.Segment

variable {t : State} {r : Record} {k : Value}

/-! ### A new entry -/

/-- The state after a record has got a block of its own and a slot. -/
def State.filled (t : State) (memory : Memory) (i : Nat) (h : Handle) : State :=
  { t with
    memory
    segment := { t.segment with slots := t.segment.slots.setIfInBounds i (some h), count := t.segment.count + 1 } }

theorem filled_ok {a : Arena} {f : Faults} {b : Block} {h : Handle} {i : Nat} (ht : t.Intact)
    (hbecomes : t.memory.arena.Becomes a (Function.update t.memory.arena.block? h (some b)))
    (hdead : t.memory.arena.block? h = none) (hbytes : b.toList = r.encode) (hf : f.OnlyRoom)
    (hnever : t.memory.faults = .never → f = .never) (hfits : r.payload.length < Record.lengthLimit)
    (hk : r.key? = some k) (hnew : ∀ r' ∈ t.records, r'.key? ≠ some k)
    (hroom : 2 * (t.segment.count + 1) ≤ t.segment.slots.size) (hi : freeSlot? t.segment.slots k = some i) :
    (t.filled ⟨a, f⟩ i h).Intact ∧ Keeps t (t.filled ⟨a, f⟩ i h) ∧
      (t.filled ⟨a, f⟩ i h).records = { r with handle := h } ::ₘ t.records := by
  have hlive : ∀ g ∈ held t.segment.slots, a.block? g = t.memory.arena.block? g := by
    intro g hg
    rw [hbecomes.block?, Function.update_of_ne (ht.table.ne_of_dead hg hdead)]
  have hholds : a.Holds { r with handle := h } := ⟨hfits, b, by rw [hbecomes.block?, Function.update_self], hbytes⟩
  have hkey : a.key? h = some k := by
    rw [Arena.key?_of_record? hholds.record?]
    exact hk
  have hold : InOrder a t.segment := ht.table.congr hlive
  obtain ⟨hilt, hfree, -⟩ := (freeSlot?_eq_some_iff (by omega)).mp hi
  have hheld : held (t.segment.slots.setIfInBounds i (some h)) = h ::ₘ held t.segment.slots := held_fill hilt hfree
  have hsame : a.records (held t.segment.slots) = t.records :=
    Arena.records_congr fun g hg => Arena.record?_congr (hlive g hg)
  refine ⟨⟨⟨ht.table.made, ?_, ?_, ?_, ?_, ?_⟩, hf, hbecomes.sound ht.sound⟩, ?_, ?_⟩
  · obtain ⟨e, he⟩ := ht.table.doubled
    exact ⟨e, by rw [State.filled, Array.size_setIfInBounds, he]⟩
  · rw [State.filled, Array.size_setIfInBounds]
    exact hroom
  · rw [State.filled, hheld, Multiset.card_cons, ht.table.counted]
  · intro g hg
    rw [State.filled, hheld, Multiset.mem_cons] at hg
    rcases hg with rfl | hg
    · exact ⟨_, rfl, hholds⟩
    · exact hold.stored g hg
  · exact hold.chained.fill hi hkey fun g hg => hold.key?_ne (by rw [hsame]; exact hnew) hg
  · refine Keeps.of_blocks rfl hbecomes.limit? rfl rfl rfl hnever id ?_ ?_ ?_
    · intro g hg hnot
      rw [State.filled, hheld, Multiset.mem_cons] at hg
      rw [hg.resolve_right hnot, hdead]
    · intro g hg hnot
      rw [State.filled, hheld, Multiset.mem_cons, not_or] at hnot
      exact absurd hg hnot.2
    · intro g _ hnot
      rw [State.filled, hheld, Multiset.mem_cons, not_or] at hnot
      rw [State.filled, hbecomes.block?, Function.update_of_ne hnot.1]
  · rw [State.records, State.filled, hheld, Arena.records_cons hholds.record?, hsame]

/-- A state in which a call for room was refused. -/
def State.refused (t : State) (c : Call) : State := { t with memory := t.memory.passed c }

theorem refused_ok {c : Call} (ht : t.Intact) (hc : c = .allocate ∨ c = .reallocate) :
    (t.refused c).Intact ∧ Keeps t (t.refused c) ∧ (t.refused c).records = t.records := by
  refine ⟨⟨ht.table, Memory.steady_pass ht.steady hc, ht.sound⟩, ?_, rfl⟩
  refine ⟨rfl, rfl, rfl, rfl, rfl, fun hnever => ?_, id, fun _ hh _ => ⟨hh, rfl⟩, (Keeps.refl t).owned⟩
  show t.memory.faults.pass c = .never
  rw [hnever, Memory.pass_never]

/-- A record with a new key that has got a block gets a slot, in a table that has grown if it must. -/
theorem insert_stored {m : Memory} {b : Block} (ho : InOrder t.memory.arena t.segment) (hm : t.memory.Legible)
    (ha : t.memory.arena.Sound) (hfits : r.payload.length < Record.lengthLimit) (hk : r.key? = some k)
    (hnew : ∀ r' ∈ t.records, r'.key? ≠ some k)
    (hstore : r.store t.memory = .ok { r with handle := t.memory.arena.nextHandle } m) (hbytes : b.toList = r.encode)
    (hbecomes : t.memory.arena.Becomes m.arena
      (Function.update t.memory.arena.block? t.memory.arena.nextHandle (some b))) :
    ∃ u, insert k r t = .ok () u ∧ u.memory = m ∧ (u.replan .never).Intact ∧
      Keeps (t.replan .never) (u.replan .never) ∧ u.counters = t.counters ∧
      u.records = { r with handle := t.memory.arena.nextHandle } ::ₘ t.records := by
  obtain ⟨slots, hroom, -, hgrown, hheld, hgrow⟩ := grow_ok ho hm
  have hintact : ((t.withSlots slots).replan .never).Intact := ⟨hgrown, ⟨rfl, rfl, rfl⟩, ha⟩
  have hrecords : (t.withSlots slots).records = t.records := records_withSlots hheld
  obtain ⟨f, hf, hfree⟩ := hgrown.exists_free
  obtain ⟨i, hi⟩ := exists_freeSlot? k hf hfree
  obtain ⟨hfilled, hkeeps, hadded⟩ := filled_ok hintact (f := .never) hbecomes Arena.block?_nextHandle hbytes
    ⟨rfl, rfl, rfl⟩ (fun _ => rfl) hfits hk (fun r' hr' => hnew r' (hrecords ▸ hr')) hroom hi
  refine ⟨(t.withSlots slots).filled m i t.memory.arena.nextHandle, ?_, rfl, hfilled,
    (Keeps.withSlots (t := t.replan .never) hheld).trans hkeeps, rfl, hadded.trans (congrArg _ hrecords)⟩
  have hrun := onMemory_ok (t := t.withSlots slots) hstore
  have hplace := place_ok (t := { t.withSlots slots with memory := m }) (h := t.memory.arena.nextHandle) hi
  simp only [insert, Action.get_bind, hgrow, Action.bind_ok hrun, Action.bind_ok hplace]
  rfl

/-- A record with a new key gets a block and a slot, or there is no room for it. -/
theorem insert_cases (ht : t.Intact) (hfits : r.payload.length < Record.lengthLimit) (hk : r.key? = some k)
    (hnew : ∀ r' ∈ t.records, r'.key? ≠ some k) :
    (∃ e u, t.memory.Refuses .allocate e ∧ insert k r t = .error (.error e) u ∧ u.Intact ∧ Keeps t u ∧
      u.counters = t.counters ∧ u.records = t.records) ∨
    ∃ h u, insert k r t = .ok () u ∧ u.Intact ∧ Keeps t u ∧ u.counters = t.counters ∧
      u.records = { r with handle := h } ::ₘ t.records := by
  rcases Record.store_cases (m := t.memory) (r := r) ht.steady hfits with
    ⟨e, hrefuses, hstore⟩ | ⟨a, b, hstore, hbytes, hbecomes⟩
  · obtain ⟨slots, -, -, hinOrder, hheld, hgrow⟩ := grow_ok ht.table ht.steady.legible
    have hgrown : (t.withSlots slots).Intact := ⟨hinOrder, ht.steady, ht.sound⟩
    obtain ⟨hintact, hkeeps, hrecords⟩ := refused_ok (c := .allocate) hgrown (Or.inl rfl)
    refine Or.inl ⟨e, (t.withSlots slots).refused .allocate, hrefuses, ?_, hintact,
      (Keeps.withSlots hheld).trans hkeeps, rfl, hrecords.trans (records_withSlots hheld)⟩
    have hrun := onMemory_error (t := t.withSlots slots) hstore
    simp only [insert, Action.get_bind, hgrow, Action.bind_error hrun]
    rfl
  · obtain ⟨u, hrun, hmemory, hintact, hkeeps, hcounters, hrecords⟩ :=
      insert_stored ht.table ht.steady.legible ht.sound hfits hk hnew hstore hbytes hbecomes
    have hfaults : u.memory.faults = t.memory.faults.pass .allocate := congrArg Memory.faults hmemory
    refine Or.inr ⟨_, u, hrun, ⟨hintact.table, ?_, hintact.sound⟩, { hkeeps with faultless := fun hnever => ?_ },
      hcounters, hrecords⟩
    · rw [Memory.Steady, hfaults]
      exact Memory.steady_pass ht.steady (Or.inl rfl)
    · rw [hfaults, hnever, Memory.pass_never]

/-! ### In the place of another one -/

/-- The state after a record has taken the slot of another one. -/
def State.swapped (t : State) (memory : Memory) (i : Nat) (h : Handle) : State :=
  { t with memory, segment := t.segment.setSlot i (some h) }

theorem swapped_ok {a : Arena} {f : Faults} {b : Block} {r₀ : Record} {old h : Handle} {i : Nat} (ht : t.Intact)
    (hi : occupant? t.segment.slots i = some old) (hr₀ : t.memory.arena.record? old = some r₀) (hk₀ : r₀.key? = some k)
    (hbecomes : t.memory.arena.Becomes a
      (Function.update (Function.update t.memory.arena.block? old none) h (some b)))
    (hh : h = old ∨ t.memory.arena.block? h = none) (hbytes : b.toList = r.encode) (hf : f.OnlyRoom)
    (hnever : t.memory.faults = .never → f = .never) (hfits : r.payload.length < Record.lengthLimit)
    (hk : r.key? = some k) :
    (t.swapped ⟨a, f⟩ i h).Intact ∧ Keeps t (t.swapped ⟨a, f⟩ i h) ∧
      (t.swapped ⟨a, f⟩ i h).records = { r with handle := h } ::ₘ t.records.filter (·.key? ≠ some k) := by
  obtain ⟨hs, hheld, hnot⟩ := ht.table.others hi
  have hilt := lt_of_occupant? hi
  have hheld' : held (t.segment.slots.setIfInBounds i (some h)) = h ::ₘ hs := held_swapped hi hheld
  have hothers : ∀ g ∈ hs, g ≠ old ∧ g ≠ h := by
    intro g hg
    have hne : g ≠ old := fun e => hnot (e ▸ hg)
    rcases hh with rfl | hh
    · exact ⟨hne, hne⟩
    · exact ⟨hne, ht.table.ne_of_dead (hheld ▸ Multiset.mem_cons_of_mem hg) hh⟩
  have hlive : ∀ g ∈ hs, a.block? g = t.memory.arena.block? g := by
    intro g hg
    rw [hbecomes.block?, Function.update_of_ne (hothers g hg).2, Function.update_of_ne (hothers g hg).1]
  have hholds : a.Holds { r with handle := h } := ⟨hfits, b, by rw [hbecomes.block?, Function.update_self], hbytes⟩
  have hkey : a.key? h = t.memory.arena.key? old := by
    rw [Arena.key?_of_record? hholds.record?, Arena.key?_of_record? hr₀, hk₀]
    exact hk
  refine ⟨⟨⟨ht.table.made, ?_, ?_, ?_, ?_, ?_⟩, hf, hbecomes.sound ht.sound⟩, ?_, ?_⟩
  · obtain ⟨e, he⟩ := ht.table.doubled
    exact ⟨e, by rw [State.swapped, setSlot, Array.size_setIfInBounds, he]⟩
  · rw [State.swapped, setSlot, Array.size_setIfInBounds]
    exact ht.table.roomy
  · rw [State.swapped, setSlot, hheld', Multiset.card_cons, ht.table.counted, hheld, Multiset.card_cons]
  · intro g hg
    rw [State.swapped, setSlot, hheld', Multiset.mem_cons] at hg
    rcases hg with rfl | hg
    · exact ⟨_, rfl, hholds⟩
    · obtain ⟨r', rfl, hr'⟩ := ht.table.stored g (hheld ▸ Multiset.mem_cons_of_mem hg)
      exact ⟨r', rfl, hr'.congr (hlive _ hg)⟩
  · refine ht.table.chained.swap hi hkey fun g hg hne => ?_
    rw [hheld, Multiset.mem_cons] at hg
    exact Arena.key?_congr (Arena.record?_congr (hlive g (hg.resolve_left hne)))
  · refine Keeps.of_blocks rfl hbecomes.limit? rfl rfl rfl hnever id ?_ ?_ ?_
    · intro g hg hnot
      rw [State.swapped, setSlot, hheld', Multiset.mem_cons] at hg
      rw [hheld, Multiset.mem_cons, not_or] at hnot
      obtain rfl := hg.resolve_right hnot.2
      exact hh.resolve_left hnot.1
    · intro g hg hnot
      rw [State.swapped, setSlot, hheld', Multiset.mem_cons, not_or] at hnot
      rw [hheld, Multiset.mem_cons] at hg
      rw [State.swapped, hbecomes.block?, Function.update_of_ne hnot.1, hg.resolve_right hnot.2, Function.update_self]
    · intro g hg hnot
      rw [hheld, Multiset.mem_cons, not_or] at hg
      rw [State.swapped, setSlot, hheld', Multiset.mem_cons, not_or] at hnot
      rw [State.swapped, hbecomes.block?, Function.update_of_ne hnot.1, Function.update_of_ne hg.1]
  · rw [State.records, State.swapped, setSlot, hheld', Arena.records_cons hholds.record?,
      Arena.records_congr fun g hg => Arena.record?_congr (hlive g hg),
      (ht.table.records_of_occupant hi hheld hr₀ hk₀).1, State.records]

/-! ### Putting -/

theorem reserve_ok {α : Type} {a : α} {p : Bytes} {c : Counters}
    (f : Counters → Except LimitFault (α × Counters)) (h : f t.counters = .ok (a, c)) : reserve p f t = .ok a (t.withCounters c) := by
  simp only [reserve, h, State.withCounters]

theorem reserve_error {α : Type} {p : Bytes} {reason : LimitFault}
    (f : Counters → Except LimitFault (α × Counters)) (h : f t.counters = .error reason) :
    reserve p f t = .error (.error (.capacityExceeded reason p)) t := by
  simp only [reserve, h]

/-- A state in which room is reserved for a new record. -/
def State.reserved (t : State) (r : Record) : State :=
  t.withCounters { t.counters with bytes := t.counters.bytes + UInt64.ofNat r.size, items := t.counters.items + 1 }

theorem reserveInsert_ok (h : t.counters.reserveInsert r.size = .ok (t.counters.items + 1, (t.reserved r).counters)) :
    reserve r.payload (·.reserveInsert r.size) t = .ok (t.counters.items + 1) (t.reserved r) :=
  reserve_ok (·.reserveInsert r.size) h

/-- Why the counters refuse the record: as one that replaces another, or as a new one. -/
def State.Refuses (t : State) (k : Value) (r : Record) (reason : LimitFault) : Prop :=
  (∃ r₀ ∈ t.records, r₀.key? = some k ∧ t.counters.reserveReplace r₀.size r.size = .error reason) ∨
    (∀ r₀ ∈ t.records, r₀.key? ≠ some k) ∧ t.counters.reserveInsert r.size = .error reason

theorem State.Refuses.limited {reason : LimitFault} (h : t.Refuses k r reason) :
    ¬ (t.counters.maxItems? = none ∧ t.counters.maxBytes? = none) := by
  rintro ⟨hitems, hbytes⟩
  rcases h with ⟨r₀, -, -, hres⟩ | ⟨-, hres⟩
  · rcases Counters.reserveReplace_cases t.counters r₀.size r.size with ⟨-, -, hsome⟩ | ⟨bytes, hok, -⟩
    · exact hsome hbytes
    · rw [hok] at hres
      cases hres
  · rcases Counters.reserveInsert_cases t.counters r.size with ⟨-, -, hsome⟩ | hok
    · exact hsome ⟨hitems, hbytes⟩
    · rw [hok] at hres
      cases hres

/-- A record that has got the block of another one, or one in its place, takes over its slot. -/
theorem overwrite_stored {m : Memory} {b : Block} {bytes : UInt64} {r₀ : Record} {old h : Handle} {i : Nat}
    (ht : t.Orderly) (hi : occupant? t.segment.slots i = some old) (hr₀ : t.memory.arena.record? old = some r₀)
    (hk₀ : r₀.key? = some k) (hfits : r.payload.length < Record.lengthLimit) (hk : r.key? = some k)
    (hres : t.counters.reserveReplace r₀.size r.size = .ok { t.counters with bytes })
    (hsum : bytes + UInt64.ofNat r₀.size = t.counters.bytes + UInt64.ofNat r.size)
    (hstore : r.storeOver old t.memory = .ok { r with handle := h } m)
    (hh : h = old ∨ t.memory.arena.block? h = none) (hbytes : b.toList = r.encode)
    (hbecomes : t.memory.arena.Becomes m.arena
      (Function.update (Function.update t.memory.arena.block? old none) h (some b))) :
    ∃ u, overwrite i old r₀.size r t = .ok r₀.size u ∧ u.memory = m ∧
      Leads (t.replan .never) (u.replan .never) ({ r with handle := h } ::ₘ t.records.filter (·.key? ≠ some k)) := by
  have hwell := ht.wellFormed
  obtain ⟨hintact, hkeeps, hrecords⟩ := swapped_ok hwell.toIntact hi hr₀ hk₀ (f := .never) hbecomes hh hbytes
    ⟨rfl, rfl, rfl⟩ (fun _ => rfl) hfits hk
  have hreserved := reserve_ok (t := t) (p := r.payload)
    (fun c => (c.reserveReplace r₀.size r.size).map ((), ·)) (congrArg (Except.map _) hres)
  have hattempt := Action.attempt_ok (onMemory_ok (t := t.withCounters { t.counters with bytes }) hstore)
  obtain ⟨hall, -⟩ := hwell.records_eq hi hr₀ hk₀
  refine ⟨(t.swapped m i h).withCounters { t.counters with bytes }, ?_, rfl, Leads.of_intact hwell ?_ ?_ hrecords ?_ ?_⟩
  · simp only [overwrite, Action.bind_ok hreserved, Action.bind_ok hattempt]
    rfl
  · exact ⟨hintact.table, hintact.steady, hintact.sound⟩
  · exact { hkeeps with maxItems? := rfl, maxBytes? := rfl }
  · show t.counters.items + (t.replan .never).records.card = t.counters.items + _
    conv_lhs => rw [hall]
    rw [Multiset.card_cons, Multiset.card_cons]
    rfl
  · show bytes + UInt64.ofNat (weight (t.replan .never).records) = t.counters.bytes + _
    conv_lhs => rw [hall]
    rw [weight_cons, weight_cons, UInt64.ofNat_add, UInt64.ofNat_add, ← UInt64.add_assoc, ← UInt64.add_assoc, hsum]
    rfl

theorem overwrite_cases {r₀ : Record} {old : Handle} {i : Nat} (ht : t.WellFormed)
    (hi : occupant? t.segment.slots i = some old) (hr₀ : t.memory.arena.record? old = some r₀) (hk₀ : r₀.key? = some k)
    (hfits : r.payload.length < Record.lengthLimit) (hk : r.key? = some k) :
    (∃ reason, t.counters.reserveReplace r₀.size r.size = .error reason ∧
      overwrite i old r₀.size r t = .error (.error (.capacityExceeded reason r.payload)) t) ∨
    (∃ e u, t.memory.Refuses .reallocate e ∧ overwrite i old r₀.size r t = .error (.error e) u ∧
      Leads t u t.records) ∨
    ∃ h u, overwrite i old r₀.size r t = .ok r₀.size u ∧
      Leads t u ({ r with handle := h } ::ₘ t.records.filter (·.key? ≠ some k)) := by
  rcases Counters.reserveReplace_cases t.counters r₀.size r.size with
    ⟨reason, hres, -⟩ | ⟨bytes, hres, hbytes, hcancel⟩
  · have hrefused := reserve_error (t := t) (p := r.payload)
      (fun c => (c.reserveReplace r₀.size r.size).map ((), ·)) (congrArg (Except.map _) hres)
    exact Or.inl ⟨reason, hres, by simp only [overwrite, Action.bind_error hrefused]⟩
  have hreserved := reserve_ok (t := t) (p := r.payload)
    (fun c => (c.reserveReplace r₀.size r.size).map ((), ·)) (congrArg (Except.map _) hres)
  obtain ⟨b, hb, -⟩ := Option.bind_eq_some_iff.mp hr₀
  rcases Record.storeOver_cases (r := r) ht.steady hb hfits with
    ⟨e, hrefuses, hstore⟩ | ⟨h, a, b', hstore, hh, hb', hbecomes⟩
  · obtain ⟨hintact, hkeeps, hrecords⟩ := refused_ok (c := .reallocate) ht.toIntact (Or.inr rfl)
    refine Or.inr (Or.inl ⟨e, _, hrefuses, ?_, Leads.of_same ht hintact hkeeps hrecords rfl⟩)
    have hattempt := Action.attempt_error (onMemory_error (t := t.withCounters { t.counters with bytes }) hstore)
    simp only [overwrite, Action.bind_ok hreserved, Action.bind_ok hattempt]
    exact congrArg (fun c => EStateM.Result.error (Failure.error e) ((t.refused .reallocate).withCounters c)) hcancel
  · obtain ⟨u, hrun, hmemory, hleads⟩ := overwrite_stored ht.orderly hi hr₀ hk₀ hfits hk hres hbytes hstore hh hb'
      hbecomes
    have hfaults : u.memory.faults = t.memory.faults.pass .reallocate := congrArg Memory.faults hmemory
    refine Or.inr (Or.inr ⟨h, u, hrun, hleads.of_replan ?_ fun hnever => ?_⟩)
    · rw [Memory.Steady, hfaults]
      exact Memory.steady_pass ht.steady (Or.inr rfl)
    · rw [hfaults, hnever, Memory.pass_never]

/-- A new record that has got a slot is counted. -/
theorem put_new_stored {u : State} {h : Handle} {i : Nat} (ht : t.Orderly) (hprobe : probe k t = .ok (.absent i) t)
    (hreserved : reserve r.payload (·.reserveInsert r.size) t = .ok (t.counters.items + 1) (t.reserved r))
    (hrun : insert k r (t.reserved r) = .ok () u) (hintact : (u.replan .never).Intact)
    (hkeeps : Keeps ((t.reserved r).replan .never) (u.replan .never)) (hcounters : u.counters = (t.reserved r).counters)
    (hrecords : u.records = { r with handle := h } ::ₘ t.records) :
    ∃ u', put k r t = .ok 0 u' ∧ u'.memory = u.memory ∧
      Leads (t.replan .never) (u'.replan .never) ({ r with handle := h } ::ₘ t.records) := by
  obtain ⟨rehash?, hcommitted⟩ := Counters.insertCommitted_eq u.counters (t.counters.items + 1)
  refine ⟨u.withCounters { u.counters with rehash? }, ?_, rfl, Leads.of_intact ht.wellFormed
    ⟨hintact.table, hintact.steady, hintact.sound⟩
    { hkeeps with maxItems? := hkeeps.maxItems?, maxBytes? := hkeeps.maxBytes? } hrecords ?_ ?_⟩
  · simp only [put, Action.bind_ok hprobe, Action.bind_ok hreserved, Action.bind_ok (Action.attempt_ok hrun)]
    exact congrArg (fun c => EStateM.Result.ok 0 (u.withCounters c)) hcommitted
  · show u.counters.items + t.records.card = _
    rw [hcounters, Multiset.card_cons]
    show t.counters.items + 1 + _ = t.counters.items + _
    omega
  · show u.counters.bytes + UInt64.ofNat (weight t.records) = _
    rw [hcounters, weight_cons, UInt64.ofNat_add, ← UInt64.add_assoc]
    rfl

/-- A reservation is taken back if its record was not stored. -/
theorem put_new_cancelled {u : State} {e : Error} {i : Nat} (hprobe : probe k t = .ok (.absent i) t)
    (hreserved : reserve r.payload (·.reserveInsert r.size) t = .ok (t.counters.items + 1) (t.reserved r))
    (hrun : insert k r (t.reserved r) = .error (.error e) u) (hcounters : u.counters = (t.reserved r).counters) :
    put k r t = .error (.error e) (u.withCounters t.counters) := by
  have hback : u.counters.cancelInsert r.size = t.counters := by
    rw [hcounters]
    exact Counters.cancelInsert_reserved t.counters r.size
  simp only [put, Action.bind_ok hprobe, Action.bind_ok hreserved, Action.bind_ok (Action.attempt_error hrun)]
  exact congrArg (fun c => EStateM.Result.error (Failure.error e) (u.withCounters c)) hback

theorem put_new_cases {i : Nat} (ht : t.WellFormed) (hfits : r.payload.length < Record.lengthLimit)
    (hk : r.key? = some k) (hprobe : probe k t = .ok (.absent i) t) (hnew : ∀ r' ∈ t.records, r'.key? ≠ some k) :
    (∃ reason, t.counters.reserveInsert r.size = .error reason ∧
      put k r t = .error (.error (.capacityExceeded reason r.payload)) t) ∨
    (∃ e u, t.memory.Refuses .allocate e ∧ put k r t = .error (.error e) u ∧ Leads t u t.records) ∨
    ∃ h u, put k r t = .ok 0 u ∧ Leads t u ({ r with handle := h } ::ₘ t.records) := by
  rcases Counters.reserveInsert_cases t.counters r.size with ⟨reason, hres, -⟩ | hres
  · have hrefused := reserve_error (t := t) (p := r.payload) (·.reserveInsert r.size) hres
    exact Or.inl ⟨reason, hres, by simp only [put, Action.bind_ok hprobe, Action.bind_error hrefused]⟩
  have hreserved := reserveInsert_ok hres
  rcases insert_cases (t := t.reserved r) ⟨ht.table, ht.steady, ht.sound⟩ hfits hk hnew with
    ⟨e, u, hrefuses, hrun, hu, hkeeps, hcounters, hrecords⟩ | ⟨h, u, hrun, hu, hkeeps, hcounters, hrecords⟩
  · refine Or.inr (Or.inl ⟨e, u.withCounters t.counters, hrefuses,
      put_new_cancelled hprobe hreserved hrun hcounters, Leads.of_same ht ?_ ?_ hrecords rfl⟩)
    · exact ⟨hu.table, hu.steady, hu.sound⟩
    · exact { hkeeps with maxItems? := rfl, maxBytes? := rfl }
  · obtain ⟨u', hput, hmemory, hleads⟩ := put_new_stored ht.orderly hprobe hreserved hrun
      ⟨hu.table, ⟨rfl, rfl, rfl⟩, hu.sound⟩ { hkeeps with faultless := fun _ => rfl } hcounters hrecords
    refine Or.inr (Or.inr ⟨h, u', hput, hleads.of_replan ?_ ?_⟩)
    · rw [hmemory]
      exact hu.steady
    · rw [hmemory]
      exact hkeeps.faultless

/-- A put of a record under its key answers the bytes that it replaces, and leaves the record instead of the one with
    the same key. If it is refused all records stay. -/
theorem put_cases (ht : t.WellFormed) (hfits : r.payload.length < Record.lengthLimit) (hk : r.key? = some k) :
    (∃ reason, t.Refuses k r reason ∧ put k r t = .error (.error (.capacityExceeded reason r.payload)) t) ∨
    (∃ c e u, t.memory.Refuses c e ∧ put k r t = .error (.error e) u ∧ Leads t u t.records) ∨
    ∃ h u, put k r t = .ok (weight (t.records.filter (·.key? = some k))) u ∧
      Leads t u ({ r with handle := h } ::ₘ t.records.filter (·.key? ≠ some k)) := by
  rcases ht.probe_cases k with ⟨i, old, r₀, hprobe, hi, hr₀, hk₀⟩ | ⟨i, hprobe, -, hnew⟩
  · obtain ⟨-, hsame⟩ := ht.records_eq hi hr₀ hk₀
    have hput : put k r t = overwrite i old r₀.size r t := by
      simp only [put, Action.bind_ok hprobe, Action.bind_ok (onMemory_read (Record.sizeAt_ok ht.steady.legible hr₀))]
    have hmem : r₀ ∈ t.records := Multiset.mem_of_mem_filter (hsame ▸ Multiset.mem_singleton_self r₀)
    rw [hput, hsame, weight_singleton]
    rcases overwrite_cases ht hi hr₀ hk₀ hfits hk with
      ⟨reason, hres, hrun⟩ | ⟨e, u, hrefuses, hrun, hleads⟩ | ⟨h, u, hrun, hleads⟩
    · exact Or.inl ⟨reason, Or.inl ⟨r₀, hmem, hk₀, hres⟩, hrun⟩
    · exact Or.inr (Or.inl ⟨_, e, u, hrefuses, hrun, hleads⟩)
    · exact Or.inr (Or.inr ⟨h, u, hrun, hleads⟩)
  · rw [Multiset.filter_eq_nil.mpr hnew, Multiset.filter_eq_self.mpr hnew]
    rcases put_new_cases ht hfits hk hprobe hnew with
      ⟨reason, hres, hrun⟩ | ⟨e, u, hrefuses, hrun, hleads⟩ | ⟨h, u, hrun, hleads⟩
    · exact Or.inl ⟨reason, Or.inr ⟨hnew, hres⟩, hrun⟩
    · exact Or.inr (Or.inl ⟨_, e, u, hrefuses, hrun, hleads⟩)
    · exact Or.inr (Or.inr ⟨h, u, hrun, hleads⟩)

/-- What the counters refuse is refused before anything is touched. -/
theorem put_refused {reason : LimitFault} (ht : t.WellFormed) (h : t.Refuses k r reason) :
    put k r t = .error (.error (.capacityExceeded reason r.payload)) t := by
  rcases ht.probe_cases k with ⟨i, old, r₀, hprobe, hi, hr₀, hk₀⟩ | ⟨i, hprobe, -, hnew⟩
  · obtain ⟨-, hsame⟩ := ht.records_eq hi hr₀ hk₀
    have hmem : r₀ ∈ t.records := Multiset.mem_of_mem_filter (hsame ▸ Multiset.mem_singleton_self r₀)
    rcases h with ⟨r₁, hr₁, hk₁, hres⟩ | ⟨hnew, -⟩
    · obtain rfl : r₁ = r₀ := Multiset.mem_singleton.mp (hsame ▸ Multiset.mem_filter.mpr ⟨hr₁, hk₁⟩)
      have hrefused := reserve_error (t := t) (p := r.payload)
        (fun c => (c.reserveReplace r₁.size r.size).map ((), ·)) (congrArg (Except.map _) hres)
      have hsize := onMemory_read (Record.sizeAt_ok ht.steady.legible hr₀)
      simp only [put, Action.bind_ok hprobe, Action.bind_ok hsize, overwrite, Action.bind_error hrefused]
    · exact absurd hk₀ (hnew r₀ hmem)
  · rcases h with ⟨r₁, hr₁, hk₁, -⟩ | ⟨-, hres⟩
    · exact absurd hk₁ (hnew r₁ hr₁)
    · have hrefused := reserve_error (t := t) (p := r.payload) (·.reserveInsert r.size) hres
      simp only [put, Action.bind_ok hprobe, Action.bind_error hrefused]

end RecordStore.Segment
