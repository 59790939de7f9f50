import RecordStore.Proofs.Notices
import RecordStore.Proofs.Segment.Records

/-! # Intact segments

A segment is intact if each of its handles has a block that holds a record, the table is in order for the keys of
these records, and at most half of it is taken. An operation of a segment keeps to its own blocks: those that it
does not hold stay what they are, and it holds all blocks that it makes. -/

namespace RecordStore.Segment

variable {a a' : Arena} {g : Segment} {h : Handle} {hs : Multiset Handle} {k : Value} {i : Nat}

/-! ### Numbers of slots -/

theorem two_le_size (hmade : isCapacity g.minCapacity = true) (hdoubled : ∃ e, g.slots.size = g.minCapacity * 2 ^ e) :
    2 ≤ g.slots.size := by
  obtain ⟨e, he⟩ := hdoubled
  simp only [isCapacity, Bool.and_eq_true, decide_eq_true_eq] at hmade
  rw [he]
  exact Nat.le_trans hmade.1 (Nat.le_mul_of_pos_right _ (Nat.two_pow_pos e))

theorem doubled_twice (hdoubled : ∃ e, g.slots.size = g.minCapacity * 2 ^ e) :
    ∃ e, g.slots.size * 2 = g.minCapacity * 2 ^ e := by
  obtain ⟨e, he⟩ := hdoubled
  exact ⟨e + 1, by rw [he, Nat.pow_succ, Nat.mul_assoc]⟩

theorem doubled_half (hdoubled : ∃ e, g.slots.size = g.minCapacity * 2 ^ e) (hpos : 0 < g.slots.size)
    (hmin : g.minCapacity ≤ g.slots.size / 2) : ∃ e, g.slots.size / 2 = g.minCapacity * 2 ^ e := by
  obtain ⟨e, he⟩ := hdoubled
  cases e with
  | zero =>
    rw [Nat.pow_zero, Nat.mul_one] at he
    omega
  | succ e =>
    refine ⟨e, ?_⟩
    rw [he, Nat.pow_succ, ← Nat.mul_assoc, Nat.mul_div_cancel _ (by decide)]

/-! ### Segments in order -/

/-- A table in order, at most half taken, with a record in the block of each of its handles. -/
structure InOrder (a : Arena) (g : Segment) : Prop where
  made : isCapacity g.minCapacity = true
  doubled : ∃ e, g.slots.size = g.minCapacity * 2 ^ e
  roomy : 2 * g.count ≤ g.slots.size
  counted : g.count = (held g.slots).card
  stored : ∀ h ∈ held g.slots, ∃ r, r.handle = h ∧ a.Holds r
  chained : Chained a.key? g.slots

theorem inOrder_empty {capacity : Nat} (hc : isCapacity capacity = true) : InOrder a (empty capacity) where
  made := hc
  doubled := ⟨0, by simp [empty]⟩
  roomy := Nat.zero_le _
  counted := by rw [empty, held_replicate]; rfl
  stored h hh := by rw [empty, held_replicate] at hh; cases hh
  chained := chained_replicate capacity

theorem of_create {capacity : Nat} (hg : create capacity = .ok g) : isCapacity capacity = true ∧ g = empty capacity := by
  unfold create at hg
  split at hg
  · cases hg
  · rename_i hcapacity
    split at hg
    · cases hg
    · cases hg
      exact ⟨by simpa using hcapacity, rfl⟩

namespace InOrder

theorem record? (ho : InOrder a g) (hh : h ∈ held g.slots) : ∃ r, a.record? h = some r ∧ r.handle = h ∧ a.Holds r := by
  obtain ⟨r, rfl, hr⟩ := ho.stored h hh
  exact ⟨r, hr.record?, rfl, hr⟩

theorem ne_of_dead {h' : Handle} (ho : InOrder a g) (hh : h ∈ held g.slots) (hdead : a.block? h' = none) : h ≠ h' := by
  rintro rfl
  obtain ⟨r, rfl, hr⟩ := ho.stored h hh
  obtain ⟨b, hb, -⟩ := hr.block
  rw [hdead] at hb
  cases hb

theorem holds_of_mem {r : Record} (ho : InOrder a g) (hr : r ∈ a.records (held g.slots)) : a.Holds r := by
  obtain ⟨hmem, hrecord⟩ := Arena.mem_records.mp hr
  obtain ⟨r', hrecord', -, hholds⟩ := ho.record? hmem
  rw [hrecord] at hrecord'
  cases hrecord'
  exact hholds

theorem card_records (ho : InOrder a g) : (a.records (held g.slots)).card = g.count := by
  rw [ho.counted, Arena.card_records]
  intro h hh
  obtain ⟨r, hr, -⟩ := ho.record? hh
  exact ⟨r, hr⟩

theorem two_le (ho : InOrder a g) : 2 ≤ g.slots.size := two_le_size ho.made ho.doubled

theorem capacity_eq_pow (ho : InOrder a g) : ∃ n, g.slots.size = 2 ^ n := by
  have hmade := ho.made
  obtain ⟨e, he⟩ := ho.doubled
  simp only [isCapacity, isPowerOfTwo, Bool.and_eq_true, decide_eq_true_eq] at hmade
  exact ⟨g.minCapacity.log2 + e, by rw [he, Nat.pow_add]; exact congrArg (· * 2 ^ e) hmade.2.2.symm⟩

theorem exists_free (ho : InOrder a g) : ∃ i < g.slots.size, occupant? g.slots i = none := by
  have hroomy := ho.roomy
  have htwo := ho.two_le
  rw [ho.counted] at hroomy
  exact RecordStore.exists_free (by omega)

theorem congr (ho : InOrder a g) (hsame : ∀ h ∈ held g.slots, a'.block? h = a.block? h) : InOrder a' g where
  made := ho.made
  doubled := ho.doubled
  roomy := ho.roomy
  counted := ho.counted
  stored h hh := by
    obtain ⟨r, rfl, hr⟩ := ho.stored h hh
    exact ⟨r, rfl, hr.congr (hsame _ hh)⟩
  chained := ho.chained.congr fun h hh => Arena.key?_congr (Arena.record?_congr (hsame h hh))

theorem others (ho : InOrder a g) (hi : occupant? g.slots i = some h) : ∃ hs, held g.slots = h ::ₘ hs ∧ h ∉ hs := by
  have hheld := held_clear hi
  have hnodup := ho.chained.nodup
  rw [← hheld, Multiset.nodup_cons] at hnodup
  exact ⟨_, hheld.symm, hnodup.1⟩

/-- The records of the other handles have other keys. -/
theorem records_of_occupant {r : Record} (ho : InOrder a g) (hi : occupant? g.slots i = some h)
    (hheld : held g.slots = h ::ₘ hs) (hr : a.record? h = some r) (hk : r.key? = some k) :
    a.records hs = (a.records (held g.slots)).filter (·.key? ≠ some k) ∧
      (a.records (held g.slots)).filter (·.key? = some k) = {r} := by
  have hothers : ∀ r' ∈ a.records hs, r'.key? ≠ some k := by
    intro r' hr' hk'
    obtain ⟨hmem, hrecord⟩ := Arena.mem_records.mp hr'
    obtain ⟨j, hj⟩ := mem_held.mp (hheld ▸ Multiset.mem_cons_of_mem hmem)
    have hsame : i = j := ho.chained.distinct hi hj (by
      rw [Arena.key?_of_record? hr, Arena.key?_of_record? hrecord, hk, hk'])
    rw [← hsame, hi] at hj
    have hnodup := ho.chained.nodup
    rw [hheld, Multiset.nodup_cons] at hnodup
    exact hnodup.1 (Option.some.inj hj ▸ hmem)
  rw [hheld, Arena.records_cons hr]
  constructor
  · rw [Multiset.filter_cons_of_neg _ (by simpa using hk), Multiset.filter_eq_self.mpr hothers]
  · rw [Multiset.filter_cons_of_pos (p := fun r' : Record => r'.key? = some k) _ hk, Multiset.filter_eq_nil.mpr hothers]
    rfl

theorem key?_ne (ho : InOrder a g) (hnew : ∀ r ∈ a.records (held g.slots), r.key? ≠ some k)
    (hh : h ∈ held g.slots) : a.key? h ≠ some k := by
  obtain ⟨r, hr, rfl, -⟩ := ho.record? hh
  rw [Arena.key?_of_record? hr]
  exact hnew r (Arena.mem_records.mpr ⟨hh, hr⟩)

end InOrder

/-! ### States -/

/-- The records of the segment. -/
def State.records (t : State) : Multiset Record := t.memory.arena.records (held t.segment.slots)

/-- The segment is intact, in a sound memory that only fails to give room. -/
structure State.Intact (t : State) : Prop where
  table : InOrder t.memory.arena t.segment
  steady : t.memory.Steady
  sound : t.memory.arena.Sound

/-- The record in a slot is the only one with its key. -/
theorem State.Intact.records_eq {t : State} {r : Record} (ht : t.Intact) (hi : occupant? t.segment.slots i = some h)
    (hr : t.memory.arena.record? h = some r) (hk : r.key? = some k) :
    t.records = r ::ₘ t.records.filter (·.key? ≠ some k) ∧ t.records.filter (·.key? = some k) = {r} := by
  obtain ⟨hs, hheld, -⟩ := ht.table.others hi
  obtain ⟨hothers, hsame⟩ := ht.table.records_of_occupant hi hheld hr hk
  refine ⟨?_, hsame⟩
  unfold State.records
  rw [← hothers, ← Arena.records_cons hr, hheld]

theorem State.Intact.record? {t : State} (ht : t.Intact) (hh : h ∈ held t.segment.slots) :
    ∃ r, t.memory.arena.record? h = some r ∧ ∃ k, r.key? = some k := by
  obtain ⟨r, hr, -, -⟩ := ht.table.record? hh
  obtain ⟨i, hi⟩ := mem_held.mp hh
  obtain ⟨k, hk⟩ := ht.table.chained.readable hi
  exact ⟨r, hr, k, by rw [← hk, Arena.key?_of_record? hr]⟩

theorem State.Intact.filter_key {t : State} {r : Record} (ht : t.Intact) (hr : r ∈ t.records) (hk : r.key? = some k) :
    t.records.filter (·.key? = some k) = {r} := by
  obtain ⟨hmem, hrecord⟩ := Arena.mem_records.mp hr
  obtain ⟨i, hi⟩ := mem_held.mp hmem
  exact (ht.records_eq hi hrecord hk).2

/-- A search finds the record with the key, or there is none. -/
theorem InOrder.probe_cases {t : State} (ho : InOrder t.memory.arena t.segment) (hm : t.memory.Legible) (k : Value) :
    (∃ i h r, probe k t = .ok (.found i h) t ∧ occupant? t.segment.slots i = some h ∧
      t.memory.arena.record? h = some r ∧ r.key? = some k) ∨
    ∃ i, probe k t = .ok (.absent i) t ∧ freeSlot? t.segment.slots k = some i ∧ ∀ r ∈ t.records, r.key? ≠ some k := by
  obtain ⟨f, hf, hfree⟩ := ho.exists_free
  rcases Segment.probe_cases (readable_key? hm) ho.chained hf hfree k with
    ⟨i, h, hi, hkey, hfound⟩ | ⟨hnew, i, hi, habsent⟩
  · obtain ⟨r, hr, hk⟩ := Option.bind_eq_some_iff.mp hkey
    exact Or.inl ⟨i, h, r, hfound, hi, hr, hk⟩
  · refine Or.inr ⟨i, habsent, hi, fun r hr hk => ?_⟩
    obtain ⟨hmem, hrecord⟩ := Arena.mem_records.mp hr
    exact hnew _ hmem (by rw [Arena.key?_of_record? hrecord, hk])

theorem State.Intact.probe_cases {t : State} (ht : t.Intact) (k : Value) :
    (∃ i h r, probe k t = .ok (.found i h) t ∧ occupant? t.segment.slots i = some h ∧
      t.memory.arena.record? h = some r ∧ r.key? = some k) ∨
    ∃ i, probe k t = .ok (.absent i) t ∧ freeSlot? t.segment.slots k = some i ∧ ∀ r ∈ t.records, r.key? ≠ some k :=
  ht.table.probe_cases ht.steady.legible k

/-- What an operation of one segment keeps of what it shares with others. -/
structure Keeps (t u : State) : Prop where
  clock : u.clock = t.clock
  limit? : u.memory.arena.limit? = t.memory.arena.limit?
  maxItems? : u.counters.maxItems? = t.counters.maxItems?
  maxBytes? : u.counters.maxBytes? = t.counters.maxBytes?
  minCapacity : u.segment.minCapacity = t.segment.minCapacity
  faultless : t.memory.faults = .never → u.memory.faults = .never
  calm : t.notifier.Calm → u.notifier.Calm
  /-- Blocks of others stay. -/
  others : ∀ h, h ∉ held t.segment.slots → t.memory.arena.block? h ≠ none →
    h ∉ held u.segment.slots ∧ u.memory.arena.block? h = t.memory.arena.block? h
  /-- There are no other blocks than these and those of the segment. -/
  owned : ∀ h, u.memory.arena.block? h ≠ none →
    h ∈ held u.segment.slots ∨ h ∉ held t.segment.slots ∧ t.memory.arena.block? h ≠ none

theorem Keeps.refl (t : State) : Keeps t t where
  clock := rfl
  limit? := rfl
  maxItems? := rfl
  maxBytes? := rfl
  minCapacity := rfl
  faultless := id
  calm := id
  others _ hh _ := ⟨hh, rfl⟩
  owned h hlive := by
    by_cases hh : h ∈ held t.segment.slots
    · exact Or.inl hh
    · exact Or.inr ⟨hh, hlive⟩

theorem Keeps.trans {t u v : State} (h₁ : Keeps t u) (h₂ : Keeps u v) : Keeps t v where
  clock := h₂.clock.trans h₁.clock
  limit? := h₂.limit?.trans h₁.limit?
  maxItems? := h₂.maxItems?.trans h₁.maxItems?
  maxBytes? := h₂.maxBytes?.trans h₁.maxBytes?
  minCapacity := h₂.minCapacity.trans h₁.minCapacity
  faultless h := h₂.faultless (h₁.faultless h)
  calm h := h₂.calm (h₁.calm h)
  others h hh hlive := by
    obtain ⟨hu, hsame⟩ := h₁.others h hh hlive
    obtain ⟨hv, hsame'⟩ := h₂.others h hu (hsame ▸ hlive)
    exact ⟨hv, hsame'.trans hsame⟩
  owned h hlive := by
    rcases h₂.owned h hlive with hv | ⟨hu, hlive'⟩
    · exact Or.inl hv
    · exact Or.inr ((h₁.owned h hlive').resolve_left hu)

/-- The blocks of others stay if what the table takes up had no block, what it gives up has none, and no other block
    has changed. -/
theorem Keeps.of_blocks {t u : State} (hclock : u.clock = t.clock)
    (hlimit : u.memory.arena.limit? = t.memory.arena.limit?) (hitems : u.counters.maxItems? = t.counters.maxItems?)
    (hbytes : u.counters.maxBytes? = t.counters.maxBytes?) (hcapacity : u.segment.minCapacity = t.segment.minCapacity)
    (hfaultless : t.memory.faults = .never → u.memory.faults = .never)
    (hcalm : t.notifier.Calm → u.notifier.Calm)
    (htaken : ∀ h ∈ held u.segment.slots, h ∉ held t.segment.slots → t.memory.arena.block? h = none)
    (hgiven : ∀ h ∈ held t.segment.slots, h ∉ held u.segment.slots → u.memory.arena.block? h = none)
    (hsame : ∀ h, h ∉ held t.segment.slots → h ∉ held u.segment.slots →
      u.memory.arena.block? h = t.memory.arena.block? h) : Keeps t u := by
  refine ⟨hclock, hlimit, hitems, hbytes, hcapacity, hfaultless, hcalm, ?_, ?_⟩
  · intro h hh hlive
    have hnot : h ∉ held u.segment.slots := fun hu => hlive (htaken h hu hh)
    exact ⟨hnot, hsame h hh hnot⟩
  · intro h hlive
    by_cases hu : h ∈ held u.segment.slots
    · exact Or.inl hu
    · have hh : h ∉ held t.segment.slots := fun hh => hlive (hgiven h hh hu)
      exact Or.inr ⟨hh, hsame h hh hu ▸ hlive⟩

theorem Keeps.withSlots {t : State} {slots : Slots} (hheld : held slots = held t.segment.slots) :
    Keeps t (t.withSlots slots) where
  clock := rfl
  limit? := rfl
  maxItems? := rfl
  maxBytes? := rfl
  minCapacity := rfl
  faultless := id
  calm := id
  others h hh _ := ⟨by rw [withSlots_slots, hheld]; exact hh, rfl⟩
  owned h hlive := by
    rw [withSlots_slots, hheld]
    exact (Keeps.refl t).owned h hlive

theorem records_withSlots {t : State} {slots : Slots} (hheld : held slots = held t.segment.slots) :
    (t.withSlots slots).records = t.records := by
  rw [State.records, withSlots_slots, withSlots_memory, hheld, State.records]

/-- A state with other counters. -/
def State.withCounters (t : State) (counters : Counters) : State := { t with counters }

/-- The segment is intact, and all of its records are counted. -/
structure State.WellFormed (t : State) : Prop extends State.Intact t where
  backed : t.records.card ≤ t.counters.items

/-- From `t` to `u` the records of the segment become `rs`, and the counters follow. -/
structure Leads (t u : State) (rs : Multiset Record) : Prop where
  wellFormed : u.WellFormed
  keeps : Keeps t u
  records : u.records = rs
  items : u.counters.items + t.records.card = t.counters.items + rs.card
  bytes : u.counters.bytes + UInt64.ofNat (weight t.records) = t.counters.bytes + UInt64.ofNat (weight rs)

namespace Leads

variable {t u v : State} {rs rs' : Multiset Record}

theorem of_intact (ht : t.WellFormed) (hu : u.Intact) (keeps : Keeps t u) (records : u.records = rs)
    (items : u.counters.items + t.records.card = t.counters.items + rs.card)
    (bytes : u.counters.bytes + UInt64.ofNat (weight t.records) = t.counters.bytes + UInt64.ofNat (weight rs)) :
    Leads t u rs := by
  refine ⟨⟨hu, ?_⟩, keeps, records, items, bytes⟩
  have := ht.backed
  rw [records]
  omega

theorem refl (ht : t.WellFormed) : Leads t t t.records := ⟨ht, Keeps.refl t, rfl, rfl, rfl⟩

theorem trans (h₁ : Leads t u rs) (h₂ : Leads u v rs') : Leads t v rs' where
  wellFormed := h₂.wellFormed
  keeps := h₁.keeps.trans h₂.keeps
  records := h₂.records
  items := by
    have hitems := h₁.items
    have hitems' := h₂.items
    rw [h₁.records] at hitems'
    omega
  bytes := by
    have hbytes := h₁.bytes
    have hbytes' := h₂.bytes
    rw [h₁.records] at hbytes'
    grind

theorem of_same (ht : t.WellFormed) (hu : u.Intact) (keeps : Keeps t u) (records : u.records = t.records)
    (counters : u.counters = t.counters) : Leads t u t.records :=
  of_intact ht hu keeps records (by rw [counters]) (by rw [counters])

end Leads

/-- What an operation does to the records of a segment, of which blocks may be left that nobody holds: the records
    become `rs`, the counters follow, and the blocks of others stay. -/
structure Alters (t u : State) (rs : Multiset Record) : Prop where
  wellFormed : u.WellFormed
  others : ∀ h, h ∉ held t.segment.slots → t.memory.arena.block? h ≠ none →
    h ∉ held u.segment.slots ∧ u.memory.arena.block? h = t.memory.arena.block? h
  records : u.records = rs
  items : u.counters.items + t.records.card = t.counters.items + rs.card
  bytes : u.counters.bytes + UInt64.ofNat (weight t.records) = t.counters.bytes + UInt64.ofNat (weight rs)

theorem Leads.alters {t u : State} {rs : Multiset Record} (h : Leads t u rs) : Alters t u rs :=
  ⟨h.wellFormed, h.keeps.others, h.records, h.items, h.bytes⟩

theorem Alters.trans {t u v : State} {rs rs' : Multiset Record} (h₁ : Alters t u rs) (h₂ : Alters u v rs') :
    Alters t v rs' where
  wellFormed := h₂.wellFormed
  others h hh hlive := by
    obtain ⟨hu, hsame⟩ := h₁.others h hh hlive
    obtain ⟨hv, hsame'⟩ := h₂.others h hu (hsame ▸ hlive)
    exact ⟨hv, hsame'.trans hsame⟩
  records := h₂.records
  items := by
    have hitems := h₁.items
    have hitems' := h₂.items
    rw [h₁.records] at hitems'
    omega
  bytes := by
    have hbytes := h₁.bytes
    have hbytes' := h₂.bytes
    rw [h₁.records] at hbytes'
    grind

/-! ### Other plans -/

/-- A state with another plan of faults. -/
def State.replan (t : State) (f : Faults) : State := { t with memory := { t.memory with faults := f } }

/-- Well formed but for the plan of faults, by which any call may fail but reads. -/
structure State.Orderly (t : State) : Prop where
  legible : t.memory.Legible
  wellFormed : (t.replan .never).WellFormed

theorem State.Orderly.record? {t : State} (ht : t.Orderly) (hh : h ∈ held t.segment.slots) :
    ∃ r, t.memory.arena.record? h = some r ∧ ∃ k, r.key? = some k := ht.wellFormed.toIntact.record? hh

theorem State.WellFormed.orderly {t : State} (ht : t.WellFormed) : t.Orderly :=
  ⟨ht.steady.legible, ⟨⟨ht.table, ⟨rfl, rfl, rfl⟩, ht.sound⟩, ht.backed⟩⟩

theorem Leads.of_replan {t u : State} {f f' : Faults} {rs : Multiset Record} (h : Leads (t.replan f) (u.replan f') rs)
    (hsteady : u.memory.Steady) (hnever : t.memory.faults = .never → u.memory.faults = .never) : Leads t u rs where
  wellFormed := ⟨⟨h.wellFormed.table, hsteady, h.wellFormed.sound⟩, h.wellFormed.backed⟩
  keeps := { h.keeps with faultless := hnever }
  records := h.records
  items := h.items
  bytes := h.bytes

end RecordStore.Segment
