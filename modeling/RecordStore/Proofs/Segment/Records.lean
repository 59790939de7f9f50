import Mathlib.Data.Multiset.Filter
import RecordStore.Proofs.Layout
import RecordStore.Proofs.Segment.Searching

/-! # The records of a segment

What a segment stores is the collection of the records that the blocks of its handles hold. Their keys are those
that its table is ordered by. -/

namespace RecordStore

/-- The key that the payload of a record gives. -/
def Record.key? (r : Record) : Option Value := (Payload.key r.payload).toOption

theorem Record.key?_eq_some_iff {r : Record} {k : Value} : r.key? = some k ↔ Payload.key r.payload = .ok k := by
  unfold Record.key?
  cases Payload.key r.payload <;> simp [Except.toOption]

/-- The bytes that records take. -/
def weight (rs : Multiset Record) : Nat := (rs.map Record.size).sum

theorem weight_cons (r : Record) (rs : Multiset Record) : weight (r ::ₘ rs) = r.size + weight rs := by
  rw [weight, Multiset.map_cons, Multiset.sum_cons, weight]

theorem weight_singleton (r : Record) : weight {r} = r.size := by
  rw [weight, Multiset.map_singleton, Multiset.sum_singleton]

theorem weight_add (rs rs' : Multiset Record) : weight (rs + rs') = weight rs + weight rs' := by
  rw [weight, Multiset.map_add, Multiset.sum_add, weight, weight]

namespace Arena

variable {a a' : Arena} {h : Handle} {hs : Multiset Handle} {r : Record}

/-- The key of the record in a block. -/
def key? (a : Arena) (h : Handle) : Option Value := (a.record? h).bind Record.key?

/-- The records in some blocks. -/
def records (a : Arena) (hs : Multiset Handle) : Multiset Record := hs.filterMap a.record?

theorem key?_of_record? (hr : a.record? h = some r) : a.key? h = r.key? := by
  rw [key?, hr, Option.bind_some]

theorem key?_congr (h' : a'.record? h = a.record? h) : a'.key? h = a.key? h := by
  rw [key?, key?, h']

theorem records_cons (hr : a.record? h = some r) : a.records (h ::ₘ hs) = r ::ₘ a.records hs :=
  Multiset.filterMap_cons_some a.record? h hs hr

theorem mem_records : r ∈ a.records hs ↔ r.handle ∈ hs ∧ a.record? r.handle = some r := by
  rw [records, Multiset.mem_filterMap]
  constructor
  · rintro ⟨h, hh, hr⟩
    rw [Record.handle_of_record? hr]
    exact ⟨hh, hr⟩
  · rintro ⟨hh, hr⟩
    exact ⟨_, hh, hr⟩

theorem records_congr (h : ∀ h ∈ hs, a'.record? h = a.record? h) : a'.records hs = a.records hs := by
  induction hs using Multiset.induction_on with
  | empty => rfl
  | cons g hs ih =>
    rw [records, records, Multiset.filterMap_cons, Multiset.filterMap_cons, h g (Multiset.mem_cons_self g hs)]
    congr 1
    exact ih fun g' hg' => h g' (Multiset.mem_cons_of_mem hg')

theorem card_records (h : ∀ h ∈ hs, ∃ r, a.record? h = some r) : (a.records hs).card = hs.card := by
  induction hs using Multiset.induction_on with
  | empty => rfl
  | cons g hs ih =>
    obtain ⟨r, hr⟩ := h g (Multiset.mem_cons_self g hs)
    rw [records_cons hr, Multiset.card_cons, Multiset.card_cons, ih fun g' hg' => h g' (Multiset.mem_cons_of_mem hg')]

end Arena

namespace Segment

variable {t : State} {h : Handle} {k : Value}

theorem readable_key? {m : Memory} (hm : m.Legible) : Readable m m.arena.key? := by
  intro h k hk
  obtain ⟨r, hr, hkey⟩ := Option.bind_eq_some_iff.mp hk
  exact ⟨r.payload, Record.payloadAt_ok hm hr, Record.key?_eq_some_iff.mp hkey⟩

theorem keyAt_dead (hm : t.memory.Legible) (hdead : t.memory.arena.block? h = none) :
    keyAt h t = .error (.error (.invalidHandle h)) t :=
  Action.bind_error (onMemory_error (Record.payloadAt_dead hm hdead))

/-- A search that meets a handle without a block at the home of its key fails. -/
theorem probe_dead (hm : t.memory.Legible) (hhome : occupant? t.segment.slots (k.home t.segment.slots.size) = some h)
    (hdead : t.memory.arena.block? h = none) : probe k t = .error (.error (.invalidHandle h)) t := by
  obtain ⟨steps, hsteps⟩ := Nat.exists_eq_add_one_of_ne_zero (Nat.ne_zero_of_lt (lt_of_occupant? hhome))
  have hcapacity : t.segment.capacity = steps + 1 := hsteps
  have hslot : slotAt (k.home t.segment.capacity) t = .ok (some h) t := slotAt_ok hhome
  simp only [probe, hcapacity, probeFrom] at hslot ⊢
  simp only [Action.bind_ok hslot, Action.bind_error (keyAt_dead hm hdead)]

end Segment

end RecordStore
