import Mathlib.Data.Multiset.Bind
import RecordStore.Proofs.Segment.Evicting
import RecordStore.Store

/-! # A store and its parts

The segments of a store share one memory, but no block: each handle lies in one slot of one segment, and each record
in the segment that its key is routed to. What one segment does leaves the records of the others as they are, so that
the records of the store change as those of that segment do. -/

namespace RecordStore.Store

open Segment (InOrder)

variable {s : Store} {g : Segment} {i j : Nat} {h : Handle} {r : Record} {rs : Multiset Record}

/-- The records in all segments. -/
def records (s : Store) : Multiset Record := (held s.slots).bind fun g => s.memory.arena.records (held g.slots)

/-- The slot of the segment that a record belongs to. -/
def place? (s : Store) (r : Record) : Option Nat := r.key?.bind (Placement.route? s.slots)

/-- The segments are in order and have no handle in common, their records lie where their keys are routed to, and all
    of them are counted. -/
structure WellFormed (s : Store) : Prop where
  served : ∃ i g, s.segment? i = some g
  steady : s.memory.Steady
  sound : s.memory.arena.Sound
  inOrder : ∀ {i g}, s.segment? i = some g → InOrder s.memory.arena g
  apart : ∀ {i j g g' h}, s.segment? i = some g → s.segment? j = some g' → h ∈ held g.slots → h ∈ held g'.slots →
    i = j
  routed : ∀ {i g r}, s.segment? i = some g → r ∈ s.memory.arena.records (held g.slots) → s.place? r = some i
  items : s.counters.items = s.records.card
  bytes : s.counters.bytes = UInt64.ofNat (weight s.records)

theorem mem_records : r ∈ s.records ↔ ∃ i g, s.segment? i = some g ∧ r ∈ s.memory.arena.records (held g.slots) := by
  rw [records, Multiset.mem_bind]
  constructor
  · rintro ⟨g, hg, hr⟩
    obtain ⟨i, hi⟩ := mem_held.mp hg
    exact ⟨i, g, hi, hr⟩
  · rintro ⟨i, g, hi, hr⟩
    exact ⟨g, mem_held.mpr ⟨i, hi⟩, hr⟩

theorem record?_of_mem (hr : r ∈ s.records) : s.memory.arena.record? r.handle = some r := by
  obtain ⟨i, g, -, hr⟩ := mem_records.mp hr
  exact (Arena.mem_records.mp hr).2

theorem exists_record (hs : s.WellFormed) (hi : s.segment? i = some g) (hh : h ∈ held g.slots) :
    ∃ r ∈ s.records, r.handle = h ∧ s.memory.arena.Holds r := by
  obtain ⟨r, rfl, hr⟩ := (hs.inOrder hi).stored h hh
  exact ⟨r, mem_records.mpr ⟨i, g, hi, Arena.mem_records.mpr ⟨hh, hr.record?⟩⟩, rfl, hr⟩

theorem holds_of_mem (hs : s.WellFormed) (hr : r ∈ s.records) : s.memory.arena.Holds r := by
  obtain ⟨i, g, hi, hr⟩ := mem_records.mp hr
  exact (hs.inOrder hi).holds_of_mem hr

/-! ### One segment -/

/-- A segment with what it shares with the others. -/
def part (s : Store) (g : Segment) : Segment.State := { toShared := s.toShared, segment := g }

/-- The store with what has become of the segment in slot `i`. -/
def update (s : Store) (i : Nat) (u : Segment.State) : Store :=
  { s with toShared := u.toShared, slots := s.slots.setIfInBounds i (some u.segment) }

theorem onSegment_ok {α : Type} {x : Segment.Op α} {a : α} {u : Segment.State} (hi : s.segment? i = some g)
    (hx : x (s.part g) = .ok a u) : onSegment i x s = .ok a (s.update i u) := by
  unfold part at hx
  simp only [onSegment, hi, hx, Array.setIfInBounds_setIfInBounds, update]

theorem onSegment_error {α : Type} {x : Segment.Op α} {e : Failure} {u : Segment.State} (hi : s.segment? i = some g)
    (hx : x (s.part g) = .error e u) : onSegment i x s = .error e (s.update i u) := by
  unfold part at hx
  simp only [onSegment, hi, hx, Array.setIfInBounds_setIfInBounds, update]

/-- The segments in the other slots. -/
def rest (s : Store) (i : Nat) : Multiset Segment := held (s.slots.setIfInBounds i none)

theorem mem_rest {g' : Segment} (hi : s.segment? i = some g) : g' ∈ s.rest i ↔ ∃ j ≠ i, s.segment? j = some g' := by
  rw [rest, mem_held]
  refine exists_congr fun j => ?_
  rw [occupant?_set (lt_of_occupant? hi)]
  split
  · rename_i hji
    simp [hji]
  · rename_i hji
    simp only [ne_eq, hji, not_false_eq_true, true_and]
    rfl

theorem held_update {u : Segment.State} (hi : s.segment? i = some g) :
    held (s.update i u).slots = u.segment ::ₘ s.rest i :=
  held_swapped hi (held_clear hi).symm

theorem segment?_update {u : Segment.State} (hi : s.segment? i = some g) :
    (s.update i u).segment? j = if j = i then some u.segment else s.segment? j :=
  occupant?_set (lt_of_occupant? hi)

/-- The slots that have a segment stay the same ones, so that each key is routed as before. -/
theorem isTaken_update {u : Segment.State} (hi : s.segment? i = some g) :
    Placement.isTaken (s.update i u).slots = Placement.isTaken s.slots := by
  funext j
  show ((s.update i u).segment? j).isSome = (s.segment? j).isSome
  rw [segment?_update hi]
  split
  · rename_i hji
    rw [hji, hi]
    rfl
  · rfl

theorem route?_update {u : Segment.State} (hi : s.segment? i = some g) (k : Value) :
    Placement.route? (s.update i u).slots k = Placement.route? s.slots k := by
  unfold Placement.route?
  rw [isTaken_update hi]
  simp only [update, Array.size_setIfInBounds]

theorem place?_update {u : Segment.State} (hi : s.segment? i = some g) (r : Record) :
    (s.update i u).place? r = s.place? r := by
  unfold place?
  rw [funext (route?_update hi)]

theorem records_eq (hi : s.segment? i = some g) :
    s.records = (s.part g).records + (s.rest i).bind fun g => s.memory.arena.records (held g.slots) := by
  rw [records, ← held_clear (show occupant? s.slots i = some g from hi), Multiset.cons_bind]
  rfl

theorem records_part (hs : s.WellFormed) (hi : s.segment? i = some g) :
    (s.part g).records = s.records.filter (s.place? · = some i) ∧
      ((s.rest i).bind fun g => s.memory.arena.records (held g.slots)) = s.records.filter (s.place? · ≠ some i) := by
  have hmine : ∀ r ∈ (s.part g).records, s.place? r = some i := fun r hr => hs.routed hi hr
  have hothers : ∀ r ∈ (s.rest i).bind fun g => s.memory.arena.records (held g.slots), s.place? r ≠ some i := by
    intro r hr hri
    obtain ⟨g', hg', hr'⟩ := Multiset.mem_bind.mp hr
    obtain ⟨j, hji, hj⟩ := (mem_rest hi).mp hg'
    have := hs.routed hj hr'
    rw [hri] at this
    exact hji (Option.some.inj this).symm
  rw [records_eq hi, Multiset.filter_add, Multiset.filter_add, Multiset.filter_eq_self.mpr hmine,
    Multiset.filter_eq_nil.mpr hothers, Multiset.filter_eq_self.mpr hothers,
    Multiset.filter_eq_nil.mpr fun r hr => not_not.mpr (hmine r hr), add_zero, zero_add]
  exact ⟨rfl, rfl⟩

theorem part_wellFormed (hs : s.WellFormed) (hi : s.segment? i = some g) : (s.part g).WellFormed := by
  refine ⟨⟨hs.inOrder hi, hs.steady, hs.sound⟩, ?_⟩
  show _ ≤ s.counters.items
  rw [hs.items, records_eq hi, Multiset.card_add]
  exact Nat.le_add_right _ _

/-! ### What becomes of the store -/

/-- Every live block is held by a segment. -/
def Owns (s : Store) : Prop :=
  ∀ h, s.memory.arena.block? h ≠ none → ∃ i g, s.segment? i = some g ∧ h ∈ held g.slots

/-- What an operation keeps of a store. -/
structure Keeps (s s' : Store) : Prop where
  clock : s'.clock = s.clock
  schema : s'.schema = s.schema
  limit? : s'.memory.arena.limit? = s.memory.arena.limit?
  maxItems? : s'.counters.maxItems? = s.counters.maxItems?
  maxBytes? : s'.counters.maxBytes? = s.counters.maxBytes?
  faultless : s.memory.faults = .never → s'.memory.faults = .never
  calm : s.notifier.Calm → s'.notifier.Calm
  size : s'.slots.size = s.slots.size
  taken : Placement.isTaken s'.slots = Placement.isTaken s.slots
  owns : s.Owns → s'.Owns

theorem Keeps.refl (s : Store) : Keeps s s := ⟨rfl, rfl, rfl, rfl, rfl, id, id, rfl, rfl, id⟩

theorem Keeps.trans {s s' s'' : Store} (h₁ : Keeps s s') (h₂ : Keeps s' s'') : Keeps s s'' where
  clock := h₂.clock.trans h₁.clock
  schema := h₂.schema.trans h₁.schema
  limit? := h₂.limit?.trans h₁.limit?
  maxItems? := h₂.maxItems?.trans h₁.maxItems?
  maxBytes? := h₂.maxBytes?.trans h₁.maxBytes?
  faultless h := h₂.faultless (h₁.faultless h)
  calm h := h₂.calm (h₁.calm h)
  size := h₂.size.trans h₁.size
  taken := h₂.taken.trans h₁.taken
  owns h := h₂.owns (h₁.owns h)

theorem Keeps.place? {s s' : Store} (h : Keeps s s') (r : Record) : s'.place? r = s.place? r := by
  unfold Store.place? Placement.route?
  rw [h.size, h.taken]

/-- From `s` to `s'` the records become `rs`. -/
structure Leads (s s' : Store) (rs : Multiset Record) : Prop where
  wellFormed : s'.WellFormed
  keeps : Keeps s s'
  records : s'.records = rs

theorem Leads.refl (hs : s.WellFormed) : Leads s s s.records := ⟨hs, Keeps.refl s, rfl⟩

theorem Leads.trans {s s' s'' : Store} {rs rs' : Multiset Record} (h₁ : Leads s s' rs) (h₂ : Leads s' s'' rs') :
    Leads s s'' rs' := ⟨h₂.wellFormed, h₁.keeps.trans h₂.keeps, h₂.records⟩

section Update
variable {u : Segment.State} (hs : s.WellFormed) (hi : s.segment? i = some g)
include hs hi

section Alters
variable (hu : Segment.Alters (s.part g) u rs)
include hu

/-- The other segments hold none of the blocks of the one that has changed, so theirs are the same still. -/
theorem other_update {g' : Segment} (hj : s.segment? j = some g') (hji : j ≠ i) (hh : h ∈ held g'.slots) :
    h ∉ held u.segment.slots ∧ u.memory.arena.block? h = s.memory.arena.block? h := by
  refine hu.others h (fun hmine => hji (hs.apart hj hi hh hmine)) ?_
  obtain ⟨r, hr, -⟩ := (hs.inOrder hj).record? hh
  obtain ⟨b, hb, -⟩ := Option.bind_eq_some_iff.mp hr
  intro hnone
  rw [show s.memory.arena.block? h = none from hnone] at hb
  cases hb

theorem records_update : (s.update i u).records = rs + s.records.filter (s.place? · ≠ some i) := by
  rw [← (records_part hs hi).2, records, held_update hi, Multiset.cons_bind, ← hu.records]
  refine congrArg (u.records + ·) (Multiset.bind_congr fun g' hg' => ?_)
  obtain ⟨j, hji, hj⟩ := (mem_rest hi).mp hg'
  exact Arena.records_congr fun h hh => Arena.record?_congr (other_update hs hi hu hj hji hh).2

theorem card_update : (s.update i u).records.card + (s.part g).records.card = s.records.card + rs.card := by
  have hall := congrArg Multiset.card (records_eq hi)
  rw [(records_part hs hi).2, Multiset.card_add] at hall
  rw [records_update hs hi hu, Multiset.card_add]
  omega

theorem wellFormed_update (hrouted : ∀ r ∈ rs, s.place? r = some i) : (s.update i u).WellFormed := by
  have hrecords := records_update hs hi hu
  have hall := records_eq hi
  rw [(records_part hs hi).2] at hall
  refine ⟨⟨i, u.segment, by rw [segment?_update hi, if_pos rfl]⟩, hu.wellFormed.steady, hu.wellFormed.sound,
    fun {j g'} hj => ?_, fun {j j' g₁ g₂ h} hj hj' hh hh' => ?_, fun {j g' r} hj hr => ?_, ?_, ?_⟩
  · rw [segment?_update hi] at hj
    split at hj
    · cases hj
      exact hu.wellFormed.table
    · rename_i hji
      exact (hs.inOrder hj).congr fun h hh => (other_update hs hi hu hj hji hh).2
  · rw [segment?_update hi] at hj hj'
    split at hj <;> split at hj'
    · rename_i e e'
      rw [e, e']
    · rename_i hji'
      cases hj
      exact absurd hh (other_update hs hi hu hj' hji' hh').1
    · rename_i hji _
      cases hj'
      exact absurd hh' (other_update hs hi hu hj hji hh).1
    · exact hs.apart hj hj' hh hh'
  · rw [place?_update hi]
    rw [segment?_update hi] at hj
    split at hj
    · rename_i hji
      cases hj
      rw [hji]
      exact hrouted r (hu.records ▸ hr)
    · rename_i hji
      refine hs.routed hj ?_
      rw [← Arena.records_congr fun h hh => Arena.record?_congr (other_update hs hi hu hj hji hh).2]
      exact hr
  · have hitems := hu.items
    have hcount := hs.items
    rw [hall, Multiset.card_add] at hcount
    rw [hrecords, Multiset.card_add]
    show u.counters.items = _
    have : (s.part g).counters.items = s.counters.items := rfl
    omega
  · have hbytes := hu.bytes
    have hsum := hs.bytes
    rw [hall, weight_add, UInt64.ofNat_add] at hsum
    rw [hrecords, weight_add, UInt64.ofNat_add]
    show u.counters.bytes = _
    have : (s.part g).counters.bytes = s.counters.bytes := rfl
    grind

end Alters

variable (hu : Segment.Leads (s.part g) u rs)
include hu

omit hs in
theorem keeps_update : Keeps s (s.update i u) where
  clock := hu.keeps.clock
  schema := rfl
  limit? := hu.keeps.limit?
  maxItems? := hu.keeps.maxItems?
  maxBytes? := hu.keeps.maxBytes?
  faultless := hu.keeps.faultless
  calm := hu.keeps.calm
  size := Array.size_setIfInBounds ..
  taken := isTaken_update hi
  owns howns h hlive := by
    rcases hu.keeps.owned h hlive with hmine | ⟨hnot, hold⟩
    · exact ⟨i, u.segment, by rw [segment?_update hi, if_pos rfl], hmine⟩
    · obtain ⟨j, g', hj, hh⟩ := howns h hold
      have hji : j ≠ i := by
        rintro rfl
        rw [hi] at hj
        cases hj
        exact hnot hh
      exact ⟨j, g', by rw [segment?_update hi, if_neg hji, hj], hh⟩

theorem leads_update (hrouted : ∀ r ∈ rs, s.place? r = some i) :
    Leads s (s.update i u) (rs + s.records.filter (s.place? · ≠ some i)) :=
  ⟨wellFormed_update hs hi hu.alters hrouted, keeps_update hi hu, records_update hs hi hu.alters⟩

end Update

end RecordStore.Store
