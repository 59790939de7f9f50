import RecordStore.Proofs.Segment.Gaps
import RecordStore.Segment.Entries

/-! # Where searches end and handles go

A search for a key and the placing of a handle go through a table each in its own way: the one compares keys and stops
at the first empty slot at the latest, the other looks for nothing but that slot. The main statement is that in a table
in order the search finds a key just where it is, and ends otherwise at the slot where a handle with the key is put, and
that the table is in order with the handle there. -/

namespace RecordStore.Segment

open RecordStore.Action Cyclic

variable {t u : State} {h : Handle} {i : Nat} {k : Value}

/-! ### The first empty slot -/

/-- Slot `i` is the first empty one from slot `a` on, round the table. -/
def FirstFree (s : Segment) (a i : Nat) : Prop :=
  ∃ d < s.capacity, i = (a + d) % s.capacity ∧ s.slot? i = none ∧
    ∀ e < d, (s.slot? ((a + e) % s.capacity)).isSome

theorem freeSlot?_eq_some_iff_firstFree {s : Segment} (hn : 0 < s.capacity) :
    freeSlot? s.slots k = some i ↔ s.FirstFree (k.home s.capacity) i := by
  refine (find?_eq_some_iff_steps (home_lt hn)).trans ?_
  simp only [isFree_eq_true_iff, isFree_eq_false_iff]
  exact Iff.rfl

/-! ### Searching -/

/-- No slot holds a record with the key. -/
def State.Lacks (t : State) (k : Value) : Prop := ∀ j h, t.segment.slot? j = some h → keyAt h t ≠ .ok k t

/-- A search ends at the record with the key, or at the slot where a handle with the key goes. -/
theorem State.Unbroken.probe_cases (ht : t.Unbroken) (k : Value) :
    (∃ i h, t.segment.slot? i = some h ∧ keyAt h t = .ok k t ∧ probe k t = .ok (.found i h) t) ∨
      (t.Lacks k ∧ ∃ i, freeSlot? t.segment.slots k = some i ∧ probe k t = .ok (.absent i) t) := by
  obtain ⟨f, hf, hfree⟩ := ht.free
  rcases Segment.probe_cases t.readable ht.chained hf hfree k with ⟨i, h, hi, hk, hfound⟩ | ⟨hnew, habsent⟩
  · exact Or.inl ⟨i, h, hi, State.key?_eq_some_iff.mp hk, hfound⟩
  · exact Or.inr ⟨fun j h hj hk => hnew h (mem_held.mpr ⟨j, hj⟩) (State.key?_eq_some_iff.mpr hk), habsent⟩

theorem probe_eq_found_iff (ht : t.Unbroken) :
    probe k t = .ok (.found i h) t ↔ t.segment.slot? i = some h ∧ keyAt h t = .ok k t := by
  constructor
  · intro hrun
    rcases ht.probe_cases k with ⟨j, g, hj, hk, hfound⟩ | ⟨-, j, -, habsent⟩
    · cases hrun.symm.trans hfound
      exact ⟨hj, hk⟩
    · cases hrun.symm.trans habsent
  · rintro ⟨hi, hk⟩
    exact probe_found t.readable ht.chained hi (State.key?_eq_some_iff.mpr hk)

theorem probe_eq_absent_iff (ht : t.Unbroken) :
    probe k t = .ok (.absent i) t ↔ t.Lacks k ∧ freeSlot? t.segment.slots k = some i := by
  constructor
  · intro hrun
    rcases ht.probe_cases k with ⟨j, g, -, -, hfound⟩ | ⟨hlacks, j, hj, habsent⟩
    · cases hrun.symm.trans hfound
    · cases hrun.symm.trans habsent
      exact ⟨hlacks, hj⟩
  · rintro ⟨hlacks, hi⟩
    rcases ht.probe_cases k with ⟨j, g, hj, hk, -⟩ | ⟨-, j, hj, habsent⟩
    · exact absurd hk (hlacks j g hj)
    · cases hi.symm.trans hj
      exact habsent

/-! ### Placing -/

theorem place_same (hi : freeSlot? t.segment.slots k = some i) (hslots : u.segment.slots = t.segment.slots) :
    place k h u = .ok () (u.withSlots (t.segment.slots.setIfInBounds i (some h))) := by
  rw [← hslots] at hi ⊢
  exact place_ok hi

/-- Unless the table has to grow, a record of a new key goes to that slot as well. -/
theorem insert_slots {r : Record} (hi : freeSlot? t.segment.slots k = some i) (hgrow : t.segment.mustGrow = false)
    (hrun : insert k r t = .ok () u) : ∃ h, u.segment.slots = t.segment.slots.setIfInBounds i (some h) := by
  have hinsert : insert k r t = (onMemory r.store >>= fun r => do
      place k r.handle
      modifySegment fun s => { s with count := s.count + 1 }) t := by
    simp only [insert, get_bind, hgrow]
    rfl
  rw [hinsert] at hrun
  cases hstore : r.store t.memory with
  | error e m => cases hrun.symm.trans (bind_error (onMemory_error hstore))
  | ok r' m =>
    have hplace : place k r'.handle { t with memory := m } =
        .ok () (State.withSlots { t with memory := m } (t.segment.slots.setIfInBounds i (some r'.handle))) := place_ok hi
    cases hrun.symm.trans ((bind_ok (onMemory_ok hstore)).trans (bind_ok hplace))
    exact ⟨r'.handle, rfl⟩

/-- The same slots, with handles that tell the same keys. -/
structure State.SameTable (t u : State) : Prop where
  slots : u.segment.slots = t.segment.slots
  keys : ∀ g ∈ t.segment.handles, ∀ k, keyAt g t = .ok k t → keyAt g u = .ok k u

theorem State.SameTable.refl (t : State) : t.SameTable t := ⟨rfl, fun _ _ _ hk => hk⟩

section Filling
variable (ht : t.Unbroken) (hlacks : t.Lacks k) (hi : freeSlot? t.segment.slots k = some i)
  (hu : t.SameTable u) (hk : keyAt h u = .ok k u)
include ht hlacks hi hu hk

theorem chained_filled :
    Chained (u.withSlots (t.segment.slots.setIfInBounds i (some h))).key?
      (t.segment.slots.setIfInBounds i (some h)) := by
  have hkeys : ∀ g ∈ held t.segment.slots, u.key? g = t.key? g := by
    intro g hg
    obtain ⟨j, hj⟩ := mem_held.mp hg
    obtain ⟨k', hk'⟩ := ht.keyed j g hj
    rw [State.key?_eq_some_iff.mpr hk', State.key?_eq_some_iff.mpr (hu.keys g (Multiset.mem_coe.mp hg) k' hk')]
  rw [State.key?_withSlots]
  refine (ht.chained.congr hkeys).fill hi (State.key?_eq_some_iff.mpr hk) fun g hg hk' => ?_
  obtain ⟨j, hj⟩ := mem_held.mp hg
  rw [hkeys g hg] at hk'
  exact hlacks j g hj (State.key?_eq_some_iff.mp hk')

theorem unbroken_filled_iff :
    (u.withSlots (t.segment.slots.setIfInBounds i (some h))).Unbroken ↔
      ∃ j < t.segment.capacity, j ≠ i ∧ t.segment.slot? j = none := by
  obtain ⟨hilt, -, -⟩ := (freeSlot?_eq_some_iff (size_pos_of_freeSlot? hi)).mp hi
  have hsize : (t.segment.slots.setIfInBounds i (some h)).size = t.segment.slots.size := Array.size_setIfInBounds ..
  constructor
  · intro hfilled
    obtain ⟨j, hj, hfree⟩ := hfilled.free
    have hji : j ≠ i := by
      rintro rfl
      cases (occupant?_set_self hilt).symm.trans hfree
    exact ⟨j, Nat.lt_of_lt_of_eq hj hsize, hji, (occupant?_set_ne hilt hji).symm.trans hfree⟩
  · rintro ⟨j, hj, hji, hfree⟩
    refine State.unbroken_of_chained (chained_filled ht hlacks hi hu hk) ⟨j, Nat.lt_of_lt_of_eq hj hsize.symm, ?_⟩
    exact (occupant?_set_ne hilt hji).trans hfree

end Filling

/-! ### Searching and placing -/

/-- Slot `i` is where a handle with the key goes. -/
structure State.Awaits (t : State) (k : Value) (i : Nat) : Prop where
  /-- The search for an empty slot has a bound, but ends there without one. -/
  walks : Walks t.segment.capacity (isFree t.segment.slots) (k.home t.segment.capacity) i
  places : ∀ h u, u.segment.slots = t.segment.slots →
    place k h u = .ok () (u.withSlots (t.segment.slots.setIfInBounds i (some h)))
  inserts : ∀ r u, t.segment.mustGrow = false → insert k r t = .ok () u →
    ∃ h, u.segment.slots = t.segment.slots.setIfInBounds i (some h)
  /-- With a handle that has the key there, the keys are different and in reach of their homes. All that can be lost
      is the last empty slot. -/
  ordered : ∀ h u u', t.SameTable u → keyAt h u = .ok k u → place k h u = .ok () u' →
    Chained u'.key? u'.segment.slots ∧
      (u'.Unbroken ↔ ∃ j < t.segment.capacity, j ≠ i ∧ t.segment.slot? j = none)

/-- How searches for a key come out. -/
structure State.Probes (t : State) (k : Value) : Prop where
  found_iff : ∀ i h, probe k t = .ok (.found i h) t ↔ t.segment.slot? i = some h ∧ keyAt h t = .ok k t
  absent_iff : ∀ i, probe k t = .ok (.absent i) t ↔ t.Lacks k ∧ t.segment.FirstFree (k.home t.segment.capacity) i
  answers : ∃ r, probe k t = .ok r t
  awaits : ∀ i, probe k t = .ok (.absent i) t → t.Awaits k i

/-- In a table in order a search is exact: it finds a key just in the slot that holds it, and otherwise ends at the
    first empty slot from the home of the key on, which is where a handle with the key is put in order. -/
theorem probe_exact (ht : t.Unbroken) (k : Value) : t.Probes k := by
  have hn : 0 < t.segment.capacity := by
    obtain ⟨f, hf, -⟩ := ht.free
    exact Nat.zero_lt_of_lt hf
  constructor
  case found_iff => exact fun i h => probe_eq_found_iff ht
  case absent_iff =>
    intro i
    rw [probe_eq_absent_iff ht, freeSlot?_eq_some_iff_firstFree hn]
  case answers =>
    rcases ht.probe_cases k with ⟨i, h, -, -, hfound⟩ | ⟨-, i, -, habsent⟩
    · exact ⟨_, hfound⟩
    · exact ⟨_, habsent⟩
  case awaits =>
    intro i hrun
    obtain ⟨hlacks, hi⟩ := (probe_eq_absent_iff ht).mp hrun
    constructor
    case walks => exact (freeSlot?_eq_some_iff_walks hn).mp hi
    case places => exact fun h u hslots => place_same hi hslots
    case inserts => exact fun r u hgrow => insert_slots hi hgrow
    case ordered =>
      intro h u u' hu hk hrun
      cases hrun.symm.trans (place_same hi hu.slots)
      exact ⟨chained_filled ht hlacks hi hu hk, unbroken_filled_iff ht hlacks hi hu hk⟩

/-- A table of four slots with one record, in the last slot, and another record that is at home there as well. -/
def cornered : State :=
  { wrapped with
    memory := { arena := { blocks := #[none, wrapped.block (wrapped.key 1), wrapped.block (wrapped.key 3)] } }
    segment := ⟨#[none, none, none, some ⟨1⟩], 1, 4⟩ }

theorem unbroken_cornered : cornered.Unbroken := by
  have hfirst : freeSlot? (Array.replicate 4 none) (wrapped.key 1) = some 3 := by decide +kernel
  have hkey : cornered.key? ⟨1⟩ = some (wrapped.key 1) := State.key?_eq_some_iff.mpr rfl
  refine State.unbroken_of_chained ((chained_replicate 4).fill hfirst hkey ?_) ⟨0, by decide, rfl⟩
  intro h hh
  rw [held_replicate] at hh
  cases hh

/-- The record that is not in the table yet goes to the first slot. -/
theorem probe_exact_cornered :
    cornered.Unbroken ∧ probe (wrapped.key 1) cornered = .ok (.found 3 ⟨1⟩) cornered ∧
      probe (wrapped.key 3) cornered = .ok (.absent 0) cornered ∧
      ∃ u, place (wrapped.key 3) ⟨2⟩ cornered = .ok () u ∧ u.Unbroken ∧
        u.segment.slots = #[some ⟨2⟩, none, none, some ⟨1⟩] := by
  have hthere := probe_exact unbroken_cornered (wrapped.key 1)
  have hnew := probe_exact unbroken_cornered (wrapped.key 3)
  have hlacks : cornered.Lacks (wrapped.key 3) := by
    intro j h hj hk
    have hh : h ∈ cornered.segment.handles := Multiset.mem_coe.mp (mem_held.mpr ⟨j, hj⟩)
    cases List.mem_singleton.mp hh
    have hother : keyAt ⟨1⟩ cornered = .ok (wrapped.key 1) cornered := rfl
    cases hother.symm.trans hk
  have habsent := (hnew.absent_iff 0).mpr ⟨hlacks, 1, by decide, by decide +kernel, rfl, by decide +kernel⟩
  have hplace := (hnew.awaits 0 habsent).places ⟨2⟩ cornered rfl
  have hordered := (hnew.awaits 0 habsent).ordered ⟨2⟩ cornered _ (.refl cornered) rfl hplace
  exact ⟨unbroken_cornered, (hthere.found_iff 3 ⟨1⟩).mpr ⟨rfl, rfl⟩, habsent, _, hplace,
    hordered.2.mpr ⟨1, by decide, by decide, rfl⟩, rfl⟩

end RecordStore.Segment
