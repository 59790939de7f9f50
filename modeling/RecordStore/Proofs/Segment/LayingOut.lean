import RecordStore.Proofs.FreshHandles
import RecordStore.Proofs.Segment.Searching
import RecordStore.Proofs.Table.HomeDistance

/-! # Laying out whatever the keys

Blocks may be written by others, so that keys change, coincide or cannot be read any more while their handles lie in a
table. Searches still end at an empty slot, handles are still placed and swept past, and none is lost on the way, as
long as the table has an empty slot. -/

namespace RecordStore

open RecordStore.Action

/-- The key that a block tells, read without regard to what is planned to fail. -/
def Arena.told? (a : Arena) (h : Handle) : Option Value := do
  let word ← (a.read h Record.lengthOffset 4).toOption
  let payload ← (a.read h Record.payloadOffset (Bytes.toNat word)).toOption
  (Payload.key payload).toOption

namespace Segment

variable {t u : State} {h : Handle} {k : Value}

/-- A key that could be read is the one that the block tells. -/
theorem keyAt_yields (t : State) (h : Handle) :
    Yields (keyAt h) t (fun k u => Unwritten t u ∧ t.memory.arena.told? h = some k)
      fun e u => Unwritten t u ∧ e.Reported := by
  have hpayload : Yields (Record.payloadAt h) t.memory
      (fun p m => t.memory.Unwritten m ∧ ∀ k, Payload.key p = .ok k → t.memory.arena.told? h = some k)
      fun e m => t.memory.Unwritten m ∧ e.Reported := by
    refine .bind (.bind ((Memory.read_yields h Record.lengthOffset 4 t.memory).mono (fun word m hword => ?_)
      fun _ _ h => h))
    obtain ⟨hm, hword⟩ := hword
    refine (Memory.read_yields h Record.payloadOffset (Bytes.toNat word) m).mono (fun p m' hp => ?_)
      fun e m' hfailed => ⟨IsTrans.trans _ _ _ hm hfailed.1, hfailed.2⟩
    obtain ⟨hm', hp⟩ := hp
    refine ⟨IsTrans.trans _ _ _ hm hm', fun k hk => ?_⟩
    rw [hm.arena] at hp
    simp [Arena.told?, hword, hp, hk, Except.toOption]
  refine .bind ((onMemory_yields hpayload).mono (fun p u hu => ?_) fun e u hu => ?_)
  · obtain ⟨m, ⟨hm, htold⟩, rfl⟩ := hu
    cases hk : Payload.key p with
    | ok k => exact ⟨⟨m, hm, rfl⟩, htold k hk⟩
    | error fault => exact ⟨⟨m, hm, rfl⟩, _, rfl⟩
  · obtain ⟨m, ⟨hm, hreported⟩, rfl⟩ := hu
    exact ⟨⟨m, hm, rfl⟩, hreported⟩

/-! ### Searching -/

theorem Unwritten.segment_eq (h : Unwritten t u) : u.segment = t.segment := by
  obtain ⟨m, -, rfl⟩ := h
  rfl

/-- A search ends at a handle or at an empty slot, or fails on a record that it cannot read. -/
theorem probeFrom_yields {steps a f : Nat} (t : State) (ha : a < t.segment.slots.size)
    (hf : f < t.segment.slots.size) (hfree : occupant? t.segment.slots f = none)
    (hsteps : Cyclic.dist t.segment.slots.size a f < steps) :
    Yields (probeFrom k steps a) t
      (fun r u => Unwritten t u ∧ ∀ i h, r = .found i h → occupant? t.segment.slots i = some h)
      fun e u => Unwritten t u ∧ e.Reported := by
  induction steps generalizing a t with
  | zero => omega
  | succ steps ih =>
    cases hslot : occupant? t.segment.slots a with
    | none =>
      refine .of_ok (a := .absent a) (t := t) ?_ ⟨refl t, fun i h heq => by cases heq⟩
      simp only [probeFrom, bind_ok (slotAt_ok hslot), pure_run]
    | some h =>
      have hrun : probeFrom k (steps + 1) a t = (keyAt h >>= fun k' =>
          if k' = k then pure (.found a h) else nextSlot a >>= fun i => probeFrom k steps i) t := by
        simp only [probeFrom, bind_ok (slotAt_ok hslot)]
      refine .of_eq hrun ((keyAt_yields t h).chain fun k' u hu => ?_)
      obtain ⟨hu, -⟩ := hu
      have hsame := hu.segment_eq
      split
      · refine ⟨hu, fun i h' heq => ?_⟩
        cases heq
        exact hslot
      · have haf : a ≠ f := fun e => by
          rw [e, hfree] at hslot
          cases hslot
        rw [Cyclic.dist_succ ha hf haf] at hsteps
        have hnext : nextSlot a u = .ok ((a + 1) % u.segment.slots.size) u := rfl
        rw [← hsame] at ha hf hfree hsteps
        refine .of_eq (bind_ok hnext) ((ih u (Cyclic.succ_mod_lt ha) hf hfree (by omega)).mono (fun r v hv => ?_)
          fun e v hv => ?_)
        · exact ⟨IsTrans.trans _ _ _ hu hv.1, hsame ▸ hv.2⟩
        · exact ⟨IsTrans.trans _ _ _ hu hv.1, hv.2⟩

theorem probe_yields (t : State) (k : Value) (hroom : (held t.segment.slots).card < t.segment.slots.size) :
    Yields (probe k) t
      (fun r u => Unwritten t u ∧ ∀ i h, r = .found i h → occupant? t.segment.slots i = some h)
      fun e u => Unwritten t u ∧ e.Reported := by
  obtain ⟨f, hf, hfree⟩ := exists_free hroom
  have hhome : k.home t.segment.slots.size < t.segment.slots.size := home_lt (by omega)
  exact probeFrom_yields t hhome hf hfree (Cyclic.dist_lt hhome hf)

/-! ### Laying out anew -/

theorem placeAll_yields (t : State) (hs : List Handle) (slots : Slots)
    (hroom : hs.length + (held slots).card ≤ slots.size) :
    Yields (placeAll hs slots) t
      (fun slots' u => Unwritten t u ∧ slots'.size = slots.size ∧ held slots' = ↑hs + held slots)
      fun e u => Unwritten t u ∧ e.Reported := by
  induction hs generalizing t slots with
  | nil => exact ⟨refl t, rfl, by simp⟩
  | cons h hs ih =>
    rw [List.length_cons] at hroom
    refine (keyAt_yields t h).chain fun k u hu => ?_
    obtain ⟨i, hilt, hi, hnone⟩ := exists_freeSlot?_of_card_lt k (show (held slots).card < slots.size by omega)
    have hheld := held_fill (x := h) hilt hnone
    simp only [hi]
    refine (ih u (slots.setIfInBounds i (some h)) ?_).mono (fun slots' v hv => ?_) fun e v hv => ?_
    · rw [hheld, Multiset.card_cons, Array.size_setIfInBounds]
      omega
    · obtain ⟨hv, hsize, hall⟩ := hv
      refine ⟨IsTrans.trans _ _ _ hu.1 hv, by rw [hsize, Array.size_setIfInBounds], ?_⟩
      rw [hall, hheld, ← Multiset.cons_coe, Multiset.cons_add, Multiset.add_cons]
    · exact ⟨IsTrans.trans _ _ _ hu.1 hv.1, hv.2⟩

/-- The same handles lie in a table of `capacity` slots, and nothing else has changed but the memory, whose blocks are
    the same. -/
def Relaid (t : State) (capacity : Nat) (u : State) : Prop :=
  ∃ m slots, t.memory.Unwritten m ∧ u = { t with memory := m, segment := { t.segment with slots } } ∧
    slots.size = capacity ∧ held slots = held t.segment.slots

theorem resize_yields (t : State) {capacity : Nat} (hroom : (held t.segment.slots).card ≤ capacity) :
    Yields (resize capacity) t (fun _ u => Relaid t capacity u) fun e u => Unwritten t u ∧ e.Reported := by
  have hhandles : (t.segment.handles : Multiset Handle) = held t.segment.slots := rfl
  have hcurrent : currentHandles t = .ok t.segment.handles t := rfl
  refine .of_eq (bind_ok hcurrent) (.bind ?_)
  refine (placeAll_yields t t.segment.handles (Array.replicate capacity none) ?_).mono (fun slots u hu => ?_)
    fun _ _ hfailed => hfailed
  · rw [held_replicate, Multiset.card_zero, Array.size_replicate, ← Multiset.coe_card, hhandles]
    exact hroom
  · obtain ⟨⟨m, hm, rfl⟩, hsize, hall⟩ := hu
    rw [held_replicate, add_zero, hhandles] at hall
    rw [Array.size_replicate] at hsize
    exact ⟨m, slots, hm, rfl, hsize, hall⟩

/-! ### Closing a gap -/

theorem Relaid.refl (t : State) : Relaid t t.segment.slots.size t :=
  ⟨t.memory, t.segment.slots, Std.Refl.refl t.memory, rfl, rfl, rfl⟩

theorem Relaid.trans {v : State} {n n' : Nat} (h₁ : Relaid t n u) (h₂ : Relaid u n' v) : Relaid t n' v := by
  obtain ⟨m, slots, hm, rfl, -, hheld⟩ := h₁
  obtain ⟨m', slots', hm', rfl, hsize', hheld'⟩ := h₂
  exact ⟨m', slots', IsTrans.trans _ _ _ hm hm', rfl, hsize', hheld'.trans hheld⟩

theorem Unwritten.relaid (h : Unwritten t u) : Relaid t t.segment.slots.size u := by
  obtain ⟨m, hm, rfl⟩ := h
  exact ⟨m, t.segment.slots, hm, rfl, rfl, rfl⟩

/-- A sweep comes to an empty slot or fails on a record that it cannot read. -/
theorem backShiftFrom_yields {p f : Nat} (steps : Nat) (t : State) (hp : p < t.segment.slots.size)
    (hf : f < t.segment.slots.size) (hfree : occupant? t.segment.slots f = none)
    (hsteps : strain t.memory.arena.told? t.segment.slots + Cyclic.dist t.segment.slots.size p f < steps) :
    Yields (backShiftFrom steps p) t (fun _ u => Relaid t t.segment.slots.size u)
      fun e u => Relaid t t.segment.slots.size u ∧ e.Reported := by
  -- Each step decreases the strain and the way to an empty slot, taken together.
  induction steps generalizing t p f with
  | zero => omega
  | succ steps ih =>
    cases hslot : occupant? t.segment.slots p with
    | none =>
      refine .of_ok (a := ()) (t := t) ?_ (Relaid.refl t)
      simp only [backShiftFrom, bind_ok (slotAt_ok hslot), pure_run]
    | some h =>
      have hrun : backShiftFrom (steps + 1) p t = (keyAt h >>= fun k => do
          modifySegment (·.setSlot p none)
          place k h
          let i ← nextSlot p
          backShiftFrom steps i) t := by
        simp only [backShiftFrom, bind_ok (slotAt_ok hslot)]
      refine .of_eq hrun (.bind ((keyAt_yields t h).mono (fun k u hu => ?_) fun e u hfailed => ?_))
      · obtain ⟨⟨m, hm, rfl⟩, htold⟩ := hu
        obtain ⟨q, slots, hq, hslots, hsize, hheld, hstep⟩ := place_anew { t with memory := m } k hslot
        dsimp only at hq hslots hsize hheld hstep
        obtain ⟨f', hf', hfree', hless⟩ := strain_step hslot htold hq hf hfree
        rw [← hslots] at hfree' hless
        have hrest := ih (State.withSlots { t with memory := m } slots) (hsize ▸ Cyclic.succ_mod_lt hp) (hsize ▸ hf') hfree'
          (by
            rw [withSlots_memory, withSlots_slots, hm.arena, hsize]
            omega)
        have hbefore : Relaid t t.segment.slots.size (State.withSlots { t with memory := m } slots) :=
          ⟨m, slots, hm, rfl, hsize, hheld⟩
        rw [withSlots_slots, hsize] at hrest
        exact .of_eq (hstep _) (hrest.mono (fun _ v hv => hbefore.trans hv) fun e v hv => ⟨hbefore.trans hv.1, hv.2⟩)
      · exact ⟨hfailed.1.relaid, hfailed.2⟩

theorem strain_lt_maxShifts {a f : Nat} (key? : Handle → Option Value) {slots : Slots} (ha : a < slots.size)
    (hf : f < slots.size) : strain key? slots + Cyclic.dist slots.size a f < maxShifts slots.size := by
  have hstrain := strain_le key? slots
  have hround := Cyclic.dist_lt ha hf
  have hmul : slots.size * slots.size ≤ slots.size * (slots.size * slots.size) :=
    Nat.mul_le_mul_left _ (Nat.le_mul_of_pos_left _ (Nat.zero_lt_of_lt ha))
  rw [maxShifts, Nat.mul_add, Nat.mul_one]
  omega

theorem backShift_yields {f : Nat} (t : State) (v : Nat) (hf : f < t.segment.slots.size)
    (hfree : occupant? t.segment.slots f = none) :
    Yields (backShift v) t (fun _ u => Relaid t t.segment.slots.size u)
      fun e u => Relaid t t.segment.slots.size u ∧ e.Reported := by
  have hnext : t.segment.next v < t.segment.slots.size := Nat.mod_lt _ (Nat.zero_lt_of_lt hf)
  exact backShiftFrom_yields (maxShifts t.segment.slots.size) t hnext hf hfree (strain_lt_maxShifts _ hnext hf)

end Segment

end RecordStore
