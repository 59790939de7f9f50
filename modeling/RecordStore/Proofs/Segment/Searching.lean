import RecordStore.Proofs.Table.Closing

/-! # Searching and laying out a table

The keys of a table are in the records, so every step of a search reads one. While the keys can be read, a search
in an ordered table ends where it should and changes nothing, and laying the table out anew or closing a gap in it
keeps its handles and its order. -/

namespace RecordStore.Segment

open Cyclic

variable {key? : Handle → Option Value} {slots : Slots} {t : State} {i j : Nat} {h : Handle} {k : Value}

/-- The keys are those that a memory tells of its records. -/
def Readable (m : Memory) (key? : Handle → Option Value) : Prop :=
  ∀ h k, key? h = some k → ∃ p, Record.payloadAt h m = .ok p m ∧ Payload.key p = .ok k

theorem keyAt_ok (hread : Readable t.memory key?) (hk : key? h = some k) : keyAt h t = .ok k t := by
  obtain ⟨p, hp, hkey⟩ := hread h k hk
  simp only [keyAt, Action.bind_ok (onMemory_ok hp), hkey, Action.ofCodec_ok]

/-- A state with other slots in its table. -/
def State.withSlots (t : State) (slots : Slots) : State := { t with segment := { t.segment with slots } }

@[simp] theorem withSlots_slots : (t.withSlots slots).segment.slots = slots := rfl

@[simp] theorem withSlots_memory : (t.withSlots slots).memory = t.memory := rfl

@[simp] theorem withSlots_self : t.withSlots t.segment.slots = t := rfl

@[simp] theorem withSlots_withSlots (slots' : Slots) :
    (t.withSlots slots).withSlots slots' = t.withSlots slots' := rfl

theorem slotAt_ok {h? : Option Handle} (hi : occupant? t.segment.slots i = h?) : slotAt i t = .ok h? t :=
  congrArg (EStateM.Result.ok · t) hi

theorem place_ok (hi : freeSlot? t.segment.slots k = some i) :
    place k h t = .ok () (t.withSlots (t.segment.slots.setIfInBounds i (some h))) := by
  simp only [place, hi]
  rfl

/-! ### Searching -/

/-- The slot where a search ends, with the handle that has the key or with none. -/
def Ends (key? : Handle → Option Value) (slots : Slots) (k : Value) (i : Nat) : Probe → Prop
  | .found j h => j = i ∧ occupant? slots i = some h ∧ key? h = some k
  | .absent j => j = i ∧ occupant? slots i = none

theorem probeFrom_ok {steps a : Nat} {r : Probe} (hread : Readable t.memory key?)
    (ha : a < t.segment.slots.size) (hi : i < t.segment.slots.size)
    (hsteps : dist t.segment.slots.size a i < steps)
    (hbefore : ∀ j < t.segment.slots.size, dist t.segment.slots.size a j < dist t.segment.slots.size a i →
      ∃ h k', occupant? t.segment.slots j = some h ∧ key? h = some k' ∧ k' ≠ k)
    (hend : Ends key? t.segment.slots k i r) : probeFrom k steps a t = .ok r t := by
  induction steps generalizing a with
  | zero => omega
  | succ steps ih =>
    by_cases hai : a = i
    · subst hai
      cases r with
      | absent j =>
        obtain ⟨rfl, hnone⟩ := hend
        simp only [probeFrom, Action.bind_ok (slotAt_ok hnone), Action.pure_run]
      | found j h =>
        obtain ⟨rfl, hsome, hk⟩ := hend
        simp only [probeFrom, Action.bind_ok (slotAt_ok hsome), Action.bind_ok (keyAt_ok hread hk), if_true,
          Action.pure_run]
    · have hnear := dist_succ ha hi hai
      obtain ⟨h, k', hsome, hk', hne⟩ := hbefore a ha (by rw [dist_self]; omega)
      have hnext : nextSlot a t = .ok ((a + 1) % t.segment.slots.size) t := rfl
      simp only [probeFrom, Action.bind_ok (slotAt_ok hsome), Action.bind_ok (keyAt_ok hread hk'), if_neg hne,
        Action.bind_ok hnext]
      refine ih (succ_mod_lt ha) (by omega) fun j hj hlt => ?_
      refine hbefore j hj ?_
      by_cases haj : a = j
      · rw [haj, dist_self, ← haj]
        omega
      · rw [dist_succ ha hj haj]
        omega

/-- A search finds the handle that has the key. -/
theorem probe_found (hread : Readable t.memory key?) (hc : Chained key? t.segment.slots)
    (hi : occupant? t.segment.slots i = some h) (hk : key? h = some k) : probe k t = .ok (.found i h) t := by
  have hilt := lt_of_occupant? hi
  have hhome : k.home t.segment.slots.size < t.segment.slots.size := home_lt (by omega)
  refine probeFrom_ok hread hhome hilt (dist_lt hhome hilt) (fun j hj hlt => ?_) ⟨rfl, hi, hk⟩
  obtain ⟨g, hg⟩ := Option.isSome_iff_exists.mp (hc.reached hi hk j hj hlt)
  obtain ⟨k', hk'⟩ := hc.readable hg
  refine ⟨g, k', hg, hk', fun e => ?_⟩
  rw [hc.distinct hg hi (by rw [hk', hk, e])] at hlt
  omega

/-- A search for a key that no handle has ends at the first empty slot from its home on. -/
theorem probe_absent (hread : Readable t.memory key?) (hc : Chained key? t.segment.slots)
    (hfree : freeSlot? t.segment.slots k = some i) (hi : i < t.segment.slots.size)
    (hnew : ∀ h ∈ held t.segment.slots, key? h ≠ some k) : probe k t = .ok (.absent i) t := by
  have hn : 0 < t.segment.slots.size := by omega
  obtain ⟨-, hnone, htaken⟩ := (freeSlot?_eq_some_iff hn).mp hfree
  have hhome : k.home t.segment.slots.size < t.segment.slots.size := home_lt hn
  refine probeFrom_ok hread hhome hi (dist_lt hhome hi) (fun j hj hlt => ?_) ⟨rfl, hnone⟩
  obtain ⟨g, hg⟩ := Option.isSome_iff_exists.mp (htaken j hj hlt)
  obtain ⟨k', hk'⟩ := hc.readable hg
  exact ⟨g, k', hg, hk', fun e => hnew g (mem_held.mpr ⟨j, hg⟩) (e ▸ hk')⟩

/-- A search finds the handle that has the key, or ends where a handle with the key would go. -/
theorem probe_cases {f : Nat} (hread : Readable t.memory key?) (hc : Chained key? t.segment.slots)
    (hf : f < t.segment.slots.size) (hfree : occupant? t.segment.slots f = none) (k : Value) :
    (∃ i h, occupant? t.segment.slots i = some h ∧ key? h = some k ∧ probe k t = .ok (.found i h) t) ∨
      ((∀ h ∈ held t.segment.slots, key? h ≠ some k) ∧
        ∃ i, freeSlot? t.segment.slots k = some i ∧ probe k t = .ok (.absent i) t) := by
  by_cases hheld : ∃ h ∈ held t.segment.slots, key? h = some k
  · obtain ⟨h, hh, hk⟩ := hheld
    obtain ⟨i, hi⟩ := mem_held.mp hh
    exact Or.inl ⟨i, h, hi, hk, probe_found hread hc hi hk⟩
  · have hnew : ∀ h ∈ held t.segment.slots, key? h ≠ some k := fun h hh hk => hheld ⟨h, hh, hk⟩
    obtain ⟨i, hi⟩ := exists_freeSlot? k hf hfree
    obtain ⟨hilt, -, -⟩ := (freeSlot?_eq_some_iff (size_pos_of_freeSlot? hi)).mp hi
    exact Or.inr ⟨hnew, i, hi, probe_absent hread hc hi hilt hnew⟩

/-! ### Laying out anew -/

theorem placeAll_ok {slots : Slots} (hs : List Handle) (hread : Readable t.memory key?) (hc : Chained key? slots)
    (hkeys : ∀ h ∈ hs, ∃ k, key? h = some k) (hdistinct : (hs.map key?).Nodup)
    (hnew : ∀ h ∈ hs, ∀ g ∈ held slots, key? g ≠ key? h) (hroom : hs.length + (held slots).card < slots.size) :
    ∃ slots', placeAll hs slots t = .ok slots' t ∧ slots'.size = slots.size ∧ Chained key? slots' ∧
      held slots' = ↑hs + held slots := by
  induction hs generalizing slots with
  | nil => exact ⟨slots, rfl, rfl, hc, by simp⟩
  | cons h hs ih =>
    obtain ⟨k, hk⟩ := hkeys h List.mem_cons_self
    obtain ⟨i, hilt, hi, hnone⟩ := exists_freeSlot?_of_card_lt k (show (held slots).card < slots.size by omega)
    have hheld := held_fill (x := h) hilt hnone
    rw [List.map_cons, List.nodup_cons] at hdistinct
    have hc' := hc.fill hi hk fun g hg => hk ▸ hnew h List.mem_cons_self g hg
    obtain ⟨slots', hplace, hsize, hchained, hall⟩ := ih hc' (fun g hg => hkeys g (List.mem_cons_of_mem _ hg))
      hdistinct.2
      (by
        intro g hg g' hg'
        rw [hheld, Multiset.mem_cons] at hg'
        rcases hg' with rfl | hg'
        · exact fun e => hdistinct.1 (List.mem_map.mpr ⟨g, hg, e.symm⟩)
        · exact hnew g (List.mem_cons_of_mem _ hg) g' hg')
      (by
        rw [hheld, Multiset.card_cons, Array.size_setIfInBounds]
        rw [List.length_cons] at hroom
        omega)
    refine ⟨slots', ?_, by rw [hsize, Array.size_setIfInBounds], hchained, ?_⟩
    · simp only [placeAll, Action.bind_ok (keyAt_ok hread hk), hi, hplace]
    · rw [hall, hheld, ← Multiset.cons_coe, Multiset.cons_add, Multiset.add_cons]

/-- A table that is laid out anew, with more slots than handles, keeps its handles and comes in order. -/
theorem resize_anew {capacity : Nat} (hread : Readable t.memory key?)
    (hkeys : ∀ h ∈ t.segment.handles, ∃ k, key? h = some k) (hdistinct : (t.segment.handles.map key?).Nodup)
    (hroom : (held t.segment.slots).card < capacity) :
    ∃ slots, resize capacity t = .ok () (t.withSlots slots) ∧ slots.size = capacity ∧ Chained key? slots ∧
      held slots = held t.segment.slots := by
  have hhandles : (t.segment.handles : Multiset Handle) = held t.segment.slots := rfl
  obtain ⟨slots, hplace, hsize, hchained, hall⟩ := placeAll_ok t.segment.handles hread (chained_replicate capacity)
    hkeys hdistinct
    (fun _ _ g hg => by rw [held_replicate] at hg; cases hg)
    (by
      rw [held_replicate, Multiset.card_zero, Array.size_replicate]
      exact hroom)
  refine ⟨slots, ?_, by rw [hsize, Array.size_replicate], hchained, by rw [hall, held_replicate, add_zero, hhandles]⟩
  have hcurrent : currentHandles t = .ok t.segment.handles t := rfl
  simp only [resize, Action.bind_ok hcurrent, Action.bind_ok hplace]
  rfl

/-- A table in order stays in order. -/
theorem resize_ok {capacity : Nat} (hread : Readable t.memory key?) (hc : Chained key? t.segment.slots)
    (hroom : (held t.segment.slots).card < capacity) :
    ∃ slots, resize capacity t = .ok () (t.withSlots slots) ∧ slots.size = capacity ∧ Chained key? slots ∧
      held slots = held t.segment.slots := by
  have hslot {g : Handle} (hg : g ∈ t.segment.handles) : ∃ i, occupant? t.segment.slots i = some g :=
    mem_held.mp (Multiset.mem_coe.mpr hg)
  refine resize_anew hread (fun g hg => ?_) ?_ hroom
  · obtain ⟨a, ha⟩ := hslot hg
    exact hc.readable ha
  · have hnodup : t.segment.handles.Nodup := hc.nodup
    refine List.Nodup.map_on (fun g hg g' hg' e => ?_) hnodup
    obtain ⟨a, ha⟩ := hslot hg
    obtain ⟨b, hb⟩ := hslot hg'
    rw [hc.distinct ha hb e, hb] at ha
    exact (Option.some.inj ha).symm

/-! ### Closing a gap -/

/-- Taking a handle out and placing it anew needs no other empty slot than the one it leaves. -/
theorem place_anew {p : Nat} (t : State) (k : Value) (hp : occupant? t.segment.slots p = some h) :
    ∃ q slots, freeSlot? (t.segment.slots.setIfInBounds p none) k = some q ∧
      slots = (t.segment.slots.setIfInBounds p none).setIfInBounds q (some h) ∧
      slots.size = t.segment.slots.size ∧ held slots = held t.segment.slots ∧
      ∀ f : Nat → Op Unit, (do
        modifySegment (·.setSlot p none)
        place k h
        let i ← nextSlot p
        f i) t = f ((p + 1) % t.segment.slots.size) (t.withSlots slots) := by
  have hsize : (t.segment.slots.setIfInBounds p none).size = t.segment.slots.size := Array.size_setIfInBounds ..
  obtain ⟨q, hq⟩ := exists_freeSlot?_anew hp k
  refine ⟨q, _, hq, rfl, by rw [Array.size_setIfInBounds, hsize], held_anew hp hq, fun f => ?_⟩
  have hclear : modifySegment (·.setSlot p none) t = .ok () (t.withSlots (t.segment.slots.setIfInBounds p none)) := rfl
  have hplace : place k h (t.withSlots (t.segment.slots.setIfInBounds p none)) =
      .ok () (t.withSlots ((t.segment.slots.setIfInBounds p none).setIfInBounds q (some h))) := place_ok hq
  have hnext : nextSlot p (t.withSlots ((t.segment.slots.setIfInBounds p none).setIfInBounds q (some h))) =
      .ok ((p + 1) % t.segment.slots.size)
        (t.withSlots ((t.segment.slots.setIfInBounds p none).setIfInBounds q (some h))) := by
    rw [nextSlot, next, capacity, withSlots_slots, Array.size_setIfInBounds, hsize]
  exact (Action.bind_ok hclear).trans ((Action.bind_ok hplace).trans (Action.bind_ok hnext))

theorem backShiftFrom_ok {v p e : Nat} (steps : Nat) (hread : Readable t.memory key?)
    (hs : Sweeping key? t.segment.slots v p e)
    (hsteps : dist t.segment.slots.size v e - dist t.segment.slots.size v p < steps) :
    ∃ slots, backShiftFrom steps p t = .ok () (t.withSlots slots) ∧ slots.size = t.segment.slots.size ∧
      Chained key? slots ∧ held slots = held t.segment.slots ∧
      ∀ j < t.segment.slots.size, dist t.segment.slots.size v e ≤ dist t.segment.slots.size v j →
        occupant? slots j = occupant? t.segment.slots j := by
  induction steps generalizing t p with
  | zero => omega
  | succ steps ih =>
    by_cases hpe : p = e
    · subst hpe
      refine ⟨t.segment.slots, ?_, rfl, hs.chained, rfl, fun _ _ _ => rfl⟩
      simp only [backShiftFrom, Action.bind_ok (slotAt_ok hs.empty), Action.pure_run, withSlots_self]
    · obtain ⟨h, hp⟩ := hs.occupied hpe
      obtain ⟨k, hk⟩ := hs.readable hp
      obtain ⟨q, slots', hq, rfl, hsize, hheld, hmoved⟩ := place_anew t k hp
      obtain ⟨hqp, hstep⟩ := hs.step hpe hp hk hq
      obtain ⟨hlt, hnext⟩ := hs.behind hpe
      obtain ⟨slots, hrun, hsize', hchained, hall, hframe⟩ := ih
        (t := t.withSlots ((t.segment.slots.setIfInBounds p none).setIfInBounds q (some h)))
        (p := (p + 1) % t.segment.slots.size) hread hstep
        (by
          rw [withSlots_slots, hsize, hnext]
          omega)
      rw [withSlots_withSlots] at hrun
      rw [withSlots_slots, hsize] at hsize' hframe
      refine ⟨slots, ?_, hsize', hchained, by rw [hall, withSlots_slots, hheld], fun j hj hge => ?_⟩
      · simp only [backShiftFrom, Action.bind_ok (slotAt_ok hp), Action.bind_ok (keyAt_ok hread hk), hmoved, hrun]
      · have hjp : j ≠ p := fun e' => by rw [e'] at hge; omega
        have hjq : j ≠ q := fun e' => by rw [e'] at hge; omega
        rw [hframe j hj hge, occupant?_anew hp hq, if_neg hjq, if_neg hjp]

/-- Closing the gap that a removed handle leaves puts the table in order again. The slots beyond the first empty one
    after the gap stay as they are. -/
theorem backShift_ok {v e : Nat} (hread : Readable t.memory key?)
    (hs : Sweeping key? t.segment.slots v ((v + 1) % t.segment.slots.size) e) :
    ∃ slots, backShift v t = .ok () (t.withSlots slots) ∧ slots.size = t.segment.slots.size ∧
      Chained key? slots ∧ held slots = held t.segment.slots ∧
      ∀ j < t.segment.slots.size, dist t.segment.slots.size v e ≤ dist t.segment.slots.size v j →
        occupant? slots j = occupant? t.segment.slots j := by
  have hmax : t.segment.slots.size ≤ maxShifts t.segment.slots.size := Nat.le_mul_of_pos_right _ (Nat.succ_pos _)
  have hstop := dist_lt hs.gap hs.stop
  exact backShiftFrom_ok (maxShifts t.segment.slots.size) hread hs (by omega)

end RecordStore.Segment
