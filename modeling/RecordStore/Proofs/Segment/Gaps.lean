import RecordStore.Proofs.Segment.Records

/-! # Gaps in a table

The order of a table in terms of what the segment itself reads: its handles tell different keys, none of them is cut
off from the home of its key by an empty slot, and some slot is empty. A slot that is emptied leaves a gap that may
cut off the handles after it. The main statement is that closing the gap succeeds, leaves just the other handles,
puts the table in order again, and changes nothing beyond the first empty slot after the gap. -/

namespace RecordStore.Segment

open Cyclic

variable {t u : State} {i j : Nat} {h h' : Handle} {k : Value} {slots : Slots}

/-! ### The keys that a state tells -/

theorem onMemory_eq_ok_iff {α : Type} {x : Action Memory α} {a : α} :
    onMemory x t = .ok a u ↔ ∃ m, x t.memory = .ok a m ∧ u = { t with memory := m } := by
  constructor
  · intro hrun
    cases hx : x t.memory with
    | ok b m =>
      rw [onMemory_ok hx] at hrun
      cases hrun
      exact ⟨m, rfl, rfl⟩
    | error e m =>
      rw [onMemory_error hx] at hrun
      cases hrun
  · rintro ⟨m, hx, rfl⟩
    exact onMemory_ok hx

theorem keyAt_eq_ok_iff :
    keyAt h t = .ok k t ↔ ∃ p, Record.payloadAt h t.memory = .ok p t.memory ∧ Payload.key p = .ok k := by
  constructor
  · intro hrun
    unfold keyAt at hrun
    cases hx : onMemory (Record.payloadAt h) t with
    | ok p v =>
      rw [Action.bind_ok hx] at hrun
      cases hkey : Payload.key p with
      | ok k' =>
        rw [hkey] at hrun
        cases hrun
        obtain ⟨m, hp, hm⟩ := onMemory_eq_ok_iff.mp hx
        have : m = t.memory := (congrArg (fun s : State => s.memory) hm).symm
        exact ⟨p, this ▸ hp, hkey⟩
      | error fault =>
        rw [hkey] at hrun
        cases hrun
    | error e v =>
      rw [Action.bind_error hx] at hrun
      cases hrun
  · rintro ⟨p, hp, hkey⟩
    simp only [keyAt, Action.bind_ok (onMemory_read hp), hkey, Action.ofCodec_ok]

/-- The key that a state tells of a handle, if it can read it. -/
noncomputable def State.key? (t : State) (h : Handle) : Option Value :=
  open Classical in if hk : ∃ k, keyAt h t = .ok k t then some hk.choose else none

theorem State.key?_eq_some_iff : t.key? h = some k ↔ keyAt h t = .ok k t := by
  unfold State.key?
  split
  · rename_i hk
    have hchosen := hk.choose_spec
    rw [Option.some.injEq]
    constructor
    · intro e
      rw [← e]
      exact hchosen
    · intro hrun
      rw [hchosen] at hrun
      cases hrun
      rfl
  · rename_i hnone
    exact iff_of_false nofun fun hrun => hnone ⟨k, hrun⟩

theorem State.readable (t : State) : Readable t.memory t.key? := fun _ _ hk =>
  keyAt_eq_ok_iff.mp (State.key?_eq_some_iff.mp hk)

/-- What the keys are does not hang on where the handles lie. -/
theorem State.key?_withSlots : (t.withSlots slots).key? = t.key? := by
  funext h
  refine Option.ext fun k => ?_
  rw [State.key?_eq_some_iff, State.key?_eq_some_iff, keyAt_eq_ok_iff, keyAt_eq_ok_iff, withSlots_memory]

/-! ### Tables in order -/

/-- The order that searches rely on, in a table with a slot to stop at. -/
structure State.Unbroken (t : State) : Prop where
  /-- Every handle names a record whose key can be read. -/
  keyed : ∀ i h, t.segment.slot? i = some h → ∃ k, keyAt h t = .ok k t
  /-- The keys of different slots are different. -/
  distinct : ∀ i j h h' k, t.segment.slot? i = some h → t.segment.slot? j = some h' → keyAt h t = .ok k t →
    keyAt h' t = .ok k t → i = j
  /-- Some steps lead from the home of a key round the table to its slot, and no empty slot lies on the way. -/
  reached : ∀ i h k, t.segment.slot? i = some h → keyAt h t = .ok k t →
    ∃ steps, i = (k.home t.segment.capacity + steps) % t.segment.capacity ∧
      ∀ d < steps, (t.segment.slot? ((k.home t.segment.capacity + d) % t.segment.capacity)).isSome
  /-- Not all slots are taken. -/
  free : ∃ i < t.segment.capacity, t.segment.slot? i = none

theorem State.Unbroken.chained (ht : t.Unbroken) : Chained t.key? t.segment.slots where
  readable {i h} hi := by
    obtain ⟨k, hk⟩ := ht.keyed i h hi
    exact ⟨k, State.key?_eq_some_iff.mpr hk⟩
  distinct {i j h h'} hi hj e := by
    obtain ⟨k, hk⟩ := ht.keyed i h hi
    have hk' : t.key? h' = some k := e ▸ State.key?_eq_some_iff.mpr hk
    exact ht.distinct i j h h' k hi hj hk (State.key?_eq_some_iff.mp hk')
  reached {i h k} hi hk j hj hlt := by
    obtain ⟨steps, hsteps, htaken⟩ := ht.reached i h k hi (State.key?_eq_some_iff.mp hk)
    have hhome : k.home t.segment.slots.size < t.segment.slots.size := home_lt (Nat.zero_lt_of_lt hj)
    -- Going round the table more than once leads to the same slot.
    have hdist : dist t.segment.slots.size (k.home t.segment.slots.size) i ≤ steps := by
      have hround : i = (k.home t.segment.slots.size + steps % t.segment.slots.size) % t.segment.slots.size := by
        rw [Nat.add_mod_mod]
        exact hsteps
      rw [hround, dist_steps hhome (Nat.mod_lt _ (Nat.zero_lt_of_lt hj))]
      exact Nat.mod_le _ _
    have := htaken _ (Nat.lt_of_lt_of_le hlt hdist)
    rwa [capacity, steps_dist hhome hj] at this

theorem State.unbroken_of_chained (hc : Chained t.key? t.segment.slots)
    (hfree : ∃ i < t.segment.capacity, t.segment.slot? i = none) : t.Unbroken where
  keyed i h hi := by
    obtain ⟨k, hk⟩ := hc.readable hi
    exact ⟨k, State.key?_eq_some_iff.mp hk⟩
  distinct i j h h' k hi hj hk hk' :=
    hc.distinct hi hj ((State.key?_eq_some_iff.mpr hk).trans (State.key?_eq_some_iff.mpr hk').symm)
  reached i h k hi hk := Taken.steps (hc.reached hi (State.key?_eq_some_iff.mpr hk)) (lt_of_occupant? hi)
  free := hfree

/-! ### Closing a gap -/

/-- What becomes of a table in order when the handle of slot `i` is taken out and the gap is closed. -/
structure State.Closed (t : State) (i : Nat) (h : Handle) (u : State) : Prop where
  /-- Nothing but the slots changes, and there are as many as before. -/
  others : u = t.withSlots u.segment.slots
  capacity : u.segment.capacity = t.segment.capacity
  /-- The other handles are there, each as often as before, and that is once. -/
  handles : (h :: u.segment.handles).Perm t.segment.handles
  once : u.segment.handles.Nodup
  unbroken : u.Unbroken
  /-- A slot after the first empty one that follows the gap round the table, or that one itself, stays as it is. -/
  beyond : ∀ d e, e ≤ d → d < t.segment.capacity → t.segment.slot? ((i + e) % t.segment.capacity) = none →
    u.segment.slot? ((i + d) % t.segment.capacity) = t.segment.slot? ((i + d) % t.segment.capacity)

/-- Emptying a slot of a table in order and closing the gap succeeds. -/
theorem closed_of_backShift (ht : t.Unbroken) (hi : t.segment.slot? i = some h) :
    ∃ u, (do modifySegment (·.setSlot i none); backShift i : Op Unit) t = .ok () u ∧ t.Closed i h u := by
  have hi' : occupant? t.segment.slots i = some h := hi
  have hilt := lt_of_occupant? hi'
  have hset : (t.segment.slots.setIfInBounds i none).size = t.segment.slots.size := Array.size_setIfInBounds ..
  -- The sweep stops at the first empty slot after the gap, which is not the gap itself.
  obtain ⟨f, hf, hfree⟩ := ht.free
  obtain ⟨e, he⟩ := exists_find? hilt hf (isFree_eq_true_iff.mpr hfree)
  obtain ⟨helt, hefree, hbefore⟩ := (find?_eq_some_iff hilt).mp he
  rw [isFree_eq_true_iff] at hefree
  have hie : i ≠ e := by
    rintro rfl
    rw [hi'] at hefree
    cases hefree
  have hpos : 0 < dist t.segment.slots.size i e := Nat.pos_of_ne_zero ((dist_eq_zero_iff hilt).not.mpr hie)
  obtain ⟨slots, hshift, hsize, hchained, hheld, hframe⟩ :=
    backShift_ok (t := t.withSlots (t.segment.slots.setIfInBounds i none)) (v := i) (e := e) t.readable
      (by rw [withSlots_slots, hset]; exact ht.chained.sweeping hi' he)
  rw [withSlots_slots, hset] at hsize hframe
  have hkept : ∀ j < t.segment.slots.size, dist t.segment.slots.size i e ≤ dist t.segment.slots.size i j →
      occupant? slots j = occupant? t.segment.slots j := by
    intro j hj hge
    have hji : j ≠ i := by
      rintro rfl
      rw [dist_self] at hge
      omega
    rw [hframe j hj hge, occupant?_set_ne hilt hji]
  have hothers : h ::ₘ held slots = held t.segment.slots := by
    rw [hheld]
    exact held_clear hi'
  refine ⟨t.withSlots slots, hshift, ⟨rfl, hsize, ?_, ?_, ?_, fun d e' hle hd hempty => ?_⟩⟩
  · exact Multiset.coe_eq_coe.mp hothers
  · exact Multiset.coe_nodup.mp hchained.nodup
  · refine State.unbroken_of_chained (State.key?_withSlots ▸ hchained) ⟨e, Nat.lt_of_lt_of_eq helt hsize.symm, ?_⟩
    exact (hkept e helt (Nat.le_refl _)).trans hefree
  · unfold capacity at hd hempty ⊢
    have hn : 0 < t.segment.slots.size := Nat.zero_lt_of_lt hilt
    have hfirst : dist t.segment.slots.size i e ≤ e' := by
      by_contra hlt
      have htaken := hbefore ((i + e') % t.segment.slots.size) (Nat.mod_lt _ hn)
        (by rw [dist_steps hilt (by omega)]; omega)
      rw [isFree_eq_true_iff.mpr hempty] at htaken
      cases htaken
    refine hkept _ (Nat.mod_lt _ hn) ?_
    rw [dist_steps hilt hd]
    exact hfirst.trans hle

/-! ### A gap at the end of a table -/

/-- A table of four slots, taken from the last one round to the second. The handles of the last slot and of the second
    are at home in the last one, the handle of the first slot is at home where it is. -/
def wrapped : State where
  memory := { arena := { blocks := #[none, block (key 3), block (key 0), block (key 1)] } }
  counters := {}
  notifier := .silent ""
  clock := ⟨0⟩
  segment := ⟨#[some ⟨2⟩, some ⟨3⟩, none, some ⟨1⟩], 3, 4⟩
where
  /-- The key in a slot. -/
  key : Nat → Value
    | 0 => .bool true
    | 1 => .bytes [0, 0, 0]
    | _ => .bytes [0, 0]
  /-- The block of a record with that key alone. -/
  block (key : Value) : Option Block :=
    some ⟨(Record.fresh (Entity.encode [key]) 0 0).encode.toByteArray, 32⟩

theorem keyAt_wrapped (hi : wrapped.segment.slot? i = some h) :
    i < 4 ∧ i ≠ 2 ∧ keyAt h wrapped = .ok (wrapped.key i) wrapped := by
  have hilt : i < 4 := lt_of_occupant? hi
  obtain rfl | rfl | rfl | rfl : i = 0 ∨ i = 1 ∨ i = 2 ∨ i = 3 := by omega
  all_goals cases hi
  all_goals exact ⟨by decide, by decide, rfl⟩

theorem unbroken_wrapped : wrapped.Unbroken where
  keyed i h hi := ⟨_, (keyAt_wrapped hi).2.2⟩
  distinct i j h h' k hi hj hk hk' := by
    obtain ⟨hi, hi', hik⟩ := keyAt_wrapped hi
    obtain ⟨hj, hj', hjk⟩ := keyAt_wrapped hj
    have hsame : wrapped.key i = wrapped.key j := by
      injection hk.symm.trans hik with hik
      injection hk'.symm.trans hjk with hjk
      rw [← hik, ← hjk]
    have hall : ∀ i < 4, ∀ j < 4, i ≠ 2 → j ≠ 2 → wrapped.key i = wrapped.key j → i = j := by decide
    exact hall i hi j hj hi' hj' hsame
  reached i h k hi hk := by
    obtain ⟨hi, hi', hik⟩ := keyAt_wrapped hi
    rw [hk] at hik
    cases hik
    have hall : ∀ i < 4, i ≠ 2 → ∃ steps < 4, i = ((wrapped.key i).home 4 + steps) % 4 ∧
        ∀ d < steps, (wrapped.segment.slot? (((wrapped.key i).home 4 + d) % 4)).isSome := by decide +kernel
    obtain ⟨steps, -, hsteps⟩ := hall i hi hi'
    exact ⟨steps, hsteps⟩
  free := ⟨2, by decide, rfl⟩

/-- The handle of the last slot is taken out. The one of the second slot comes in its place, that of the first stays. -/
theorem closed_of_wrapped : wrapped.Unbroken ∧ wrapped.segment.slot? 3 = some ⟨1⟩ ∧
    ∃ u, (do modifySegment (·.setSlot 3 none); backShift 3 : Op Unit) wrapped = .ok () u ∧
      wrapped.Closed 3 ⟨1⟩ u :=
  ⟨unbroken_wrapped, rfl, closed_of_backShift unbroken_wrapped rfl⟩

end RecordStore.Segment
