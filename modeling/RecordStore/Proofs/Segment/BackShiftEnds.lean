import RecordStore.Proofs.Segment.Gaps
import RecordStore.Proofs.Segment.LayingOut

/-! # Sweeps that settle

A sweep takes out and places anew one handle after the other until it comes to an empty slot. In a table whose order is
broken it may move handles ahead of itself and go round more than once. The main statement is that it ends nevertheless,
wherever it begins and whatever the keys are, as long as they can be read: each step brings handles nearer to the homes
of their keys, or the sweep nearer to an empty slot. The bound that sweeps are given is never what ends them. -/

namespace RecordStore.Segment

open RecordStore.Action Cyclic

/-! ### Sweeps without a bound -/

/-- A sweep without a bound, from slot `i` on: after `n` steps it comes to the empty slot `j`, and ends. -/
inductive Sweeps : State → (i n j : Nat) → State → Prop
  | stop {t i} (hempty : t.segment.slot? i = none) : Sweeps t i 0 i t
  /-- The handle in the slot is taken out, and put into the first empty slot from the home of its key on. -/
  | next {t v u i n j h k q} (htaken : t.segment.slot? i = some h) (hkey : keyAt h t = .ok k v)
      (hplace : Walks v.segment.capacity (isFree (v.segment.slots.setIfInBounds i none)) (k.home v.segment.capacity) q)
      (hrest : Sweeps (v.withSlots ((v.segment.slots.setIfInBounds i none).setIfInBounds q (some h)))
        (v.segment.next i) n j u) : Sweeps t i (n + 1) j u

variable {t u u' : State} {h : Handle} {i j j' n n' : Nat}

/-- There is only one way for a sweep to go. -/
theorem Sweeps.unique (hs : Sweeps t i n j u) (hs' : Sweeps t i n' j' u') : n = n' ∧ j = j' ∧ u = u' := by
  induction hs generalizing n' with
  | stop hempty =>
    cases hs' with
    | stop => exact ⟨rfl, rfl, rfl⟩
    | next htaken => cases hempty.symm.trans htaken
  | next htaken hkey hplace _ ih =>
    cases hs' with
    | stop hempty => cases hempty.symm.trans htaken
    | next htaken' hkey' hplace' hrest' =>
      cases htaken.symm.trans htaken'
      cases hkey.symm.trans hkey'
      cases hplace.unique hplace'
      obtain ⟨hn, hj, hu⟩ := ih hrest'
      exact ⟨congrArg (· + 1) hn, hj, hu⟩

theorem walks_anew {slots : Slots} {k : Value} {q : Nat} (hq : freeSlot? (slots.setIfInBounds i none) k = some q) :
    Walks slots.size (isFree (slots.setIfInBounds i none)) (k.home slots.size) q := by
  have hwalks := (freeSlot?_eq_some_iff_walks (size_pos_of_freeSlot? hq)).mp hq
  rw [Array.size_setIfInBounds] at hwalks
  exact hwalks

/-- A bounded sweep answers just if the one without a bound ends in fewer steps, and then they do the same. -/
theorem backShiftFrom_eq_ok_iff {steps : Nat} :
    backShiftFrom steps i t = .ok () u ↔ ∃ n < steps, ∃ j, Sweeps t i n j u := by
  induction steps generalizing t i with
  | zero =>
    constructor
    · intro hrun
      cases hrun
    · rintro ⟨n, hn, -⟩
      exact absurd hn (Nat.not_lt_zero n)
  | succ steps ih =>
    cases hslot : occupant? t.segment.slots i with
    | none =>
      have hrun : backShiftFrom (steps + 1) i t = .ok () t := by
        simp only [backShiftFrom, bind_ok (slotAt_ok hslot), pure_run]
      rw [hrun]
      constructor
      · rintro ⟨⟩
        exact ⟨0, Nat.succ_pos steps, i, .stop hslot⟩
      · rintro ⟨n, -, j, hs⟩
        obtain ⟨-, -, rfl⟩ := (Sweeps.stop hslot).unique hs
        rfl
    | some h =>
      have hrun : backShiftFrom (steps + 1) i t = (keyAt h >>= fun k => do
          modifySegment (·.setSlot i none)
          place k h
          let i ← nextSlot i
          backShiftFrom steps i) t := by
        simp only [backShiftFrom, bind_ok (slotAt_ok hslot)]
      rw [hrun]
      cases hkey : keyAt h t with
      | error e v =>
        rw [bind_error hkey]
        constructor
        · intro hrun
          cases hrun
        · rintro ⟨n, -, j, hs⟩
          cases hs with
          | stop hempty => cases hempty.symm.trans hslot
          | next htaken hkey' =>
            cases hslot.symm.trans htaken
            cases hkey.symm.trans hkey'
      | ok k v =>
        have hsame := ((keyAt_yields t h).ok hkey).1.segment_eq
        obtain ⟨q, slots, hq, rfl, -, -, hstep⟩ := place_anew v k (hsame ▸ hslot)
        rw [bind_ok hkey, hstep, ih]
        constructor
        · rintro ⟨n, hn, j, hs⟩
          exact ⟨n + 1, Nat.succ_lt_succ hn, j, .next hslot hkey (walks_anew hq) hs⟩
        · rintro ⟨n, hn, j, hs⟩
          cases hs with
          | stop hempty => cases hempty.symm.trans hslot
          | next htaken hkey' hplace hrest =>
            cases hslot.symm.trans htaken
            cases hkey.symm.trans hkey'
            cases (walks_anew hq).unique hplace
            exact ⟨_, Nat.lt_of_succ_lt_succ hn, j, hrest⟩

theorem Sweeps.failure?_eq_none_iff {steps : Nat} (hs : Sweeps t i n j u) :
    failure? (backShiftFrom steps i) t = none ↔ n < steps := by
  constructor
  · intro hnone
    cases hrun : backShiftFrom steps i t with
    | ok _ v =>
      obtain ⟨n', hn', j', hs'⟩ := backShiftFrom_eq_ok_iff.mp hrun
      exact (hs.unique hs').1 ▸ hn'
    | error e v =>
      rw [failure?, hrun] at hnone
      cases hnone
  · intro hlt
    rw [failure?, backShiftFrom_eq_ok_iff.mpr ⟨n, hlt, j, hs⟩]

/-! ### Sweeps past keys that can be read -/

/-- One step brings the sweep nearer to its end, by the strain of the table and the way to an empty slot taken
    together. -/
theorem sweep_step {f : Nat} {k : Value} (hi : occupant? t.segment.slots i = some h) (hk : t.key? h = some k)
    (hf : f < t.segment.slots.size) (hfree : occupant? t.segment.slots f = none) :
    ∃ slots : Slots, slots.size = t.segment.slots.size ∧ held slots = held t.segment.slots ∧
      (∃ f' < t.segment.slots.size, occupant? slots f' = none ∧
        strain t.key? slots + dist t.segment.slots.size ((i + 1) % t.segment.slots.size) f' <
          strain t.key? t.segment.slots + dist t.segment.slots.size i f) ∧
      ∀ n j u, Sweeps (t.withSlots slots) ((i + 1) % t.segment.slots.size) n j u → Sweeps t i (n + 1) j u := by
  obtain ⟨q, slots, hq, rfl, hsize, hheld, -⟩ := place_anew t k hi
  exact ⟨_, hsize, hheld, strain_step hi hk hq hf hfree,
    fun n j u hs => .next hi (State.key?_eq_some_iff.mp hk) (walks_anew hq) hs⟩

/-- A sweep past keys that can be read ends at an empty slot and leaves the same handles. -/
theorem exists_sweep {f : Nat} (hkeys : ∀ h ∈ held t.segment.slots, ∃ k, t.key? h = some k)
    (hi : i < t.segment.slots.size) (hf : f < t.segment.slots.size) (hfree : occupant? t.segment.slots f = none) :
    ∃ n slots, Sweeps t i n ((i + n) % t.segment.slots.size) (t.withSlots slots) ∧
      slots.size = t.segment.slots.size ∧ held slots = held t.segment.slots ∧
      occupant? slots ((i + n) % t.segment.slots.size) = none ∧
      n + strain t.key? slots ≤ strain t.key? t.segment.slots + dist t.segment.slots.size i f := by
  -- By induction on what the steps decrease. The empty slot that bounds the way need not be the same after a step.
  induction hm : strain t.key? t.segment.slots + dist t.segment.slots.size i f using Nat.strong_induction_on
    generalizing t i f with
  | _ m ih =>
    cases hslot : occupant? t.segment.slots i with
    | none =>
      have hhere : (i + 0) % t.segment.slots.size = i := Nat.mod_eq_of_lt hi
      refine ⟨0, t.segment.slots, ?_, rfl, rfl, ?_, by omega⟩ <;> rw [hhere]
      · exact .stop hslot
      · exact hslot
    | some h =>
      obtain ⟨k, hk⟩ := hkeys h (mem_held.mpr ⟨i, hslot⟩)
      obtain ⟨slots, hsize, hheld, ⟨f', hf', hfree', hless⟩, hnext⟩ := sweep_step hslot hk hf hfree
      have hkeys' : ∀ g ∈ held slots, ∃ k, (t.withSlots slots).key? g = some k := by
        rw [State.key?_withSlots, hheld]
        exact hkeys
      obtain ⟨n, slots', hs, hsize', hheld', hempty, hbound⟩ := ih _ (hm ▸ hless) (t := t.withSlots slots) hkeys'
        (hsize.symm ▸ succ_mod_lt hi) (hsize.symm ▸ hf') hfree' (by rw [State.key?_withSlots, withSlots_slots, hsize])
      have hround : ((i + 1) % t.segment.slots.size + n) % t.segment.slots.size =
          (i + (n + 1)) % t.segment.slots.size := by
        rw [Nat.mod_add_mod, Nat.add_assoc, Nat.add_comm 1]
      rw [withSlots_withSlots, withSlots_slots, hsize, hround] at hs
      rw [withSlots_slots, hsize, hround] at hempty
      rw [State.key?_withSlots] at hbound
      exact ⟨n + 1, slots', hnext _ _ _ hs, hsize'.trans hsize, hheld'.trans hheld, hempty, by omega⟩

/-- What a sweep that begins after slot `v` comes to: it ends at slot `j` after `n` steps. -/
structure State.Swept (t : State) (v n j : Nat) (u : State) : Prop where
  /-- Without a bound the sweep ends there as well, and nowhere else. -/
  ends : ∀ n' j' u', Sweeps t (t.segment.next v) n' j' u' ↔ n' = n ∧ j' = j ∧ u' = u
  empty : u.segment.slot? j = none
  /-- The sweep visits one slot after the other, round the table. -/
  place : j = (v + 1 + n) % t.segment.capacity
  /-- The same handles lie in the table, each as often as before. -/
  handles : u.segment.handles.Perm t.segment.handles
  /-- Nothing but the slots changes, and there are as many as before. -/
  others : u = t.withSlots u.segment.slots
  capacity : u.segment.capacity = t.segment.capacity
  /-- No more steps than by how much all handles come nearer to their homes, and as many as lead to an empty slot. -/
  steps : ∀ f < t.segment.capacity, t.segment.slot? f = none →
    n + strain t.key? u.segment.slots ≤
      strain t.key? t.segment.slots + dist t.segment.capacity (t.segment.next v) f
  finite : n < t.segment.capacity * (t.segment.capacity + 1)

/-- Whatever the keys of the handles are, and wherever the handles lie, closing a gap comes to an empty slot after
    finitely many steps and keeps every handle, if the table has an empty slot and the keys can be read. -/
theorem backShift_ends (v : Nat) (hfree : ∃ f < t.segment.capacity, t.segment.slot? f = none)
    (hkeys : ∀ h ∈ t.segment.handles, ∃ k, keyAt h t = .ok k t) :
    ∃ n j u, backShift v t = .ok () u ∧ t.Swept v n j u := by
  obtain ⟨f, hf, hempty⟩ := hfree
  have hkeys' : ∀ h ∈ held t.segment.slots, ∃ k, t.key? h = some k := by
    intro h hh
    obtain ⟨k, hk⟩ := hkeys h (Multiset.mem_coe.mp hh)
    exact ⟨k, State.key?_eq_some_iff.mpr hk⟩
  have hnext : t.segment.next v < t.segment.slots.size := Nat.mod_lt _ (Nat.zero_lt_of_lt hf)
  obtain ⟨n, slots, hs, hsize, hheld, hstop, hbound⟩ := exists_sweep hkeys' hnext hf hempty
  have hmax := strain_lt_maxShifts t.key? hnext hf
  have hsteps : n < maxShifts t.segment.slots.size := by omega
  have hrun : backShift v t = .ok () (t.withSlots slots) := backShiftFrom_eq_ok_iff.mpr ⟨n, hsteps, _, hs⟩
  refine ⟨n, (t.segment.next v + n) % t.segment.slots.size, t.withSlots slots, hrun, ?_⟩
  have hstrain := strain_le t.key? t.segment.slots
  have hround := dist_lt hnext hf
  constructor
  case ends =>
    intro n' j' u'
    constructor
    · exact fun hs' => hs'.unique hs
    · rintro ⟨rfl, rfl, rfl⟩
      exact hs
  case empty => exact hstop
  case place => exact Nat.mod_add_mod ..
  case handles => exact Multiset.coe_eq_coe.mp hheld
  case others => rfl
  case capacity => exact hsize
  case steps =>
    intro g hg hg'
    obtain ⟨n', slots', hs', -, -, -, hbound'⟩ := exists_sweep hkeys' hnext hg hg'
    obtain ⟨rfl, -, hsame⟩ := hs'.unique hs
    have hslots : slots' = slots := congrArg (fun u : State => u.segment.slots) hsame
    rw [hslots] at hbound'
    exact hbound'
  case finite =>
    rw [capacity, Nat.mul_add, Nat.mul_one]
    omega

/-- A table of four slots, in which no handle lies at home and none can be found: those of the second and of the last
    slot have the same key, which is at home in the first slot, and the one between them is at home in the last. -/
def tangled : State :=
  { wrapped with
    memory := { arena := { blocks := #[none, wrapped.block (wrapped.key 0), wrapped.block (wrapped.key 3),
      wrapped.block (wrapped.key 0)] } }
    segment := ⟨#[none, some ⟨1⟩, some ⟨2⟩, some ⟨3⟩], 3, 4⟩ }

/-- The sweep goes round the table more than twice. -/
theorem backShift_ends_tangled :
    (∃ f < tangled.segment.capacity, tangled.segment.slot? f = none) ∧
    (∀ h ∈ tangled.segment.handles, ∃ k, keyAt h tangled = .ok k tangled) ∧
    ∃ j u, backShift 0 tangled = .ok () u ∧ tangled.Swept 0 9 j u := by
  have hfree : ∃ f < tangled.segment.capacity, tangled.segment.slot? f = none := ⟨0, by decide, rfl⟩
  have hkeys : ∀ h ∈ tangled.segment.handles, ∃ k, keyAt h tangled = .ok k tangled := by
    have hhandles : tangled.segment.handles = [⟨1⟩, ⟨2⟩, ⟨3⟩] := rfl
    simp only [hhandles, List.forall_mem_cons]
    exact ⟨⟨_, rfl⟩, ⟨_, rfl⟩, ⟨_, rfl⟩, nofun⟩
  obtain ⟨n, j, u, hrun, hswept⟩ := backShift_ends 0 hfree hkeys
  have hnine : n = 9 := by
    have hloop : Sweeps tangled 1 n j u := (hswept.ends n j u).mpr ⟨rfl, rfl, rfl⟩
    have hmore : ¬ n < 9 := hloop.failure?_eq_none_iff.not.mp (by decide +kernel)
    have hless : n < 10 := hloop.failure?_eq_none_iff.mp (by decide +kernel)
    omega
  exact ⟨hfree, hkeys, j, u, hrun, hnine ▸ hswept⟩

end RecordStore.Segment
