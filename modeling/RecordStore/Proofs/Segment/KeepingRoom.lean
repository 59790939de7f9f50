import RecordStore.Proofs.Segment.HalfFull
import RecordStore.Proofs.Segment.Runs

/-! # Keeping room

Whatever fails half-way, and whatever the blocks hold, an operation leaves its segment with room in the table and its
entries counted. It may fail, but not for want of room. -/

namespace RecordStore.Segment

open RecordStore.Action

variable {α β : Type} {t u : State} {n i : Nat} {h : Handle} {k : Value} {x : Op α} {f : α → Op β}

/-! ### Safe operations -/

/-- Whatever happens, an operation leaves a safe state, and fails for no want of room. -/
def Safely (n : Nat) (x : Op α) : Prop :=
  ∀ t, t.Safe n → Yields x t (fun _ u => u.Safe n) fun e u => u.Safe n ∧ e.Benign

namespace Safely

theorem pure (a : α) : Safely n (Pure.pure a) := fun _ ht => ht

theorem bind (hx : Safely n x) (hf : ∀ a, Safely n (f a)) : Safely n (x >>= f) := fun t ht =>
  (hx t ht).chain fun a u hu => hf a u hu

theorem of_tame (hx : Tame Unwritten x) : Safely n x := fun t ht =>
  (hx t).mono (fun _ _ hu => ht.unwritten hu) fun _ _ hu => ⟨ht.unwritten hu.1, hu.2.benign⟩

end Safely

/-- What only reads leaves a safe state for what follows, or is reported to fail. -/
theorem State.Safe.bind_tame {Q : β → State → Prop} (ht : t.Safe n) (hx : Tame Unwritten x)
    (hf : ∀ a u, Unwritten t u → Yields (f a) u Q fun e u => u.Safe n ∧ e.Benign) :
    Yields (x >>= f) t Q fun e u => u.Safe n ∧ e.Benign :=
  .bind ((hx t).mono hf fun _ _ hu => ⟨ht.unwritten hu.1, hu.2.benign⟩)

/-! ### Removing -/

theorem shrink_safely (ht : t.Safe n) (hshrink : t.segment.mustShrink = true) :
    Yields (resize (t.segment.capacity / 2)) t (fun _ u => u.Safe n) fun e u => u.Safe n ∧ e.Benign := by
  have htwo := ht.roomy.two_le
  simp only [mustShrink, Bool.and_eq_true, decide_eq_true_eq] at hshrink
  unfold capacity at hshrink
  obtain ⟨⟨htaken, heighth⟩, hmin⟩ := hshrink
  have hroom : (held t.segment.slots).card ≤ t.segment.slots.size / 2 := by
    rw [ht.roomy.card_held]
    omega
  exact (resize_yields t hroom).mono
    (fun _ u hu => ht.relaid hu (doubled_half ht.roomy.doubled (by omega) hmin) (by omega))
    fun e u hu => ⟨ht.unwritten hu.1, hu.2.benign⟩

theorem removeAt_safely (ht : t.Safe n) (hi : occupant? t.segment.slots i = some h) :
    Yields (removeAt i h) t (fun _ u => u.Safe n) fun e u => u.Safe n ∧ e.Benign := by
  refine ht.bind_tame (tame_onMemory (Record.tame_sizeAt h)) fun freed t₁ h₁ => ?_
  refine (ht.unwritten h₁).bind_tame (tame_onMemory (Record.tame_ttlAt h)) fun ttl t₂ h₂ => ?_
  have ht₂ := (ht.unwritten h₁).unwritten h₂
  rw [← h₁.segment_eq, ← h₂.segment_eq] at hi
  refine .bind ((onMemory_yields (Memory.tame_release h t₂.memory)).mono (fun _ u hu => ?_) fun e u hu => ?_)
  · obtain ⟨m, hm, rfl⟩ := hu
    -- Its entry lies in the table and is counted, so there is one to be taken off the count.
    have hcard := Multiset.card_pos_iff_exists_mem.mpr ⟨h, mem_held.mpr ⟨i, hi⟩⟩
    rw [ht₂.roomy.card_held] at hcard
    have hitems := ht₂.items
    obtain ⟨rehash?, hremoved⟩ := Counters.entryRemoved_ok (c := t₂.counters) freed (by omega)
    have hclear : modifySegment (fun s => { s.setSlot i none with count := s.count - 1 }) { t₂ with memory := m } =
        .ok () ⟨⟨m, t₂.counters, t₂.notifier, t₂.clock⟩,
          { t₂.segment.setSlot i none with count := t₂.segment.count - 1 }⟩ := rfl
    refine .of_eq (bind_ok hclear) (.of_eq (bind_ok (onCounters_ok hremoved)) (.bind ?_))
    have hilt := lt_of_occupant? hi
    refine (backShift_yields (f := i) _ i ?_ ?_).mono (fun _ v hv => ?_) fun e v hv => ?_
    · exact (Array.size_setIfInBounds ..).symm ▸ hilt
    · exact occupant?_set_self hilt
    · have hsafe := (ht₂.removed hi hm rfl).swept hv
      refine .get_bind ?_
      dsimp only
      split
      · next hshrink => exact .bind (shrink_safely hsafe hshrink)
      · exact hsafe
    · exact ⟨(ht₂.removed hi hm rfl).swept hv.1, hv.2.benign⟩
  · obtain ⟨m, ⟨hm, hreported⟩, rfl⟩ := hu
    exact ⟨ht₂.grown hm, hreported.benign⟩

/-- What is found lies in the slot where it is found. -/
theorem probe_safely (ht : t.Safe n) (k : Value) :
    Yields (probe k) t (fun r u => u.Safe n ∧ ∀ i h, r = .found i h → occupant? u.segment.slots i = some h)
      fun e u => u.Safe n ∧ e.Benign :=
  (probe_yields t k ht.roomy.card_lt).mono
    (fun r u hu => ⟨ht.unwritten hu.1, by rw [hu.1.segment_eq]; exact hu.2⟩)
    fun e u hu => ⟨ht.unwritten hu.1, hu.2.benign⟩

theorem remove_safely (k : Value) : Safely n (remove k) := fun t ht => by
  refine (probe_safely ht k).chain fun r u hu => ?_
  obtain ⟨hu, hfound⟩ := hu
  cases r with
  | absent i => exact hu
  | found i h => exact .bind (removeAt_safely hu (hfound i h rfl))

/-! ### Evicting -/

theorem notify_safely (x : Notice) : Safely n (onNotifier (Notifier.notify x)) := fun t ht => by
  rcases Notifier.notify_cases t.notifier x with ⟨m, hnotify, -⟩ | ⟨m, hnotify, -⟩
  · exact .of_ok (onNotifier_ok hnotify) ⟨ht.started, ht.roomy, ht.items⟩
  · exact .of_error (onNotifier_error hnotify) ⟨⟨ht.started, ht.roomy, ht.items⟩, trivial⟩

theorem evict_safely (k : Value) : Safely n (evict k) := fun t ht => by
  refine (probe_safely ht k).chain fun r t₁ h₁ => ?_
  obtain ⟨ht₁, hfound⟩ := h₁
  cases r with
  | absent i => exact ht₁
  | found i h =>
    have hi := hfound i h rfl
    have hnow : now t₁ = .ok t₁.clock.now t₁ := rfl
    refine .of_eq (bind_ok hnow) ?_
    refine ht₁.bind_tame (tame_onMemory (Record.tame_isOverAt h t₁.clock.now)) fun due t₂ h₂ => ?_
    have ht₂ := ht₁.unwritten h₂
    cases due with
    | false => exact ht₂
    | true =>
      refine ht₂.bind_tame (tame_onMemory (Record.tame_payloadAt h)) fun payload t₃ h₃ => ?_
      have hi₃ : occupant? t₃.segment.slots i = some h := by
        rw [h₃.segment_eq, h₂.segment_eq]
        exact hi
      refine (removeAt_safely (ht₂.unwritten h₃) hi₃).chain fun removed u hu => ?_
      dsimp only
      split
      · exact hu
      · have hcounted : State.Safe n { u with counters := u.counters.entryExpired } := ⟨hu.started, hu.roomy, hu.items⟩
        exact (notify_safely ⟨payload, removed.2⟩).bind (fun _ => Safely.pure true) _ hcounted

theorem evictAll_safely (keys : List Value) (evicted : Nat) : Safely n (evictAll keys evicted) := by
  induction keys generalizing evicted with
  | nil => exact Safely.pure _
  | cons k keys ih =>
    refine (evict_safely k).bind fun due => ?_
    cases due with
    | false => exact ih evicted
    | true => exact ih (evicted + 1)

theorem evictExpired_safely : Safely n evictExpired :=
  (Safely.of_tame tame_now).bind fun time => (Safely.of_tame tame_currentHandles).bind fun handles =>
    (Safely.of_tame (tame_overdueKeys time handles [])).bind fun keys => evictAll_safely keys 0

/-! ### Finding -/

theorem contains_safely (k : Value) : Safely n (contains k) := fun t ht => by
  refine (probe_safely ht k).chain fun r u hu => ?_
  cases r with
  | absent i => exact hu.1
  | found i h =>
    refine Safely.bind (Safely.of_tame tame_now) (fun time => ?_) u hu.1
    refine (Safely.of_tame (tame_onMemory (Record.tame_isOverAt h time))).bind fun due => ?_
    cases due with
    | false => exact Safely.pure _
    | true => exact (evict_safely k).bind fun _ => Safely.pure _

theorem getRecord?_safely (k : Value) : Safely n (getRecord? k) := fun t ht => by
  refine (probe_safely ht k).chain fun r u hu => ?_
  cases r with
  | absent i => exact hu.1
  | found i h =>
    refine Safely.bind (Safely.of_tame (tame_onMemory (Record.tame_load h))) (fun r => ?_) u hu.1
    refine (Safely.of_tame tame_now).bind fun time => ?_
    split
    · exact (evict_safely k).bind fun _ => Safely.pure _
    · exact Safely.pure _

theorem get?_safely (k : Value) : Safely n (get? k) := (getRecord?_safely k).bind fun _ => Safely.pure _

theorem matching_safely (tm : Template) : Safely n (matching tm) :=
  (Safely.of_tame tame_now).bind fun time => (Safely.of_tame tame_currentHandles).bind fun handles =>
    (Safely.of_tame (tame_scan tm time handles [] [])).bind fun found =>
      (evictAll_safely found.2 0).bind fun _ => Safely.pure _

/-! ### Storing -/

/-- In a table with room for one more, a new record is stored and placed, or nothing is. -/
theorem fill_safely (ht : t.Safe (n + 1)) (hhalf : 2 * (t.segment.count + 1) ≤ t.segment.slots.size) (k : Value)
    (r : Record) :
    Yields (do
      let r ← onMemory r.store
      place k r.handle
      modifySegment fun s => { s with count := s.count + 1 } : Op Unit) t (fun _ u => u.Safe n)
      fun e u => u.Safe (n + 1) ∧ e.BenignFor r.size := by
  refine .bind ((onMemory_yields (Record.store_yields r ht.started)).mono (fun r' u hu => ?_) fun e u hu => ?_)
  · obtain ⟨m, ⟨hm, hhandle⟩, rfl⟩ := hu
    have hu := ht.grown hm
    obtain ⟨i, hilt, hi, hempty⟩ := exists_freeSlot?_of_card_lt k ht.roomy.card_lt
    refine .of_eq (bind_ok (place_ok hi)) ?_
    exact hu.filled hilt hempty hhalf hhandle
  · obtain ⟨m, ⟨hm, hbenign⟩, rfl⟩ := hu
    exact ⟨ht.grown hm, hbenign⟩

theorem insert_safely (ht : t.Safe (n + 1)) (k : Value) (r : Record) :
    Yields (insert k r) t (fun _ u => u.Safe n) fun e u => u.Safe (n + 1) ∧ e.BenignFor r.size := by
  have htwo := ht.roomy.two_le
  have hhalf := ht.roomy.half
  rw [capacity] at hhalf
  refine .get_bind ?_
  dsimp only
  split
  · next hgrow =>
    rw [mustGrow, decide_eq_true_eq, capacity] at hgrow
    have hlt := ht.roomy.card_lt
    have hroom : (held t.segment.slots).card ≤ t.segment.slots.size * 2 := by omega
    refine .bind ((resize_yields t hroom).mono (fun _ u hu => ?_) fun e u hu => ⟨ht.unwritten hu.1, hu.2.benignFor⟩)
    have hsafe := ht.relaid hu (doubled_twice ht.roomy.doubled) (by omega)
    obtain ⟨m, slots, hm, rfl, hsize, hheld⟩ := hu
    exact fill_safely hsafe (by
      show 2 * (t.segment.count + 1) ≤ slots.size
      omega) k r
  · next hstay =>
    rw [mustGrow, decide_eq_true_eq, capacity] at hstay
    exact fill_safely ht (by omega) k r

theorem overwrite_safely (ht : t.Safe n) (hi : occupant? t.segment.slots i = some h) (previous : Nat) (r : Record) :
    Yields (overwrite i h previous r) t (fun _ u => u.Safe n) fun e u => u.Safe n ∧ e.Benign := by
  rcases Counters.reserveReplace_cases t.counters previous r.size with ⟨reason, hres, -⟩ | ⟨bytes, hres, -, -⟩
  · have hrefused := reserve_error (t := t) (p := r.payload)
      (fun c => (c.reserveReplace previous r.size).map ((), ·)) (congrArg (Except.map _) hres)
    exact .of_error (bind_error hrefused) ⟨ht, trivial⟩
  have hreserved := reserve_ok (t := t) (p := r.payload)
    (fun c => (c.reserveReplace previous r.size).map ((), ·)) (congrArg (Except.map _) hres)
  have hold : h ≠ .null := ht.roomy.named h (mem_held.mpr ⟨i, hi⟩)
  have hreserve : State.Safe n (t.withCounters { t.counters with bytes }) := ht.counted ht.items
  refine .of_eq (bind_ok hreserved) (.bind (.attempt ?_))
  refine (onMemory_yields (Record.storeOver_yields r hreserve.started hold)).mono (fun r' u hu => ?_) fun e u hu => ?_
  · obtain ⟨m, ⟨hm, hhandle⟩, rfl⟩ := hu
    exact (hreserve.grown hm).swapped hi hhandle
  · obtain ⟨m, ⟨hm, hbenign⟩, rfl⟩ := hu
    cases e with
    | abort abort => exact ⟨hreserve.grown hm, hbenign⟩
    | error e =>
      have hcancel : (Counters.cancelReplace { t.counters with bytes } previous r.size).items = t.counters.items :=
        Counters.items_cancelReplace ..
      exact ⟨(hreserve.grown hm).counted (hcancel ▸ ht.items), trivial⟩

/-- A record for which room is reserved is stored, or its reservation is taken back. -/
theorem settle_safely (ht : t.Safe (n + 1)) (k : Value) (r : Record) (items : Nat) :
    Yields (do
      match ← Action.attempt (insert k r) with
      | .ok () =>
        modifyCounters (·.insertCommitted items)
        return 0
      | .error e =>
        modifyCounters (·.cancelInsert r.size)
        Action.fail e : Op Nat) t (fun _ u => u.Safe n) fun e u => u.Safe n ∧ e.Benign := by
  refine .bind (.attempt ((insert_safely ht k r).mono (fun _ u hu => ?_) fun e u hu => ?_))
  · obtain ⟨rehash?, hcommitted⟩ := Counters.insertCommitted_eq u.counters items
    refine hu.counted ?_
    show u.segment.count + n ≤ (u.counters.insertCommitted items).items
    rw [hcommitted]
    exact hu.items
  · obtain ⟨hu, hbenign⟩ := hu
    have hitems := hu.items
    cases e with
    -- An abort leaves the reservation, and the count only too large.
    | abort abort => exact ⟨hu.counted (c := u.counters) (by omega), hbenign.benign⟩
    | error e =>
      refine ⟨hu.counted ?_, trivial⟩
      show u.segment.count + n ≤ u.counters.items - 1
      omega

theorem put_safely (k : Value) (r : Record) : Safely n (put k r) := fun t ht => by
  refine (probe_safely ht k).chain fun found u hu => ?_
  obtain ⟨hu, hfound⟩ := hu
  cases found with
  | found i h =>
    refine hu.bind_tame (tame_onMemory (Record.tame_sizeAt h)) fun previous v hv => ?_
    exact overwrite_safely (hu.unwritten hv) (by rw [hv.segment_eq]; exact hfound i h rfl) previous r
  | absent i =>
    rcases Counters.reserveInsert_cases u.counters r.size with ⟨reason, hres, -⟩ | hres
    · have hrefused := reserve_error (t := u) (p := r.payload) (·.reserveInsert r.size) hres
      exact .of_error (bind_error hrefused) ⟨hu, trivial⟩
    · have hreserved := reserve_ok (t := u) (p := r.payload) (·.reserveInsert r.size) hres
      have hitems := hu.items
      refine .of_eq (bind_ok hreserved) (settle_safely (hu.counted ?_) k r _)
      show u.segment.count + (n + 1) ≤ u.counters.items + 1
      omega

/-! ### Tearing down -/

theorem discard_yields (t : State) (h : Handle) (hitems : 0 < t.counters.items) :
    Yields (discard h) t
      (fun _ u => ∃ m c, t.memory.Grows m ∧ c.items = t.counters.items - 1 ∧ u = { t with memory := m, counters := c })
      fun _ _ => False := by
  refine .bind (((tame_onMemory (Record.tame_sizeAt h)).attempt t).mono (fun size u hu => ?_) fun _ _ => False.elim)
  obtain ⟨m, hm, rfl⟩ := hu
  have hgone (freed : Nat) (failure? : Option Error) (m' : Memory) (hm' : m.Grows m') :
      Yields (onCounters (Counters.entryRemoved freed) >>= fun _ => pure failure? : Op (Option Error))
        { t with memory := m' } (fun _ u => ∃ m c, t.memory.Grows m ∧ c.items = t.counters.items - 1 ∧
          u = { t with memory := m, counters := c }) fun _ _ => False := by
    obtain ⟨rehash?, hremoved⟩ := Counters.entryRemoved_ok freed hitems
    exact .of_eq (bind_ok (onCounters_ok (t := { t with memory := m' }) hremoved))
      ⟨m', _, IsTrans.trans _ _ _ hm.grows hm', rfl, rfl⟩
  refine .bind (.attempt ((onMemory_yields (Memory.tame_release h m)).mono (fun _ u hu => ?_) fun e u hu => ?_))
  · obtain ⟨m', hm', rfl⟩ := hu
    exact hgone _ none m' hm'
  · obtain ⟨m', ⟨hm', error, rfl⟩, rfl⟩ := hu
    exact hgone _ (some error) m' hm'

theorem discardAll_yields (t : State) (hs : List Handle) (failure? : Option Error)
    (hitems : hs.length + n ≤ t.counters.items) :
    Yields (discardAll hs failure?) t
      (fun _ u => ∃ m c, t.memory.Grows m ∧ n ≤ c.items ∧ u = { t with memory := m, counters := c })
      fun _ _ => False := by
  -- By induction on the handles that are left, which are counted still.
  induction hs generalizing t failure? with
  | nil => exact ⟨t.memory, t.counters, refl t.memory, by simpa using hitems, rfl⟩
  | cons h hs ih =>
    rw [List.length_cons] at hitems
    refine .bind ((discard_yields t h (by omega)).mono (fun found u hu => ?_) fun _ _ => False.elim)
    obtain ⟨m, c, hm, hc, rfl⟩ := hu
    have hrest (failure? : Option Error) : Yields (discardAll hs failure?) { t with memory := m, counters := c }
        (fun _ u => ∃ m c, t.memory.Grows m ∧ n ≤ c.items ∧ u = { t with memory := m, counters := c })
        fun _ _ => False := by
      refine (ih _ failure? (show hs.length + n ≤ c.items by omega)).mono (fun _ u hu => ?_) fun _ _ => id
      obtain ⟨m', c', hm', hc', rfl⟩ := hu
      exact ⟨m', c', IsTrans.trans _ _ _ hm hm', hc', rfl⟩
    cases found with
    | none => exact hrest failure?
    | some e => exact hrest (some e)

theorem destroy_safely : Safely n destroy := fun t ht => by
  have hcurrent : currentHandles t = .ok t.segment.handles t := rfl
  have hitems := ht.items
  rw [ht.roomy.counted] at hitems
  refine .of_eq (bind_ok hcurrent) (.bind ((discardAll_yields t _ none hitems).mono (fun failure? u hu => ?_)
    fun _ _ => False.elim))
  obtain ⟨m, c, hm, hc, rfl⟩ := hu
  have hempty : State.Safe n ⟨⟨m, c, t.notifier, t.clock⟩, empty t.segment.minCapacity⟩ := by
    refine ⟨ht.started.grows hm, roomy_empty ht.roomy.made, ?_⟩
    show 0 + n ≤ c.items
    omega
  cases failure? with
  | none => exact hempty
  | some e => exact ⟨hempty, trivial⟩

/-! ### Requests -/

theorem Safely.run (h : Safely n x) (ht : t.Safe n) :
    (Action.final x t).Safe n ∧ ∀ e, Action.failure? x t = some e → e.Benign :=
  ⟨((h t ht).mono (fun _ _ hu => hu) fun _ _ hu => hu.1).final, fun _ he => ((h t ht).failure he).2⟩

/-- The failure of a request that is not answered. -/
def Request.failure? : Request → State → Option Failure
  | put key r => Action.failure? (Segment.put key r)
  | contains key => Action.failure? (Segment.contains key)
  | getRecord key => Action.failure? (Segment.getRecord? key)
  | get key => Action.failure? (Segment.get? key)
  | remove key => Action.failure? (Segment.remove key)
  | matching tm => Action.failure? (Segment.matching tm)
  | evictExpired => Action.failure? Segment.evictExpired
  | destroy => Action.failure? Segment.destroy
  | setClock _ => fun _ => none

theorem Request.run_safely (q : Request) (ht : t.Safe n) :
    (q.run t).Safe n ∧ ∀ e, q.failure? t = some e → e.Benign := by
  cases q with
  | put key r => exact (put_safely key r).run ht
  | contains key => exact (contains_safely key).run ht
  | getRecord key => exact (getRecord?_safely key).run ht
  | get key => exact (get?_safely key).run ht
  | remove key => exact (remove_safely key).run ht
  | matching tm => exact (matching_safely tm).run ht
  | evictExpired => exact evictExpired_safely.run ht
  | destroy => exact destroy_safely.run ht
  | setClock wall => exact ⟨⟨ht.started, ht.roomy, ht.items⟩, fun _ he => by cases he⟩

end RecordStore.Segment
