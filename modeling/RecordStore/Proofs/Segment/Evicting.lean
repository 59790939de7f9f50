import RecordStore.Proofs.Segment.Removing
import RecordStore.Segment.Eviction

/-! # Evicting records

An eviction removes the record of a key if its time is over, and then tells of it. If the listener breaks, the record
is gone all the same. -/

namespace RecordStore.Segment

variable {t : State} {r : Record} {k : Value}

/-- The records, but for that of a key if its time is over. -/
def State.lasting (t : State) (k : Value) : Multiset Record :=
  t.records.filter fun r => ¬ (r.isOver t.clock.now ∧ r.key? = some k)

/-- The records whose time is not over. -/
def State.unexpired (t : State) : Multiset Record := t.records.filter fun r => ¬ r.isOver t.clock.now

theorem lasting_of_absent (hnew : ∀ r ∈ t.records, r.key? ≠ some k) : t.lasting k = t.records :=
  Multiset.filter_eq_self.mpr fun r hr hdue => hnew r hr hdue.2

theorem Leads.told {u : State} {rs : Multiset Record} {n : Notifier} (h : Leads t u rs)
    (hcalm : t.notifier.Calm → n.Calm) :
    Leads t { u.withCounters u.counters.entryExpired with notifier := n } rs where
  wellFormed := { table := h.wellFormed.table, steady := h.wellFormed.steady, sound := h.wellFormed.sound,
                  backed := h.wellFormed.backed }
  keeps := { h.keeps with maxItems? := h.keeps.maxItems?, maxBytes? := h.keeps.maxBytes?, calm := hcalm }
  records := h.records
  items := h.items
  bytes := h.bytes

/-- A record that is over is removed and counted, and what is left to do is to tell of it. -/
theorem evict_due {i : Nat} {h : Handle} (ht : t.WellFormed) (hi : occupant? t.segment.slots i = some h)
    (hr : t.memory.arena.record? h = some r) (hk : r.key? = some k) (hprobe : probe k t = .ok (.found i h) t)
    (hdue : r.isOver t.clock.now = true) :
    ∃ u, removeAt i h t = .ok (r.size, r.ttl) u ∧ Leads t u (t.records.filter (·.key? ≠ some k)) ∧
      u.notifier = t.notifier ∧
      evict k t = (do onNotifier (Notifier.notify ⟨r.payload, r.ttl⟩); return true : Op Bool)
        (u.withCounters u.counters.entryExpired) := by
  obtain ⟨u, hrun, hleads, hnotifier⟩ := removeAt_ok ht hi hr hk
  refine ⟨u, hrun, hleads, hnotifier, ?_⟩
  have hnow : now t = .ok t.clock.now t := rfl
  have hover := onMemory_read (Record.isOverAt_ok ht.steady.legible hr t.clock.now)
  have hpayload := onMemory_read (Record.payloadAt_ok ht.steady.legible hr)
  have hexpired : modifyCounters (·.entryExpired) u = .ok () (u.withCounters u.counters.entryExpired) := rfl
  have hsize : r.size ≠ 0 := by
    unfold Record.size Record.sizeFor Record.payloadOffset
    omega
  simp only [evict, Action.bind_ok hprobe, Action.bind_ok hnow, Action.bind_ok hover, hdue, Bool.not_true,
    Bool.false_eq_true, ↓reduceIte, Action.bind_ok hpayload, Action.bind_ok hrun, hsize, Action.bind_ok hexpired]

/-- What an eviction meets: a record that is over, or none with the key that is. -/
theorem evict_cases (ht : t.WellFormed) (k : Value) :
    (∃ r u, t.records = r ::ₘ t.records.filter (·.key? ≠ some k) ∧ r.isOver t.clock.now = true ∧
      t.lasting k = t.records.filter (·.key? ≠ some k) ∧
      (∃ i h, removeAt i h t = .ok (r.size, r.ttl) u) ∧ Leads t u (t.records.filter (·.key? ≠ some k)) ∧
      u.notifier = t.notifier ∧
      evict k t = (do onNotifier (Notifier.notify ⟨r.payload, r.ttl⟩); return true : Op Bool)
        (u.withCounters u.counters.entryExpired)) ∨
    t.lasting k = t.records ∧ evict k t = .ok false t := by
  rcases ht.probe_cases k with ⟨i, h, r, hprobe, hi, hr, hk⟩ | ⟨i, hprobe, -, hnew⟩
  · obtain ⟨hall, hsame⟩ := ht.records_eq hi hr hk
    have honly : ∀ r' ∈ t.records, r'.key? = some k → r' = r := fun r' hr' hk' =>
      Multiset.mem_singleton.mp (hsame ▸ Multiset.mem_filter.mpr ⟨hr', hk'⟩)
    by_cases hdue : r.isOver t.clock.now = true
    · obtain ⟨u, hrun, hleads, hnotifier, hevict⟩ := evict_due ht hi hr hk hprobe hdue
      refine Or.inl ⟨r, u, hall, hdue, ?_, ⟨i, h, hrun⟩, hleads, hnotifier, hevict⟩
      exact Multiset.filter_congr fun r' hr' => not_congr ⟨And.right, fun hk' => ⟨honly r' hr' hk' ▸ hdue, hk'⟩⟩
    · have hnow : now t = .ok t.clock.now t := rfl
      have hover := onMemory_read (Record.isOverAt_ok ht.steady.legible hr t.clock.now)
      refine Or.inr ⟨Multiset.filter_eq_self.mpr fun r' hr' hdue' => hdue (honly r' hr' hdue'.2 ▸ hdue'.1), ?_⟩
      simp only [evict, Action.bind_ok hprobe, Action.bind_ok hnow, Action.bind_ok hover, hdue, Bool.not_false,
        ↓reduceIte, Action.pure_run]
  · exact Or.inr ⟨lasting_of_absent hnew, by simp only [evict, Action.bind_ok hprobe, Action.pure_run]⟩

/-- The record of a key is evicted if its time is over, and all others stay. -/
theorem evict_ok (ht : t.WellFormed) (k : Value) :
    ∃ b u, Leads t u (t.lasting k) ∧ b.toNat + u.records.card = t.records.card ∧
      (evict k t = .ok b u ∨ evict k t = .error (.abort .listener) u ∧ ¬ t.notifier.Calm) := by
  rcases evict_cases ht k with ⟨r, u, hall, -, hfilter, -, hleads, hnotifier, hevict⟩ | ⟨hfilter, hrun⟩
  · have hcard : true.toNat + u.records.card = t.records.card := by
      conv_rhs => rw [hall]
      rw [hleads.records, Multiset.card_cons, Nat.add_comm]
      rfl
    rw [hfilter]
    rcases Notifier.notify_cases u.notifier ⟨r.payload, r.ttl⟩ with ⟨n, hnotify, hcalm⟩ | ⟨n, hnotify, hbreaks⟩
    · refine ⟨true, _, hleads.told (n := n) (hnotifier ▸ hcalm), hcard, Or.inl ?_⟩
      have htold := onNotifier_ok (t := u.withCounters u.counters.entryExpired) hnotify
      rw [hevict, Action.bind_ok htold, Action.pure_run]
    · refine ⟨true, _, hleads.told (n := n) (hnotifier ▸ fun hcalm => absurd hcalm hbreaks), hcard, Or.inr ⟨?_, ?_⟩⟩
      · have hbroken := onNotifier_error (t := u.withCounters u.counters.entryExpired) hnotify
        rw [hevict, Action.bind_error hbroken]
      · exact hnotifier ▸ hbreaks
  · exact ⟨false, t, hfilter.symm ▸ Leads.refl ht, Nat.zero_add _, Or.inl hrun⟩

/-- An operation breaks off on a listener. It may have removed records by then, and adds none. -/
def Breaks {α : Type} (x : Op α) (t : State) : Prop :=
  ∃ u rs, x t = .error (.abort .listener) u ∧ Leads t u rs ∧ rs ≤ t.records ∧ ¬ t.notifier.Calm

theorem Breaks.bind {α β : Type} {x : Op α} {f : α → Op β} (h : Breaks x t) : Breaks (x >>= f) t := by
  obtain ⟨u, rs, hrun, hrest⟩ := h
  exact ⟨u, rs, Action.bind_error hrun, hrest⟩

/-- The keys whose records are over lose them, each in its turn. -/
theorem evictAll_ok (ht : t.WellFormed) (keys : List Value) (n : Nat) :
    (∃ n' u, evictAll keys n t = .ok n' u ∧
      Leads t u (t.records.filter fun r => ¬ (r.isOver t.clock.now ∧ ∃ k ∈ keys, r.key? = some k)) ∧
      n' + u.records.card = n + t.records.card) ∨
    Breaks (evictAll keys n) t := by
  induction keys generalizing n t with
  | nil =>
    refine Or.inl ⟨n, t, rfl, ?_, rfl⟩
    rw [Multiset.filter_eq_self.mpr (by simp)]
    exact Leads.refl ht
  | cons k keys ih =>
    obtain ⟨b, u, hleads, hcard, hrun | ⟨hrun, hbreaks⟩⟩ := evict_ok ht k
    · have hrest : evictAll (k :: keys) n t = evictAll keys (n + b.toNat) u := by
        simp only [evictAll, Action.bind_ok hrun]
        cases b <;> rfl
      rcases ih hleads.wellFormed (n + b.toNat) with
        ⟨n', v, hrun', hleads', hcard'⟩ | ⟨v, rs, hrun', hleads', hle, hbreaks⟩
      · refine Or.inl ⟨n', v, hrest.trans hrun', ?_, by omega⟩
        have hall := hleads.trans hleads'
        rw [hleads.records, hleads.keeps.clock, State.lasting, Multiset.filter_filter] at hall
        have hboth : t.records.filter (fun r => ¬ (r.isOver t.clock.now ∧ ∃ k' ∈ k :: keys, r.key? = some k')) =
            t.records.filter fun r => ¬ (r.isOver t.clock.now ∧ ∃ k' ∈ keys, r.key? = some k') ∧
              ¬ (r.isOver t.clock.now ∧ r.key? = some k) := by
          refine Multiset.filter_congr fun r _ => ?_
          rw [List.exists_mem_cons_iff, and_or_left, not_or, and_comm]
        rw [hboth]
        exact hall
      · rw [hleads.records] at hle
        exact Or.inr ⟨v, rs, hrest.trans hrun', hleads.trans hleads', hle.trans (Multiset.filter_le _ _),
          fun hcalm => hbreaks (hleads.keeps.calm hcalm)⟩
    · exact Or.inr ⟨u, _, by simp only [evictAll, Action.bind_error hrun], hleads, Multiset.filter_le _ _, hbreaks⟩

/-! ### Evicting all that is over -/

theorem overdueKeys_ok (ht : t.Orderly) (time : UInt64) (hs : List Handle) (keys : List Value)
    (hstored : ∀ h ∈ hs, h ∈ held t.segment.slots) :
    ∃ keys', overdueKeys time hs keys t = .ok keys' t ∧
      ∀ k, k ∈ keys' ↔ k ∈ keys ∨ ∃ r ∈ t.memory.arena.records ↑hs, r.isOver time ∧ r.key? = some k := by
  induction hs generalizing keys with
  | nil =>
    refine ⟨keys.reverse, rfl, fun k => ?_⟩
    rw [List.mem_reverse]
    exact ⟨Or.inl, fun h => h.resolve_right (by rintro ⟨r, hr, -⟩; cases hr)⟩
  | cons h hs ih =>
    obtain ⟨r, hr, hk⟩ := ht.record? (hstored h List.mem_cons_self)
    obtain ⟨k, hk⟩ := hk
    have hover := onMemory_read (Record.isOverAt_ok ht.legible hr time)
    have hkey : keyAt h t = .ok k t :=
      keyAt_ok (readable_key? ht.legible) (by rw [Arena.key?_of_record? hr, hk])
    rw [← Multiset.cons_coe, Arena.records_cons hr]
    have hrest := fun g hg => hstored g (List.mem_cons_of_mem h hg)
    by_cases hdue : r.isOver time = true
    · obtain ⟨keys', hrun, hmem⟩ := ih (k :: keys) hrest
      refine ⟨keys', ?_, fun k' => ?_⟩
      · simp only [overdueKeys, Action.bind_ok hover, hdue, ↓reduceIte, Action.bind_ok hkey, hrun]
      · simp only [hmem, List.mem_cons, Multiset.mem_cons, exists_eq_or_imp, hdue, hk, true_and, Option.some.injEq]
        rw [or_assoc, or_left_comm, eq_comm]
    · obtain ⟨keys', hrun, hmem⟩ := ih keys hrest
      refine ⟨keys', ?_, fun k' => ?_⟩
      · simp only [overdueKeys, Action.bind_ok hover, hdue, Bool.false_eq_true, ↓reduceIte, hrun]
      · simp only [hmem, Multiset.mem_cons, exists_eq_or_imp, hdue, false_and, false_or, Bool.false_eq_true]

/-- The records of the keys that were gathered are those that are over. -/
theorem filter_gathered {keys : List Value} (ht : t.Intact)
    (hkeys : ∀ k, k ∈ keys ↔ ∃ r ∈ t.records, r.isOver t.clock.now ∧ r.key? = some k) :
    t.records.filter (fun r => ¬ (r.isOver t.clock.now ∧ ∃ k ∈ keys, r.key? = some k)) = t.unexpired := by
  refine Multiset.filter_congr fun r hr => not_congr ⟨And.left, fun hover => ⟨hover, ?_⟩⟩
  obtain ⟨hmem, hrecord⟩ := Arena.mem_records.mp hr
  obtain ⟨r', hr', k, hk⟩ := ht.record? hmem
  rw [hrecord] at hr'
  cases hr'
  exact ⟨k, (hkeys k).mpr ⟨r, hr, hover, hk⟩, hk⟩

/-- A sweep gathers the keys of the records that are over, and evicts these. -/
theorem evictExpired_runs (ht : t.Orderly) :
    ∃ keys, evictExpired t = evictAll keys 0 t ∧
      ∀ k, k ∈ keys ↔ ∃ r ∈ t.records, r.isOver t.clock.now ∧ r.key? = some k := by
  have hnow : now t = .ok t.clock.now t := rfl
  have hhandles : currentHandles t = .ok t.segment.handles t := rfl
  obtain ⟨keys, hkeys, hmem⟩ := overdueKeys_ok ht t.clock.now t.segment.handles [] fun h hh => Multiset.mem_coe.mpr hh
  simp only [List.not_mem_nil, false_or] at hmem
  refine ⟨keys, ?_, hmem⟩
  simp only [evictExpired, Action.bind_ok hnow, Action.bind_ok hhandles, Action.bind_ok hkeys]

/-- All records that are over are evicted, and counted. -/
theorem evictExpired_ok (ht : t.WellFormed) :
    (∃ n u, evictExpired t = .ok n u ∧ Leads t u t.unexpired ∧ n + u.records.card = t.records.card) ∨
    Breaks evictExpired t := by
  obtain ⟨keys, hrun, hmem⟩ := evictExpired_runs ht.orderly
  rw [← filter_gathered ht.toIntact hmem, hrun]
  rcases evictAll_ok ht keys 0 with ⟨n, u, hall, hleads, hcard⟩ | hbreaks
  · exact Or.inl ⟨n, u, hall, hleads, by omega⟩
  · obtain ⟨u, rs, hall, hrest⟩ := hbreaks
    exact Or.inr ⟨u, rs, hrun.trans hall, hrest⟩

end RecordStore.Segment
