import RecordStore.Proofs.InlineNotices
import RecordStore.Proofs.Releasing
import RecordStore.Proofs.Segment.Finding
import RecordStore.Proofs.Segment.LossByEviction

/-! # One eviction, whatever fails

An eviction whose release is refused has done nothing. Once the release is granted the record is out of the table and
counted before anybody is told, so that it is gone also if the listener breaks on it. -/

namespace RecordStore.Segment

open RecordStore.Action

variable {t u : State} {r : Record} {k : Value} {i : Nat} {h : Handle}

/-- From `t` to `u` a record has gone, and its block was given back. -/
structure Frees (t u : State) (r : Record) : Prop where
  leads : Leads (t.replan .never) (u.replan .never) u.records
  split : t.records = r ::ₘ u.records
  granted : t.memory.faults.isDue .release = false
  memory : u.memory = final (Memory.release r.handle) t.memory

/-- From `t` to `u` a record that was over has been evicted: it has gone, it was counted, and its notice was handed to
    the notifier, whatever came of that. -/
structure Drops (t u : State) (r : Record) : Prop extends Frees t u r where
  due : r.isOver t.clock.now
  expired : u.counters.expired = t.counters.expired + 1
  notifier : u.notifier = final (Notifier.notify r.notice) t.notifier

/-! ### Removals -/

/-- The removal of a record is refused the release of its block, or carried out without a word. -/
theorem removeAt_outcomes (ht : t.Orderly) (hi : occupant? t.segment.slots i = some h)
    (hr : t.memory.arena.record? h = some r) (hk : r.key? = some k) :
    (t.memory.faults.isDue .release = true ∧
      removeAt i h t = .error (.error Memory.plannedFault) { t with memory := t.memory.passed .release }) ∨
    ∃ u, removeAt i h t = .ok (r.size, r.ttl) u ∧ Frees t u r ∧ Silent t u := by
  rcases removeAt_cases ht hi hr hk with hrefused | ⟨hgranted, u, hremoved, hleads, -, -, hreleased⟩
  · exact Or.inl hrefused
  have hrecords : u.records = t.records.filter (·.key? ≠ some k) := hleads.records
  rw [← hrecords] at hleads
  refine Or.inr ⟨u, hremoved, ⟨hleads, ?_, hgranted, ?_⟩, (silent_removeAt i h).ok hremoved⟩
  · exact (ht.wellFormed.records_eq hi hr hk).1.trans (congrArg (r ::ₘ ·) hrecords.symm)
  · rw [Record.handle_of_record? hr, final_ok hreleased]

/-- The removal of a key comes to a record, or there is none and nothing happens. -/
theorem remove_outcomes (ht : t.Orderly) (k : Value) :
    (∃ r ∈ t.records, r.key? = some k ∧
      ((t.memory.faults.isDue .release = true ∧
          remove k t = .error (.error Memory.plannedFault) { t with memory := t.memory.passed .release }) ∨
        ∃ u, remove k t = .ok r.size u ∧ Frees t u r ∧ Silent t u)) ∨
    (∀ r ∈ t.records, r.key? ≠ some k) ∧ remove k t = .ok 0 t := by
  rcases ht.wellFormed.table.probe_cases (t := t) ht.legible k with
    ⟨i, h, r, hprobe, hi, hr, hk⟩ | ⟨i, hprobe, -, hnew⟩
  · refine Or.inl ⟨r, (ht.wellFormed.records_eq hi hr hk).1.symm ▸ Multiset.mem_cons_self r _, hk, ?_⟩
    rcases removeAt_outcomes ht hi hr hk with ⟨hplanned, hrefused⟩ | ⟨u, hremoved, hfrees, hsilent⟩
    · refine Or.inl ⟨hplanned, ?_⟩
      simp only [remove, bind_ok hprobe, bind_error hrefused]
    · refine Or.inr ⟨u, ?_, hfrees, hsilent⟩
      simp only [remove, bind_ok hprobe, bind_ok hremoved, pure_run]
  · refine Or.inr ⟨hnew, ?_⟩
    simp only [remove, bind_ok hprobe, pure_run]

/-! ### Evictions -/

/-- An eviction of a record that is over begins with the removal, and what comes after that is to count and to tell. -/
theorem evict_removes (ht : t.Orderly) (hr : t.memory.arena.record? h = some r)
    (hprobe : probe k t = .ok (.found i h) t) (hdue : r.isOver t.clock.now = true) :
    evict k t = (do
      let (freed, ttl) ← removeAt i h
      if freed = 0 then return false
      modifyCounters (·.entryExpired)
      onNotifier (Notifier.notify ⟨r.payload, ttl⟩)
      return true : Op Bool) t := by
  have hnow : now t = .ok t.clock.now t := rfl
  have hover := onMemory_read (Record.isOverAt_ok ht.legible hr t.clock.now)
  have hpayload := onMemory_read (Record.payloadAt_ok ht.legible hr)
  simp only [evict, bind_ok hprobe, bind_ok hnow, bind_ok hover, hdue, Bool.not_true, Bool.false_eq_true, ↓reduceIte,
    bind_ok hpayload]

/-- The eviction of a record that is over is refused the release of its block, or carried out. The listener may break on
    it then. -/
theorem evict_due_outcomes (ht : t.Orderly) (hi : occupant? t.segment.slots i = some h)
    (hr : t.memory.arena.record? h = some r) (hk : r.key? = some k) (hprobe : probe k t = .ok (.found i h) t)
    (hdue : r.isOver t.clock.now = true) :
    (t.memory.faults.isDue .release = true ∧
      evict k t = .error (.error Memory.plannedFault) { t with memory := t.memory.passed .release }) ∨
    ∃ u, Drops t u r ∧ (evict k t = .ok true u ∧ u.notifier.lost = t.notifier.lost ∨
      evict k t = .error (.abort .listener) u ∧ u.notifier.lost = t.notifier.lost + 1) := by
  have hevict := evict_removes ht hr hprobe hdue
  rcases removeAt_outcomes ht hi hr hk with ⟨hplanned, hrefused⟩ | ⟨v, hremoved, hfrees, hsilent⟩
  · exact Or.inl ⟨hplanned, hevict.trans (bind_error hrefused)⟩
  let u : State := { v.withCounters v.counters.entryExpired with
    notifier := final (Notifier.notify r.notice) v.notifier }
  have hrest : evict k t = (do onNotifier (Notifier.notify r.notice); return true : Op Bool)
      (v.withCounters v.counters.entryExpired) := by
    have hsize : r.size ≠ 0 := by
      unfold Record.size Record.sizeFor Record.payloadOffset
      omega
    have hcount : modifyCounters (·.entryExpired) v = .ok () (v.withCounters v.counters.entryExpired) := rfl
    rw [hevict]
    simp only [bind_ok hremoved, hsize, ↓reduceIte, bind_ok hcount]
    rfl
  have hdrops : Drops t u r := by
    refine ⟨⟨?_, hfrees.split, hfrees.granted, hfrees.memory⟩, hdue, ?_, ?_⟩
    · exact hfrees.leads.told fun hcalm => (Notifier.Calm.notify (hsilent.notifier.symm ▸ hcalm) r.notice).1
    · exact congrArg (· + 1) hsilent.expired
    · exact congrArg (final (Notifier.notify r.notice)) hsilent.notifier
  refine Or.inr ⟨u, hdrops, ?_⟩
  rcases Notifier.notify_outcomes v.notifier r.notice with ⟨htold, hlost⟩ | ⟨hbroken, hlost⟩
  · refine Or.inl ⟨?_, hlost.trans (congrArg _ hsilent.notifier)⟩
    rw [hrest, bind_ok (onNotifier_ok (t := v.withCounters v.counters.entryExpired) htold)]
    rfl
  · refine Or.inr ⟨?_, hlost.trans (congrArg (·.lost + 1) hsilent.notifier)⟩
    rw [hrest, bind_error (onNotifier_error (t := v.withCounters v.counters.entryExpired) hbroken)]

/-- The eviction of a key comes to a record that is over, or there is none and nothing happens. -/
theorem evict_outcomes (ht : t.Orderly) (k : Value) :
    (∃ r ∈ t.records, r.key? = some k ∧ r.isOver t.clock.now ∧
      ((t.memory.faults.isDue .release = true ∧
          evict k t = .error (.error Memory.plannedFault) { t with memory := t.memory.passed .release }) ∨
        ∃ u, Drops t u r ∧ (evict k t = .ok true u ∧ u.notifier.lost = t.notifier.lost ∨
          evict k t = .error (.abort .listener) u ∧ u.notifier.lost = t.notifier.lost + 1))) ∨
    (∀ r ∈ t.records, r.key? = some k → ¬ r.isOver t.clock.now) ∧ evict k t = .ok false t := by
  rcases ht.wellFormed.table.probe_cases (t := t) ht.legible k with
    ⟨i, h, r, hprobe, hi, hr, hk⟩ | ⟨i, hprobe, -, hnew⟩
  · obtain ⟨hall, hsame⟩ := ht.wellFormed.records_eq hi hr hk
    by_cases hdue : r.isOver t.clock.now = true
    · exact Or.inl ⟨r, hall.symm ▸ Multiset.mem_cons_self r _, hk, hdue, evict_due_outcomes ht hi hr hk hprobe hdue⟩
    · have honly : ∀ r' ∈ t.records, r'.key? = some k → r' = r := fun r' hr' hk' =>
        Multiset.mem_singleton.mp (hsame ▸ Multiset.mem_filter.mpr ⟨hr', hk'⟩)
      refine Or.inr ⟨fun r' hr' hk' => honly r' hr' hk' ▸ hdue, ?_⟩
      have hnow : now t = .ok t.clock.now t := rfl
      have hover := onMemory_read (Record.isOverAt_ok ht.legible hr t.clock.now)
      simp only [evict, bind_ok hprobe, bind_ok hnow, bind_ok hover, hdue, Bool.not_false, ↓reduceIte, pure_run]
  · refine Or.inr ⟨fun r hr hk => absurd hk (hnew r hr), ?_⟩
    simp only [evict, bind_ok hprobe, pure_run]

/-! ### Lookups -/

/-- A lookup evicts the key and goes on from there, or it does not come to a record that is over and changes nothing. -/
def LooksUp {α : Type} (x : Op α) (k : Value) (t : State) : Prop :=
  (∃ a, x t = (do let _ ← evict k; return a : Op α) t) ∨
    (∃ a, x t = .ok a t) ∧ ∀ r ∈ t.records, r.key? = some k → ¬ r.isOver t.clock.now

/-- A search for a key finds its record, which is over or is the only one of the key, or there is none. -/
theorem probe_outcomes (ht : t.Orderly) (k : Value) :
    (∃ i h r, probe k t = .ok (.found i h) t ∧ t.memory.arena.record? h = some r ∧
      (r.isOver t.clock.now = false → ∀ r ∈ t.records, r.key? = some k → ¬ r.isOver t.clock.now)) ∨
    ∃ i, probe k t = .ok (.absent i) t ∧ ∀ r ∈ t.records, r.key? ≠ some k := by
  rcases ht.wellFormed.table.probe_cases (t := t) ht.legible k with
    ⟨i, h, r, hprobe, hi, hr, hk⟩ | ⟨i, hprobe, -, hnew⟩
  · refine Or.inl ⟨i, h, r, hprobe, hr, fun hlasts r' hr' hk' => ?_⟩
    have hsame : t.records.filter (·.key? = some k) = {r} := (ht.wellFormed.records_eq hi hr hk).2
    have hone : r' = r := Multiset.mem_singleton.mp (hsame ▸ Multiset.mem_filter.mpr ⟨hr', hk'⟩)
    rw [hone, hlasts]
    exact Bool.false_ne_true
  · exact Or.inr ⟨i, hprobe, hnew⟩

theorem contains_looksUp (ht : t.Orderly) (k : Value) : LooksUp (contains k) k t := by
  have hnow : now t = .ok t.clock.now t := rfl
  rcases probe_outcomes ht k with ⟨i, h, r, hprobe, hr, hothers⟩ | ⟨i, hprobe, hnew⟩
  · have hover := onMemory_read (Record.isOverAt_ok ht.legible hr t.clock.now)
    cases hdue : r.isOver t.clock.now with
    | true =>
      refine Or.inl ⟨false, ?_⟩
      simp only [contains, bind_ok hprobe, bind_ok hnow, bind_ok hover, hdue, ↓reduceIte]
    | false =>
      refine Or.inr ⟨⟨true, ?_⟩, hothers hdue⟩
      simp only [contains, bind_ok hprobe, bind_ok hnow, bind_ok hover, hdue, Bool.false_eq_true, ↓reduceIte, pure_run]
  · refine Or.inr ⟨⟨false, ?_⟩, fun r hr hk => absurd hk (hnew r hr)⟩
    simp only [contains, bind_ok hprobe, pure_run]

theorem getRecord?_looksUp (ht : t.Orderly) (k : Value) : LooksUp (getRecord? k) k t := by
  have hnow : now t = .ok t.clock.now t := rfl
  rcases probe_outcomes ht k with ⟨i, h, r, hprobe, hr, hothers⟩ | ⟨i, hprobe, hnew⟩
  · have hload := onMemory_read (Record.load_ok ht.legible hr)
    cases hdue : r.isOver t.clock.now with
    | true =>
      refine Or.inl ⟨none, ?_⟩
      simp only [getRecord?, bind_ok hprobe, bind_ok hload, bind_ok hnow, hdue, ↓reduceIte]
    | false =>
      refine Or.inr ⟨⟨some r, ?_⟩, hothers hdue⟩
      simp only [getRecord?, bind_ok hprobe, bind_ok hload, bind_ok hnow, hdue, Bool.false_eq_true, ↓reduceIte, pure_run]
  · refine Or.inr ⟨⟨none, ?_⟩, fun r hr hk => absurd hk (hnew r hr)⟩
    simp only [getRecord?, bind_ok hprobe, pure_run]

theorem get?_looksUp (ht : t.Orderly) (k : Value) : LooksUp (get? k) k t := by
  rcases getRecord?_looksUp ht k with ⟨r?, hrun⟩ | ⟨⟨r?, hrun⟩, hnone⟩
  · refine Or.inl ⟨r?.map (·.payload), ?_⟩
    cases hevict : evict k t with
    | ok b u =>
      rw [bind_ok hevict] at hrun
      rw [bind_ok hevict]
      exact bind_ok hrun
    | error e u =>
      rw [bind_error hevict] at hrun
      rw [bind_error hevict]
      exact bind_error hrun
  · exact Or.inr ⟨⟨r?.map (·.payload), bind_ok hrun⟩, hnone⟩

end RecordStore.Segment
