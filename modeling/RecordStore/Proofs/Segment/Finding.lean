import RecordStore.Proofs.Segment.Evicting
import RecordStore.Segment.Lookup

/-! # Finding records

A lookup first drops the record of its key if its time is over, and then answers what is there. A search by template
answers the payloads that match of the records that are not over, and drops those that are. -/

namespace RecordStore.Segment

variable {t : State} {r : Record} {k : Value}

/-! ### By key -/

/-- What a lookup meets: a record that is over and is evicted, one that is not, or none. -/
theorem lookup_cases (ht : t.WellFormed) (k : Value) :
    (∃ i h r, probe k t = .ok (.found i h) t ∧ t.memory.arena.record? h = some r ∧ r.isOver t.clock.now = true ∧
      ((∃ b u, evict k t = .ok b u ∧ Leads t u (t.lasting k) ∧ ∀ r ∈ u.records, r.key? ≠ some k) ∨
        Breaks (evict k) t)) ∨
    (∃ i h r, probe k t = .ok (.found i h) t ∧ t.memory.arena.record? h = some r ∧ r.isOver t.clock.now = false ∧
      Leads t t (t.lasting k) ∧ ∀ r', r' ∈ t.records ∧ r'.key? = some k ↔ r' = r) ∨
    ∃ i, probe k t = .ok (.absent i) t ∧ Leads t t (t.lasting k) ∧ ∀ r ∈ t.records, r.key? ≠ some k := by
  rcases ht.probe_cases k with ⟨i, h, r, hprobe, hi, hr, hk⟩ | ⟨i, hprobe, -, hnew⟩
  · obtain ⟨-, hsame⟩ := ht.records_eq hi hr hk
    have honly : ∀ r', r' ∈ t.records ∧ r'.key? = some k ↔ r' = r := by
      intro r'
      rw [← Multiset.mem_singleton (a := r), ← hsame, Multiset.mem_filter]
    by_cases hdue : r.isOver t.clock.now = true
    · refine Or.inl ⟨i, h, r, hprobe, hr, hdue, ?_⟩
      obtain ⟨b, u, hleads, -, hrun | ⟨hrun, hbreaks⟩⟩ := evict_ok ht k
      · refine Or.inl ⟨b, u, hrun, hleads, fun r' hr' hk' => ?_⟩
        rw [hleads.records, State.lasting, Multiset.mem_filter] at hr'
        exact hr'.2 ⟨(honly r').mp ⟨hr'.1, hk'⟩ ▸ hdue, hk'⟩
      · exact Or.inr ⟨u, _, hrun, hleads, Multiset.filter_le _ _, hbreaks⟩
    · rw [Bool.not_eq_true] at hdue
      have hlasting : t.lasting k = t.records := by
        refine Multiset.filter_eq_self.mpr fun r' hr' hdue' => ?_
        rw [(honly r').mp ⟨hr', hdue'.2⟩, hdue] at hdue'
        cases hdue'.1
      exact Or.inr (Or.inl ⟨i, h, r, hprobe, hr, hdue, hlasting.symm ▸ Leads.refl ht, honly⟩)
  · exact Or.inr (Or.inr ⟨i, hprobe, (lasting_of_absent hnew).symm ▸ Leads.refl ht, hnew⟩)

theorem contains_ok (ht : t.WellFormed) (k : Value) :
    (∃ b u, contains k t = .ok b u ∧ Leads t u (t.lasting k) ∧ (b = true ↔ ∃ r ∈ u.records, r.key? = some k)) ∨
    Breaks (contains k) t := by
  have hnow : now t = .ok t.clock.now t := rfl
  rcases lookup_cases ht k with
    ⟨i, h, r, hprobe, hr, hdue, hevict⟩ | ⟨i, h, r, hprobe, hr, hdue, hleads, honly⟩ | ⟨i, hprobe, hleads, hnew⟩
  · have hover := onMemory_read (Record.isOverAt_ok ht.steady.legible hr t.clock.now)
    have hrun : contains k t = (do let _ ← evict k; return false : Op Bool) t := by
      simp only [contains, Action.bind_ok hprobe, Action.bind_ok hnow, Action.bind_ok hover, hdue, ↓reduceIte]
    rcases hevict with ⟨b, u, hevict, hleads, hnew⟩ | hbreaks
    · refine Or.inl ⟨false, u, by rw [hrun, Action.bind_ok hevict, Action.pure_run], hleads, ?_⟩
      simpa using hnew
    · obtain ⟨u, rs, hbroken, hrest⟩ := hbreaks.bind (f := fun _ => pure false)
      exact Or.inr ⟨u, rs, hrun.trans hbroken, hrest⟩
  · have hover := onMemory_read (Record.isOverAt_ok ht.steady.legible hr t.clock.now)
    refine Or.inl ⟨true, t, ?_, hleads, iff_of_true rfl ⟨r, (honly r).mpr rfl⟩⟩
    simp only [contains, Action.bind_ok hprobe, Action.bind_ok hnow, Action.bind_ok hover, hdue, Bool.false_eq_true,
      ↓reduceIte, Action.pure_run]
  · refine Or.inl ⟨false, t, by simp only [contains, Action.bind_ok hprobe, Action.pure_run], hleads, ?_⟩
    simpa using hnew

theorem getRecord?_ok (ht : t.WellFormed) (k : Value) :
    (∃ r? u, getRecord? k t = .ok r? u ∧ Leads t u (t.lasting k) ∧
      ∀ r, r? = some r ↔ r ∈ u.records ∧ r.key? = some k) ∨
    Breaks (getRecord? k) t := by
  have hnow : now t = .ok t.clock.now t := rfl
  rcases lookup_cases ht k with
    ⟨i, h, r, hprobe, hr, hdue, hevict⟩ | ⟨i, h, r, hprobe, hr, hdue, hleads, honly⟩ | ⟨i, hprobe, hleads, hnew⟩
  · have hload := onMemory_read (Record.load_ok ht.steady.legible hr)
    have hrun : getRecord? k t = (do let _ ← evict k; return none : Op (Option Record)) t := by
      simp only [getRecord?, Action.bind_ok hprobe, Action.bind_ok hload, Action.bind_ok hnow, hdue, ↓reduceIte]
    rcases hevict with ⟨b, u, hevict, hleads, hnew⟩ | hbreaks
    · refine Or.inl ⟨none, u, by rw [hrun, Action.bind_ok hevict, Action.pure_run], hleads, fun r => ?_⟩
      exact iff_of_false (by simp) fun h => hnew r h.1 h.2
    · obtain ⟨u, rs, hbroken, hrest⟩ := hbreaks.bind (f := fun _ => pure none)
      exact Or.inr ⟨u, rs, hrun.trans hbroken, hrest⟩
  · have hload := onMemory_read (Record.load_ok ht.steady.legible hr)
    refine Or.inl ⟨some r, t, ?_, hleads, fun r' => by rw [honly, Option.some.injEq, eq_comm]⟩
    simp only [getRecord?, Action.bind_ok hprobe, Action.bind_ok hload, Action.bind_ok hnow, hdue, Bool.false_eq_true,
      ↓reduceIte, Action.pure_run]
  · refine Or.inl ⟨none, t, by simp only [getRecord?, Action.bind_ok hprobe, Action.pure_run], hleads, fun r => ?_⟩
    exact iff_of_false (by simp) fun h => hnew r h.1 h.2

theorem get?_ok (ht : t.WellFormed) (k : Value) :
    (∃ r? u, get? k t = .ok (r?.map (·.payload)) u ∧ Leads t u (t.lasting k) ∧
      ∀ r, r? = some r ↔ r ∈ u.records ∧ r.key? = some k) ∨
    Breaks (get? k) t := by
  rcases getRecord?_ok ht k with ⟨r?, u, hrun, hrest⟩ | hbreaks
  · exact Or.inl ⟨r?, u, by simp only [get?, Action.bind_ok hrun, Action.pure_run], hrest⟩
  · exact Or.inr hbreaks.bind

/-- A record that is not over is found, and nothing is evicted. -/
theorem getRecord?_of_mem (ht : t.WellFormed) (hr : r ∈ t.unexpired) (hk : r.key? = some k) :
    getRecord? k t = .ok (some r) t := by
  obtain ⟨hmem, hlasts⟩ := Multiset.mem_filter.mp hr
  rcases ht.probe_cases k with ⟨i, h, r₀, hprobe, hi, hr₀, hk₀⟩ | ⟨i, -, -, hnew⟩
  · obtain ⟨-, hsame⟩ := ht.records_eq hi hr₀ hk₀
    obtain rfl : r = r₀ := Multiset.mem_singleton.mp (hsame ▸ Multiset.mem_filter.mpr ⟨hmem, hk⟩)
    have hnow : now t = .ok t.clock.now t := rfl
    have hload := onMemory_read (Record.load_ok ht.steady.legible hr₀)
    simp only [getRecord?, Action.bind_ok hprobe, Action.bind_ok hload, Action.bind_ok hnow, hlasts, Bool.false_eq_true,
      ↓reduceIte, Action.pure_run]
  · exact absurd hk (hnew r hmem)

theorem get?_of_mem (ht : t.WellFormed) (hr : r ∈ t.unexpired) (hk : r.key? = some k) :
    get? k t = .ok (some r.payload) t := by
  simp only [get?, Action.bind_ok (getRecord?_of_mem ht hr hk), Action.pure_run, Option.map_some]

/-! ### By template -/

/-- Whether a template matches the payload of a record. -/
def matchedBy (tm : Template) (r : Record) : Bool :=
  match tm.matches? r.payload with
  | .ok b => b
  | .error _ => false

/-- The payload of each record that is not over can be compared with a template. -/
def Comparable (tm : Template) (time : UInt64) (rs : Multiset Record) : Prop :=
  ∀ r ∈ rs, r.isOver time = false → ∃ b, tm.matches? r.payload = .ok b

theorem scan_step {h : Handle} (ht : t.Orderly) (tm : Template) (time : UInt64) (hs : List Handle)
    (matched : List Bytes) (overdue : List Value) (hr : t.memory.arena.record? h = some r) (hk : r.key? = some k) :
    (∃ matched' overdue', scan tm time (h :: hs) matched overdue t = scan tm time hs matched' overdue' t ∧
      (matched' : Multiset Bytes) = ↑matched +
        (if ¬ r.isOver time ∧ matchedBy tm r then {r.payload} else 0) ∧
      (∀ k', k' ∈ overdue' ↔ k' ∈ overdue ∨ r.isOver time ∧ r.key? = some k') ∧ Comparable tm time {r}) ∨
    ∃ fault, r.isOver time = false ∧ tm.matches? r.payload = .error fault ∧
      scan tm time (h :: hs) matched overdue t = .error (.error (.codec fault)) t := by
  have hload := onMemory_read (Record.load_ok ht.legible hr)
  have hkey := Record.key?_eq_some_iff.mp hk
  by_cases hdue : r.isOver time = true
  · refine Or.inl ⟨matched, k :: overdue, ?_, by simp [hdue], fun k' => ?_, fun r' hr' hlasts => ?_⟩
    · simp only [scan, Action.bind_ok hload, hdue, ↓reduceIte, hkey]
      rfl
    · rw [List.mem_cons, hk, Option.some.injEq, or_comm, eq_comm]
      simp only [hdue, true_and]
    · rw [Multiset.mem_singleton.mp hr', hdue] at hlasts
      cases hlasts
  · rw [Bool.not_eq_true] at hdue
    cases hmatch : tm.matches? r.payload with
    | error fault =>
      refine Or.inr ⟨fault, hdue, rfl, ?_⟩
      simp only [scan, Action.bind_ok hload, hdue, Bool.false_eq_true, ↓reduceIte, hmatch]
      rfl
    | ok b =>
      have hscan : scan tm time (h :: hs) matched overdue t =
          scan tm time hs (if b then r.payload :: matched else matched) overdue t := by
        simp only [scan, Action.bind_ok hload, hdue, Bool.false_eq_true, ↓reduceIte, hmatch]
        cases b <;> rfl
      refine Or.inl ⟨_, _, hscan, ?_, fun k' => by simp [hdue], fun r' hr' _ =>
        ⟨b, Multiset.mem_singleton.mp hr' ▸ hmatch⟩⟩
      simp only [hdue, matchedBy, hmatch]
      cases b
      · simp
      · rw [if_pos rfl, ← Multiset.cons_coe, if_pos (by simp), add_comm, Multiset.singleton_add]

/-- Looking through records changes nothing. It fails on the first that is not over and cannot be compared. -/
theorem scan_cases (ht : t.Orderly) (tm : Template) (time : UInt64) (hs : List Handle) (matched : List Bytes)
    (overdue : List Value) (hstored : ∀ h ∈ hs, h ∈ held t.segment.slots) :
    (∃ matched' overdue', scan tm time hs matched overdue t = .ok (matched', overdue') t ∧
      (matched' : Multiset Bytes) = ↑matched +
        ((t.memory.arena.records ↑hs).filter fun r => ¬ r.isOver time ∧ matchedBy tm r).map (·.payload) ∧
      (∀ k, k ∈ overdue' ↔ k ∈ overdue ∨ ∃ r ∈ t.memory.arena.records ↑hs, r.isOver time ∧ r.key? = some k) ∧
      Comparable tm time (t.memory.arena.records ↑hs)) ∨
    ∃ fault, ∃ r ∈ t.memory.arena.records ↑hs, r.isOver time = false ∧ tm.matches? r.payload = .error fault ∧
      scan tm time hs matched overdue t = .error (.error (.codec fault)) t := by
  induction hs generalizing matched overdue with
  | nil =>
    refine Or.inl ⟨matched.reverse, overdue.reverse, rfl, ?_, fun k => ?_, fun r hr =>
      absurd hr (Multiset.notMem_zero r)⟩
    · rw [Multiset.coe_reverse]
      exact (add_zero _).symm
    · rw [List.mem_reverse]
      exact ⟨Or.inl, fun h => h.resolve_right (by rintro ⟨r, hr, -⟩; cases hr)⟩
  | cons h hs ih =>
    obtain ⟨r, hr, k, hk⟩ := ht.record? (hstored h List.mem_cons_self)
    have hrest := fun g hg => hstored g (List.mem_cons_of_mem h hg)
    rw [← Multiset.cons_coe, Arena.records_cons hr]
    rcases scan_step ht tm time hs matched overdue hr hk with
      ⟨matched₁, overdue₁, hstep, hmatched₁, hoverdue₁, hcomparable₁⟩ | ⟨fault, hdue, hfault, hrun⟩
    · rcases ih matched₁ overdue₁ hrest with
        ⟨matched', overdue', hrun, hmatched, hoverdue, hcomparable⟩ | ⟨fault, r', hr', hdue, hfault, hrun⟩
      · refine Or.inl ⟨matched', overdue', hstep.trans hrun, ?_, fun k' => ?_, fun r' hr' hlasts => ?_⟩
        · rw [hmatched, hmatched₁, Multiset.filter_cons, Multiset.map_add, add_assoc]
          congr 2
          split <;> rfl
        · simp only [hoverdue, hoverdue₁, Multiset.mem_cons, exists_eq_or_imp, or_assoc]
        · rcases Multiset.mem_cons.mp hr' with rfl | hr'
          · exact hcomparable₁ r' (Multiset.mem_singleton_self r') hlasts
          · exact hcomparable r' hr' hlasts
      · exact Or.inr ⟨fault, r', Multiset.mem_cons_of_mem hr', hdue, hfault, hstep.trans hrun⟩
    · exact Or.inr ⟨fault, r, Multiset.mem_cons_self r _, hdue, hfault, hrun⟩

/-- A search by template looks through the records, and then evicts those that are over. It fails before that if one
    that is not over cannot be compared. -/
theorem matching_runs (ht : t.Orderly) (tm : Template) :
    (∃ matched keys, matching tm t = (do let _ ← evictAll keys 0; return matched : Op (List Bytes)) t ∧
      (matched : Multiset Bytes) = (t.records.filter fun r => ¬ r.isOver t.clock.now ∧ matchedBy tm r).map (·.payload) ∧
      (∀ k, k ∈ keys ↔ ∃ r ∈ t.records, r.isOver t.clock.now ∧ r.key? = some k) ∧
      Comparable tm t.clock.now t.records) ∨
    ∃ fault, ∃ r ∈ t.records, r.isOver t.clock.now = false ∧ tm.matches? r.payload = .error fault ∧
      matching tm t = .error (.error (.codec fault)) t := by
  have hnow : now t = .ok t.clock.now t := rfl
  have hhandles : currentHandles t = .ok t.segment.handles t := rfl
  rcases scan_cases ht tm t.clock.now t.segment.handles [] [] (fun h hh => Multiset.mem_coe.mpr hh) with
    ⟨matched, keys, hscan, hmatched, hkeys, hcomparable⟩ | ⟨fault, r, hr, hlasts, hfault, hscan⟩
  · simp only [List.not_mem_nil, false_or] at hkeys
    rw [Multiset.coe_nil, zero_add] at hmatched
    refine Or.inl ⟨matched, keys, ?_, hmatched, hkeys, hcomparable⟩
    simp only [matching, Action.bind_ok hnow, Action.bind_ok hhandles, Action.bind_ok hscan]
  · refine Or.inr ⟨fault, r, hr, hlasts, hfault, ?_⟩
    simp only [matching, Action.bind_ok hnow, Action.bind_ok hhandles, Action.bind_error hscan]

/-- The payloads that match are answered, and all records that are over are evicted. -/
theorem matching_cases (ht : t.WellFormed) (tm : Template) :
    (∃ matched u, matching tm t = .ok matched u ∧ Leads t u t.unexpired ∧
      (matched : Multiset Bytes) = (t.unexpired.filter (matchedBy tm ·)).map (·.payload) ∧
      ∀ r ∈ t.unexpired, ∃ b, tm.matches? r.payload = .ok b) ∨
    (∃ fault, ∃ r ∈ t.unexpired, tm.matches? r.payload = .error fault ∧
      matching tm t = .error (.error (.codec fault)) t) ∨
    Breaks (matching tm) t := by
  rcases matching_runs ht.orderly tm with
    ⟨matched, keys, hrun, hmatched, hkeys, hcomparable⟩ | ⟨fault, r, hr, hlasts, hfault, hrun⟩
  · rcases evictAll_ok ht keys 0 with ⟨n, u, hall, hleads, -⟩ | hbreaks
    · refine Or.inl ⟨matched, u, by rw [hrun, Action.bind_ok hall, Action.pure_run], ?_, ?_, fun r hr => ?_⟩
      · rw [filter_gathered ht.toIntact hkeys] at hleads
        exact hleads
      · rw [hmatched, State.unexpired, Multiset.filter_filter]
        congr 1
        exact Multiset.filter_congr fun _ _ => and_comm
      · obtain ⟨hmem, hlasts⟩ := Multiset.mem_filter.mp hr
        exact hcomparable r hmem (Bool.not_eq_true _ ▸ hlasts)
    · obtain ⟨u, rs, hbroken, hrest⟩ := hbreaks.bind (f := fun _ => pure matched)
      exact Or.inr (Or.inr ⟨u, rs, hrun.trans hbroken, hrest⟩)
  · exact Or.inr (Or.inl ⟨fault, r, Multiset.mem_filter.mpr ⟨hr, by simp [hlasts]⟩, hfault, hrun⟩)

end RecordStore.Segment
