import RecordStore.Proofs.Segment.CountingDown
import RecordStore.Proofs.Store.FailingCalls
import RecordStore.Proofs.Store.Making
import RecordStore.Proofs.Store.SharedMemory

/-! # The rehash that is due

Whatever is asked of a store, and whichever calls fail meanwhile, the rehash that it marks agrees with the number of its
entries, and as long as none is marked no threshold has been passed. -/

namespace RecordStore.Store

open RecordStore.Action

variable {α : Type} {s s' : Store} {t : Thresholds} {payload : Bytes} {ttl : Lifetime} {q : Request} {x : Trial}
  {trials : List Trial}

/-! ### Safety -/

/-- Keeps to the schema, and keeps room in the tables and the entries counted. -/
structure Secures (s s' : Store) : Prop where
  schema : s'.schema = s.schema
  safe : s.Safe → s'.Safe

instance : IsPreorder Store Secures where
  refl _ := ⟨rfl, id⟩
  trans _ _ _ h₁ h₂ := ⟨h₂.schema.trans h₁.schema, h₂.safe ∘ h₁.safe⟩

theorem Secures.of_eq (hschema : s'.schema = s.schema) (hmemory : s'.memory = s.memory)
    (hcounters : s'.counters = s.counters) (hslots : s'.slots = s.slots) : Secures s s' := by
  refine ⟨hschema, fun hs => ⟨hmemory ▸ hs.started, fun i g hi => hs.roomy i g ?_, ?_⟩⟩
  · rwa [segment?, hslots] at hi
  · rw [hslots, hcounters]
    exact hs.items

theorem secures_onSegment {x : Segment.Op α} (h : ∀ {n}, Segment.Safely n x) (i : Nat) :
    Moves Secures (onSegment i x) :=
  moves_onSegment (S := fun t u => ∀ n, t.Safe n → u.Safe n) (fun _ _ ht => (h.run ht).1) fun hi hu =>
    ⟨rfl, fun hs => hs.update hi (hu _ (hs.part hi))⟩

theorem bears_secures : Bears Secures where
  tally _ _ _ _ := .of_eq rfl rfl rfl rfl
  clock _ _ := .of_eq rfl rfl rfl rfl
  contains k := secures_onSegment (Segment.contains_safely k)
  getRecord? k := secures_onSegment (Segment.getRecord?_safely k)
  get? k := secures_onSegment (Segment.get?_safely k)
  remove k := secures_onSegment (Segment.remove_safely k)
  matching tm := secures_onSegment (Segment.matching_safely tm)
  evictExpired := secures_onSegment Segment.evictExpired_safely
  destroy := secures_onSegment Segment.destroy_safely

theorem secures_put (payload : Bytes) (ttl : Lifetime) : Moves Secures (put payload ttl) := by
  intro s
  have hcount := bears_secures.tally s s.gets (s.puts + 1) s.removes
  rcases put_runs s payload ttl with ⟨e, hrun⟩ | ⟨k, i, g, -, -, -, hrun⟩
  · rw [final_error hrun]
    exact hcount
  · rw [final, hrun]
    exact IsTrans.trans _ _ _ hcount (secures_onSegment (Segment.put_safely k _) i _)

theorem Trial.run_secures (x : Trial) (s : Store) : Secures s (x.run s) := by
  cases x with
  | ask q => exact bears_secures.answer fun payload ttl _ => secures_put payload ttl s
  | plan f => exact ⟨rfl, fun hs => ⟨hs.started, hs.roomy, hs.items⟩⟩

/-! ### Counting -/

/-- Entries have been counted down, or none has. -/
def Wanes (s s' : Store) : Prop := s.counters.Dwindles s'.counters

instance : IsPreorder Store Wanes where
  refl s := refl s.counters
  trans s₁ s₂ s₃ := IsTrans.trans s₁.counters s₂.counters s₃.counters

theorem wanes_onSegment {x : Segment.Op α} (h : Moves Segment.Dwindling x) (i : Nat) : Moves Wanes (onSegment i x) :=
  moves_onSegment h fun _ hu => hu

/-- All requests but puts count down. -/
theorem bears_wanes : Bears Wanes where
  tally s _ _ _ := refl s.counters
  clock s _ := refl s.counters
  contains k := wanes_onSegment (Segment.dwindling_contains k)
  getRecord? k := wanes_onSegment (Segment.dwindling_getRecord? k)
  get? k := wanes_onSegment (Segment.dwindling_get? k)
  remove k := wanes_onSegment (Segment.dwindling_remove k)
  matching tm := wanes_onSegment (Segment.dwindling_matching tm)
  evictExpired := wanes_onSegment Segment.dwindling_evictExpired
  destroy := wanes_onSegment Segment.dwindling_destroy

/-- A put counts one entry up or none. One that fails marks nothing, and counts nothing if its record can be
    addressed. -/
theorem put_counted (s : Store) (payload : Bytes) (ttl : Lifetime) :
    Yields (put payload ttl) s (fun _ s' => Wanes s s' ∨ s.counters.Raises s'.counters)
      fun _ s' => s'.counters.rehash? = s.counters.rehash? ∧
        (s.Safe → Record.sizeFor payload.length ≤ Block.addressable → Wanes s s') := by
  rcases put_runs s payload ttl with ⟨e, hrun⟩ | ⟨k, i, g, -, -, hi, hrun⟩
  · exact .of_error hrun ⟨rfl, fun _ _ => refl s.counters⟩
  · let s₁ := s.tally s.gets (s.puts + 1) s.removes
    have hi₁ : s₁.segment? i = some g := hi
    have hput := Segment.put_counted (s₁.part g) k (Record.fresh payload ttl s.clock.now)
    refine .of_eq hrun ?_
    cases hx : Segment.put k (Record.fresh payload ttl s.clock.now) (s₁.part g) with
    | ok n u => exact .of_ok (onSegment_ok hi₁ hx) (hput.ok hx)
    | error e u =>
      refine .of_error (onSegment_error hi₁ hx) ⟨(hput.error hx).1, fun hs hsize => ?_⟩
      exact (hput.error hx).2 _ (hs.part hi) hsize

/-- What a trial puts can be addressed. -/
def Trial.Addressable (schema : Schema) : Trial → Prop
  | ask q => ∀ payload ttl, q.Offers schema payload ttl → Record.sizeFor payload.length ≤ Block.addressable
  | plan _ => True

/-- Each trial counts entries down, or one up. -/
theorem Trial.run_counted (hs : s.Safe) (hx : x.Addressable s.schema) :
    Wanes s (x.run s) ∨ s.counters.Raises (x.run s).counters := by
  cases x with
  | plan f => exact Or.inl (refl s.counters)
  | ask q =>
    rcases bears_wanes.cases q s with hwanes | ⟨payload, ttl, hoffers, hrun⟩
    · exact Or.inl hwanes
    · show Wanes s (answer q s).2 ∨ s.counters.Raises (answer q s).2.counters
      rw [hrun]
      refine ((put_counted s payload ttl).mono (fun _ _ h => h) fun e s' h => ?_).final
      exact Or.inl (h.2 hs (hx payload ttl hoffers))

/-! ### Runs -/

theorem endure_append (past future : List Trial) (s : Store) :
    endure (past ++ future) s = endure future (endure past s) := List.foldl_append

/-- A safe store whose mark agrees with the number of its entries. -/
structure Heedful (t : Thresholds) (schema : Schema) (s : Store) : Prop where
  schema : s.schema = schema
  safe : s.Safe
  heeds : s.counters.Heeds t

section Run
variable {schema : Schema} (hlt : t.shrink < t.grow)
include hlt

theorem Trial.run_heedful (hs : s.Heedful t schema) (hx : x.Addressable schema) : (x.run s).Heedful t schema := by
  have hsecures := x.run_secures s
  refine ⟨hsecures.schema.trans hs.schema, hsecures.safe hs.safe, ?_⟩
  rcases Trial.run_counted hs.safe (hs.schema ▸ hx) with hwanes | hraises
  · exact hs.heeds.of_dwindles hlt hwanes
  · exact hs.heeds.of_raises hlt hraises

theorem endure_heedful (hs : s.Heedful t schema) (htrials : ∀ x ∈ trials, x.Addressable schema) :
    (endure trials s).Heedful t schema := by
  induction trials generalizing s with
  | nil => exact hs
  | cons x trials ih =>
    exact ih (Trial.run_heedful hlt hs (htrials x List.mem_cons_self)) fun y hy => htrials y (List.mem_cons_of_mem x hy)

/-- Once a rehash is marked, one is from then on. -/
theorem unmarked_of_endure (hs : s.Heedful t schema) (htrials : ∀ x ∈ trials, x.Addressable schema)
    (hnone : (endure trials s).counters.rehash? = none) : s.counters.rehash? = none := by
  induction trials generalizing s with
  | nil => exact hnone
  | cons x trials ih =>
    have hx := htrials x List.mem_cons_self
    have hrest := ih (Trial.run_heedful hlt hs hx) (fun y hy => htrials y (List.mem_cons_of_mem x hy)) hnone
    exact (hs.heeds.unmarked (Trial.run_counted hs.safe (hs.schema ▸ hx)) hrest).1

/-- If nothing is marked in the end, nothing was marked at any time on the way. -/
theorem endure_before (past future : List Trial) (hs : s.Heedful t schema)
    (htrials : ∀ x ∈ past ++ future, x.Addressable schema)
    (hnone : (endure (past ++ future) s).counters.rehash? = none) :
    (endure past s).Heedful t schema ∧ (endure past s).counters.rehash? = none := by
  have hpast := endure_heedful hlt hs fun x hx => htrials x (List.mem_append_left future hx)
  rw [endure_append] at hnone
  exact ⟨hpast, unmarked_of_endure hlt hpast (fun x hx => htrials x (List.mem_append_right past hx)) hnone⟩

end Run

/-- What the mark tells of the number of entries after some trials, and that puts that fail leave it alone. -/
structure Vigilant (t : Thresholds) (trials : List Trial) (s : Store) : Prop where
  grown : t.grow ≤ (endure trials s).size → (endure trials s).counters.rehash? = some .grow
  shrunk : (endure trials s).size ≤ t.shrink → (endure trials s).counters.rehash? ≠ some .grow
  /-- While nothing is marked, there have always been fewer entries than the upper threshold. -/
  below : (endure trials s).counters.rehash? = none → ∀ past future, trials = past ++ future →
    (endure past s).size < t.grow
  /-- While nothing is marked, no trial has brought the number of entries down to the lower threshold. -/
  above : (endure trials s).counters.rehash? = none → ∀ past x future, trials = past ++ x :: future →
    t.shrink < (endure past s).size → t.shrink < (x.run (endure past s)).size
  refused : ∀ payload ttl e s', put payload ttl (endure trials s) = .error e s' →
    s'.counters.rehash? = (endure trials s).counters.rehash?
  refusedEntity : ∀ entity lifetime? e s', putEntity entity lifetime? (endure trials s) = .error e s' →
    s'.counters.rehash? = (endure trials s).counters.rehash?

theorem putEntity_unmarked {entity : Entity} {lifetime? : Option Duration} {e : Failure}
    (h : putEntity entity lifetime? s = .error e s') : s'.counters.rehash? = s.counters.rehash? := by
  rcases putEntity_cases s entity lifetime? with ⟨_, -, hrun⟩ | ⟨_, _, -, -, hrun⟩ | ⟨ttl, payload, -, -, hrun⟩
  · rw [hrun] at h
    cases h
    rfl
  · rw [hrun] at h
    cases h
    rfl
  · exact ((put_counted s payload ttl).error (hrun.symm.trans h)).1

variable {schema : Schema} {config : StoreConfig} {memory : Memory} {notifier : Notifier} {clock : Clock}
  {draw : Nat → Nat}

theorem fresh_of_create (hs : create schema config memory notifier clock draw = .ok s) (hstarted : memory.Started) :
    s.Fresh := by
  have hsegment := segment_of_create hs
  obtain ⟨-, rfl⟩ := of_create hs
  refine ⟨hstarted, fun i g hi => ⟨config.segmentCapacity, ?_⟩⟩
  rw [Placement.eq_of_populate hi]
  exact hsegment

theorem heedful_of_create (hs : create schema config memory notifier clock draw = .ok s) (hstarted : memory.Started)
    (ht : s.counters.thresholds? = some t) (hlt : t.shrink < t.grow) : s.Heedful t schema := by
  have hfresh := fresh_of_create hs hstarted
  obtain ⟨-, rfl⟩ := of_create hs
  refine ⟨rfl, hfresh.safe, ht, fun hgrow => ?_, nofun⟩
  exact absurd (show t.grow ≤ 0 from hgrow) (by omega)

/-- Whatever a store goes through, calls that fail included, the rehash that it marks agrees with the number of its
    entries. -/
theorem vigilant_of_create (hs : create schema config memory notifier clock draw = .ok s) (hstarted : memory.Started)
    (ht : s.counters.thresholds? = some t) (hlt : t.shrink < t.grow)
    (htrials : ∀ x ∈ trials, x.Addressable schema) : Vigilant t trials s := by
  have hheedful := heedful_of_create hs hstarted ht hlt
  have hend := endure_heedful hlt hheedful htrials
  refine ⟨hend.heeds.grown, hend.heeds.shrunk, fun hnone past future hsplit => ?_,
    fun hnone past x future hsplit habove => ?_, fun payload ttl e s' hrun => ?_, fun _ _ _ _ => putEntity_unmarked⟩
  · subst hsplit
    obtain ⟨hpast, hunmarked⟩ := endure_before hlt past future hheedful htrials hnone
    by_contra hgrown
    rw [hpast.heeds.grown (Nat.le_of_not_lt hgrown)] at hunmarked
    cases hunmarked
  · subst hsplit
    have hx := htrials x (List.mem_append_right past List.mem_cons_self)
    obtain ⟨hpast, -⟩ := endure_before hlt past (x :: future) hheedful htrials hnone
    rw [List.append_cons] at htrials hnone
    obtain ⟨-, hunmarked⟩ := endure_before hlt (past ++ [x]) future hheedful htrials hnone
    rw [endure_append] at hunmarked
    have hstays := (hpast.heeds.unmarked (Trial.run_counted hpast.safe (hpast.schema ▸ hx)) hunmarked).2
    exact Nat.lt_of_not_le fun hfallen => hstays ⟨habove, hfallen⟩
  · exact ((put_counted _ payload ttl).error hrun).1

/-- Of four entries three are too many and none too few. The third one is stored only when it is put again, and one of
    them cannot be given back in the end. -/
theorem vigilant_of_retry : Vigilant ⟨3, 0⟩ [.ask (.put [1, 0, 1, 0] Lifetime.forever),
      .ask (.put [1, 0, 1, 1] Lifetime.forever), .plan (.single .write 1),
      .ask (.put [1, 0, 4, 0, 0, 0, 0] Lifetime.forever), .ask (.put [1, 0, 4, 0, 0, 0, 0] Lifetime.forever),
      .plan (.single .release 1), .ask .destroy]
    (made ⟨"Entry", []⟩ { minSegments := 1, maxSegments := 1, segmentCapacity := 2, nominalCapacity := 4 } .empty
      (.silent "Entry") ⟨0⟩ (Placement.evenly 1 1)) := by
  have hmade : create ⟨"Entry", []⟩ { minSegments := 1, maxSegments := 1, segmentCapacity := 2, nominalCapacity := 4 }
      .empty (.silent "Entry") ⟨0⟩ (Placement.evenly 1 1) = .ok (made _ _ _ _ _ _) := rfl
  refine vigilant_of_create hmade Nat.zero_lt_one rfl (by decide) ?_
  simp only [List.forall_mem_cons]
  refine ⟨?_, ?_, trivial, ?_, ?_, trivial, fun _ _ => False.elim, fun _ hx => absurd hx List.not_mem_nil⟩
  all_goals
    rintro payload ttl ⟨rfl, rfl⟩
    decide

end RecordStore.Store
