import RecordStore.Proofs.Store.Making
import RecordStore.Proofs.Store.Steps

/-! # Payloads that cannot be read

A store takes every payload that begins with a key, whatever comes after it. Only what decodes an entry or compares it
can fail on the rest, and then on that entry alone: keys are read, searched for and moved about without it, and no
failure costs an entry whose time is not over. -/

namespace RecordStore.Store

open RecordStore.Action

variable {α : Type} {s s' : Store} {k : Value} {r : Record} {q : Request} {e : Failure} {tm : Template}

/-- An operation is answered, unless a listener breaks it off. -/
def Answers (x : Op α) (s : Store) : Prop := (∃ a s', x s = .ok a s') ∨ Breaks x s

/-- What follows the keys of the stored payloads does no harm, but to what reads it. -/
structure Tolerant (s : Store) : Prop where
  /-- The key of every stored record can be read. -/
  readable : ∀ i g, s.segment? i = some g → ∀ h ∈ g.handles, ∃ k, Segment.keyAt h (s.part g) = .ok k (s.part g)
  contains : ∀ k, Answers (contains k) s
  getRecord? : ∀ k, Answers (getRecord? k) s
  get? : ∀ k, Answers (get? k) s
  evictExpired : Answers evictExpired s
  remove : ∀ k, ∃ n s', remove k s = .ok n s'
  destroy : ∃ s', destroy s = .ok () s'
  /-- What fails to be decoded is the payload of the key, and no other one. -/
  decoded : ∀ k, (∃ e s', getEntity? k s = .error (.error e) s') ↔
    ∃ r ∈ s.unexpired, r.key? = some k ∧ ∃ fault, Payload.decode r.payload = .error fault
  /-- A search that no listener breaks off fails just if some payload cannot be compared. -/
  compared : ∀ tm, Breaks (matching tm) s ∨ ((∃ e s', matching tm s = .error (.error e) s') ↔
    ∃ r ∈ s.unexpired, ∃ fault, tm.matches? r.payload = .error fault)
  kept : ∀ q e s', q.Fits s.schema → answer q s = (.failed e, s') → s'.unexpired = s.unexpired

/-! ### Keys -/

theorem keyAt_readable {g : Segment} {i : Nat} {h : Handle} (hs : s.WellFormed) (hi : s.segment? i = some g)
    (hh : h ∈ g.handles) : ∃ k, Segment.keyAt h (s.part g) = .ok k (s.part g) := by
  obtain ⟨j, hj⟩ := mem_held.mp (show h ∈ held g.slots from Multiset.mem_coe.mpr hh)
  obtain ⟨k, hk⟩ := (hs.inOrder hi).chained.readable hj
  exact ⟨k, Segment.keyAt_ok (Segment.readable_key? hs.steady.legible) hk⟩

/-! ### Decoding -/

/-- An entry that is not over is found, whoever listens. -/
theorem get?_of_mem (hs : s.WellFormed) (hr : r ∈ s.unexpired) (hk : r.key? = some k) :
    ∃ s', get? k s = .ok (some r.payload) s' := by
  have hcount := leads_tally hs (s.gets + 1) s.puts s.removes
  obtain ⟨i, g, hroute, hi⟩ := exists_route hcount.wellFormed k
  have hmem := (mem_unexpired_part hs hi).mpr ⟨hr, (place?_of_key hk).trans hroute⟩
  have hsegment := Segment.get?_of_mem (part_wellFormed hcount.wellFormed hi) hmem hk
  exact ⟨_, (onSegmentOf_eq _ hroute).trans (onSegment_ok hi hsegment)⟩

theorem getEntity?_fails_iff (hs : s.WellFormed) (k : Value) :
    (∃ e s', getEntity? k s = .error (.error e) s') ↔
      ∃ r ∈ s.unexpired, r.key? = some k ∧ ∃ fault, Payload.decode r.payload = .error fault := by
  constructor
  · rintro ⟨e, s', hfailed⟩
    rcases getEntity?_ok hs k with ⟨r?, s₁, hleads, hr, hrun⟩ | ⟨s₁, -, hbroken, -⟩
    · rw [hrun] at hfailed
      cases r? with
      | none => cases hfailed
      | some r =>
        obtain ⟨hmem, hk⟩ := (hr r).mp rfl
        rw [hleads.records] at hmem
        obtain ⟨hmem, hlasts⟩ := Multiset.mem_filter.mp hmem
        refine ⟨r, Multiset.mem_filter.mpr ⟨hmem, fun hdue => hlasts ⟨hdue, hk⟩⟩, hk, ?_⟩
        cases hd : Payload.decode r.payload with
        | ok entity =>
          simp only [hd] at hfailed
          cases hfailed
        | error fault => exact ⟨fault, rfl⟩
    · rw [hbroken] at hfailed
      cases hfailed
  · rintro ⟨r, hr, hk, fault, hfault⟩
    obtain ⟨s', hrun⟩ := get?_of_mem hs hr hk
    refine ⟨.codec fault, s', ?_⟩
    simp only [getEntity?, bind_ok hrun, hfault]
    rfl

/-! ### Comparing -/

theorem matching_fails_iff (hs : s.WellFormed) (tm : Template) :
    Breaks (matching tm) s ∨ ((∃ e s', matching tm s = .error (.error e) s') ↔
      ∃ r ∈ s.unexpired, ∃ fault, tm.matches? r.payload = .error fault) := by
  rcases matching_cases hs tm with
    ⟨matched, s₁, hrun, -, -, hcomparable⟩ | ⟨fault, s₁, rs, r, hr, hfault, hrun, -⟩ | hbreaks
  · refine Or.inr (iff_of_false ?_ ?_)
    · rintro ⟨e, s', hfailed⟩
      rw [hrun] at hfailed
      cases hfailed
    · rintro ⟨r, hr, fault, hfault⟩
      obtain ⟨b, hb⟩ := hcomparable r hr
      rw [hb] at hfault
      cases hfault
  · exact Or.inr (iff_of_true ⟨_, _, hrun⟩ ⟨r, hr, fault, hfault⟩)
  · exact Or.inl hbreaks

/-! ### Failing -/

theorem Evicts.unexpired {gone : Multiset Record} (h : Evicts s s' gone) : s'.unexpired = s.unexpired := by
  have hnone : gone.filter (fun r => ¬ r.isOver s.clock.now) = 0 :=
    Multiset.filter_eq_nil.mpr fun r hr => not_not.mpr (h.due r hr)
  rw [Store.unexpired, Store.unexpired, h.leads.keeps.clock, ← h.split, Multiset.filter_add, hnone, add_zero]

/-- A request that fails keeps all entries that are not over. -/
theorem unexpired_of_failed (hs : s.WellFormed) (hq : q.Fits s.schema) (h : answer q s = (.failed e, s')) :
    s'.unexpired = s.unexpired := by
  have hdoes := answer_does hs hq
  rw [h] at hdoes
  cases hdoes with
  | refuses _ hleads _ => rw [unexpired, hleads.records, hleads.keeps.clock, unexpired]
  | looks _ hevicts => exact hevicts.unexpired

/-! ### Runs -/

theorem WellFormed.tolerant (hs : s.WellFormed) : s.Tolerant where
  readable _ _ hi _ hh := keyAt_readable hs hi hh
  contains k := (contains_ok hs k).imp (fun ⟨b, s', hrun, _⟩ => ⟨b, s', hrun⟩) id
  getRecord? k := (getRecord?_ok hs k).imp (fun ⟨r?, s', hrun, _⟩ => ⟨r?, s', hrun⟩) id
  get? k := (get?_ok hs k).imp (fun ⟨_, s', hrun, _⟩ => ⟨_, s', hrun⟩) id
  evictExpired := (evictExpired_ok hs).imp (fun ⟨n, s', hrun, _⟩ => ⟨n, s', hrun⟩) id
  remove k := by
    obtain ⟨s', hrun, -⟩ := remove_ok hs k
    exact ⟨_, s', hrun⟩
  destroy := by
    obtain ⟨s', hrun, -⟩ := destroy_ok hs
    exact ⟨s', hrun⟩
  decoded := getEntity?_fails_iff hs
  compared := matching_fails_iff hs
  kept _ _ _ := unexpired_of_failed hs

variable {schema : Schema} {config : StoreConfig} {memory : Memory} {notifier : Notifier} {clock : Clock}
  {draw : Nat → Nat}

/-- Whatever payloads a store is given to keep, it tolerates them. -/
theorem tolerant_of_run (hs : create schema config memory notifier clock draw = .ok s) (hsteady : memory.Steady)
    (hsound : memory.arena.Sound) (requests : List Request) (hfits : ∀ q ∈ requests, q.Fits schema) :
    (run requests s).2.Tolerant := by
  obtain ⟨hvalid, rfl⟩ := of_create hs
  have hmade : (made schema config memory notifier clock draw).WellFormed := wellFormed_made hvalid hsteady hsound
  exact (run_wellFormed hmade hfits).1.tolerant

/-- Of two payloads one has a field less than it tells, and the other one is over. -/
theorem tolerant_of_truncated : (run [.put [2, 0, 1, 1] Lifetime.forever, .put [2, 0, 1, 0, 9] 5, .setClock 9]
    (made ⟨"Entry", []⟩ { minSegments := 1, maxSegments := 1, segmentCapacity := 2 } .empty (.silent "Entry") ⟨0⟩
      (Placement.evenly 1 1))).2.Tolerant := by
  have hmade : create ⟨"Entry", []⟩ { minSegments := 1, maxSegments := 1, segmentCapacity := 2 } .empty
      (.silent "Entry") ⟨0⟩ (Placement.evenly 1 1) = .ok (made _ _ _ _ _ _) := rfl
  refine tolerant_of_run hmade ⟨rfl, rfl, rfl⟩ (Arena.sound_empty none) _ ?_
  simp only [List.forall_mem_cons]
  exact ⟨show 4 < Record.lengthLimit by decide, show 5 < Record.lengthLimit by decide, trivial,
    fun _ hq => absurd hq List.not_mem_nil⟩

end RecordStore.Store
