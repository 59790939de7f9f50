import RecordStore.Proofs.Store.Entries

/-! # Operations on all segments

An operation that concerns all entries visits the segments in turn. After some of them, the records that belong to
the segments visited are as the operation makes them, and the others as they were. -/

namespace RecordStore.Store

variable {s s' : Store} {g : Segment} {i : Nat} {r : Record} {rs : Multiset Record}

/-- Whether a record belongs to a segment in one of the slots. -/
def Within (s : Store) (slots : List Nat) (r : Record) : Prop := ∃ i ∈ slots, s.place? r = some i

instance (s : Store) (slots : List Nat) (r : Record) : Decidable (s.Within slots r) :=
  inferInstanceAs (Decidable (∃ i ∈ slots, s.place? r = some i))

theorem within_cons {slots : List Nat} : s.Within (i :: slots) r ↔ s.place? r = some i ∨ s.Within slots r :=
  List.exists_mem_cons_iff ..

theorem Leads.within {slots : List Nat} (h : Leads s s' rs) : s'.Within slots r ↔ s.Within slots r := by
  unfold Within
  rw [h.keeps.place?]

/-- What has gone in the first segment and then in the rest has gone in all of them. -/
theorem filter_within_cons {q : Record → Prop} [DecidablePred q] (slots : List Nat) (rs : Multiset Record) :
    (rs.filter fun r => ¬ (q r ∧ s.place? r = some i)).filter (fun r => ¬ (q r ∧ s.Within slots r)) =
      rs.filter fun r => ¬ (q r ∧ s.Within (i :: slots) r) := by
  rw [Multiset.filter_filter]
  refine Multiset.filter_congr fun r _ => ?_
  rw [within_cons, and_or_left, not_or, and_comm]

theorem within_occupied (hs : s.WellFormed) (hr : r ∈ s.records) : s.Within (Placement.occupied s.slots) r := by
  obtain ⟨i, g, hi, hr⟩ := mem_records.mp hr
  refine ⟨i, List.mem_filter.mpr ⟨List.mem_range.mpr (lt_of_occupant? hi), ?_⟩, hs.routed hi hr⟩
  show (s.segment? i).isSome = true
  rw [hi]
  rfl

theorem filter_occupied {q : Record → Prop} [DecidablePred q] (hs : s.WellFormed) :
    s.records.filter (fun r => ¬ (q r ∧ s.Within (Placement.occupied s.slots) r)) =
      s.records.filter fun r => ¬ q r :=
  Multiset.filter_congr fun _ hr => not_congr ⟨And.left, fun hq => ⟨hq, within_occupied hs hr⟩⟩

theorem occupied_segment (hi : i ∈ Placement.occupied s.slots) : (s.segment? i).isSome :=
  (List.mem_filter.mp hi).2

theorem Leads.segment (h : Leads s s' rs) (hi : (s.segment? i).isSome) : (s'.segment? i).isSome := by
  have htaken := congrFun h.keeps.taken i
  unfold Placement.isTaken at htaken
  unfold segment? at hi ⊢
  rw [htaken]
  exact hi

/-! ### One segment of the round -/

/-- A segment that drops the records of a kind drops those of the store that belong to it. -/
theorem leads_dropped {q : Record → Prop} [DecidablePred q] {u : Segment.State} (hs : s.WellFormed)
    (hi : s.segment? i = some g) (hu : Segment.Leads (s.part g) u ((s.part g).records.filter fun r => ¬ q r)) :
    Leads s (s.update i u) (s.records.filter fun r => ¬ (q r ∧ s.place? r = some i)) := by
  have hmine : (s.part g).records.filter (fun r => ¬ q r) =
      (s.part g).records.filter fun r => ¬ (q r ∧ s.place? r = some i) :=
    Multiset.filter_congr fun r hr => not_congr ⟨fun hq => ⟨hq, place?_of_mem_part hs hi hr⟩, And.left⟩
  rw [hmine] at hu
  exact leads_filter hs hi hu fun r _ hne h => hne h.2

/-! ### Evicting -/

theorem evictIn_ok (hs : s.WellFormed) (slots : List Nat) (n : Nat) (hslots : ∀ i ∈ slots, (s.segment? i).isSome) :
    (∃ n' s', evictIn slots n s = .ok n' s' ∧
      Leads s s' (s.records.filter fun r => ¬ (r.isOver s.clock.now ∧ s.Within slots r)) ∧
      n' + s'.records.card = n + s.records.card) ∨
    Breaks (evictIn slots n) s := by
  induction slots generalizing s n with
  | nil =>
    refine Or.inl ⟨n, s, rfl, ?_, rfl⟩
    rw [Multiset.filter_eq_self.mpr (by simp [Within])]
    exact Leads.refl hs
  | cons i slots ih =>
    obtain ⟨g, hi⟩ := Option.isSome_iff_exists.mp (hslots i List.mem_cons_self)
    rcases Segment.evictExpired_ok (part_wellFormed hs hi) with ⟨more, u, hsegment, hu, hcard⟩ | hbreaks
    · have hrun := onSegment_ok hi hsegment
      have hleads : Leads s (s.update i u)
          (s.records.filter fun r => ¬ (r.isOver s.clock.now ∧ s.place? r = some i)) := leads_dropped hs hi hu
      have hmore : more + (s.update i u).records.card = s.records.card := by
        have hupdate := card_update hs hi hu.alters
        rw [← hu.records] at hupdate
        omega
      have hrest : evictIn (i :: slots) n s = evictIn slots (n + more) (s.update i u) := by
        simp only [evictIn, Action.bind_ok hrun]
      rcases ih hleads.wellFormed (n + more) fun j hj => hleads.segment (hslots j (List.mem_cons_of_mem i hj)) with
        ⟨n', s', hrun', hleads', hcard'⟩ | hbreaks
      · refine Or.inl ⟨n', s', hrest.trans hrun', ?_, by omega⟩
        have hall := hleads.trans hleads'
        simp only [hleads.within, hleads.keeps.clock, hleads.records] at hall
        rw [filter_within_cons (q := fun r => r.isOver s.clock.now)] at hall
        exact hall
      · exact Or.inr (hbreaks.of_leads hleads fun e s'' h => hrest.trans h)
    · exact Or.inr ((breaks_of_part hs hi hbreaks).of_leads (Leads.refl hs) fun e s'' h => Action.bind_error h)

/-- All records that are over are evicted, and counted. -/
theorem evictExpired_ok (hs : s.WellFormed) :
    (∃ n s', evictExpired s = .ok n s' ∧ Leads s s' s.unexpired ∧ n + s'.records.card = s.records.card) ∨
    Breaks evictExpired s := by
  have hrun : evictExpired s = evictIn (Placement.occupied s.slots) 0 s := rfl
  rcases evictIn_ok hs (Placement.occupied s.slots) 0 fun i hi => occupied_segment hi with
    ⟨n, s', hall, hleads, hcard⟩ | hbreaks
  · rw [filter_occupied (q := fun r => r.isOver s.clock.now) hs] at hleads
    exact Or.inl ⟨n, s', hrun.trans hall, hleads, by omega⟩
  · exact Or.inr (hbreaks.of_leads (Leads.refl hs) fun e s'' h => hrun.trans h)

/-! ### By template -/

theorem filter_within_add {q : Record → Prop} [DecidablePred q] {slots : List Nat} (hnot : i ∉ slots)
    (rs : Multiset Record) :
    (rs.filter fun r => q r ∧ s.place? r = some i) + (rs.filter fun r => q r ∧ s.Within slots r) =
      rs.filter fun r => q r ∧ s.Within (i :: slots) r := by
  have hapart : ∀ r ∈ rs, ¬ ((q r ∧ s.place? r = some i) ∧ q r ∧ s.Within slots r) := by
    rintro r - ⟨⟨-, hi⟩, -, j, hj, hj'⟩
    rw [hi] at hj'
    exact hnot (Option.some.inj hj' ▸ hj)
  rw [Multiset.filter_add_filter, Multiset.filter_eq_nil.mpr hapart, add_zero]
  refine Multiset.filter_congr fun r _ => ?_
  rw [within_cons, and_or_left]

/-- A record that is not over is one of its segment's. -/
theorem mem_unexpired_part (hs : s.WellFormed) (hi : s.segment? i = some g) :
    r ∈ (s.part g).unexpired ↔ r ∈ s.unexpired ∧ s.place? r = some i := by
  rw [Segment.State.unexpired, (records_part hs hi).1, unexpired, Multiset.mem_filter, Multiset.mem_filter,
    Multiset.mem_filter, and_right_comm]
  exact Iff.rfl

/-- The matches in the segments of some slots. A payload that cannot be compared fails the search. -/
theorem matchingIn_cases (hs : s.WellFormed) (tm : Template) (slots : List Nat) (matched : List Bytes)
    (hnodup : slots.Nodup) (hslots : ∀ i ∈ slots, (s.segment? i).isSome) :
    (∃ matched' s', matchingIn tm slots matched s = .ok matched' s' ∧
      Leads s s' (s.records.filter fun r => ¬ (r.isOver s.clock.now ∧ s.Within slots r)) ∧
      (matched' : Multiset Bytes) = ↑matched + (s.records.filter fun r =>
        (¬ r.isOver s.clock.now ∧ Segment.matchedBy tm r) ∧ s.Within slots r).map (·.payload) ∧
      ∀ r ∈ s.unexpired, s.Within slots r → ∃ b, tm.matches? r.payload = .ok b) ∨
    (∃ fault s' rs, ∃ r ∈ s.unexpired, tm.matches? r.payload = .error fault ∧
      matchingIn tm slots matched s = .error (.error (.codec fault)) s' ∧ Leads s s' rs) ∨
    Breaks (matchingIn tm slots matched) s := by
  induction slots generalizing s matched with
  | nil =>
    refine Or.inl ⟨matched, s, rfl, ?_, ?_, by simp [Within]⟩
    · rw [Multiset.filter_eq_self.mpr (by simp [Within])]
      exact Leads.refl hs
    · rw [Multiset.filter_eq_nil.mpr (by simp [Within])]
      exact (add_zero _).symm
  | cons i slots ih =>
    obtain ⟨g, hi⟩ := Option.isSome_iff_exists.mp (hslots i List.mem_cons_self)
    rw [List.nodup_cons] at hnodup
    rcases Segment.matching_cases (part_wellFormed hs hi) tm with
      ⟨more, u, hsegment, hu, hmore, hcomparable⟩ | ⟨fault, r, hr, hfault, hsegment⟩ | hbreaks
    · have hrun := onSegment_ok hi hsegment
      have hleads : Leads s (s.update i u)
          (s.records.filter fun r => ¬ (r.isOver s.clock.now ∧ s.place? r = some i)) := leads_dropped hs hi hu
      have hrest : matchingIn tm (i :: slots) matched s = matchingIn tm slots (matched ++ more) (s.update i u) := by
        simp only [matchingIn, Action.bind_ok hrun]
      have hmine : (more : Multiset Bytes) = (s.records.filter fun r =>
          (¬ r.isOver s.clock.now ∧ Segment.matchedBy tm r) ∧ s.place? r = some i).map (·.payload) := by
        rw [hmore, Segment.State.unexpired, (records_part hs hi).1, Multiset.filter_filter, Multiset.filter_filter]
        refine congrArg _ (Multiset.filter_congr fun r _ => ?_)
        exact and_congr_left fun _ => and_comm
      rcases ih hleads.wellFormed (matched ++ more) hnodup.2
          fun j hj => hleads.segment (hslots j (List.mem_cons_of_mem i hj)) with
        ⟨matched', s', hrun', hleads', hmatched, hcomparable'⟩ |
          ⟨fault, s', rs, r, hr, hfault, hrun', hleads'⟩ | hbreaks
      · refine Or.inl ⟨matched', s', hrest.trans hrun', ?_, ?_, fun r hr hwithin => ?_⟩
        · have hall := hleads.trans hleads'
          simp only [hleads.within, hleads.keeps.clock, hleads.records] at hall
          rw [filter_within_cons (q := fun r => r.isOver s.clock.now)] at hall
          exact hall
        · simp only [hleads.within, hleads.keeps.clock, hleads.records, Multiset.filter_filter] at hmatched
          rw [hmatched, ← Multiset.coe_add, hmine, add_assoc, ← Multiset.map_add,
            ← filter_within_add (q := fun r => ¬ r.isOver s.clock.now ∧ Segment.matchedBy tm r) hnodup.1]
          congr 3
          refine Multiset.filter_congr fun r _ => ?_
          exact ⟨And.left, fun h => ⟨h, fun hdue => h.1.1 hdue.1⟩⟩
        · rcases within_cons.mp hwithin with hplace | hwithin
          · exact hcomparable r ((mem_unexpired_part hs hi).mpr ⟨hr, hplace⟩)
          · refine hcomparable' r ?_ (hleads.within.mpr hwithin)
            obtain ⟨hmem, hlasts⟩ := Multiset.mem_filter.mp hr
            rw [unexpired, hleads.records, hleads.keeps.clock]
            exact Multiset.mem_filter.mpr ⟨Multiset.mem_filter.mpr ⟨hmem, fun hdue => hlasts hdue.1⟩, hlasts⟩
      · refine Or.inr (Or.inl ⟨fault, s', rs, r, ?_, hfault, hrest.trans hrun', hleads.trans hleads'⟩)
        rw [unexpired, hleads.records, hleads.keeps.clock] at hr
        exact Multiset.mem_filter.mpr ⟨Multiset.mem_of_mem_filter (Multiset.mem_of_mem_filter hr),
          (Multiset.mem_filter.mp hr).2⟩
      · exact Or.inr (Or.inr (hbreaks.of_leads hleads fun e s'' h => hrest.trans h))
    · have hmem := ((mem_unexpired_part hs hi).mp hr).1
      refine Or.inr (Or.inl ⟨fault, _, _, r, hmem, hfault, Action.bind_error (onSegment_error hi hsegment),
        leads_same hs hi (Segment.Leads.refl (part_wellFormed hs hi))⟩)
    · exact Or.inr (Or.inr ((breaks_of_part hs hi hbreaks).of_leads (Leads.refl hs) fun e s'' h => Action.bind_error h))

/-- The payloads that match are answered, and all records that are over are evicted. -/
theorem matching_cases (hs : s.WellFormed) (tm : Template) :
    (∃ matched s', matching tm s = .ok matched s' ∧ Leads s s' s.unexpired ∧
      (matched : Multiset Bytes) = (s.unexpired.filter (Segment.matchedBy tm ·)).map (·.payload) ∧
      ∀ r ∈ s.unexpired, ∃ b, tm.matches? r.payload = .ok b) ∨
    (∃ fault s' rs, ∃ r ∈ s.unexpired, tm.matches? r.payload = .error fault ∧
      matching tm s = .error (.error (.codec fault)) s' ∧ Leads s s' rs) ∨
    Breaks (matching tm) s := by
  have hrun : matching tm s = matchingIn tm (Placement.occupied s.slots) [] s := rfl
  have hnodup : (Placement.occupied s.slots).Nodup := List.nodup_range.filter _
  rcases matchingIn_cases hs tm (Placement.occupied s.slots) [] hnodup fun i hi => occupied_segment hi with
    ⟨matched, s', hall, hleads, hmatched, hcomparable⟩ | ⟨fault, s', rs, r, hr, hfault, hall, hleads⟩ | hbreaks
  · rw [filter_occupied (q := fun r => r.isOver s.clock.now) hs] at hleads
    refine Or.inl ⟨matched, s', hrun.trans hall, hleads, ?_, fun r hr =>
      hcomparable r hr (within_occupied hs (Multiset.mem_of_mem_filter hr))⟩
    rw [hmatched, unexpired, Multiset.filter_filter, Multiset.coe_nil, zero_add]
    refine congrArg _ (Multiset.filter_congr fun r hr => ?_)
    exact ⟨fun h => h.1.symm, fun h => ⟨h.symm, within_occupied hs hr⟩⟩
  · exact Or.inr (Or.inl ⟨fault, s', rs, r, hr, hfault, hrun.trans hall, hleads⟩)
  · exact Or.inr (Or.inr (hbreaks.of_leads (Leads.refl hs) fun e s'' h => hrun.trans h))

/-! ### Tearing down -/

theorem destroyIn_ok (hs : s.WellFormed) (slots : List Nat) (failure? : Option Error)
    (hslots : ∀ i ∈ slots, (s.segment? i).isSome) :
    ∃ s', destroyIn slots failure? s = .ok failure? s' ∧
      Leads s s' (s.records.filter fun r => ¬ (True ∧ s.Within slots r)) := by
  induction slots generalizing s with
  | nil =>
    refine ⟨s, rfl, ?_⟩
    rw [Multiset.filter_eq_self.mpr (by simp [Within])]
    exact Leads.refl hs
  | cons i slots ih =>
    obtain ⟨g, hi⟩ := Option.isSome_iff_exists.mp (hslots i List.mem_cons_self)
    obtain ⟨u, hsegment, hu, -⟩ := Segment.destroy_ok (part_wellFormed hs hi)
    have hnone : (0 : Multiset Record) = (s.part g).records.filter fun r => ¬ True := by
      rw [Multiset.filter_eq_nil.mpr fun _ _ => not_not.mpr trivial]
    rw [hnone] at hu
    have hleads := leads_dropped (q := fun _ => True) hs hi hu
    have hrun := Action.attempt_ok (onSegment_ok hi hsegment)
    obtain ⟨s', hrest, hleads'⟩ := ih hleads.wellFormed fun j hj => hleads.segment (hslots j (List.mem_cons_of_mem i hj))
    refine ⟨s', by simp only [destroyIn, Action.bind_ok hrun, hrest], ?_⟩
    have hall := hleads.trans hleads'
    simp only [hleads.within, hleads.records] at hall
    rw [filter_within_cons (q := fun _ => True)] at hall
    exact hall

/-- Tearing a store down succeeds, and leaves it without records. -/
theorem destroy_ok (hs : s.WellFormed) : ∃ s', destroy s = .ok () s' ∧ Leads s s' 0 := by
  obtain ⟨s', hrun, hleads⟩ := destroyIn_ok hs (Placement.occupied s.slots) none fun i hi => occupied_segment hi
  rw [filter_occupied (q := fun _ => True) hs, Multiset.filter_eq_nil.mpr fun _ _ => not_not.mpr trivial] at hleads
  refine ⟨s', ?_, hleads⟩
  have hslots : occupiedSlots s = .ok (Placement.occupied s.slots) s := rfl
  simp only [destroy, Action.bind_ok hslots, Action.bind_ok hrun, Action.pure_run]

end RecordStore.Store
