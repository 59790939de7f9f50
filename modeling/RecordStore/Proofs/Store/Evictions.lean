import RecordStore.Proofs.Store.EvictionSequences

/-! # What requests evict

What each request evicts, in whatever state and whatever fails: a lookup the record of its key, a search and a sweep
everything that is over. -/

namespace RecordStore.Store

open RecordStore.Action

variable {α β : Type} {s : Store} {g : Segment} {i : Nat} {k : Value} {bad : Prop}

/-! ### Operations of one segment -/

theorem onSegment_congr {x y : Segment.Op α} (hi : s.segment? i = some g) (h : x (s.part g) = y (s.part g)) :
    onSegment i x s = onSegment i y s := by
  unfold part at h
  simp only [onSegment, hi, h]

/-- A segment that does one thing after the other is one operation of it after the other. -/
theorem onSegment_bind {x : Segment.Op α} {f : α → Segment.Op β} (hi : s.segment? i = some g) :
    onSegment i (x >>= f) s = (do let a ← onSegment i x; onSegment i (f a) : Op β) s := by
  cases hx : x (s.part g) with
  | error e u => rw [onSegment_error hi (bind_error hx), bind_error (onSegment_error hi hx)]
  | ok a u =>
    have hi' : (s.update i u).segment? i = some u.segment := by rw [segment?_update hi, if_pos rfl]
    have hupdate (v : Segment.State) : (s.update i u).update i v = s.update i v := by
      simp only [update, Array.setIfInBounds_setIfInBounds]
    rw [bind_ok (onSegment_ok hi hx)]
    cases hf : f a u with
    | ok b v => rw [onSegment_ok hi ((bind_ok hx).trans hf), onSegment_ok hi' hf, hupdate]
    | error e v => rw [onSegment_error hi ((bind_ok hx).trans hf), onSegment_error hi' hf, hupdate]

theorem update_memory (hi : s.segment? i = some g) (m : Memory) :
    s.update i { s.part g with memory := m } = { s with memory := m } := by
  rw [update, show (s.part g).segment = g from rfl, setIfInBounds_occupant hi]
  rfl

theorem onSegment_same {x : Segment.Op α} {a : α} (hi : s.segment? i = some g) (hx : x (s.part g) = .ok a (s.part g)) :
    onSegment i x s = .ok a s := by
  rw [onSegment_ok hi hx]
  exact congrArg _ (update_memory hi s.memory)

theorem mem_part_iff (hs : s.Orderly) (hi : s.segment? i = some g) {r : Record} :
    r ∈ (s.part g).records ↔ r ∈ s.records ∧ s.place? r = some i := by
  have hmine : (s.part g).records = s.records.filter (s.place? · = some i) := (records_part hs.wellFormed hi).1
  rw [hmine, Multiset.mem_filter]

/-! ### Evicting -/

theorem course_evict (hs : s.Orderly) (hi : s.segment? i = some g) (k : Value) :
    Course bad (fun r => s.place? r = some i ∧ r.key? = some k) s (onSegment i (Segment.evict k) s) := by
  rcases Segment.evict_outcomes (hs.part hi) k with ⟨r, hr, hk, hdue, houtcome⟩ | ⟨hnone, hrun⟩
  · obtain ⟨hmem, hplace⟩ := (mem_part_iff hs hi).mp hr
    have hall : s.overdue.filter (fun r => s.place? r = some i ∧ r.key? = some k) = {r} := by
      have hone : s.records.filter (·.key? = some k) = {r} := filter_key (s := s.withFaults .never) hs.wellFormed hmem hk
      rw [overdue, Multiset.filter_filter, Multiset.filter_congr (q := fun r' =>
        (s.place? r' = some i ∧ r'.isOver s.clock.now) ∧ r'.key? = some k) fun r' _ => by tauto,
        ← Multiset.filter_filter, hone, Multiset.filter_singleton, if_pos ⟨hplace, hdue⟩]
    have hwithin : (([] ++ [r] : List Record) : Multiset Record) ≤
        s.overdue.filter fun r => s.place? r = some i ∧ r.key? = some k := hall.ge
    rcases houtcome with ⟨hplanned, hrun⟩ | ⟨u, hdrops, ⟨hrun, hlost⟩ | ⟨hrun, hlost⟩⟩
    · rw [onSegment_error hi hrun, update_memory hi]
      exact .refused (.refl hs) rfl hplanned hwithin
    · rw [onSegment_ok hi hrun]
      exact .finishes (.of_part hs hi hdrops) hlost hall.symm
    · rw [onSegment_error hi hrun]
      exact .broken (.refl hs) rfl (.of_part hs hi hdrops) hlost hwithin
  · rw [onSegment_same hi hrun]
    refine .idle (.refl hs) fun r hr hkind => ?_
    obtain ⟨hmem, hdue⟩ := Multiset.mem_filter.mp hr
    exact hnone r ((mem_part_iff hs hi).mpr ⟨hmem, hkind.1⟩) hkind.2 hdue

theorem course_evictAll (hs : s.Orderly) (hi : (s.segment? i).isSome) (keys : List Value) (n : Nat) :
    Course bad (fun r => s.place? r = some i ∧ ∃ k ∈ keys, r.key? = some k) s
      (onSegment i (Segment.evictAll keys n) s) := by
  induction keys generalizing s n with
  | nil =>
    obtain ⟨g, hi⟩ := Option.isSome_iff_exists.mp hi
    have hrun : onSegment i (Segment.evictAll [] n) s = .ok n s := onSegment_same hi rfl
    rw [hrun]
    refine .idle (.refl hs) fun r _ hkind => ?_
    obtain ⟨k, hk, -⟩ := hkind.2
    exact List.not_mem_nil hk
  | cons k keys ih =>
    obtain ⟨g, hi'⟩ := Option.isSome_iff_exists.mp hi
    rw [show Segment.evictAll (k :: keys) n = (do
      if ← Segment.evict k then Segment.evictAll keys (n + 1) else Segment.evictAll keys n) from rfl, onSegment_bind hi']
    refine ((course_evict hs hi' k).bind (q := fun r => s.place? r = some i ∧ ∃ k ∈ keys, r.key? = some k)
      fun {b s' gone} _ retires => ?_).congr fun r _ => ?_
    · have hrest (n : Nat) := ih (retires.orderly hs) (retires.occupied hi) n
      rw [retires.place?] at hrest
      cases b with
      | true => exact hrest (n + 1)
      | false => exact hrest n
    · rw [List.exists_mem_cons_iff, and_or_left]

theorem course_evictGathered {keys : List Value} (hs : s.Orderly) (hi : s.segment? i = some g) (n : Nat)
    (hkeys : ∀ k, k ∈ keys ↔ ∃ r ∈ (s.part g).records, r.isOver s.clock.now ∧ r.key? = some k) :
    Course bad (fun r => s.place? r = some i) s (onSegment i (Segment.evictAll keys n) s) := by
  refine (course_evictAll hs (by rw [hi]; rfl) keys n).congr fun r hr => and_iff_left_of_imp fun hplace => ?_
  obtain ⟨hmem, hdue⟩ := Multiset.mem_filter.mp hr
  obtain ⟨k, hk⟩ := exists_key hs.wellFormed hmem
  exact ⟨k, (hkeys k).mpr ⟨r, (mem_part_iff hs hi).mpr ⟨hmem, hplace⟩, hdue, hk⟩, hk⟩

theorem course_evictIn (hs : s.Orderly) (slots : List Nat) (n : Nat) (hslots : ∀ i ∈ slots, (s.segment? i).isSome) :
    Course bad (s.Within slots) s (evictIn slots n s) := by
  induction slots generalizing s n with
  | nil =>
    refine .idle (.refl hs) fun r _ hwithin => ?_
    obtain ⟨i, hi, -⟩ := hwithin
    exact List.not_mem_nil hi
  | cons i slots ih =>
    obtain ⟨g, hi⟩ := Option.isSome_iff_exists.mp (hslots i List.mem_cons_self)
    have hsegment : Course bad (fun r => s.place? r = some i) s (onSegment i Segment.evictExpired s) := by
      obtain ⟨keys, hrun, hkeys⟩ := Segment.evictExpired_runs (hs.part hi)
      rw [onSegment_congr hi hrun]
      exact course_evictGathered hs hi 0 hkeys
    refine (hsegment.bind (q := s.Within slots) fun {more s' gone} _ retires => ?_).congr fun r _ => within_cons.symm
    have hrest := ih (retires.orderly hs) (n + more) fun j hj => retires.occupied (hslots j (List.mem_cons_of_mem i hj))
    exact hrest.congr fun r _ => by rw [Within, Within, retires.place?]

/-- A sweep evicts all that is over. -/
theorem course_evictExpired (hs : s.Orderly) : Course bad (fun _ => True) s (evictExpired s) :=
  (course_evictIn hs (Placement.occupied s.slots) 0 fun _ => occupied_segment).congr fun _ hr =>
    iff_of_true (within_occupied (s := s.withFaults .never) hs.wellFormed (Multiset.mem_of_mem_filter hr)) trivial

/-! ### Searching -/

/-- Every payload that is not over can be compared with the template. -/
def Comparable (s : Store) (tm : Template) : Prop := ∀ r ∈ s.unexpired, ∃ b, tm.matches? r.payload = .ok b

theorem Retires.comparable {s' : Store} {gone : List Record} {tm : Template} (h : Retires s s' gone) :
    s'.Comparable tm ↔ s.Comparable tm := by
  unfold Comparable
  rw [h.unexpired h.due]

theorem course_matchingPart (hs : s.Orderly) (hi : s.segment? i = some g) (tm : Template) :
    Course (¬ s.Comparable tm) (fun r => s.place? r = some i) s (onSegment i (Segment.matching tm) s) := by
  rcases Segment.matching_runs (hs.part hi) tm with
    ⟨more, keys, hrun, -, hkeys, -⟩ | ⟨fault, r, hr, hlasts, hfault, hrun⟩
  · rw [onSegment_congr hi hrun, onSegment_bind hi]
    refine (course_evictGathered hs hi 0 hkeys).followed hs fun {n s' gone} retires => ?_
    obtain ⟨g', hi'⟩ := Option.isSome_iff_exists.mp (retires.occupied (i := i) (by rw [hi]; rfl))
    exact ⟨more, onSegment_same hi' rfl⟩
  · have hmem : r ∈ s.unexpired :=
      Multiset.mem_filter.mpr ⟨((mem_part_iff hs hi).mp hr).1, fun hdue => Bool.false_ne_true (hlasts.symm.trans hdue)⟩
    have hsame : s.update i (s.part g) = s := update_memory hi s.memory
    rw [onSegment_error hi hrun, hsame]
    refine .stopped (.refl hs) rfl (Multiset.zero_le _) fun hcomparable => ?_
    obtain ⟨b, hb⟩ := hcomparable r hmem
    rw [hfault] at hb
    cases hb

theorem course_matchingIn (hs : s.Orderly) (tm : Template) (slots : List Nat) (matched : List Bytes)
    (hslots : ∀ i ∈ slots, (s.segment? i).isSome) :
    Course (¬ s.Comparable tm) (s.Within slots) s (matchingIn tm slots matched s) := by
  induction slots generalizing s matched with
  | nil =>
    refine .idle (.refl hs) fun r _ hwithin => ?_
    obtain ⟨i, hi, -⟩ := hwithin
    exact List.not_mem_nil hi
  | cons i slots ih =>
    obtain ⟨g, hi⟩ := Option.isSome_iff_exists.mp (hslots i List.mem_cons_self)
    refine ((course_matchingPart hs hi tm).bind (q := s.Within slots) fun {more s' gone} _ retires => ?_).congr
      fun r _ => within_cons.symm
    have hrest := ih (retires.orderly hs) (matched ++ more) fun j hj =>
      retires.occupied (hslots j (List.mem_cons_of_mem i hj))
    rw [retires.comparable] at hrest
    exact hrest.congr fun r _ => by rw [Within, Within, retires.place?]

/-- A search evicts all that is over, unless a payload cannot be compared. -/
theorem course_matching (hs : s.Orderly) (tm : Template) :
    Course (¬ s.Comparable tm) (fun _ => True) s (matching tm s) :=
  (course_matchingIn hs tm (Placement.occupied s.slots) [] fun _ => occupied_segment).congr fun _ hr =>
    iff_of_true (within_occupied (s := s.withFaults .never) hs.wellFormed (Multiset.mem_of_mem_filter hr)) trivial

/-! ### Looking up -/

theorem course_lookup {x : Segment.Op α} (hs : s.Orderly)
    (hx : ∀ {t : Segment.State}, t.Orderly → Segment.LooksUp x k t) :
    Course bad (fun r => r.key? = some k) s (onSegmentOf k x s) := by
  obtain ⟨i, g, hroute, hi⟩ := hs.exists_route k
  have hplace (r : Record) (hk : r.key? = some k) : s.place? r = some i := (place?_of_key hk).trans hroute
  rw [onSegmentOf_eq x hroute]
  rcases hx (hs.part hi) with ⟨a, hrun⟩ | ⟨⟨a, hrun⟩, hnone⟩
  · rw [onSegment_congr hi hrun, onSegment_bind hi]
    refine ((course_evict hs hi k).followed hs fun {b s' gone} retires => ?_).congr fun r _ =>
      and_iff_right_of_imp (hplace r)
    obtain ⟨g', hi'⟩ := Option.isSome_iff_exists.mp (retires.occupied (i := i) (by rw [hi]; rfl))
    exact ⟨a, onSegment_same hi' rfl⟩
  · rw [onSegment_same hi hrun]
    refine .idle (.refl hs) fun r hr hk => ?_
    obtain ⟨hmem, hdue⟩ := Multiset.mem_filter.mp hr
    exact hnone r ((mem_part_iff hs hi).mpr ⟨hmem, hplace r hk⟩) hk hdue

theorem course_contains (hs : s.Orderly) (k : Value) : Course bad (fun r => r.key? = some k) s (contains k s) :=
  course_lookup hs fun ht => Segment.contains_looksUp ht k

/-- A lookup that is counted first. -/
theorem course_counted {x : Segment.Op α} (hs : s.Orderly)
    (hx : ∀ {t : Segment.State}, t.Orderly → Segment.LooksUp x k t) :
    Course bad (fun r => r.key? = some k) s ((do countGet; onSegmentOf k x : Op α) s) := by
  have hcount : Course bad (fun _ => False) s (countGet s) :=
    .idle (.tally hs (s.gets + 1) s.puts s.removes) fun _ _ => id
  exact (hcount.bind fun _ retires => course_lookup (retires.orderly hs) hx).congr fun _ _ => iff_of_eq (false_or _)

theorem course_getRecord? (hs : s.Orderly) (k : Value) : Course bad (fun r => r.key? = some k) s (getRecord? k s) :=
  course_counted hs fun ht => Segment.getRecord?_looksUp ht k

theorem course_get? (hs : s.Orderly) (k : Value) : Course bad (fun r => r.key? = some k) s (get? k s) :=
  course_counted hs fun ht => Segment.get?_looksUp ht k

/-! ### Removing -/

/-- The removal of a key comes to its record, which stays if the release of its block is refused and is gone without a
    word if it is not, or there is none. -/
theorem remove_outcomes (hs : s.Orderly) (k : Value) :
    (∃ r, s.records.filter (·.key? = some k) = {r} ∧
      ((s.memory.faults.isDue .release = true ∧ remove k s = .error (.error Memory.plannedFault)
          ((s.tally s.gets s.puts (s.removes + 1)).withFaults (s.memory.faults.pass .release))) ∨
        ∃ s', remove k s = .ok r.size s' ∧ Frees s s' [r] ∧ Silent s s')) ∨
    s.records.filter (·.key? = some k) = 0 ∧ remove k s = .ok 0 (s.tally s.gets s.puts (s.removes + 1)) := by
  have hcount := Frees.tally hs s.gets s.puts (s.removes + 1)
  have hcounted := hcount.orderly hs
  obtain ⟨i, g, hroute, hi⟩ := hcounted.exists_route k
  have hrun : remove k s = onSegment i (Segment.remove k) (s.tally s.gets s.puts (s.removes + 1)) :=
    onSegmentOf_eq _ hroute
  rcases Segment.remove_outcomes (hcounted.part hi) k with ⟨r, hr, hk, houtcome⟩ | ⟨hnew, hnone⟩
  · have hmem : r ∈ s.records := ((mem_part_iff hcounted hi).mp hr).1
    refine Or.inl ⟨r, filter_key (s := s.withFaults .never) hs.wellFormed hmem hk, ?_⟩
    rcases houtcome with ⟨hplanned, hrefused⟩ | ⟨u, hremoved, hfrees, hsilent⟩
    · refine Or.inl ⟨hplanned, ?_⟩
      rw [hrun, onSegment_error hi hrefused, update_memory hi]
      rfl
    · refine Or.inr ⟨_, hrun.trans (onSegment_ok hi hremoved), ?_, ⟨hsilent.notifier, hsilent.expired⟩⟩
      exact hcount.trans (Frees.of_part hcounted hi hfrees)
  · refine Or.inr ⟨Multiset.filter_eq_nil.mpr fun r hr hk => ?_, hrun.trans (onSegment_same hi hnone)⟩
    refine hnew r ((mem_part_iff hcounted hi).mpr ⟨hr, ?_⟩) hk
    exact (place?_of_key hk).trans hroute

end RecordStore.Store
