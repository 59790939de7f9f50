import RecordStore.Counters

/-! # What is reserved and taken back

A reservation is refused, or adds to the entries and bytes what cancelling it takes away again. Without limits none
is refused. -/

namespace RecordStore.Counters

variable {c : Counters} {n old new : Nat}

theorem reserveBytes_cases (c : Counters) (n : Nat) :
    (∃ reason, c.reserveBytes n = .error reason ∧ c.maxBytes? ≠ none) ∨
      c.reserveBytes n = .ok { c with bytes := c.bytes + UInt64.ofNat n } := by
  unfold reserveBytes
  split
  · exact Or.inr rfl
  · rename_i max hmax
    split
    · exact Or.inr rfl
    · exact Or.inl ⟨_, rfl, by simp [hmax]⟩

theorem reserveInsert_cases (c : Counters) (n : Nat) :
    (∃ reason, c.reserveInsert n = .error reason ∧ ¬ (c.maxItems? = none ∧ c.maxBytes? = none)) ∨
      c.reserveInsert n =
        .ok (c.items + 1, { c with bytes := c.bytes + UInt64.ofNat n, items := c.items + 1 }) := by
  unfold reserveInsert
  split
  · rename_i max hmax
    split
    · exact Or.inl ⟨_, rfl, by simp [hmax]⟩
    · rcases reserveBytes_cases c n with ⟨reason, hres, hsome⟩ | hres
      · exact Or.inl ⟨reason, by simp [hres, bind, Except.bind], fun h => hsome h.2⟩
      · exact Or.inr (by simp [hres, bind, Except.bind, pure, Except.pure])
  · rcases reserveBytes_cases c n with ⟨reason, hres, hsome⟩ | hres
    · exact Or.inl ⟨reason, by simp [hres, bind, Except.bind], fun h => hsome h.2⟩
    · exact Or.inr (by simp [hres, bind, Except.bind, pure, Except.pure])

/-- Bytes are refused just if the limit does not allow them, told in numbers that do not go round. -/
theorem reserveBytes_error_iff :
    (∃ reason, c.reserveBytes n = .error reason) ↔ ∃ max, c.maxBytes? = some max ∧ max < c.bytes.toNat + n := by
  unfold reserveBytes
  cases hmax : c.maxBytes? with
  | none => simp
  | some max =>
    simp only [Option.some.injEq, exists_eq_left']
    split
    · rename_i hle
      exact iff_of_false (by rintro ⟨reason, h⟩; cases h) (by omega)
    · rename_i hlt
      exact iff_of_true ⟨_, rfl⟩ (by omega)

theorem reserveInsert_error_iff :
    (∃ reason, c.reserveInsert n = .error reason) ↔
      (∃ max, c.maxItems? = some max ∧ max ≤ c.items) ∨ ∃ max, c.maxBytes? = some max ∧ max < c.bytes.toNat + n := by
  have hbytes : (∃ reason, (do let c' ← c.reserveBytes n; return (c'.items + 1, { c' with items := c'.items + 1 }) :
      Except LimitFault (Nat × Counters)) = .error reason) ↔ ∃ reason, c.reserveBytes n = .error reason := by
    cases c.reserveBytes n <;> simp [bind, Except.bind, pure, Except.pure]
  rw [← reserveBytes_error_iff, ← hbytes]
  unfold reserveInsert
  cases hmax : c.maxItems? with
  | none => simp
  | some max =>
    simp only [Option.some.injEq, exists_eq_left']
    by_cases hfull : max ≤ c.items
    · rw [if_pos hfull]
      exact iff_of_true ⟨_, rfl⟩ (Or.inl hfull)
    · rw [if_neg hfull, or_iff_right hfull]

/-- What replaces another record is refused just if it is larger and the limit does not allow the difference. -/
theorem reserveReplace_error_iff :
    (∃ reason, c.reserveReplace old new = .error reason) ↔
      old < new ∧ ∃ max, c.maxBytes? = some max ∧ max < c.bytes.toNat + (new - old) := by
  unfold reserveReplace
  by_cases hgrow : old < new
  · rw [if_pos hgrow, reserveBytes_error_iff, and_iff_right hgrow]
  · rw [if_neg hgrow]
    exact iff_of_false (by rintro ⟨reason, h⟩; cases h) fun h => hgrow h.1

theorem reserveInsert_ok {items : Nat} {c' : Counters} (h : c.reserveInsert n = .ok (items, c')) :
    (∀ max, c.maxItems? = some max → c.items < max) ∧ (∀ max, c.maxBytes? = some max → c.bytes.toNat + n ≤ max) ∧
      c' = { c with bytes := c.bytes + UInt64.ofNat n, items := c.items + 1 } := by
  have hadmitted : ¬ ∃ reason, c.reserveInsert n = .error reason := by
    rintro ⟨reason, hrefused⟩
    rw [h] at hrefused
    cases hrefused
  rw [reserveInsert_error_iff, not_or] at hadmitted
  refine ⟨fun max hmax => Nat.lt_of_not_le fun hle => hadmitted.1 ⟨max, hmax, hle⟩,
    fun max hmax => Nat.le_of_not_lt fun hlt => hadmitted.2 ⟨max, hmax, hlt⟩, ?_⟩
  rcases reserveInsert_cases c n with ⟨reason, hrefused, -⟩ | hreserved
  · rw [h] at hrefused
    cases hrefused
  · rw [h] at hreserved
    cases hreserved
    rfl

theorem cancelInsert_reserved (c : Counters) (n : Nat) :
    cancelInsert { c with bytes := c.bytes + UInt64.ofNat n, items := c.items + 1 } n = c := by
  unfold cancelInsert
  cases c
  simp only [Nat.add_sub_cancel, Counters.mk.injEq, and_true, true_and]
  grind

theorem reserveReplace_cases (c : Counters) (old new : Nat) :
    (∃ reason, c.reserveReplace old new = .error reason ∧ c.maxBytes? ≠ none) ∨
      ∃ bytes, c.reserveReplace old new = .ok { c with bytes } ∧
        bytes + UInt64.ofNat old = c.bytes + UInt64.ofNat new ∧ cancelReplace { c with bytes } old new = c := by
  unfold reserveReplace cancelReplace
  by_cases hgrow : old < new
  · simp only [if_pos hgrow]
    rcases reserveBytes_cases c (new - old) with hrefused | hres
    · exact Or.inl hrefused
    · refine Or.inr ⟨_, hres, ?_, ?_⟩
      · rw [UInt64.ofNat_sub (by omega)]
        grind
      · cases c
        simp only [Counters.mk.injEq, and_true, true_and]
        grind
  · simp only [if_neg hgrow]
    refine Or.inr ⟨_, rfl, ?_, ?_⟩
    · rw [UInt64.ofNat_sub (by omega)]
      grind
    · cases c
      simp only [Counters.mk.injEq, and_true, true_and]
      grind

theorem reserveReplace_ok {c' : Counters} (h : c.reserveReplace old new = .ok c') :
    (∀ max, c.maxBytes? = some max → old < new → c.bytes.toNat + (new - old) ≤ max) ∧
      ∃ bytes, c' = { c with bytes } ∧ bytes + UInt64.ofNat old = c.bytes + UInt64.ofNat new := by
  have hadmitted : ¬ ∃ reason, c.reserveReplace old new = .error reason := by
    rintro ⟨reason, hrefused⟩
    rw [h] at hrefused
    cases hrefused
  rw [reserveReplace_error_iff] at hadmitted
  refine ⟨fun max hmax hgrow => Nat.le_of_not_lt fun hlt => hadmitted ⟨hgrow, max, hmax, hlt⟩, ?_⟩
  rcases reserveReplace_cases c old new with ⟨reason, hrefused, -⟩ | ⟨bytes, hreserved, hbytes, -⟩
  · rw [h] at hrefused
    cases hrefused
  · rw [h] at hreserved
    cases hreserved
    exact ⟨bytes, rfl, hbytes⟩

theorem cancelReplace_eq (c : Counters) (old new : Nat) :
    ∃ bytes, c.cancelReplace old new = { c with bytes } ∧
      bytes + UInt64.ofNat new = c.bytes + UInt64.ofNat old := by
  unfold cancelReplace
  split
  · refine ⟨_, rfl, ?_⟩
    rw [UInt64.ofNat_sub (by omega)]
    grind
  · refine ⟨_, rfl, ?_⟩
    rw [UInt64.ofNat_sub (by omega)]
    grind

theorem items_cancelReplace (c : Counters) (old new : Nat) : (c.cancelReplace old new).items = c.items := by
  obtain ⟨bytes, hc, -⟩ := cancelReplace_eq c old new
  rw [hc]

theorem insertCommitted_eq (c : Counters) (items : Nat) : ∃ rehash?, c.insertCommitted items = { c with rehash? } := by
  unfold insertCommitted
  split
  · split
    · exact ⟨_, rfl⟩
    · exact ⟨_, rfl⟩
  · exact ⟨_, rfl⟩

/-- An entry is counted down, and shrinking marked at the threshold, unless there is none to be counted down. -/
theorem entryRemoved_cases (c : Counters) (n : Nat) :
    (c.items = 0 ∧ entryRemoved n c = .error (.abort .differenceOverflow) { c with bytes := c.bytes - UInt64.ofNat n }) ∨
    (0 < c.items ∧ ∃ rehash?,
      entryRemoved n c = .ok () { c with bytes := c.bytes - UInt64.ofNat n, items := c.items - 1, rehash? } ∧
      ∀ t, c.thresholds? = some t → rehash? = if c.items - 1 = t.shrink then some .shrink else c.rehash?) := by
  cases c with | mk items bytes expired thresholds? maxBytes? maxItems? rehash? =>
  cases items with
  | zero => exact Or.inl ⟨rfl, rfl⟩
  | succ items =>
    refine Or.inr ⟨Nat.succ_pos items, ?_⟩
    cases thresholds? with
    | none => exact ⟨rehash?, rfl, nofun⟩
    | some thresholds =>
      refine ⟨if items = thresholds.shrink then some .shrink else rehash?, ?_, fun t ht => ?_⟩
      · simp only [entryRemoved]
        split <;> rfl
      · cases ht
        rfl

theorem entryRemoved_ok (n : Nat) (h : 0 < c.items) :
    ∃ rehash?, entryRemoved n c =
      .ok () { c with bytes := c.bytes - UInt64.ofNat n, items := c.items - 1, rehash? } := by
  rcases entryRemoved_cases c n with ⟨hzero, -⟩ | ⟨-, rehash?, hrun, -⟩
  · omega
  · exact ⟨rehash?, hrun⟩

theorem items_pos_of_removed {c' : Counters} (h : entryRemoved n c = .ok () c') : 0 < c.items := by
  refine Nat.pos_of_ne_zero fun hnone => ?_
  simp [entryRemoved, hnone] at h

end RecordStore.Counters
