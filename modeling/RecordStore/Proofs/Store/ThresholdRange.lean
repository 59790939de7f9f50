import RecordStore.Proofs.Store.RehashFlag

/-! # Thresholds that can be told apart

A valid configuration does not always give two thresholds. If a store is laid out for fewer than four entries its upper
threshold is zero, and no growing is ever marked. If it is laid out for a fifteenth of a word or more, the lower
threshold cannot be computed, and no store is made at all. Between the two the lower threshold is below the upper one,
and whatever the store goes through, coming to either of them is marked. -/

namespace RecordStore

namespace StoreConfig

/-- The lower threshold can be computed and is below the upper one, which is above zero and within the capacity that the
    store is laid out for. -/
structure Graded (c : StoreConfig) : Prop where
  ordered : ∃ shrink, c.shrinkThreshold = .ok shrink ∧ shrink < c.growThreshold
  within : c.growThreshold ≤ c.nominalCapacity
  positive : 0 < c.growThreshold

theorem growThreshold_le (c : StoreConfig) : c.growThreshold ≤ c.nominalCapacity := by
  unfold growThreshold
  omega

theorem growThreshold_pos_iff {c : StoreConfig} : 0 < c.growThreshold ↔ 4 ≤ c.nominalCapacity := by
  unfold growThreshold
  omega

theorem shrinkThreshold_eq_ok_iff {c : StoreConfig} {shrink : Nat} :
    c.shrinkThreshold = .ok shrink ↔ c.nominalCapacity * 15 < wordLimit ∧ c.nominalCapacity * 15 / 100 = shrink := by
  unfold shrinkThreshold
  split <;> simp [*]

theorem graded_iff (c : StoreConfig) : c.Graded ↔ 4 ≤ c.nominalCapacity ∧ c.nominalCapacity * 15 < wordLimit := by
  constructor
  · intro h
    obtain ⟨shrink, hshrink, -⟩ := h.ordered
    exact ⟨growThreshold_pos_iff.mp h.positive, (shrinkThreshold_eq_ok_iff.mp hshrink).1⟩
  · rintro ⟨hfour, hword⟩
    refine ⟨⟨_, shrinkThreshold_eq_ok_iff.mpr ⟨hword, rfl⟩, ?_⟩, c.growThreshold_le, growThreshold_pos_iff.mpr hfour⟩
    unfold growThreshold
    omega

end StoreConfig

namespace Store

variable {s s' : Store} {t : Thresholds} {x : Trial} {trials : List Trial} {schema : Schema} {config : StoreConfig}
  {memory : Memory} {notifier : Notifier} {clock : Clock} {draw : Nat → Nat}

theorem create_overflows_iff (hvalid : config.validate = .ok ()) :
    create schema config memory notifier clock draw = .error (.abort .productOverflow) ↔
      wordLimit ≤ config.nominalCapacity * 15 := by
  constructor
  · intro h
    by_contra hword
    rcases @create_of_valid schema config memory notifier clock draw hvalid (Nat.lt_of_not_le hword) with hok | ⟨herror, -⟩
    · rw [hok] at h
      cases h
    · rw [herror] at h
      cases h
  · intro hword
    simp only [create, hvalid, StoreConfig.shrinkThreshold, if_neg (Nat.not_lt_of_le hword)]
    rfl

/-! ### Marks that are never set -/

/-- A safe store whose upper threshold is zero, and that has not marked that it should grow. -/
structure Blind (schema : Schema) (s : Store) : Prop where
  schema : s.schema = schema
  safe : s.Safe
  grow : ∃ t, s.counters.thresholds? = some t ∧ t.grow = 0
  unmarked : s.counters.rehash? ≠ some .grow

/-- An insertion never makes the number of entries zero, and no removal marks that the store should grow. -/
theorem Trial.run_blind (hs : s.Blind schema) (hx : x.Addressable schema) : (x.run s).Blind schema := by
  have hsecures := x.run_secures s
  obtain ⟨t, ht, hzero⟩ := hs.grow
  rcases Trial.run_counted hs.safe (hs.schema ▸ hx) with hwanes | hraises
  · refine ⟨hsecures.schema.trans hs.schema, hsecures.safe hs.safe, ⟨t, hwanes.thresholds?.trans ht, hzero⟩, ?_⟩
    rw [hwanes.rehash? t ht]
    split
    · nofun
    · exact hs.unmarked
  · refine ⟨hsecures.schema.trans hs.schema, hsecures.safe hs.safe, ⟨t, hraises.thresholds?.trans ht, hzero⟩, ?_⟩
    have hitems := hraises.items
    rw [hraises.rehash? t ht, if_neg (by omega)]
    exact hs.unmarked

theorem endure_blind (hs : s.Blind schema) (htrials : ∀ x ∈ trials, x.Addressable schema) :
    (endure trials s).Blind schema := by
  induction trials generalizing s with
  | nil => exact hs
  | cons x trials ih =>
    exact ih (Trial.run_blind hs (htrials x List.mem_cons_self)) fun y hy => htrials y (List.mem_cons_of_mem x hy)

theorem blind_of_create (hs : create schema config memory notifier clock draw = .ok s) (hstarted : memory.Started)
    (hfew : config.nominalCapacity < 4) : s.Blind schema := by
  have hfresh := fresh_of_create hs hstarted
  obtain ⟨-, rfl⟩ := of_create hs
  refine ⟨rfl, hfresh.safe, ⟨_, rfl, ?_⟩, nofun⟩
  show config.growThreshold = 0
  have := StoreConfig.growThreshold_pos_iff (c := config)
  omega

/-! ### Marks that are set in time -/

/-- A trial that brings the number of entries down to the lower threshold marks it. -/
theorem Heedful.shrunk (hs : s.Heedful t schema) (hx : x.Addressable schema) (habove : t.shrink < s.size)
    (hfallen : (x.run s).size ≤ t.shrink) : (x.run s).counters.rehash? = some .shrink := by
  rcases Trial.run_counted hs.safe (hs.schema ▸ hx) with hwanes | hraises
  · rw [hwanes.rehash? t hs.heeds.thresholds?, if_pos ⟨hfallen, habove⟩]
  · have hitems : (x.run s).size = s.size + 1 := hraises.items
    omega

/-- Whatever a store goes through, both directions are marked when they fall due. -/
structure Detecting (config : StoreConfig) (trials : List Trial) (schema : Schema) (s : Store) : Prop where
  grown : config.growThreshold ≤ (endure trials s).size → (endure trials s).counters.rehash? = some .grow
  shrunk : ∀ (x : Trial) shrink, x.Addressable schema → config.shrinkThreshold = .ok shrink →
    shrink < (endure trials s).size → (x.run (endure trials s)).size ≤ shrink →
      (x.run (endure trials s)).counters.rehash? = some .shrink

theorem detecting_of_create (hgraded : config.Graded)
    (hs : create schema config memory notifier clock draw = .ok s) (hstarted : memory.Started)
    (htrials : ∀ x ∈ trials, x.Addressable schema) : Detecting config trials schema s := by
  obtain ⟨shrink, hshrink, hlt⟩ := hgraded.ordered
  have hthresholds : s.counters.thresholds? = some ⟨config.growThreshold, shrink⟩ := by
    obtain ⟨-, rfl⟩ := of_create hs
    rw [← (StoreConfig.shrinkThreshold_eq_ok_iff.mp hshrink).2]
    rfl
  have hend := endure_heedful hlt (heedful_of_create hs hstarted hthresholds hlt) htrials
  refine ⟨hend.heeds.grown, fun x shrink' hx hshrink' habove hfallen => ?_⟩
  rw [hshrink] at hshrink'
  cases hshrink'
  exact hend.shrunk hx habove hfallen

/-- What becomes of a valid configuration, at both ends of what it may be laid out for and between them. -/
structure Gauged (config : StoreConfig) : Prop where
  graded : config.Graded ↔ 4 ≤ config.nominalCapacity ∧ config.nominalCapacity * 15 < wordLimit
  within : config.growThreshold ≤ config.nominalCapacity
  overflows : ∀ schema memory notifier clock draw,
    create schema config memory notifier clock draw = .error (.abort .productOverflow) ↔
      wordLimit ≤ config.nominalCapacity * 15
  detects : config.Graded → ∀ schema memory notifier clock draw s (trials : List Trial),
    create schema config memory notifier clock draw = .ok s → memory.Started →
      (∀ x ∈ trials, x.Addressable schema) → Detecting config trials schema s
  blind : config.nominalCapacity < 4 → ∀ schema memory notifier clock draw s (trials : List Trial),
    create schema config memory notifier clock draw = .ok s → memory.Started →
      (∀ x ∈ trials, x.Addressable schema) → (endure trials s).counters.rehash? ≠ some .grow

theorem gauged_of_valid (hvalid : config.validate = .ok ()) : Gauged config where
  graded := config.graded_iff
  within := config.growThreshold_le
  overflows _ _ _ _ _ := create_overflows_iff hvalid
  detects hgraded _ _ _ _ _ _ _ hs hstarted htrials := detecting_of_create hgraded hs hstarted htrials
  blind hfew _ _ _ _ _ _ _ hs hstarted htrials := (endure_blind (blind_of_create hs hstarted hfew) htrials).unmarked

/-- Valid configurations at both ends: no store can be made for the one, and the other has one threshold in the place of
    two. -/
theorem gauged_at_both_ends :
    Gauged { nominalCapacity := 1229782938247303442 } ∧ Gauged { nominalCapacity := 3 } ∧
      ({ nominalCapacity := 1229782938247303442 } : StoreConfig).validate = .ok () ∧
      ({ nominalCapacity := 1229782938247303442 } : StoreConfig).shrinkThreshold = .error .productOverflow ∧
      ({ nominalCapacity := 3 } : StoreConfig).validate = .ok () ∧
      ({ nominalCapacity := 3 } : StoreConfig).growThreshold = 0 ∧
      ({ nominalCapacity := 3 } : StoreConfig).shrinkThreshold = .ok 0 :=
  ⟨gauged_of_valid rfl, gauged_of_valid rfl, rfl, rfl, rfl, rfl, rfl⟩

end Store

end RecordStore
