import RecordStore.Cyclic

/-! # Distances round a circle

The search for a place goes forward round a circle of `n` places. How far it has to go is the distance, and what
it finds is the nearest place that satisfies its test. -/

namespace RecordStore.Cyclic

/-- The number of steps forward from place `a` to place `b`, both on a circle of `n`. -/
def dist (n a b : Nat) : Nat := if a ≤ b then b - a else b + n - a

theorem dist_self (n a : Nat) : dist n a a = 0 := by
  simp [dist]

theorem dist_lt {n a b : Nat} (ha : a < n) (hb : b < n) : dist n a b < n := by
  unfold dist
  split <;> omega

theorem dist_eq_zero_iff {n a b : Nat} (ha : a < n) : dist n a b = 0 ↔ a = b := by
  unfold dist
  split <;> omega

theorem dist_inj {n a b c : Nat} (ha : a < n) (hb : b < n) (hc : c < n) (h : dist n a b = dist n a c) : b = c := by
  unfold dist at h
  split at h <;> split at h <;> omega

theorem succ_mod {n a : Nat} (ha : a < n) : (a + 1) % n = if a + 1 = n then 0 else a + 1 := by
  split
  · rename_i h
    rw [h, Nat.mod_self]
  · exact Nat.mod_eq_of_lt (by omega)

theorem succ_mod_lt {n a : Nat} (ha : a < n) : (a + 1) % n < n := Nat.mod_lt _ (by omega)

/-- The place after `a` is one step nearer to all places but `a`. -/
theorem dist_succ {n a b : Nat} (ha : a < n) (hb : b < n) (h : a ≠ b) : dist n a b = dist n ((a + 1) % n) b + 1 := by
  rw [succ_mod ha]
  unfold dist
  split <;> split <;> split <;> omega

theorem dist_to_succ {n a b : Nat} (ha : a < n) (hb : b < n) (h : dist n a b + 1 < n) :
    dist n a ((b + 1) % n) = dist n a b + 1 := by
  rw [succ_mod hb]
  unfold dist at h ⊢
  by_cases hlast : b + 1 = n
  · simp only [hlast, ↓reduceIte]
    split at h <;> split <;> omega
  · simp only [hlast, ↓reduceIte]
    split at h <;> split <;> omega

/-- The ways from one place to another and back make one round. -/
theorem dist_add_dist {n a b : Nat} (ha : a < n) (hb : b < n) (h : a ≠ b) : dist n a b + dist n b a = n := by
  unfold dist
  split <;> split <;> omega

/-- A way that is no shorter leads past the nearer place. -/
theorem dist_between {n a b c : Nat} (ha : a < n) (hb : b < n) (hc : c < n) (h : dist n a b ≤ dist n a c) :
    dist n a c = dist n a b + dist n b c := by
  unfold dist at *
  grind

/-- As many steps as the distance lead from `a` to `b`. -/
theorem steps_dist {n a b : Nat} (ha : a < n) (hb : b < n) : (a + dist n a b) % n = b := by
  unfold dist
  split
  · rw [Nat.mod_eq_of_lt (by omega)]
    omega
  · rw [Nat.mod_eq_sub_mod (by omega), Nat.mod_eq_of_lt (by omega)]
    omega

/-- A place that some steps lead to, fewer than go round, is that far. -/
theorem dist_steps {n a d : Nat} (ha : a < n) (hd : d < n) : dist n a ((a + d) % n) = d := by
  unfold dist
  by_cases h : a + d < n
  · rw [Nat.mod_eq_of_lt h]
    split <;> omega
  · rw [Nat.mod_eq_sub_mod (by omega), Nat.mod_eq_of_lt (by omega)]
    split <;> omega

/-- A way that begins at `a`, leads past `p` and ends outside of the arc from `p` to `e`, leads past `e`. -/
theorem dist_lt_of_outside {n a v p e i : Nat} (ha : a < n) (hv : v < n) (hp : p < n) (he : e < n) (hi : i < n)
    (hpe : dist n v p < dist n v e) (hout : dist n v i < dist n v p ∨ dist n v e < dist n v i)
    (hpast : dist n a p < dist n a i) : dist n a e < dist n a i := by
  unfold dist at *
  grind

section Find
variable {n : Nat} {p : Nat → Bool}

theorem findFrom?_eq_some {steps i j : Nat} (hi : i < n) (h : findFrom? n p steps i = some j) :
    j < n ∧ p j = true ∧ ∀ k < n, dist n i k < dist n i j → p k = false := by
  induction steps generalizing i with
  | zero => cases h
  | succ steps ih =>
    unfold findFrom? at h
    split at h
    · rename_i hp
      cases h
      refine ⟨hi, hp, fun k _ hk => ?_⟩
      rw [dist_self] at hk
      omega
    · rename_i hp
      obtain ⟨hj, hpj, hbefore⟩ := ih (succ_mod_lt hi) h
      refine ⟨hj, hpj, fun k hk hlt => ?_⟩
      by_cases hik : i = k
      · rw [← hik]
        simpa using hp
      · have hij : i ≠ j := fun e => by rw [← e, dist_self] at hlt; omega
        rw [dist_succ hi hk hik, dist_succ hi hj hij] at hlt
        exact hbefore k hk (by omega)

theorem findFrom?_isSome {steps i j : Nat} (hi : i < n) (hj : j < n) (hp : p j = true) (hd : dist n i j < steps) :
    (findFrom? n p steps i).isSome := by
  induction steps generalizing i with
  | zero => omega
  | succ steps ih =>
    unfold findFrom?
    split
    · rfl
    · rename_i hpi
      have hij : i ≠ j := fun e => hpi (e ▸ hp)
      rw [dist_succ hi hj hij] at hd
      exact ih (succ_mod_lt hi) (by omega)

/-- A search finds the nearest place that satisfies its test. -/
theorem find?_eq_some_iff {i j : Nat} (hi : i < n) :
    find? n p i = some j ↔ j < n ∧ p j = true ∧ ∀ k < n, dist n i k < dist n i j → p k = false := by
  constructor
  · exact findFrom?_eq_some hi
  · rintro ⟨hj, hpj, hbefore⟩
    obtain ⟨k, hk⟩ := Option.isSome_iff_exists.mp (findFrom?_isSome hi hj hpj (dist_lt hi hj))
    obtain ⟨hkn, hpk, hkbefore⟩ := findFrom?_eq_some hi hk
    -- Of two places that both satisfy the test, neither comes before the other.
    rcases Nat.lt_trichotomy (dist n i k) (dist n i j) with hlt | heq | hlt
    · rw [hbefore k hkn hlt] at hpk
      cases hpk
    · rw [find?, hk, dist_inj hi hkn hj heq]
    · rw [hkbefore j hj hlt] at hpj
      cases hpj

theorem exists_find? {i j : Nat} (hi : i < n) (hj : j < n) (hp : p j = true) : ∃ k, find? n p i = some k :=
  Option.isSome_iff_exists.mp (findFrom?_isSome hi hj hp (dist_lt hi hj))

/-- What a search finds is told by the steps that lead there. -/
theorem find?_eq_some_iff_steps {i j : Nat} (hi : i < n) :
    find? n p i = some j ↔ ∃ d < n, j = (i + d) % n ∧ p j = true ∧ ∀ e < d, p ((i + e) % n) = false := by
  rw [find?_eq_some_iff hi]
  constructor
  · rintro ⟨hj, hp, hbefore⟩
    have hd := dist_lt hi hj
    refine ⟨dist n i j, hd, (steps_dist hi hj).symm, hp, fun e he => ?_⟩
    refine hbefore _ (Nat.mod_lt _ (by omega)) ?_
    rwa [dist_steps hi (by omega)]
  · rintro ⟨d, hd, rfl, hp, hbefore⟩
    refine ⟨Nat.mod_lt _ (by omega), hp, fun k hk hlt => ?_⟩
    rw [dist_steps hi hd] at hlt
    rw [← steps_dist hi hk]
    exact hbefore _ hlt

end Find

/-! ### Searches without a bound -/

/-- A search without a bound: it goes on from `i`, round a circle of `n`, until it comes to a place that satisfies `p`,
    and ends there. -/
inductive Walks (n : Nat) (p : Nat → Bool) : (i j : Nat) → Prop
  | stop {i} (hp : p i = true) : Walks n p i i
  | next {i j} (hp : p i = false) (hrest : Walks n p ((i + 1) % n) j) : Walks n p i j

section Walks
variable {n i j k : Nat} {p : Nat → Bool}

theorem walks_of_findFrom? {steps : Nat} (h : findFrom? n p steps i = some j) : Walks n p i j := by
  induction steps generalizing i with
  | zero => cases h
  | succ steps ih =>
    unfold findFrom? at h
    split at h
    · rename_i hp
      cases h
      exact .stop hp
    · rename_i hp
      exact .next (Bool.eq_false_iff.mpr hp) (ih h)

namespace Walks

theorem ends (h : Walks n p i j) (hi : i < n) : j < n ∧ p j = true := by
  induction h with
  | stop hp => exact ⟨hi, hp⟩
  | next _ _ ih => exact ih (succ_mod_lt hi)

theorem unique (h : Walks n p i j) (h' : Walks n p i k) : j = k := by
  induction h with
  | stop hp =>
    cases h' with
    | stop => rfl
    | next hp' => exact absurd (hp'.symm.trans hp) Bool.false_ne_true
  | next hp _ ih =>
    cases h' with
    | stop hp' => exact absurd (hp.symm.trans hp') Bool.false_ne_true
    | next _ hrest => exact ih hrest

end Walks

/-- A search that goes once round the circle at most misses nothing. -/
theorem find?_eq_some_iff_walks (hi : i < n) : find? n p i = some j ↔ Walks n p i j := by
  constructor
  · exact walks_of_findFrom?
  · intro hwalks
    obtain ⟨hj, hp⟩ := hwalks.ends hi
    obtain ⟨k, hk⟩ := exists_find? hi hj hp
    rw [hk, hwalks.unique (walks_of_findFrom? hk)]

end Walks

end RecordStore.Cyclic
