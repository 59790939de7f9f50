import RecordStore.Sweeper

/-! # How long the sweeper waits

The wait is cut and drawn out step by step, and each step checks one bound only: halving the lower one, doubling the
upper one. A wait between the bounds stays between them. Nothing brings the first wait there, which is free, and the
later ones stay outside until a step moves them. -/

namespace RecordStore

namespace Duration

variable {a b : Duration}

theorem le_iff : a ≤ b ↔ a.nanoseconds ≤ b.nanoseconds := Iff.rfl

@[simp] theorem nanoseconds_half (d : Duration) : d.half.nanoseconds = d.nanoseconds / 2 := rfl

@[simp] theorem nanoseconds_double (d : Duration) : d.double.nanoseconds = d.nanoseconds * 2 := rfl

@[simp] theorem nanoseconds_min (a b : Duration) :
    (a.min b).nanoseconds = Min.min a.nanoseconds b.nanoseconds := by
  unfold min
  split <;> rename_i h <;> rw [le_iff] at h
  · exact (Nat.min_eq_right h).symm
  · exact (Nat.min_eq_left (by omega)).symm

@[simp] theorem nanoseconds_max (a b : Duration) :
    (a.max b).nanoseconds = Max.max a.nanoseconds b.nanoseconds := by
  unfold max
  split <;> rename_i h <;> rw [le_iff] at h
  · exact (Nat.max_eq_right h).symm
  · exact (Nat.max_eq_left (by omega)).symm

end Duration

namespace SweeperConfig

/-- What a sweep comes to. -/
inductive Outcome
  | swept (entries expired : Nat)
  | failed

/-- The wait after a sweep. One that fails leaves it as it is. -/
def after (c : SweeperConfig) (current : Duration) : Outcome → Duration
  | .swept entries expired => c.nextInterval current entries expired
  | .failed => current

/-- The wait after some sweeps, one after the other. The first wait comes before any sweep. -/
def wait (c : SweeperConfig) (outcomes : List Outcome) : Duration := outcomes.foldl c.after c.baseInterval

/-- Not shorter than the shortest wait and not longer than the longest. -/
structure Within (c : SweeperConfig) (d : Duration) : Prop where
  lower : c.minInterval ≤ d
  upper : d ≤ c.maxInterval

variable {c : SweeperConfig} {current low high : Duration}

/-- What the check looks at. The first wait is not among it. -/
theorem validate_eq_ok_iff : c.validate = .ok () ↔
    0 < c.minInterval.nanoseconds ∧ c.minInterval ≤ c.maxInterval ∧ isFraction c.speedup = true ∧
      isFraction c.slowdown = true := by
  unfold validate
  by_cases hintervals : c.minInterval.nanoseconds = 0 ∨ ¬ c.minInterval ≤ c.maxInterval
  · rw [if_pos hintervals]
    refine ⟨fun h => (nomatch h), fun ⟨hpos, hle, _⟩ => ?_⟩
    rcases hintervals with hzero | hgt
    · omega
    · exact absurd hle hgt
  · rw [not_or, Decidable.not_not] at hintervals
    rw [if_neg (not_or.mpr ⟨hintervals.1, Decidable.not_not.mpr hintervals.2⟩)]
    cases isFraction c.speedup <;> cases isFraction c.slowdown <;> simp [hintervals.2, Nat.pos_of_ne_zero hintervals.1]

/-- Whichever way the shares of the entries compare, the wait is kept, halved down to the lower bound, or doubled up
    to the upper one. -/
theorem after_cases (c : SweeperConfig) (current : Duration) (outcome : Outcome) :
    c.after current outcome = current ∨ c.after current outcome = current.half.max c.minInterval ∨
      c.after current outcome = current.double.min c.maxInterval := by
  cases outcome with
  | failed => exact Or.inl rfl
  | swept entries expired =>
    simp only [after, nextInterval]
    split
    · exact Or.inl rfl
    · split
      · exact Or.inr (Or.inl rfl)
      · split
        · exact Or.inr (Or.inr rfl)
        · exact Or.inl rfl

/-- A step stays in every span that holds both bounds. -/
theorem after_between (hbounds : c.minInterval ≤ c.maxInterval) (hlow : low ≤ c.minInterval)
    (hhigh : c.maxInterval ≤ high) (hcurrent : low ≤ current ∧ current ≤ high) (outcome : Outcome) :
    low ≤ c.after current outcome ∧ c.after current outcome ≤ high := by
  simp only [Duration.le_iff] at hbounds hlow hhigh hcurrent ⊢
  rcases c.after_cases current outcome with hkept | hhalved | hdoubled
  · rw [hkept]
    exact hcurrent
  · rw [hhalved, Duration.nanoseconds_max, Duration.nanoseconds_half]
    omega
  · rw [hdoubled, Duration.nanoseconds_min, Duration.nanoseconds_double]
    omega

theorem foldl_after_between (hbounds : c.minInterval ≤ c.maxInterval) (hlow : low ≤ c.minInterval)
    (hhigh : c.maxInterval ≤ high) (hcurrent : low ≤ current ∧ current ≤ high) (outcomes : List Outcome) :
    low ≤ outcomes.foldl c.after current ∧ outcomes.foldl c.after current ≤ high := by
  induction outcomes generalizing current with
  | nil => exact hcurrent
  | cons outcome outcomes ih => exact ih (after_between hbounds hlow hhigh hcurrent outcome)

theorem wait_within (hbounds : c.minInterval ≤ c.maxInterval) (hbase : c.Within c.baseInterval)
    (outcomes : List Outcome) : c.Within (c.wait outcomes) := by
  have hwait := foldl_after_between hbounds (Nat.le_refl _) (Nat.le_refl _) ⟨hbase.lower, hbase.upper⟩ outcomes
  exact ⟨hwait.1, hwait.2⟩

end SweeperConfig

namespace SweptStore

open SweeperConfig (Outcome)

/-- What happens to a store with a sweeper. -/
inductive Turn
  /-- Others use the store. -/
  | work (store : Store)
  | sweep
  | sleep (span : Duration)
  | stop

def Turn.run (s : SweptStore) : Turn → SweptStore
  | .work store => { s with store }
  | .sweep => s.sweep
  | .sleep span => s.sleep span
  | .stop => s.stop

def turns (xs : List Turn) (s : SweptStore) : SweptStore := xs.foldl Turn.run s

/-- What a sweep of the store comes to now. -/
def outcome (s : SweptStore) : Outcome :=
  match Store.evictExpired s.store with
  | .ok expired _ => .swept s.store.size expired
  | .error .. => .failed

/-- From `s` to `t` the sweeper has swept some times, and waits as that made it. -/
structure Follows (s t : SweptStore) : Prop where
  config : t.config = s.config
  interval : ∃ outcomes : List Outcome, t.interval = outcomes.foldl s.config.after s.interval

variable {s t u : SweptStore}

namespace Follows

theorem of_eq (hconfig : t.config = s.config) (hinterval : t.interval = s.interval) : Follows s t :=
  ⟨hconfig, [], hinterval⟩

theorem refl (s : SweptStore) : Follows s s := of_eq rfl rfl

theorem trans (hst : Follows s t) (htu : Follows t u) : Follows s u := by
  obtain ⟨first, hfirst⟩ := hst.interval
  obtain ⟨second, hsecond⟩ := htu.interval
  refine ⟨htu.config.trans hst.config, first ++ second, ?_⟩
  rw [List.foldl_append, ← hfirst, ← hst.config]
  exact hsecond

end Follows

theorem sweep_follows (s : SweptStore) : Follows s s.sweep := by
  have hsweep : s.sweep.config = s.config ∧ s.sweep.interval = s.config.after s.interval s.outcome := by
    unfold sweep outcome
    cases Store.evictExpired s.store with
    | ok expired store => exact ⟨rfl, rfl⟩
    | error e store => exact ⟨rfl, rfl⟩
  exact ⟨hsweep.1, [s.outcome], hsweep.2⟩

theorem setClock_follows (s : SweptStore) (time : Int) : Follows s (s.setClock time) := Follows.of_eq rfl rfl

theorem sweepUntil_follows (time : Int) (wakes : Nat) (s : SweptStore) : Follows s (sweepUntil time wakes s) := by
  induction wakes generalizing s with
  | zero => exact Follows.refl s
  | succ wakes ih =>
    unfold sweepUntil
    cases hwakes : s.wakes? with
    | none => exact Follows.refl s
    | some due =>
      dsimp only
      split
      · have hswept := (setClock_follows s due).trans (sweep_follows (s.setClock due))
        have hwoken : Follows s { (s.setClock due).sweep with
            wakes? := some ((s.setClock due).sweep.nextWake s.store.size) } :=
          hswept.trans (Follows.of_eq rfl rfl)
        exact hwoken.trans (ih _)
      · exact Follows.refl s

theorem Turn.run_follows (x : Turn) (s : SweptStore) : Follows s (x.run s) := by
  cases x with
  | work store => exact Follows.of_eq rfl rfl
  | sweep => exact sweep_follows s
  | sleep span => exact (sweepUntil_follows _ _ s).trans (setClock_follows _ _)
  | stop => exact Follows.of_eq rfl rfl

theorem turns_follows (xs : List Turn) (s : SweptStore) : Follows s (turns xs s) := by
  induction xs generalizing s with
  | nil => exact Follows.refl s
  | cons x xs ih => exact (x.run_follows s).trans (ih _)

end SweptStore

namespace SweeperConfig

variable {c : SweeperConfig}

/-- A configuration that passes the check keeps all waits within its bounds just if the first one is, whatever sweeps
    come to. They never leave the span of the bounds and the first wait. A sweeper that is started with it waits so,
    whatever else happens to its store. -/
theorem within_iff_base (hvalid : c.validate = .ok ()) :
    ((∀ outcomes, c.Within (c.wait outcomes)) ↔ c.Within c.baseInterval) ∧
    (∀ outcomes, c.baseInterval.min c.minInterval ≤ c.wait outcomes ∧
      c.wait outcomes ≤ c.baseInterval.max c.maxInterval) ∧
    ∀ store, ∃ s, SweptStore.start store c = .ok s ∧
      ∀ xs, ∃ outcomes, (SweptStore.turns xs s).interval = c.wait outcomes := by
  have hbounds := (validate_eq_ok_iff.mp hvalid).2.1
  refine ⟨⟨fun h => h [], wait_within hbounds⟩, fun outcomes => ?_, fun store => ?_⟩
  · refine foldl_after_between hbounds ?_ ?_ ⟨?_, ?_⟩ outcomes <;>
      simp only [Duration.le_iff, Duration.nanoseconds_min, Duration.nanoseconds_max] <;> omega
  · have hstart : SweptStore.start store c = .ok ⟨store, c, c.baseInterval,
        some (store.clock.wall + c.baseInterval.ticks), []⟩ := by
      simp only [SweptStore.start, hvalid]
    exact ⟨_, hstart, fun xs => (SweptStore.turns_follows xs _).interval⟩

/-- The first wait is a fifth of the shortest one. The check lets it pass, and as long as sweeps find nothing there, or
    fail, the sweeper goes on waiting that long. -/
theorem not_within_of_short_base :
    let c : SweeperConfig := { baseInterval := .ofMillis 2 }
    c.validate = .ok () ∧ ¬ (∀ outcomes, c.Within (c.wait outcomes)) ∧
      ∀ n, c.wait (List.replicate n (.swept 0 0)) = .ofMillis 2 := by
  intro c
  have hvalid : c.validate = .ok () := validate_eq_ok_iff.mpr ⟨by decide, by decide, by decide, by decide⟩
  refine ⟨hvalid, ?_, fun n => ?_⟩
  · rw [(within_iff_base hvalid).1]
    intro hbase
    exact absurd hbase.lower (by decide)
  · induction n with
    | zero => rfl
    | succ n ih => exact ih

end SweeperConfig

end RecordStore
