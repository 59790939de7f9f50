import Mathlib.Algebra.Ring.Nat
import RecordStore.Segment.Table

/-! # How full a table is

The number of slots follows the number of entries. A table is doubled when half of it is taken, and halved when an
eighth of it is, so that right after either a quarter of it is taken: from there it is a long way to both thresholds,
and each entry that comes or goes is one step on it. -/

namespace RecordStore.Segment

/-- How many slots a table has, how many of them are taken, and how many it has at least. -/
structure Level where
  capacity : Nat
  count : Nat
  floor : Nat

def level (s : Segment) : Level := ⟨s.capacity, s.count, s.minCapacity⟩

namespace Level

variable {l l' : Level}

/-- Before an entry comes. -/
def grown (l : Level) : Level := if l.capacity / 2 ≤ l.count then { l with capacity := l.capacity * 2 } else l

@[simp] theorem grown_count : l.grown.count = l.count := by
  unfold grown
  split <;> rfl

/-- After an entry has gone. -/
def shrunk (l : Level) : Level :=
  if 0 < l.count ∧ l.count ≤ l.capacity / 8 ∧ l.floor ≤ l.capacity / 2 then { l with capacity := l.capacity / 2 } else l

/-- What one entry does to a table. Room is made for it before it is known whether it can be stored. -/
inductive Step (l : Level) : Level → Prop
  | idle : Step l l
  | refused : Step l l.grown
  | stored : Step l { l.grown with count := l.count + 1 }
  | removed (h : 0 < l.count) : Step l (shrunk { l with count := l.count - 1 })

/-- The levels that tables come to. Only one with its least number of slots, or with very few, may be emptier than by
    an eighth. -/
structure Sound (l : Level) : Prop where
  made : ∃ e, l.floor = 2 ^ (e + 1)
  doubled : ∃ e, l.capacity = l.floor * 2 ^ e
  roomy : 2 * l.count ≤ l.capacity
  filled : l.capacity = l.floor ∨ l.capacity ≤ 4 ∨ l.capacity < 8 * l.count

theorem Sound.floor_le (hl : l.Sound) : l.floor ≤ l.capacity := by
  obtain ⟨e, he⟩ := hl.doubled
  rw [he]
  exact Nat.le_mul_of_pos_right _ (Nat.two_pow_pos e)

/-- A table is not larger than its entries ask for. -/
theorem Sound.capacity_le (hl : l.Sound) : l.capacity ≤ max l.floor (max 4 (8 * l.count)) := by
  rcases hl.filled with h | h | h <;> omega

/-- The number of slots is even, and a multiple of eight if it is not one of the two smallest. -/
theorem Sound.capacity_eq (hl : l.Sound) : l.capacity = 2 ∨ l.capacity = 4 ∨ ∃ n, 0 < n ∧ l.capacity = 8 * n := by
  obtain ⟨f, hf⟩ := hl.made
  obtain ⟨e, he⟩ := hl.doubled
  rw [hf, ← Nat.pow_add] at he
  rw [he]
  match f + 1 + e, (show 0 < f + 1 + e by omega) with
  | 1, _ => exact Or.inl rfl
  | 2, _ => exact Or.inr (Or.inl rfl)
  | n + 3, _ => exact Or.inr (Or.inr ⟨2 ^ n, Nat.two_pow_pos n, by rw [Nat.pow_add]; omega⟩)

theorem Sound.two_le (hl : l.Sound) : 2 ≤ l.capacity := by
  obtain h | h | ⟨n, hn, h⟩ := hl.capacity_eq <;> omega

/-- A table with more slots than it has at least can do with half of them. -/
theorem Sound.floor_le_half (hl : l.Sound) (hne : l.capacity ≠ l.floor) :
    l.floor ≤ l.capacity / 2 ∧ ∃ e, l.capacity / 2 = l.floor * 2 ^ e := by
  obtain ⟨e, he⟩ := hl.doubled
  cases e with
  | zero => omega
  | succ e =>
    have hhalf : l.capacity / 2 = l.floor * 2 ^ e := by
      rw [he, Nat.pow_succ, ← Nat.mul_assoc, Nat.mul_div_cancel _ (by decide)]
    exact ⟨hhalf ▸ Nat.le_mul_of_pos_right _ (Nat.two_pow_pos e), e, hhalf⟩

/-! ### One step -/

/-- A table that has to grow is just half taken. -/
theorem Sound.grown_cases (hl : l.Sound) :
    (l.capacity = 2 * l.count ∧ l.grown = { l with capacity := l.capacity * 2 }) ∨
      2 * (l.count + 1) ≤ l.capacity ∧ l.grown = l := by
  have hroomy := hl.roomy
  have hcapacity := hl.capacity_eq
  unfold grown
  split
  · exact Or.inl ⟨by omega, rfl⟩
  · exact Or.inr ⟨by omega, rfl⟩

theorem Sound.grow (hl : l.Sound) : l.grown.Sound := by
  rcases hl.grown_cases with ⟨hfull, h⟩ | ⟨-, h⟩
  · rw [h]
    have htwo := hl.two_le
    obtain ⟨e, he⟩ := hl.doubled
    refine ⟨hl.made, ⟨e + 1, ?_⟩, ?_, Or.inr (Or.inr ?_)⟩
    · show l.capacity * 2 = _
      rw [he, Nat.pow_succ, Nat.mul_assoc]
    · show 2 * l.count ≤ l.capacity * 2
      omega
    · show l.capacity * 2 < 8 * l.count
      omega
  · rw [h]
    exact hl

/-- A table that has to shrink has lost the entry by which more than an eighth of it was taken. -/
theorem Sound.shrunk_cases (hl : l.Sound) (hpos : 0 < l.count) :
    (∃ n, 0 < n ∧ l.capacity = 8 * n ∧ l.count = n + 1 ∧ l.capacity ≠ l.floor ∧
      shrunk { l with count := l.count - 1 } = { l with capacity := l.capacity / 2, count := l.count - 1 }) ∨
    (l.capacity = l.floor ∨ l.capacity ≤ 4 ∨ l.capacity < 8 * (l.count - 1)) ∧
      shrunk { l with count := l.count - 1 } = { l with count := l.count - 1 } := by
  have hcapacity := hl.capacity_eq
  have hfilled := hl.filled
  unfold shrunk
  dsimp only
  split
  · rename_i hshrink
    obtain h | h | ⟨n, hn, h⟩ := hcapacity
    · omega
    · omega
    · have hne : l.capacity ≠ l.floor := by omega
      exact Or.inl ⟨n, hn, h, by omega, hne, rfl⟩
  · rename_i hstays
    refine Or.inr ⟨?_, rfl⟩
    by_cases hne : l.capacity = l.floor
    · exact Or.inl hne
    · have hhalf := (hl.floor_le_half hne).1
      omega

theorem Step.floor (h : Step l l') : l'.floor = l.floor := by
  cases h with
  | idle => rfl
  | refused | stored =>
    unfold grown
    split <;> rfl
  | removed hpos =>
    unfold shrunk
    split <;> rfl

theorem Step.sound (h : Step l l') (hl : l.Sound) : l'.Sound := by
  have hgrown := hl.grow
  cases h with
  | idle => exact hl
  | refused => exact hgrown
  | stored =>
    have htwo := hl.two_le
    have hfilled := hgrown.filled
    refine ⟨hgrown.made, hgrown.doubled, ?_, ?_⟩
    · show 2 * (l.count + 1) ≤ l.grown.capacity
      rcases hl.grown_cases with ⟨hfull, h⟩ | ⟨hroom, h⟩
      · rw [h]
        show 2 * (l.count + 1) ≤ l.capacity * 2
        omega
      · rwa [h]
    · show l.grown.capacity = l.grown.floor ∨ l.grown.capacity ≤ 4 ∨ l.grown.capacity < 8 * (l.count + 1)
      rw [grown_count] at hfilled
      omega
  | removed hpos =>
    rcases hl.shrunk_cases hpos with ⟨n, hn, hcapacity, hcount, hne, h⟩ | ⟨hfilled, h⟩
    · rw [h]
      refine ⟨hl.made, (hl.floor_le_half hne).2, ?_, Or.inr (Or.inr ?_)⟩
      · show 2 * (l.count - 1) ≤ l.capacity / 2
        omega
      · show l.capacity / 2 < 8 * (l.count - 1)
        omega
    · rw [h]
      have hroomy := hl.roomy
      exact ⟨hl.made, hl.doubled, show 2 * (l.count - 1) ≤ l.capacity by omega, hfilled⟩

/-! ### From one resize to the next -/

/-- How many entries have to come or go before the table is resized, that which lets it shrink included. -/
def slack (l : Level) : Nat := min (l.count - l.capacity / 8) (l.capacity / 2 - l.count)

/-- Whether an entry has come or gone from one level to another. -/
def change (l l' : Level) : Nat := if l'.count = l.count then 0 else 1

/-- Just after a resize a quarter of the slots is taken, and one more if an entry was stored. -/
theorem Step.slack_of_resize (h : Step l l') (hl : l.Sound) (hne : l'.capacity ≠ l.capacity) :
    l'.capacity / 8 ≤ l'.slack := by
  have hcapacity := hl.capacity_eq
  unfold slack
  cases h with
  | idle => exact absurd rfl hne
  | refused =>
    rcases hl.grown_cases with ⟨hfull, h⟩ | ⟨-, h⟩
    · rw [h]
      dsimp only
      omega
    · rw [h] at hne
      exact absurd rfl hne
  | stored =>
    rcases hl.grown_cases with ⟨hfull, h⟩ | ⟨-, h⟩
    · rw [h]
      dsimp only
      omega
    · rw [h] at hne
      exact absurd rfl hne
  | removed hpos =>
    rcases hl.shrunk_cases hpos with ⟨n, hn, heighths, hcount, -, h⟩ | ⟨-, h⟩
    · rw [h]
      dsimp only
      omega
    · rw [h] at hne
      exact absurd rfl hne

/-- A step that resizes the table has come to the end of the slack. -/
theorem Step.slack_le_change (h : Step l l') (hl : l.Sound) (hne : l'.capacity ≠ l.capacity) :
    l.slack ≤ l.change l' := by
  unfold slack change
  cases h with
  | idle => exact absurd rfl hne
  | refused =>
    rcases hl.grown_cases with ⟨hfull, -⟩ | ⟨-, h⟩
    · omega
    · rw [h] at hne
      exact absurd rfl hne
  | stored =>
    rcases hl.grown_cases with ⟨hfull, -⟩ | ⟨-, h⟩
    · omega
    · rw [h] at hne
      exact absurd rfl hne
  | removed hpos =>
    rcases hl.shrunk_cases hpos with ⟨n, hn, heighths, hcount, -, h⟩ | ⟨-, h⟩
    · rw [h, if_neg (by dsimp only; omega)]
      omega
    · rw [h] at hne
      exact absurd rfl hne

/-- Each other step takes no more of it than the entry that has come or gone. -/
theorem Step.slack_le (h : Step l l') (hsame : l'.capacity = l.capacity) : l.slack ≤ l.change l' + l'.slack := by
  have hcount : l'.count ≤ l.count + 1 ∧ l.count ≤ l'.count + 1 := by
    cases h with
    | idle => omega
    | refused => simp
    | stored => exact ⟨Nat.le_refl _, show l.count ≤ l.count + 1 + 1 by omega⟩
    | removed hpos =>
      have hshrunk : (shrunk { l with count := l.count - 1 }).count = l.count - 1 := by
        unfold shrunk
        split <;> rfl
      omega
  unfold slack change
  rw [hsame]
  split <;> omega

end Level

end RecordStore.Segment
