import Mathlib.Algebra.Group.Nat.Defs
import Mathlib.Data.Nat.Find
import RecordStore.Value.Hash

/-! # Spread hashes

A table takes the low bits of the spread hash of a key. The main statement is that spreading can be undone, from either
side, so that it never makes one word of two hashes. Keys that have the same home in a table therefore do so because of
the bits that are left out, and part for good in tables that are large enough. -/

namespace RecordStore

/-! ### Folding -/

/-- Bits that have been moved down twice are all gone, because each move is by more than half of the word. -/
theorem shiftRight_shiftRight (h : UInt64) : h >>> 33 >>> 33 = 0 := by
  have hshift (x : UInt64) : (x >>> 33).toNat = x.toNat >>> 33 := UInt64.toNat_shiftRight x 33
  have hlt : h.toNat < 2 ^ (33 + 33) := Nat.lt_trans h.toNat_lt (by decide)
  apply UInt64.toNat_inj.mp
  rw [hshift, hshift, ← Nat.shiftRight_add, Nat.shiftRight_eq_zero _ _ hlt]
  rfl

/-- The high bits stay as they are, so they are taken off the low ones by folding once more. -/
theorem foldHigh_foldHigh (h : UInt64) : foldHigh (foldHigh h) = h :=
  calc foldHigh (foldHigh h)
      = h ^^^ h >>> 33 ^^^ (h >>> 33 ^^^ h >>> 33 >>> 33) := by rw [foldHigh, foldHigh, UInt64.shiftRight_xor]
    _ = h ^^^ (h >>> 33 ^^^ h >>> 33) := by rw [shiftRight_shiftRight, UInt64.xor_zero, UInt64.xor_assoc]
    _ = h := by rw [UInt64.xor_self, UInt64.xor_zero]

/-! ### Spreading -/

/-- The finalizer with any two factors. -/
def spread (a b h : UInt64) : UInt64 := foldHigh (foldHigh (foldHigh h * a) * b)

/-- What the factors do is undone by their inverses, that of the second one first. -/
theorem spread_spread {a a' b b' : UInt64} (ha : a * a' = 1) (hb : b * b' = 1) (h : UInt64) :
    spread b' a' (spread a b h) = h := by
  have hundo {x y : UInt64} (hxy : x * y = 1) (g : UInt64) : foldHigh (foldHigh (g * x)) * y = g := by
    rw [foldHigh_foldHigh, UInt64.mul_assoc, hxy, UInt64.mul_one]
  rw [spread, spread, hundo hb, hundo ha, foldHigh_foldHigh]

theorem mix_eq_spread : mix = spread 0xff51afd7ed558ccd 0xc4ceb9fe1a85ec53 := rfl

/-- Gathers what the finalizer has spread. The factors are the inverses of its own. -/
def unmix : UInt64 → UInt64 := spread 0x9cb4b2f8129337db 0x4f74430c22a54005

theorem unmix_mix : Function.LeftInverse unmix mix := by
  intro h
  rw [mix_eq_spread, unmix]
  exact spread_spread (by decide) (by decide) h

theorem mix_unmix : Function.RightInverse unmix mix := by
  intro h
  rw [mix_eq_spread, unmix]
  exact spread_spread (by decide) (by decide) h

theorem mix_inj {g h : UInt64} : mix g = mix h ↔ g = h := unmix_mix.injective.eq_iff

/-! ### Homes -/

/-- Two words have the same low bits just as far as the first bit in which they differ. -/
theorem exists_mod_two_pow_eq_iff {g h : UInt64} (hne : g ≠ h) :
    ∃ n ≤ 64, ∀ j, g.toNat % 2 ^ j = h.toNat % 2 ^ j ↔ j < n := by
  have hall : g.toNat % 2 ^ 64 ≠ h.toNat % 2 ^ 64 := by
    rw [Nat.mod_eq_of_lt g.toNat_lt, Nat.mod_eq_of_lt h.toNat_lt]
    exact fun heq => hne (UInt64.toNat_inj.mp heq)
  have hdiffer : ∃ j, g.toNat % 2 ^ j ≠ h.toNat % 2 ^ j := ⟨64, hall⟩
  refine ⟨Nat.find hdiffer, Nat.find_min' hdiffer hall, fun j => ⟨fun hsame => ?_, fun hlt => ?_⟩⟩
  · by_contra hle
    have hdvd : 2 ^ Nat.find hdiffer ∣ 2 ^ j := Nat.pow_dvd_pow 2 (Nat.le_of_not_lt hle)
    apply Nat.find_spec hdiffer
    rw [← Nat.mod_mod_of_dvd _ hdvd, hsame, Nat.mod_mod_of_dvd _ hdvd]
  · exact not_not.mp (Nat.find_min hdiffer hlt)

namespace Value

/-- The keys have one home in tables of fewer than `2 ^ n` slots, and two in all others. -/
def PartAt (k₁ k₂ : Value) (n : Nat) : Prop := ∀ j, k₁.home (2 ^ j) = k₂.home (2 ^ j) ↔ j < n

theorem hash_ne_iff {k₁ k₂ : Value} : k₁.hash ≠ k₂.hash ↔ ∃ n ≤ 64, k₁.PartAt k₂ n := by
  constructor
  · exact fun hne => exists_mod_two_pow_eq_iff (mix_inj.not.mpr hne)
  · rintro ⟨n, -, hpart⟩ heq
    have hhome : k₁.home (2 ^ n) = k₂.home (2 ^ n) := by rw [home, home, heq]
    exact Nat.lt_irrefl n ((hpart n).mp hhome)

end Value

/-- Spreading has an inverse on both sides. Hashes that differ are spread over words that differ, and keys with such
    hashes have different homes in all tables from some size on. -/
theorem mix_reversible :
    Function.LeftInverse unmix mix ∧ Function.RightInverse unmix mix ∧ (∀ g h, g ≠ h → mix g ≠ mix h) ∧
      ∀ k₁ k₂ : Value, k₁.hash ≠ k₂.hash ↔ ∃ n ≤ 64, k₁.PartAt k₂ n :=
  ⟨unmix_mix, mix_unmix, fun _ _ hne => mix_inj.not.mpr hne, fun _ _ => Value.hash_ne_iff⟩

end RecordStore
