import Mathlib.Algebra.Group.Nat.Defs
import RecordStore.Bytes

/-! # Words in bytes

A number that fits its bytes is read back from them. -/

namespace RecordStore.Bytes

theorem toNat_littleEndian {width n : Nat} (h : n < 256 ^ width) : toNat (littleEndian width n) = n := by
  induction width generalizing n with
  | zero =>
    simp only [Nat.pow_zero, Nat.lt_one_iff] at h
    rw [h]
    rfl
  | succ width ih =>
    have hrest : n / 256 < 256 ^ width := by
      rw [Nat.div_lt_iff_lt_mul (by decide), ← Nat.pow_succ]
      exact h
    simp only [littleEndian, toNat, ih hrest, UInt8.toNat_ofNat']
    exact Nat.mod_add_div n 256

theorem toNat_lt (b : Bytes) : toNat b < 256 ^ b.length := by
  induction b with
  | nil => exact Nat.one_pos
  | cons x b ih =>
    have hx := x.toNat_lt
    rw [toNat, List.length_cons, Nat.pow_succ]
    omega

/-- Bytes are the number that they give, written at their own width. -/
theorem littleEndian_toNat (b : Bytes) : littleEndian b.length (toNat b) = b := by
  induction b with
  | nil => rfl
  | cons x b ih =>
    have hx := x.toNat_lt
    have hrest : (x.toNat + 256 * toNat b) / 256 = toNat b := by omega
    have hfirst : UInt8.ofNat (x.toNat + 256 * toNat b) = x := by
      apply UInt8.toNat_inj.mp
      rw [UInt8.toNat_ofNat']
      omega
    rw [List.length_cons, toNat, littleEndian, hfirst, hrest, ih]

end RecordStore.Bytes
