import Mathlib.Data.Rat.Floor
import Mecanum.Foundations.CInt
import Mecanum.Foundations.FloatArith

/-! # Truncation of exact values

C converts a real value to an integer type by dropping its fraction. The truncation is odd, never
grows in absolute value and is `0` exactly below one. The conversions to `int32_t` and `int16_t`
are this truncation as long as it fits the type.
-/

namespace Mecanum.Exact
open CInt
set_option autoImplicit false

variable {x : ℚ}

@[simp] theorem trunc_intCast (n : ℤ) : trunc (n : ℚ) = n := by
  unfold trunc
  rw [Rat.num_intCast, Rat.den_intCast]
  exact Int.tdiv_one n

theorem trunc_neg (x : ℚ) : trunc (-x) = -trunc x := by
  unfold trunc
  rw [Rat.num_neg_eq_neg_num, Rat.den_neg_eq_den, Int.neg_tdiv]

theorem trunc_of_nonneg (hx : 0 ≤ x) : trunc x = ⌊x⌋ := by
  unfold trunc
  rw [Rat.floor_def', Int.tdiv_eq_ediv_of_nonneg (Rat.num_nonneg.mpr hx)]

theorem trunc_nonneg (hx : 0 ≤ x) : 0 ≤ trunc x := by
  rw [trunc_of_nonneg hx]
  exact Int.floor_nonneg.mpr hx

theorem trunc_le (hx : 0 ≤ x) : (trunc x : ℚ) ≤ x := by
  rw [trunc_of_nonneg hx]
  exact Int.floor_le x

theorem le_trunc {n : ℤ} (hn : 0 ≤ n) (h : n ≤ x) : n ≤ trunc x := by
  rw [trunc_of_nonneg ((Int.cast_nonneg hn).trans h)]
  exact Int.le_floor.mpr h

theorem trunc_eq_of_nonneg {n : ℤ} (hn : 0 ≤ n) (h : n ≤ x) (h' : x < n + 1) : trunc x = n := by
  rw [trunc_of_nonneg ((Int.cast_nonneg hn).trans h), Int.floor_eq_iff]
  exact ⟨h, h'⟩

theorem trunc_abs (x : ℚ) : trunc |x| = |trunc x| := by
  rcases le_total 0 x with hx | hx
  · rw [abs_of_nonneg hx, abs_of_nonneg (trunc_nonneg hx)]
  · have h := trunc_nonneg (neg_nonneg.mpr hx)
    rw [abs_of_nonpos hx, trunc_neg, abs_of_nonpos]
    rw [trunc_neg] at h
    omega

theorem abs_trunc_le (x : ℚ) : |(trunc x : ℚ)| ≤ |x| := by
  rw [← Int.cast_abs, ← trunc_abs]
  exact trunc_le (abs_nonneg x)

theorem trunc_eq_zero_iff : trunc x = 0 ↔ |x| < 1 := by
  rw [← abs_eq_zero, ← trunc_abs, trunc_of_nonneg (abs_nonneg x), Int.floor_eq_zero_iff]
  simp

theorem trunc_le_iff {n : ℤ} (hn : 0 ≤ n) : trunc x ≤ n ↔ x < n + 1 := by
  rcases le_total 0 x with hx | hx
  · rw [trunc_of_nonneg hx, Int.floor_le_iff]
  · have htrunc := trunc_nonneg (neg_nonneg.mpr hx)
    rw [trunc_neg] at htrunc
    have hcast : (0 : ℚ) ≤ n := Int.cast_nonneg hn
    exact iff_of_true (by omega) (by linarith)

theorem le_trunc_iff {n : ℤ} (hn : 0 ≤ n) : -n ≤ trunc x ↔ -(n + 1 : ℚ) < x := by
  have h := trunc_le_iff (x := -x) hn
  rw [trunc_neg] at h
  rw [neg_le, h, neg_lt]

/-- Truncation gives 0 or keeps the sign. -/
theorem trunc_sign (x : ℚ) : trunc x = 0 ∨ (0 < trunc x ∧ 0 < x) ∨ (trunc x < 0 ∧ x < 0) := by
  rcases lt_trichotomy (trunc x) 0 with h | h | h
  · have hx : x < 0 := lt_of_not_ge fun hx => absurd (trunc_nonneg hx) (by omega)
    exact .inr (.inr ⟨h, hx⟩)
  · exact .inl h
  · have hx : 0 < x := by
      refine lt_of_not_ge fun hx => ?_
      have hneg := trunc_nonneg (neg_nonneg.mpr hx)
      rw [trunc_neg] at hneg
      omega
    exact .inr (.inl ⟨h, hx⟩)

/-- Less than 1 from a whole number, the truncation is at most 1 from it. -/
theorem abs_trunc_sub_le {n : ℤ} (h : |x - n| < 1) : |trunc x - n| ≤ 1 := by
  obtain ⟨hlow, hhigh⟩ := abs_lt.mp h
  have hfloor : ∀ y : ℚ, ∀ k : ℤ, -1 < y - k → y - k < 1 → k - 1 ≤ ⌊y⌋ ∧ ⌊y⌋ ≤ k := by
    intro y k h0 h1
    constructor
    · refine Int.le_floor.mpr ?_
      push_cast
      linarith
    · refine Int.lt_add_one_iff.mp (Int.floor_lt.mpr ?_)
      push_cast
      linarith
  rcases le_total 0 x with hx | hx
  · have hbounds := hfloor x n hlow hhigh
    rw [trunc_of_nonneg hx]
    exact abs_le.mpr ⟨by omega, by omega⟩
  · have hbounds := hfloor (-x) (-n) (by push_cast; linarith) (by push_cast; linarith)
    have htrunc := trunc_neg x
    rw [trunc_of_nonneg (neg_nonneg.mpr hx)] at htrunc
    exact abs_le.mpr ⟨by omega, by omega⟩

theorem toInt_toInt32 (h0 : -2147483648 ≤ trunc x) (h1 : trunc x < 2147483648) :
    (toInt32 x).toInt = trunc x := by
  unfold toInt32
  rw [min_eq_right (by omega), max_eq_right h0, Int32.toInt_ofInt]
  exact Int.bmod_eq_of_le (by simpa using h0) (by simpa using h1)

theorem toInt_toInt16 (h0 : -32768 ≤ trunc x) (h1 : trunc x < 32768) :
    (toInt16 x).toInt = trunc x := by
  unfold toInt16
  rw [Int32.toInt_toInt16, toInt_toInt32 (by omega) (by omega)]
  exact Int.bmod_eq_of_le (by simpa using h0) (by simpa using h1)

theorem toInt32_toInt (n : Int32) : toInt32 (n.toInt : ℚ) = n := by
  have hn := int32_bounds n
  rw [← Int32.toInt_inj, toInt_toInt32, trunc_intCast]
  all_goals rw [trunc_intCast]; omega

theorem toInt16_eq_zero_iff : toInt16 x = 0 ↔ (65536 : ℤ) ∣ (toInt32 x).toInt := by
  have hsize : (65536 : ℤ) = ((2 ^ 16 : ℕ) : ℤ) := rfl
  unfold toInt16
  rw [← Int16.toInt_inj, Int32.toInt_toInt16, Int16.toInt_zero, hsize, Int.dvd_iff_bmod_eq_zero]

theorem toInt16_eq_zero_iff_of_lt (hx : |x| < 65536) : toInt16 x = 0 ↔ |x| < 1 := by
  have htrunc : |trunc x| < 65536 := by
    have h := (abs_trunc_le x).trans_lt hx
    exact_mod_cast h
  obtain ⟨hlow, hhigh⟩ := abs_lt.mp htrunc
  rw [toInt16_eq_zero_iff, toInt_toInt32 (by omega) (by omega), ← trunc_eq_zero_iff]
  omega

end Mecanum.Exact
