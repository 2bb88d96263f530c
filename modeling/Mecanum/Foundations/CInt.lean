import Mathlib.Algebra.Order.Group.Abs
import Mathlib.Algebra.Order.Ring.Int
import Mathlib.Data.Nat.Notation

/-! # C integer conversions

Expressions whose C type is `int` are evaluated in `ℤ`, and the places where the program stores
them in a narrower type go through the conversions of that type (`Int16.ofInt`, `Int32.ofInt`,
`toUInt16`), all of which reduce modulo the width. The lemmas say when a conversion loses nothing.
-/

namespace Mecanum.CInt
set_option autoImplicit false

def toUInt16 (n : ℤ) : UInt16 := UInt16.ofNat (n % 65536).toNat

theorem toNat_toUInt16 {n : ℤ} (h0 : 0 ≤ n) (h1 : n < 65536) : (toUInt16 n).toNat = n.toNat := by
  unfold toUInt16
  rw [UInt16.toNat_ofNat', Int.emod_eq_of_lt h0 h1]
  have hlt : n.toNat < 2 ^ 16 := by omega
  exact Nat.mod_eq_of_lt hlt

theorem toInt_int16 {n : ℤ} (h0 : -32768 ≤ n) (h1 : n < 32768) : (Int16.ofInt n).toInt = n := by
  rw [Int16.toInt_ofInt]
  exact Int.bmod_eq_of_le (by simpa using h0) (by simpa using h1)

theorem int16_bounds (d : Int16) : -32768 ≤ d.toInt ∧ d.toInt < 32768 :=
  ⟨d.le_toInt, d.toInt_lt⟩

theorem int16_pos_iff {d : Int16} : 0 < d ↔ 0 < d.toInt := Int16.lt_iff_toInt_lt

theorem int16_neg_iff {d : Int16} : d < 0 ↔ d.toInt < 0 := Int16.lt_iff_toInt_lt

theorem int32_bounds (n : Int32) : -2147483648 ≤ n.toInt ∧ n.toInt < 2147483648 :=
  ⟨n.le_toInt, n.toInt_lt⟩

theorem toInt_sub_int32 {a b : Int32} (h0 : -2147483648 ≤ a.toInt - b.toInt)
    (h1 : a.toInt - b.toInt < 2147483648) : (a - b).toInt = a.toInt - b.toInt := by
  rw [Int32.toInt_sub]
  exact Int.bmod_eq_of_le (by simpa using h0) (by simpa using h1)

/-- The difference of two `int16_t` values, taken in `int`. -/
theorem toInt_sub_toInt32 (a b : Int16) : (a.toInt32 - b.toInt32).toInt = a.toInt - b.toInt := by
  have ha := int16_bounds a
  have hb := int16_bounds b
  rw [toInt_sub_int32, Int16.toInt_toInt32, Int16.toInt_toInt32]
  all_goals simp only [Int16.toInt_toInt32]; omega

/-! ## Values that may be negated -/

/-- The value and its negation are both in the range of `int16_t`. -/
def Fits16 (n : ℤ) : Prop := |n| ≤ 32767

def Fits32 (n : ℤ) : Prop := |n| ≤ 2147483647

instance (n : ℤ) : Decidable (Fits16 n) := inferInstanceAs (Decidable (_ ≤ _))
instance (n : ℤ) : Decidable (Fits32 n) := inferInstanceAs (Decidable (_ ≤ _))

theorem Fits16.neg {n : ℤ} (h : Fits16 n) : Fits16 (-n) := (abs_neg n).trans_le h

theorem Fits32.neg {n : ℤ} (h : Fits32 n) : Fits32 (-n) := (abs_neg n).trans_le h

theorem Fits16.toInt_neg {n : Int16} (h : Fits16 n.toInt) : (-n).toInt = -n.toInt := by
  obtain ⟨hlow, hhigh⟩ := abs_le.mp h
  rw [Int16.toInt_neg]
  exact Int.bmod_eq_of_le (by simp; omega) (by simp; omega)

theorem Fits32.toInt_neg {n : Int32} (h : Fits32 n.toInt) : (-n).toInt = -n.toInt := by
  obtain ⟨hlow, hhigh⟩ := abs_le.mp h
  rw [Int32.toInt_neg]
  exact Int.bmod_eq_of_le (by simp; omega) (by simp; omega)

theorem Fits16.toInt_sub {a b : Int16} (h : Fits16 (a.toInt - b.toInt)) :
    (a - b).toInt = a.toInt - b.toInt := by
  obtain ⟨hlow, hhigh⟩ := abs_le.mp h
  rw [Int16.toInt_sub]
  exact Int.bmod_eq_of_le (by simp; omega) (by simp; omega)

theorem Fits32.toInt_sub {a b : Int32} (h : Fits32 (a.toInt - b.toInt)) :
    (a - b).toInt = a.toInt - b.toInt := by
  obtain ⟨hlow, hhigh⟩ := abs_le.mp h
  exact toInt_sub_int32 (by omega) (by omega)

theorem toInt_toInt32_uint32 {n : UInt32} (h : n.toNat < 2147483648) :
    n.toInt32.toInt = n.toNat :=
  BitVec.toInt_eq_toNat_of_lt (by
    show 2 * n.toNat < 2 ^ 32
    omega)

/-- A sum is off by `e` instead of `d` only if they agree, and then only if it fits. -/
theorem toInt_add_ofInt_iff {c : Int32} {d e : ℤ} (h0 : -4294967296 < d - e)
    (h1 : d - e < 4294967296) : (c + Int32.ofInt d).toInt = c.toInt + e ↔
      e = d ∧ -2147483648 ≤ c.toInt + e ∧ c.toInt + e < 2147483648 := by
  have hsum := int32_bounds (c + Int32.ofInt d)
  have hmod : (c + Int32.ofInt d).toInt = (c.toInt + d).bmod 4294967296 := by
    rw [Int32.toInt_add, Int32.toInt_ofInt, Int.add_bmod_bmod]
  constructor
  · intro heq
    rw [heq] at hsum
    rw [hmod, Int.bmod_def] at heq
    refine ⟨?_, hsum⟩
    split at heq <;> omega
  · rintro ⟨rfl, hlow, hhigh⟩
    rw [hmod]
    exact Int.bmod_eq_of_le (by simpa using hlow) (by simpa using hhigh)

/-! ## Clocks -/

/-- Truncation of a signed 64-bit count keeps it modulo `2 ^ 32`. -/
theorem toNat_toUInt32_int64 (n : Int64) :
    (n.toUInt64.toUInt32.toNat : ℤ) = n.toInt % 4294967296 := by
  have hlt : n.toBitVec.toNat < 2 ^ 64 := n.toBitVec.isLt
  have hint : n.toInt = n.toBitVec.toInt := rfl
  have hnat : n.toUInt64.toNat = n.toBitVec.toNat := rfl
  rw [UInt64.toNat_toUInt32, hnat, hint, BitVec.toInt_eq_toNat_cond]
  split <;> push_cast <;> omega

/-- The difference of two counts kept modulo `2 ^ 32` is the true one if that fits. -/
theorem toNat_sub_of_emod {x y : UInt32} {a b : ℤ} (hx : (x.toNat : ℤ) = a % 4294967296)
    (hy : (y.toNat : ℤ) = b % 4294967296) (h0 : 0 ≤ a - b) (h1 : a - b < 4294967296) :
    ((x - y).toNat : ℤ) = a - b := by
  have hxlt := x.toNat_lt
  have hylt := y.toNat_lt
  rw [UInt32.toNat_sub]
  push_cast
  omega

theorem toNat_add_of_emod {x y : UInt32} {a : ℤ} (hx : (x.toNat : ℤ) = a % 4294967296) :
    ((x + y).toNat : ℤ) = (a + y.toNat) % 4294967296 := by
  rw [UInt32.toNat_add]
  push_cast
  omega

/-! ## Division -/

/-- Truncated quotients by two positive divisors agree exactly when the one brackets the dividend at
the other's steps. -/
theorem tdiv_eq_tdiv_iff {x a b : ℤ} (hb : 0 < b) :
    x.tdiv a = x.tdiv b ↔ |x| / a * b ≤ |x| ∧ |x| < (|x| / a + 1) * b := by
  have hquot : ∀ q y : ℤ, q = y / b ↔ q * b ≤ y ∧ y < (q + 1) * b := by
    intro q y
    rw [← Int.le_ediv_iff_mul_le hb, ← Int.ediv_lt_iff_lt_mul hb]
    omega
  rw [← hquot]
  rcases le_total 0 x with hx | hx
  · rw [abs_of_nonneg hx, Int.tdiv_eq_ediv_of_nonneg hx, Int.tdiv_eq_ediv_of_nonneg hx]
  · have hneg : 0 ≤ -x := by omega
    have hflip : ∀ d : ℤ, x.tdiv d = -(-x / d) := by
      intro d
      rw [← Int.tdiv_eq_ediv_of_nonneg hneg, Int.neg_tdiv, neg_neg]
    rw [abs_of_nonpos hx, hflip, hflip, neg_inj]

theorem tdiv_le_iff {x d n : ℤ} (hd : 0 < d) (hn : 0 ≤ n) : x.tdiv d ≤ n ↔ x < (n + 1) * d := by
  constructor
  · intro h
    exact Int.lt_mul_of_tdiv_lt hd (Int.lt_add_one_of_le h)
  · intro h
    rcases le_total 0 x with hx | hx
    · rw [Int.tdiv_eq_ediv_of_nonneg hx]
      exact Int.le_of_lt_add_one ((Int.ediv_lt_iff_lt_mul hd).mpr h)
    · have hneg := Int.tdiv_nonneg (Int.neg_nonneg_of_nonpos hx) hd.le
      rw [Int.neg_tdiv] at hneg
      omega

theorem le_tdiv_iff {x d n : ℤ} (hd : 0 < d) (hn : 0 ≤ n) : -n ≤ x.tdiv d ↔ -((n + 1) * d) < x := by
  have h := tdiv_le_iff (x := -x) hd hn
  rw [Int.neg_tdiv] at h
  rw [neg_le, h, neg_lt]

/-- A quotient by a positive divisor does not have the opposite sign. -/
theorem tdiv_sign {x d : ℤ} (hd : 0 < d) : (0 ≤ x → 0 ≤ x.tdiv d) ∧ (x ≤ 0 → x.tdiv d ≤ 0) := by
  constructor
  · intro hx
    exact Int.tdiv_nonneg hx hd.le
  · intro hx
    have hneg := Int.tdiv_nonneg (Int.neg_nonneg_of_nonpos hx) hd.le
    rw [Int.neg_tdiv] at hneg
    omega

/-- A quotient of two `int32_t` values that are in range. -/
theorem toInt_mul_div_int32 {a b d : Int32} (h0 : -2147483648 ≤ a.toInt * b.toInt)
    (h1 : a.toInt * b.toInt < 2147483648) (hd : 0 < d.toInt) :
    (a * b / d).toInt = (a.toInt * b.toInt).tdiv d.toInt := by
  have hne : d ≠ -1 := by
    rintro rfl
    exact absurd hd (by decide)
  rw [Int32.toInt_div_of_ne_right _ _ hne, Int32.toInt_mul]
  congr 1
  exact Int.bmod_eq_of_le (by simpa using h0) (by simpa using h1)

end Mecanum.CInt
