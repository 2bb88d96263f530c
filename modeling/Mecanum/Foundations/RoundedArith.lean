import Mathlib.Algebra.Order.Ring.Abs
import Mecanum.Foundations.FloatArith

/-! # Arithmetic with a rounding

Every operation computes with rational numbers and rounds the result. The rounding is monotone, and
values and the whole numbers below `2 ^ 24` are left alone. Exact arithmetic is the case without a
rounding.
-/

namespace Mecanum
open FloatArith
set_option autoImplicit false

/-- The laws of a rounded arithmetic. -/
class RoundedArith (F : Type) [FloatArith F] where
  val : F → ℚ
  rnd : ℚ → ℚ
  val_inj : ∀ {x y : F}, val x = val y → x = y
  rnd_le : ∀ {a b : ℚ}, a ≤ b → rnd a ≤ rnd b
  rnd_val : ∀ x : F, rnd (val x) = val x
  rnd_int : ∀ {n : ℤ}, |n| < 16777216 → rnd n = n
  val_ofInt : ∀ n : ℤ, val (ofInt n : F) = rnd n
  val_lit : ∀ q : ℚ, val (lit q : F) = rnd q
  val_add : ∀ x y : F, val (x + y) = rnd (val x + val y)
  val_sub : ∀ x y : F, val (x - y) = rnd (val x - val y)
  val_mul : ∀ x y : F, val (x * y) = rnd (val x * val y)
  val_div : ∀ x y : F, val (x / y) = rnd (val x / val y)
  val_neg : ∀ x : F, val (-x) = -val x
  lt_eq : ∀ x y : F, FloatArith.lt x y = decide (val x < val y)
  toInt32_eq : ∀ x : F, FloatArith.toInt32 x = Exact.toInt32 (val x)
  toInt16_eq : ∀ x : F, FloatArith.toInt16 x = Exact.toInt16 (val x)

namespace RoundedArith

instance : RoundedArith ℚ where
  val x := x
  rnd x := x
  val_inj h := h
  rnd_le h := h
  rnd_val _ := rfl
  rnd_int _ := rfl
  val_ofInt _ := rfl
  val_lit _ := rfl
  val_add _ _ := rfl
  val_sub _ _ := rfl
  val_mul _ _ := rfl
  val_div _ _ := rfl
  val_neg _ := rfl
  lt_eq _ _ := rfl
  toInt32_eq _ := rfl
  toInt16_eq _ := rfl

section Laws
variable {F : Type} [FloatArith F] [RoundedArith F]

variable (F) in
theorem rnd_natCast {n : ℕ} (h : n < 16777216) : rnd F n = n := by
  have hcast : |(n : ℤ)| < 16777216 := by
    rw [Nat.abs_cast]
    exact_mod_cast h
  exact_mod_cast rnd_int (F := F) hcast

variable (F) in
@[simp] theorem rnd_zero : rnd F 0 = 0 := by
  exact_mod_cast rnd_int (F := F) (n := 0) (by decide)

theorem rnd_nonneg {a : ℚ} (h : 0 ≤ a) : 0 ≤ rnd F a := by
  have hle := rnd_le (F := F) h
  rwa [rnd_zero] at hle

variable (F) in
theorem rnd_rnd (a : ℚ) : rnd F (rnd F a) = rnd F a := by
  have h := rnd_val (lit a : F)
  rwa [val_lit] at h

theorem add_ofInt_zero (x : F) : x + ofInt 0 = x := by
  apply val_inj
  rw [val_add, val_ofInt, Int.cast_zero, rnd_zero, add_zero, rnd_val]

end Laws
end RoundedArith
end Mecanum
