import Mathlib.Algebra.Order.Ring.Rat
import Mathlib.Data.Nat.Notation

/-! # The controller's `float` arithmetic as a parameter

The controller is generic in the arithmetic its `float` expressions run in. `FloatArith F` lists
the operations the source uses and assumes no law about them, so a result stated for every `F`
holds of the single-precision arithmetic of the target. The instance on `ℚ` is exact arithmetic.
-/

namespace Mecanum
set_option autoImplicit false

/-- The operations on `float` that the controller uses. -/
class FloatArith (F : Type) extends Add F, Sub F, Mul F, Div F, Neg F where
  /-- `(float)n` for an integer `n`. -/
  ofInt : ℤ → F
  /-- A decimal literal such as `0.7f`. -/
  lit : ℚ → F
  lt : F → F → Bool
  toInt32 : F → Int32
  toInt16 : F → Int16

namespace Exact

def trunc (x : ℚ) : ℤ := x.num.tdiv x.den

/-- Truncation, saturated at the limits of `int32_t`. C leaves the out-of-range case undefined;
the target's conversion instruction saturates. -/
def toInt32 (x : ℚ) : Int32 := Int32.ofInt (max (-2147483648) (min 2147483647 (trunc x)))

/-- The target converts to 32 bits and keeps the low half. -/
def toInt16 (x : ℚ) : Int16 := (toInt32 x).toInt16

instance : FloatArith ℚ where
  ofInt n := n
  lit q := q
  lt x y := decide (x < y)
  toInt32 := toInt32
  toInt16 := toInt16

@[simp] theorem ofInt_eq (n : ℤ) : (FloatArith.ofInt n : ℚ) = n := rfl
@[simp] theorem lit_eq (q : ℚ) : (FloatArith.lit q : ℚ) = q := rfl
@[simp] theorem lt_eq (x y : ℚ) : FloatArith.lt x y = decide (x < y) := rfl

end Exact
end Mecanum
