import Mecanum.Foundations.Trunc
import Mecanum.Wheel.Rounding

/-! # The controller in exact arithmetic

What the `float` helpers of the controller and its regulator compute when nothing is rounded.
-/

namespace Mecanum.Wheel
open FloatArith Exact
set_option autoImplicit false

@[simp] theorem fabs32_eq (x : ℚ) : fabs32 x = |x| := val_fabs32 x

theorem sign_of_pos {x : ℚ} (h : 0 < x) : sign x = 1 := by
  unfold sign
  simp [h]

theorem sign_of_neg {x : ℚ} (h : x < 0) : sign x = -1 := by
  unfold sign
  simp [h, h.le]

@[simp] theorem sign_zero : sign (0 : ℚ) = 0 := by decide

theorem sign_intCast (n : ℤ) : sign (n : ℚ) = n.sign := by
  rcases lt_trichotomy n 0 with h | h | h
  · rw [sign_of_neg (Int.cast_lt_zero.mpr h), Int.sign_eq_neg_one_of_neg h]
  · rw [h, Int.cast_zero, sign_zero, Int.sign_zero]
  · rw [sign_of_pos (Int.cast_pos.mpr h), Int.sign_eq_one_of_pos h]

theorem sign_neg (x : ℚ) : sign (-x) = -sign x := by
  rcases lt_trichotomy x 0 with h | h | h
  · rw [sign_of_neg h, sign_of_pos (neg_pos.mpr h)]
    rfl
  · subst h
    simp
  · rw [sign_of_pos h, sign_of_neg (neg_lt_zero.mpr h)]

theorem limitDuty_eq (maxSpeed : UInt16) (duty : ℚ) : limitDuty maxSpeed duty =
    if 0 < maxSpeed then Limit.limit (maxSpeed.toNat : ℚ) duty else duty :=
  val_limitDuty maxSpeed duty

theorem limitDuty_neg (maxSpeed : UInt16) (duty : ℚ) :
    limitDuty maxSpeed (-duty) = -limitDuty maxSpeed duty := by
  rw [limitDuty_eq, limitDuty_eq]
  split
  · exact Limit.limit_neg (Nat.cast_nonneg _) duty
  · rfl

theorem abs_limitDuty_le {maxSpeed : UInt16} (hmax : 0 < maxSpeed) (duty : ℚ) :
    |limitDuty maxSpeed duty| ≤ maxSpeed.toNat := by
  rw [limitDuty_eq, if_pos hmax]
  exact Limit.abs_limit_le (Nat.cast_nonneg _) duty

section Pid
variable (accel : ZephyrAccelmotor ℚ) (target current : Int32) (cutoff : Bool)

theorem pidUpdate_dutyF :
    (pidUpdate accel target current cutoff).dutyF = limitDuty accel.maxSpeed
      ((target - current).toInt * accel.kp + (accel.prevInput - current).toInt * accel.kd /
        accel.dtSec + (accel.integral + (target - current).toInt * accel.ki * accel.dtSec)) :=
  dutyF_pidUpdate accel target current cutoff

/-- The two cases in which `pid_control` clears the integral. -/
def ClearsIntegral (target current : Int32) (cutoff : Bool) : Prop :=
  if cutoff then ¬ iabs32 (target - current) > accel.stopzone.toInt32
  else target - current = 0 ∧ target = 0

instance : Decidable (ClearsIntegral accel target current cutoff) :=
  inferInstanceAs (Decidable (if cutoff then ¬ iabs32 (target - current) > accel.stopzone.toInt32
    else target - current = 0 ∧ target = 0))

theorem pidUpdate_integral :
    (pidUpdate accel target current cutoff).integral =
      if ClearsIntegral accel target current cutoff then 0
      else accel.integral + (target - current).toInt * accel.ki * accel.dtSec := by
  by_cases h : ClearsIntegral accel target current cutoff
  · rw [if_pos h]
    exact if_pos h
  · rw [if_neg h]
    exact if_neg h

end Pid
end Mecanum.Wheel
