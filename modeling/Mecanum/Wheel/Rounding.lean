import Mecanum.Foundations.Limit
import Mecanum.Foundations.RoundedArith
import Mecanum.Wheel.Accelmotor

/-! # The regulator in a rounded arithmetic

What the `float` helpers of the controller and its regulator compute when every operation is rounded.
-/

namespace Mecanum.Wheel
open FloatArith RoundedArith
set_option autoImplicit false

variable {F : Type} [FloatArith F]

/-- The three terms of `pid_control`, added up. -/
def ZephyrAccelmotor.pidSum (accel : ZephyrAccelmotor F) (target current : Int32) : F :=
  ofInt (target - current).toInt * accel.kp +
    ofInt (accel.prevInput - current).toInt * accel.kd / accel.dtSec +
      (accel.integral + ofInt (target - current).toInt * accel.ki * accel.dtSec)

/-- The distance the profile still has to go, as the code computes it. -/
def ZephyrAccelmotor.profileErr (accel : ZephyrAccelmotor F) : F :=
  ofInt accel.targetPos.toInt - accel.controlPos

theorem profileStep_of_near {accel : ZephyrAccelmotor F}
    (h : lt (lit 0.1) (fabs32 accel.profileErr) = false) :
    profileStep accel = ⟨accel.controlPos, accel.controlSpeed, accel.lastSpeed⟩ := by
  unfold ZephyrAccelmotor.profileErr at h
  simp [profileStep, h]

variable [RoundedArith F]

theorem val_fabs32 (x : F) : val (fabs32 x) = |val x| := by
  unfold fabs32
  simp only [RoundedArith.lt_eq, val_lit, rnd_zero, decide_eq_true_eq]
  split
  · next h => rw [val_neg, abs_of_neg h]
  · next h => rw [abs_of_nonneg (not_lt.mp h)]

theorem sign_val (x : F) : sign (val x) = sign x := by
  unfold sign
  simp only [RoundedArith.lt_eq, val_lit, rnd_zero]
  rfl

theorem val_toNat (maxSpeed : UInt16) : val (ofInt maxSpeed.toNat : F) = maxSpeed.toNat := by
  have hsize := maxSpeed.toNat_lt
  rw [val_ofInt, Int.cast_natCast]
  exact rnd_natCast F (by omega)

/-- The two comparisons with `max_speed` are exact. -/
theorem val_limitDuty (maxSpeed : UInt16) (duty : F) : val (limitDuty maxSpeed duty) =
    if 0 < maxSpeed then Limit.limit (maxSpeed.toNat : ℚ) (val duty) else val duty := by
  have hnonneg : (0 : ℚ) ≤ maxSpeed.toNat := Nat.cast_nonneg _
  have hhigh := val_toNat (F := F) maxSpeed
  have hlow : val (ofInt (-(maxSpeed.toNat : ℤ)) : F) = -(maxSpeed.toNat : ℚ) := by
    have hsize := maxSpeed.toNat_lt
    have hint := rnd_int (F := F) (n := -(maxSpeed.toNat : ℤ)) (abs_lt.mpr ⟨by omega, by omega⟩)
    rw [val_ofInt, hint]
    push_cast
    rfl
  unfold limitDuty
  by_cases hmax : 0 < maxSpeed
  · rw [if_pos hmax, ← Limit.clamp_eq_limit hnonneg]
    simp only [hmax, if_true, RoundedArith.lt_eq, hhigh, hlow, decide_eq_true_eq,
      apply_ite val, val_neg]
  · simp only [gt_iff_lt, hmax, if_false]

theorem dutyF_pidUpdate (accel : ZephyrAccelmotor F) (target current : Int32) (cutoff : Bool) :
    (pidUpdate accel target current cutoff).dutyF =
      limitDuty accel.maxSpeed (accel.pidSum target current) := by
  have hbase : ∀ x : F, x + ofInt (sign (ofInt (target - current).toInt : F) * 0) = x := by
    intro x
    rw [mul_zero]
    exact add_ofInt_zero x
  unfold pidUpdate ZephyrAccelmotor.pidSum
  simp only [hbase, ite_self]

/-- Without error and change the integral is left. -/
theorem pidSum_of_held {accel : ZephyrAccelmotor F} {pos : Int32} (h : accel.prevInput = pos) :
    accel.pidSum pos pos = accel.integral := by
  apply val_inj
  unfold ZephyrAccelmotor.pidSum
  simp only [h, Int32.sub_self, Int32.toInt_zero, val_add, val_mul, val_div, val_ofInt, Int.cast_zero,
    rnd_zero, zero_mul, zero_div, add_zero, zero_add, rnd_val]

/-- A profile at its target stays there. -/
theorem profileStep_of_arrived {accel : ZephyrAccelmotor F} (h : val accel.profileErr = 0) :
    profileStep accel = ⟨accel.controlPos, accel.controlSpeed, accel.lastSpeed⟩ := by
  apply profileStep_of_near
  rw [RoundedArith.lt_eq, val_fabs32, h, abs_zero, val_lit]
  exact decide_eq_false (not_lt.mpr (rnd_nonneg (by norm_num)))

theorem accelPosUpdate_of_arrived {accel : ZephyrAccelmotor F} (h : val accel.profileErr = 0) :
    accelPosUpdate accel = accel := by
  unfold accelPosUpdate
  rw [profileStep_of_arrived h]

end Mecanum.Wheel
