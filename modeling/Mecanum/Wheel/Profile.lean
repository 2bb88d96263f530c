import Mecanum.Wheel.Exact

/-! # One step of the position profile

`profileStep` in exact arithmetic, in the words of what it decides: the profile has settled, or it
snaps to the target, or it changes its speed, towards zero when it brakes and towards the target when it
does not.
-/

namespace Mecanum.Wheel
open FloatArith Exact
set_option autoImplicit false

namespace ZephyrAccelmotor
variable (accel : ZephyrAccelmotor ℚ)

/-- The distance from the profile's position to the target. -/
def toGo : ℚ := accel.targetPos.toInt - accel.controlPos

def Settled : Prop := |accel.toGo| ≤ 0.1

def Snaps : Prop :=
  |accel.toGo| < accel.stopzone.toNat ∧ |accel.lastSpeed - accel.controlSpeed| < 2

/-- The braking test: `control_speed`, in counts per tick, against `acceleration`, in counts per
second squared. -/
def Brakes : Prop := |accel.toGo| < accel.controlSpeed * accel.controlSpeed / (2 * accel.acceleration)

instance : Decidable accel.Settled := inferInstanceAs (Decidable (_ ≤ _))
instance : Decidable accel.Snaps := inferInstanceAs (Decidable (_ ∧ _))
instance : Decidable accel.Brakes := inferInstanceAs (Decidable (_ < _))

/-- The recomputed deceleration of a braking step. -/
def brakeStep : ℚ := accel.controlSpeed * accel.controlSpeed / (2 * |accel.toGo|)

def speedChange : ℚ :=
  if accel.Brakes then -(sign accel.controlSpeed * accel.brakeStep)
  else sign accel.toGo * (accel.acceleration * accel.dtSec)

/-- `max_speed * dt_sec`, the limit of `control_speed`. -/
def maxSpeedDt : ℚ := accel.maxSpeed.toNat * accel.dtSec

def limitSpeed (speed : ℚ) : ℚ :=
  if 0 < accel.maxSpeed then Limit.limit accel.maxSpeedDt speed else speed

def nextSpeed : ℚ := accel.limitSpeed (accel.controlSpeed + accel.speedChange)

variable {accel}

theorem maxSpeedDt_nonneg (hdt : 0 ≤ accel.dtSec) : 0 ≤ accel.maxSpeedDt :=
  mul_nonneg (Nat.cast_nonneg _) hdt

theorem limitSpeed_neg (hdt : 0 ≤ accel.dtSec) (speed : ℚ) :
    accel.limitSpeed (-speed) = -accel.limitSpeed speed := by
  unfold limitSpeed
  split
  · exact Limit.limit_neg (maxSpeedDt_nonneg hdt) speed
  · rfl

theorem limitSpeed_zero (hdt : 0 ≤ accel.dtSec) : accel.limitSpeed 0 = 0 := by
  have h := limitSpeed_neg hdt 0
  rw [neg_zero] at h
  linarith

theorem toGo_ne_zero (h : ¬ accel.Settled) : accel.toGo ≠ 0 := by
  intro hzero
  unfold Settled at h
  rw [hzero, abs_zero] at h
  norm_num at h

theorem Brakes.pos (h : accel.Brakes) : 0 < accel.acceleration ∧ accel.controlSpeed ≠ 0 := by
  unfold Brakes at h
  have hquot := (abs_nonneg _).trans_lt h
  have hspeed : accel.controlSpeed ≠ 0 := by
    intro hzero
    rw [hzero, zero_mul, zero_div] at hquot
    exact lt_irrefl 0 hquot
  have hsq : 0 < accel.controlSpeed * accel.controlSpeed := mul_self_pos.mpr hspeed
  have htwice := (div_pos_iff_of_pos_left hsq).mp hquot
  exact ⟨by linarith, hspeed⟩

/-- Whichever sign the two tests of a braking step leave the distance with, the speed changes
towards zero. -/
theorem sign_of_brakes {err speed : ℚ} (herr : err ≠ 0) (hspeed : speed ≠ 0) :
    sign (if sign speed = sign (-err) then - -err else -err) = -sign speed := by
  rcases lt_or_gt_of_ne herr with he | he <;> rcases lt_or_gt_of_ne hspeed with hs | hs
  · simp [sign_neg, sign_of_neg he, sign_of_neg hs]
  · simp [sign_neg, sign_of_neg he, sign_of_pos hs]
  · simp [sign_neg, sign_of_pos he, sign_of_neg hs]
  · simp [sign_neg, sign_of_pos he, sign_of_pos hs]

theorem clamp_eq_limitSpeed (hdt : 0 ≤ accel.dtSec) (speed : ℚ) :
    (if accel.maxSpeed > 0 then
      if (if accel.maxSpeedDt < speed then accel.maxSpeedDt else speed) < -accel.maxSpeedDt then
        -accel.maxSpeedDt
      else if accel.maxSpeedDt < speed then accel.maxSpeedDt else speed
    else speed) = accel.limitSpeed speed := by
  unfold limitSpeed
  split
  · exact Limit.clamp_eq_limit (maxSpeedDt_nonneg hdt) speed
  · rfl

theorem profileStep_of_settled (h : accel.Settled) :
    profileStep accel = ⟨accel.controlPos, accel.controlSpeed, accel.lastSpeed⟩ := by
  unfold profileStep
  have hlt : ¬ (0.1 : ℚ) < |accel.toGo| := not_lt.mpr h
  simp only [fabs32_eq, lt_eq, ofInt_eq, lit_eq, decide_eq_true_eq]
  exact if_neg hlt

theorem accelPosUpdate_of_settled (h : accel.Settled) : accelPosUpdate accel = accel := by
  have hstep := profileStep_of_settled h
  unfold accelPosUpdate
  rw [hstep]

theorem profileStep_of_snaps (hdt : 0 ≤ accel.dtSec) (hsettled : ¬ accel.Settled)
    (h : accel.Snaps) : profileStep accel = ⟨accel.targetPos.toInt, 0, 0⟩ := by
  have hlt : (0.1 : ℚ) < |accel.targetPos.toInt - accel.controlPos| := not_le.mp hsettled
  have hbrakes : ¬ |accel.targetPos.toInt - accel.controlPos| < (0 : ℚ) :=
    not_lt.mpr (abs_nonneg _)
  have hlimit := (clamp_eq_limitSpeed hdt 0).trans (limitSpeed_zero hdt)
  unfold maxSpeedDt at hlimit
  unfold Snaps toGo at h
  unfold profileStep
  simp only [fabs32_eq, lt_eq, ofInt_eq, lit_eq, decide_eq_true_eq, Bool.and_eq_true, if_pos h,
    Int.cast_natCast, mul_zero, zero_div, zero_mul, add_zero, if_neg hbrakes, hlimit]
  exact if_pos hlt

theorem profileStep_of_moves (hdt : 0 ≤ accel.dtSec) (hsettled : ¬ accel.Settled)
    (h : ¬ accel.Snaps) :
    profileStep accel =
      ⟨accel.controlPos + accel.nextSpeed, accel.nextSpeed, accel.nextSpeed⟩ := by
  have hlt : (0.1 : ℚ) < |accel.targetPos.toInt - accel.controlPos| := not_le.mp hsettled
  have hnext : accel.controlSpeed + accel.speedChange = accel.controlSpeed +
      (if accel.Brakes then accel.brakeStep else accel.acceleration * accel.dtSec) *
        (sign (if accel.Brakes then
          if sign accel.controlSpeed = sign (-accel.toGo) then - -accel.toGo else -accel.toGo
          else accel.toGo) : ℤ) := by
    unfold speedChange
    by_cases hbrakes : accel.Brakes
    · simp only [if_pos hbrakes, sign_of_brakes (toGo_ne_zero hsettled) hbrakes.pos.2]
      push_cast
      ring
    · simp only [if_neg hbrakes]
      ring
  unfold nextSpeed
  rw [hnext, ← clamp_eq_limitSpeed hdt]
  unfold profileStep
  unfold Snaps toGo at h
  simp only [fabs32_eq, lt_eq, ofInt_eq, lit_eq, decide_eq_true_eq, Bool.and_eq_true, if_neg h,
    Int.cast_natCast, abs_neg]
  exact if_pos hlt

end ZephyrAccelmotor
end Mecanum.Wheel
