import Mecanum.Robot.Wheels
import Mecanum.Wheel.Exact

/-! # One step of the speed ramp

`ACCEL_SPEED` changes the duty by `acceleration * dt_sec` near the target and by `error * dt_sec` far
from it: the comparison that chooses the reducer is the wrong way round, so the step is larger,
not smaller, than the limit when the error exceeds the acceleration.
-/

namespace Mecanum.Wheel
open FloatArith Exact CInt
set_option autoImplicit false

namespace ZephyrAccelmotor

/-- How far a step changes the duty before `max_speed` limits it. -/
def dutyChange (accel : ZephyrAccelmotor ℚ) : ℚ :=
  (regulate { accel with maxSpeed := 0 }).1.dutyF - accel.dutyF

/-- `target_speed - current_speed` as a number. -/
def speedError (accel : ZephyrAccelmotor ℚ) : ℤ :=
  accel.targetSpeed.toInt - accel.currentSpeed.toInt

def withSpeeds (accel : ZephyrAccelmotor ℚ) (target current : Int16) : ZephyrAccelmotor ℚ :=
  { accel with targetSpeed := target, currentSpeed := current }

/-- The step goes towards the target, within the acceleration, and is not larger for smaller
errors. -/
structure StepsTowardTarget (accel : ZephyrAccelmotor ℚ) : Prop where
  direction : sign accel.dutyChange = accel.speedError.sign
  limited : |accel.dutyChange| ≤ accel.acceleration * accel.dtSec
  shrinks : ∀ target current, |(accel.withSpeeds target current).speedError| ≤ |accel.speedError| →
    |(accel.withSpeeds target current).dutyChange| ≤ |accel.dutyChange|

/-- The error fits `int16_t` and is at most the acceleration. -/
def ErrorWithinAcceleration (accel : ZephyrAccelmotor ℚ) : Prop :=
  -32768 ≤ accel.speedError ∧ accel.speedError ≤ 32767 ∧ |(accel.speedError : ℚ)| ≤ accel.acceleration

variable {accel : ZephyrAccelmotor ℚ}

/-- The error that the step sees. -/
def narrowedError (accel : ZephyrAccelmotor ℚ) : ℤ :=
  (accel.targetSpeed - accel.currentSpeed).toInt

theorem narrowedError_eq (h0 : -32768 ≤ accel.speedError) (h1 : accel.speedError ≤ 32767) :
    accel.narrowedError = accel.speedError := by
  unfold narrowedError speedError at *
  rw [Int16.toInt_sub]
  exact Int.bmod_eq_of_le (by simpa using h0) (by simp; omega)

theorem dutyChange_eq (hmode : accel.runMode = .accelSpeed) :
    accel.dutyChange = sign (accel.narrowedError : ℚ) * accel.acceleration * accel.dtSec *
      if |(accel.narrowedError : ℚ)| < accel.acceleration then 1
      else |(accel.narrowedError : ℚ)| / accel.acceleration := by
  have hstep : regulate { accel with maxSpeed := 0 } =
      commandDuty (accelSpeedUpdate { accel with maxSpeed := 0 }) := regulate_accelSpeed hmode
  unfold dutyChange
  rw [hstep]
  unfold commandDuty accelSpeedUpdate narrowedError
  simp only [limitDuty_eq, fabs32_eq, lt_eq, lit_eq, ofInt_eq, decide_eq_true_eq]
  rw [if_neg (by decide)]
  ring

/-- The limit of the duty comes after the change. -/
theorem dutyF_regulate (hmode : accel.runMode = .accelSpeed) :
    (regulate accel).1.dutyF = limitDuty accel.maxSpeed (accel.dutyF + accel.dutyChange) := by
  rw [dutyChange_eq hmode, regulate_accelSpeed hmode]
  unfold commandDuty accelSpeedUpdate narrowedError
  simp only [fabs32_eq, lt_eq, lit_eq, ofInt_eq, decide_eq_true_eq]

/-! ## The narrowed error -/

theorem speedError_bounds (accel : ZephyrAccelmotor ℚ) :
    -65535 ≤ accel.speedError ∧ accel.speedError ≤ 65535 := by
  have htarget := int16_bounds accel.targetSpeed
  have hcurrent := int16_bounds accel.currentSpeed
  unfold speedError
  omega

/-- Beyond the range of `int16_t` the error wraps to the other sign. -/
theorem narrowedError_of_overflow (h : 32768 ≤ accel.speedError) :
    accel.narrowedError = accel.speedError - 65536 := by
  have hbounds := speedError_bounds accel
  have hshift : accel.speedError.bmod (2 ^ 16) = (accel.speedError - 65536).bmod (2 ^ 16) :=
    (Int.sub_bmod_right accel.speedError (2 ^ 16)).symm
  unfold narrowedError
  rw [Int16.toInt_sub]
  exact hshift.trans (Int.bmod_eq_of_le (by simp; omega) (by simp; omega))

theorem narrowedError_of_underflow (h : accel.speedError < -32768) :
    accel.narrowedError = accel.speedError + 65536 := by
  have hbounds := speedError_bounds accel
  have hshift : accel.speedError.bmod (2 ^ 16) = (accel.speedError + 65536).bmod (2 ^ 16) :=
    (Int.add_bmod_right accel.speedError (2 ^ 16)).symm
  unfold narrowedError
  rw [Int16.toInt_sub]
  exact hshift.trans (Int.bmod_eq_of_le (by simp; omega) (by simp; omega))

theorem sign_narrowedError_iff :
    accel.narrowedError.sign = accel.speedError.sign ↔
      -32768 ≤ accel.speedError ∧ accel.speedError ≤ 32767 := by
  have hbounds := speedError_bounds accel
  constructor
  · intro hsign
    by_contra hout
    have hcases : 32768 ≤ accel.speedError ∨ accel.speedError < -32768 := by omega
    obtain hover | hunder := hcases
    · rw [narrowedError_of_overflow hover, Int.sign_eq_neg_one_of_neg (by omega),
        Int.sign_eq_one_of_pos (by omega)] at hsign
      exact absurd hsign (by decide)
    · rw [narrowedError_of_underflow hunder, Int.sign_eq_one_of_pos (by omega),
        Int.sign_eq_neg_one_of_neg (by omega)] at hsign
      exact absurd hsign (by decide)
  · rintro ⟨h0, h1⟩
    rw [narrowedError_eq h0 h1]

theorem abs_narrowedError (h : |accel.speedError| ≤ 32768) :
    |accel.narrowedError| = |accel.speedError| := by
  obtain ⟨hlow, hhigh⟩ := abs_le.mp h
  by_cases htop : accel.speedError = 32768
  · rw [narrowedError_of_overflow htop.ge, htop]
    rfl
  · rw [narrowedError_eq hlow (by omega)]

/-! ## The change of the duty -/

theorem change_pos (hacceleration : 0 < accel.acceleration) (hdt : 0 < accel.dtSec) :
    0 < max accel.acceleration |(accel.narrowedError : ℚ)| * accel.dtSec :=
  mul_pos (lt_max_of_lt_left hacceleration) hdt

section Change
variable (hmode : accel.runMode = .accelSpeed) (hacceleration : 0 < accel.acceleration)
include hmode hacceleration

/-- The reducer never reduces. -/
theorem dutyChange_eq_max : accel.dutyChange = accel.narrowedError.sign *
    (max accel.acceleration |(accel.narrowedError : ℚ)| * accel.dtSec) := by
  rw [dutyChange_eq hmode, sign_intCast]
  by_cases hsmall : |(accel.narrowedError : ℚ)| < accel.acceleration
  · rw [if_pos hsmall, max_eq_left hsmall.le]
    ring
  · rw [if_neg hsmall, max_eq_right (not_lt.mp hsmall)]
    field_simp

variable (hdt : 0 < accel.dtSec)
include hdt

theorem sign_dutyChange : sign accel.dutyChange = accel.narrowedError.sign := by
  have hpos := change_pos hacceleration hdt
  rw [dutyChange_eq_max hmode hacceleration]
  rcases lt_trichotomy accel.narrowedError 0 with h | h | h
  · rw [Int.sign_eq_neg_one_of_neg h]
    exact sign_of_neg (by push_cast; linarith)
  · rw [h, Int.sign_zero, Int.cast_zero, zero_mul, sign_zero]
  · rw [Int.sign_eq_one_of_pos h]
    exact sign_of_pos (by push_cast; linarith)

theorem abs_dutyChange :
    |accel.dutyChange| = if accel.narrowedError = 0 then 0
      else max accel.acceleration |(accel.narrowedError : ℚ)| * accel.dtSec := by
  have hpos := change_pos hacceleration hdt
  rw [dutyChange_eq_max hmode hacceleration, abs_mul, abs_of_pos hpos]
  split
  · next hzero => rw [hzero, Int.sign_zero, Int.cast_zero, abs_zero, zero_mul]
  · next hne =>
      have hunit : |(accel.narrowedError.sign : ℚ)| = 1 := by
        rw [← Int.cast_abs, Int.abs_sign_of_ne_zero hne, Int.cast_one]
      rw [hunit, one_mul]

theorem limited_iff : |accel.dutyChange| ≤ accel.acceleration * accel.dtSec ↔
    |(accel.narrowedError : ℚ)| ≤ accel.acceleration := by
  rw [abs_dutyChange hmode hacceleration hdt]
  split
  · next hzero =>
      rw [hzero, Int.cast_zero, abs_zero]
      exact iff_of_true (mul_pos hacceleration hdt).le hacceleration.le
  · rw [mul_le_mul_iff_left₀ hdt, max_le_iff, and_iff_right le_rfl]

/-- Smaller errors that do not wrap give no larger steps. -/
theorem abs_dutyChange_le (h : |accel.speedError| ≤ 32768) {target current : Int16}
    (hle : |(accel.withSpeeds target current).speedError| ≤ |accel.speedError|) :
    |(accel.withSpeeds target current).dutyChange| ≤ |accel.dutyChange| := by
  have hmode' : (accel.withSpeeds target current).runMode = .accelSpeed := hmode
  have hother := abs_narrowedError (hle.trans h)
  have hself := abs_narrowedError h
  have hcast : |((accel.withSpeeds target current).narrowedError : ℚ)| ≤
      |(accel.narrowedError : ℚ)| := by
    exact_mod_cast hother.trans_le (hle.trans hself.ge)
  rw [abs_dutyChange hmode hacceleration hdt, abs_dutyChange hmode' hacceleration hdt]
  split
  · split
    · exact le_rfl
    · exact (change_pos hacceleration hdt).le
  · next hne =>
      have hne' : accel.narrowedError ≠ 0 := by
        intro hzero
        rw [hzero, Int.cast_zero, abs_zero] at hcast
        exact hne (Int.cast_eq_zero.mp (abs_nonpos_iff.mp hcast))
      rw [if_neg hne']
      exact mul_le_mul_of_nonneg_right (max_le_max le_rfl hcast) hdt.le

theorem stepsTowardTarget_iff : accel.StepsTowardTarget ↔ accel.ErrorWithinAcceleration := by
  have hsign := sign_dutyChange hmode hacceleration hdt
  have hlimited := limited_iff hmode hacceleration hdt
  constructor
  · intro h
    have hrange : -32768 ≤ accel.speedError ∧ accel.speedError ≤ 32767 :=
      sign_narrowedError_iff.mp (hsign.symm.trans h.direction)
    have hwithin := hlimited.mp h.limited
    rw [narrowedError_eq hrange.1 hrange.2] at hwithin
    exact ⟨hrange.1, hrange.2, hwithin⟩
  · rintro ⟨h0, h1, hwithin⟩
    refine ⟨?_, ?_, fun target current hle => ?_⟩
    · rw [hsign]
      exact sign_narrowedError_iff.mpr ⟨h0, h1⟩
    · rw [hlimited, narrowedError_eq h0 h1]
      exact hwithin
    · exact abs_dutyChange_le hmode hacceleration hdt (abs_le.mpr ⟨h0, by omega⟩) hle

end Change

/-- A control step of `ACCEL_SPEED` steps towards the target within the acceleration exactly when the
error fits `int16_t` and is at most the acceleration. -/
theorem speed_step_iff (accel : ZephyrAccelmotor ℚ) (hmode : accel.runMode = .accelSpeed)
    (hacceleration : 0 < accel.acceleration) (hms : 1 ≤ accel.dtMs)
    (hsec : accel.dtSec = accel.dtMs.toNat / 1000) :
    (regulate accel).1.dutyF = limitDuty accel.maxSpeed (accel.dutyF + accel.dutyChange) ∧
      (accel.StepsTowardTarget ↔ accel.ErrorWithinAcceleration) := by
  have hnat : (0 : ℚ) < accel.dtMs.toNat := Nat.cast_pos.mpr (UInt32.le_iff_toNat_le.mp hms)
  have hdt : 0 < accel.dtSec := by
    rw [hsec]
    exact div_pos hnat (by norm_num)
  exact ⟨dutyF_regulate hmode, stepsTowardTarget_iff hmode hacceleration hdt⟩

/-! ## A shipped wheel -/

/-- A wheel of the robot in `ACCEL_SPEED`, at rest with the given target speed. -/
def rampingWheel (target : Int16) : ZephyrAccelmotor ℚ :=
  (zephyrAccelmotorSetRunMode (Robot.wheelAccelmotor .fl (zephyrEncoderInit true 0).1 0)
    .accelSpeed).withSpeeds target 0

theorem speed_step_slow : (regulate (rampingWheel 5)).1.dutyF =
      limitDuty (rampingWheel 5).maxSpeed ((rampingWheel 5).dutyF + (rampingWheel 5).dutyChange) ∧
    ((rampingWheel 5).StepsTowardTarget ↔ (rampingWheel 5).ErrorWithinAcceleration) :=
  speed_step_iff (rampingWheel 5) rfl (by decide +kernel) (by decide) (by decide +kernel)

/-- Towards 70 the duty changes by 1.4 in one step, ten times the limit 0.14. -/
theorem full_speed_exceeds : ¬ (rampingWheel 70).StepsTowardTarget := by
  intro h
  have hlimited := h.limited
  revert hlimited
  decide +kernel

end ZephyrAccelmotor
end Mecanum.Wheel
