import Mecanum.Foundations.Scaling
import Mecanum.Motor.Bridge

/-! # The output stage

The driver's integer arithmetic, brought down to `ℕ`: `level` is the duty a run works with,
`interpolate` its rescale, `share` the pulse in microseconds. Every law of the output stage is then
a law of these three.
-/

namespace Mecanum.Motor
open CInt Scaling
set_option autoImplicit false

section Arithmetic
variable (motor : ZephyrMotor) (duty : Int16)

def level : ℕ := min duty.toInt.natAbs motor.maxDuty.toNat

theorem clampDuty_natAbs : (clampDuty motor duty).toInt.natAbs = level motor duty := by
  have hd := int16_bounds duty
  have hm := motor.maxDuty.toNat_lt
  unfold clampDuty level
  by_cases h1 : duty.toInt > motor.maxDuty.toNat
  · have hv : (Int16.ofInt motor.maxDuty.toNat).toInt = motor.maxDuty.toNat :=
      toInt_int16 (by omega) (by omega)
    simp only [h1, if_true, hv]
    rw [if_neg (by omega), hv]
    omega
  · simp only [h1, if_false]
    by_cases h2 : duty.toInt < -(motor.maxDuty.toNat : ℤ)
    · rw [if_pos h2, toInt_int16 (by omega) (by omega)]
      omega
    · rw [if_neg h2]
      omega

theorem level_lt : level motor duty < 65536 := by
  have hd := int16_bounds duty
  unfold level
  omega

theorem toNat_absDuty : (absDuty motor duty).toNat = level motor duty := by
  have h := level_lt motor duty
  unfold absDuty
  rw [clampDuty_natAbs, toNat_toUInt16 (by omega) (by omega)]
  exact Int.toNat_natCast _

variable {motor}

/-- The rescale in `ℤ` is the interpolation on `ℕ` when `min_duty` is at most `max_duty`. -/
theorem rescale_eq (hle : motor.minDuty ≤ motor.maxDuty) (hmin : 0 < motor.minDuty.toNat)
    (p : UInt16) (hp : 0 < p.toNat) :
    rescale motor p = interpolate motor.minDuty.toNat motor.maxDuty.toNat p.toNat := by
  have hle' : motor.minDuty.toNat ≤ motor.maxDuty.toNat := UInt16.le_iff_toNat_le.mp hle
  unfold rescale rescaleProduct interpolate
  rw [if_pos ⟨hmin, hp⟩, ← Nat.cast_sub hle', ← Nat.cast_mul, ← Int.ofNat_tdiv]
  push_cast
  rfl

theorem toNat_pwmDuty (hle : motor.minDuty ≤ motor.maxDuty) :
    (pwmDuty motor duty).toNat =
      interpolate motor.minDuty.toNat motor.maxDuty.toNat (level motor duty) := by
  have hle' : motor.minDuty.toNat ≤ motor.maxDuty.toNat := UInt16.le_iff_toNat_le.mp hle
  have hc := toNat_absDuty motor duty
  have hmax := motor.maxDuty.toNat_lt
  have hlevel : level motor duty ≤ motor.maxDuty.toNat := Nat.min_le_right _ _
  unfold pwmDuty
  simp only [gt_iff_lt, UInt16.lt_iff_toNat_lt, hc, UInt16.toNat_zero]
  by_cases h : 0 < motor.minDuty.toNat ∧ 0 < level motor duty
  · have hr := rescale_eq hle h.1 (absDuty motor duty) (by omega)
    rw [hc] at hr
    have hbound := interpolate_le hle' hlevel
    rw [if_pos h, toNat_toUInt16 (by omega) (by omega), hr]
    exact Int.toNat_natCast _
  · rw [if_neg h, hc]
    unfold interpolate
    rw [if_neg h]

theorem toNat_pwmDuty_le (hle : motor.minDuty ≤ motor.maxDuty) :
    (pwmDuty motor duty).toNat ≤ motor.maxDuty.toNat := by
  rw [toNat_pwmDuty duty hle]
  exact interpolate_le (UInt16.le_iff_toNat_le.mp hle) (Nat.min_le_right _ _)

/-- `PWM_USEC` of a level's share of the period; only `PWM_USEC` can wrap. -/
theorem toNat_pulse_mod (motor : ZephyrMotor) (p : UInt16) :
    (pwmUsec (p.toUInt32 * motorPwmPeriodUs / motor.maxDuty.toUInt32)).toNat =
      share 1000 motor.maxDuty.toNat p.toNat * 1000 % 4294967296 := by
  have h16 := p.toNat_lt
  have h1000 : (1000 : UInt32).toNat = 1000 := rfl
  unfold pwmUsec motorPwmPeriodUs share
  rw [UInt32.toNat_mul, UInt32.toNat_div, UInt32.toNat_mul, UInt16.toNat_toUInt32,
    UInt16.toNat_toUInt32, h1000, Nat.mod_eq_of_lt (by omega : p.toNat * 1000 < 2 ^ 32)]

theorem toNat_pulse {p : UInt16} (hp : p.toNat ≤ motor.maxDuty.toNat) :
    (pwmUsec (p.toUInt32 * motorPwmPeriodUs / motor.maxDuty.toUInt32)).toNat =
      share 1000 motor.maxDuty.toNat p.toNat * 1000 := by
  have hs : share 1000 motor.maxDuty.toNat p.toNat ≤ 1000 := share_le hp
  rw [toNat_pulse_mod]
  exact Nat.mod_eq_of_lt (by omega)

end Arithmetic

/-! ## `zephyr_motor_set_speed` -/

section SetSpeed
variable (motor : ZephyrMotor) (d : Int16)

theorem speedArg_natAbs : (speedArg d).toInt.natAbs = d.toInt.natAbs := by
  have hd := int16_bounds d
  unfold speedArg
  simp only [gt_iff_lt, Int16.lt_iff_toInt_lt, Int16.toInt_zero]
  split
  · rfl
  · split
    · rw [Int16.toInt_ofInt]
      by_cases hmin : d.toInt = -32768
      · rw [hmin]
        rfl
      · rw [Int.bmod_eq_of_le (by simp; omega) (by simp; omega)]
        exact Int.natAbs_neg _
    · have h0 : d.toInt = 0 := by omega
      rw [h0]
      rfl

def pulseUs : ℕ :=
  share 1000 motor.maxDuty.toNat
    (interpolate motor.minDuty.toNat motor.maxDuty.toNat (level motor d))

def speedLines (l : Lines) : Lines := l.applyAll (zephyrMotorSetSpeed motor d).2

theorem level_speedArg : level motor (speedArg d) = level motor d := by
  unfold level
  rw [speedArg_natAbs]

theorem pulse_speedLines (hle : motor.minDuty ≤ motor.maxDuty) (l : Lines) :
    (speedLines motor d l).pulse = pulseUs motor d * 1000 := by
  have hduty := toNat_pwmDuty (speedArg d) hle
  rw [level_speedArg] at hduty
  have hpulse := toNat_pulse (toNat_pwmDuty_le (speedArg d) hle)
  rw [hduty] at hpulse
  change _ = pulseUs motor d * 1000 at hpulse
  unfold speedLines
  rw [zephyrMotorSetSpeed_eq_run, applyAll_zephyrMotorRun]
  rcases lt_trichotomy d.toInt 0 with hd | hd | hd
  · simpa [Lines.pulse, runPwm, speedMode_of_neg hd] using hpulse
  · simp [Lines.pulse, runPwm, speedMode_of_zero hd, pulseUs, level, hd, pwmUsec,
      motorPwmPeriodUs]
  · simpa [Lines.pulse, runPwm, speedMode_of_pos hd] using hpulse

theorem period_speedLines (l : Lines) : (speedLines motor d l).period = 1000000 := by
  unfold speedLines
  rw [zephyrMotorSetSpeed_eq_run, applyAll_zephyrMotorRun]
  rfl

theorem state_setSpeed :
    (zephyrMotorSetSpeed motor d).1.state.toInt =
      (if motor.reversed then -1 else 1) * d.toInt.sign := by
  rw [zephyrMotorSetSpeed_eq_run, zephyrMotorRun_fst]
  rcases lt_trichotomy d.toInt 0 with hd | hd | hd
  · rw [speedMode_of_neg hd, Int.sign_eq_neg_one_of_neg hd]
    cases hr : motor.reversed <;> simp [actualMode, hr, drive]
  · rw [speedMode_of_zero hd, hd]
    cases hr : motor.reversed <;> simp [actualMode, hr, drive]
  · rw [speedMode_of_pos hd, Int.sign_eq_one_of_pos hd]
    cases hr : motor.reversed <;> simp [actualMode, hr, drive]

theorem drive_speedLines (l : Lines) :
    (speedLines motor d l).drive =
      some ((zephyrMotorSetSpeed motor d).1.state.toInt * (speedLines motor d l).pulse) := by
  rw [state_setSpeed]
  unfold speedLines
  rw [zephyrMotorSetSpeed_eq_run, applyAll_zephyrMotorRun]
  rcases lt_trichotomy d.toInt 0 with hd | hd | hd
  · rw [speedMode_of_neg hd, Int.sign_eq_neg_one_of_neg hd]
    cases hr : motor.reversed <;>
      simp [Lines.drive, Lines.inverted, runIn1, runPwm, actualMode, hr]
  · rw [speedMode_of_zero hd, hd]
    cases hr : motor.reversed <;>
      simp [Lines.drive, Lines.inverted, Lines.pulse, runIn1, runPwm, actualMode, hr, pwmUsec]
  · rw [speedMode_of_pos hd, Int.sign_eq_one_of_pos hd]
    cases hr : motor.reversed <;>
      simp [Lines.drive, Lines.inverted, runIn1, runPwm, actualMode, hr]

end SetSpeed

/-! ## The law -/

/-- The intermediate values of one call, each within its C type: the values assigned by the clamp
fit `int16_t`, the rescale product fits `int`, the rescaled duty fits `uint16_t`, and the products
of `set_pwm` and `PWM_USEC` fit `uint32_t`. -/
structure IntermediatesFit (motor : ZephyrMotor) (d : Int16) : Prop where
  clamp_above : (speedArg d).toInt > motor.maxDuty.toNat → motor.maxDuty.toNat < 32768
  clamp_below : (speedArg d).toInt < -(motor.maxDuty.toNat : ℤ) → motor.maxDuty.toNat ≤ 32768
  product_nonneg : 0 ≤ rescaleProduct motor (absDuty motor (speedArg d))
  product_lt : rescaleProduct motor (absDuty motor (speedArg d)) < 2147483648
  rescaled_nonneg : 0 ≤ rescale motor (absDuty motor (speedArg d))
  rescaled_lt : rescale motor (absDuty motor (speedArg d)) < 65536
  share : (pwmDuty motor (speedArg d)).toNat * motorPwmPeriodUs.toNat < 4294967296
  nanoseconds : (pwmDuty motor (speedArg d)).toNat * motorPwmPeriodUs.toNat /
    motor.maxDuty.toNat * 1000 < 4294967296

/-- What `zephyr_motor_set_speed` guarantees of every duty and whatever was on the wires. -/
structure OutputStageLaw (motor : ZephyrMotor) : Prop where
  state : ∀ d, (zephyrMotorSetSpeed motor d).1.state.toInt =
    (if motor.reversed then -1 else 1) * d.toInt.sign
  drive : ∀ d l, (speedLines motor d l).drive =
    some ((zephyrMotorSetSpeed motor d).1.state.toInt * (speedLines motor d l).pulse)
  period : ∀ d l, (speedLines motor d l).period = 1000000
  pulse_le : ∀ d l, (speedLines motor d l).pulse ≤ 1000000
  pulse_even : ∀ d e l m, d.toInt = -e.toInt →
    (speedLines motor d l).pulse = (speedLines motor e m).pulse
  pulse_mono : ∀ d e l m, d.toInt.natAbs ≤ e.toInt.natAbs →
    (speedLines motor d l).pulse ≤ (speedLines motor e m).pulse
  pulse_floor : ∀ d l, d ≠ 0 →
    motor.minDuty.toNat * 1000 / motor.maxDuty.toNat * 1000 ≤ (speedLines motor d l).pulse
  pulse_full : ∀ d l, motor.maxDuty.toNat ≤ d.toInt.natAbs →
    (speedLines motor d l).pulse = 1000000
  fits : ∀ d, IntermediatesFit motor d

section Law
variable {motor : ZephyrMotor} (d : Int16)

theorem pulseUs_le (hle : motor.minDuty ≤ motor.maxDuty) : pulseUs motor d ≤ 1000 := by
  have hle' : motor.minDuty.toNat ≤ motor.maxDuty.toNat := UInt16.le_iff_toNat_le.mp hle
  exact share_le (interpolate_le hle' (Nat.min_le_right _ _))

theorem pulseUs_mono {d e : Int16} (h : d.toInt.natAbs ≤ e.toInt.natAbs) :
    pulseUs motor d ≤ pulseUs motor e := by
  have hlevel : level motor d ≤ level motor e := by
    unfold level
    omega
  exact share_mono (interpolate_mono hlevel)

theorem pulseUs_full (hpos : 0 < motor.maxDuty) (hle : motor.minDuty ≤ motor.maxDuty)
    (h : motor.maxDuty.toNat ≤ d.toInt.natAbs) : pulseUs motor d = 1000 := by
  have hpos' : 0 < motor.maxDuty.toNat := UInt16.lt_iff_toNat_lt.mp hpos
  have hle' : motor.minDuty.toNat ≤ motor.maxDuty.toNat := UInt16.le_iff_toNat_le.mp hle
  have hlevel : level motor d = motor.maxDuty.toNat := Nat.min_eq_right h
  unfold pulseUs
  rw [hlevel, interpolate_full hle' hpos', share_full hpos']

theorem le_pulseUs (hpos : 0 < motor.maxDuty) (hd : d ≠ 0) :
    motor.minDuty.toNat * 1000 / motor.maxDuty.toNat ≤ pulseUs motor d := by
  have hpos' : 0 < motor.maxDuty.toNat := UInt16.lt_iff_toNat_lt.mp hpos
  have hd' : d.toInt ≠ 0 := fun h => hd (Int16.toInt_inj.mp h)
  have hlevel : 0 < level motor d := by
    unfold level
    omega
  exact share_mono (le_interpolate hlevel)

theorem intermediatesFit (hpos : 0 < motor.maxDuty) (hle : motor.minDuty ≤ motor.maxDuty) :
    IntermediatesFit motor d := by
  have hpos' : 0 < motor.maxDuty.toNat := UInt16.lt_iff_toNat_lt.mp hpos
  have hle' : motor.minDuty.toNat ≤ motor.maxDuty.toNat := UInt16.le_iff_toNat_le.mp hle
  have hmax := motor.maxDuty.toNat_lt
  have harg := int16_bounds (speedArg d)
  have hlevel : level motor (speedArg d) ≤ motor.maxDuty.toNat := Nat.min_le_right _ _
  have hlevel16 : level motor (speedArg d) ≤ 32768 := by
    unfold level
    omega
  have hduty := toNat_pwmDuty (speedArg d) hle
  have hbound := interpolate_le hle' hlevel
  have hproduct : rescaleProduct motor (absDuty motor (speedArg d)) =
      (level motor (speedArg d) * (motor.maxDuty.toNat - motor.minDuty.toNat) : ℕ) := by
    unfold rescaleProduct
    rw [toNat_absDuty]
    push_cast [Nat.cast_sub hle']
    rfl
  have hmul : level motor (speedArg d) * (motor.maxDuty.toNat - motor.minDuty.toNat) ≤
      32768 * 65535 := Nat.mul_le_mul hlevel16 (by omega)
  have hscaled := scaled_le (k := motor.maxDuty.toNat - motor.minDuty.toNat) hlevel
  have hrescale : rescale motor (absDuty motor (speedArg d)) =
      (level motor (speedArg d) * (motor.maxDuty.toNat - motor.minDuty.toNat) /
        motor.maxDuty.toNat : ℕ) + motor.minDuty.toNat := by
    unfold rescale
    rw [hproduct, ← Int.ofNat_tdiv]
  generalize level motor (speedArg d) * (motor.maxDuty.toNat - motor.minDuty.toNat) /
    motor.maxDuty.toNat = q at hscaled hrescale
  refine ⟨by omega, by omega, by omega, by omega, by omega, by omega, ?_, ?_⟩
  · rw [hduty]
    show _ * 1000 < _
    omega
  · have hs : Scaling.share 1000 _ _ ≤ 1000 := share_le (hduty ▸ hbound)
    unfold Scaling.share at hs
    show _ * 1000 / _ * 1000 < _
    omega

end Law

/-- The output-stage law holds of every motor whose duty range is set in the callers' order. -/
theorem output_stage_law (motor : ZephyrMotor) (hpos : 0 < motor.maxDuty)
    (hle : motor.minDuty ≤ motor.maxDuty) : OutputStageLaw motor where
  state := state_setSpeed motor
  drive := drive_speedLines motor
  period := period_speedLines motor
  pulse_le d l := by
    have h := pulseUs_le d hle
    rw [pulse_speedLines motor d hle]
    omega
  pulse_even d e l m h := by
    have habs : d.toInt.natAbs = e.toInt.natAbs := by omega
    have heq : pulseUs motor d = pulseUs motor e :=
      le_antisymm (pulseUs_mono habs.le) (pulseUs_mono habs.ge)
    rw [pulse_speedLines motor d hle, pulse_speedLines motor e hle, heq]
  pulse_mono d e l m h := by
    rw [pulse_speedLines motor d hle, pulse_speedLines motor e hle]
    exact Nat.mul_le_mul_right 1000 (pulseUs_mono h)
  pulse_floor d l hd := by
    rw [pulse_speedLines motor d hle]
    exact Nat.mul_le_mul_right 1000 (le_pulseUs d hpos hd)
  pulse_full d l h := by rw [pulse_speedLines motor d hle, pulseUs_full d hpos hle h]
  fits d := intermediatesFit d hpos hle

/-- The range the robot sets: `MIN_DUTY` 50 and `MAX_SPEED` 70. -/
theorem output_stage_law_shipped :
    OutputStageLaw (zephyrMotorSetMaxDuty (zephyrMotorSetMinDuty
      (zephyrMotorInit .pwm1 true true false).1 50) 70) :=
  output_stage_law _ (by decide) (by decide)

end Mecanum.Motor
