import Mecanum.Foundations.Trace
import Mecanum.Motor.Calls
import Mecanum.Motor.OutputStage

/-! # The requests to the PWM driver

`set_pwm` divides by `max_duty`, and the pulse it asks for is within the period only if the duty it
is given is at most `max_duty`. The setters keep neither: `max_duty` can be 0, and with a
larger `min_duty` the rescale goes beyond `max_duty`.
-/

namespace Mecanum.Motor
open CInt Scaling Trace
set_option autoImplicit false

/-- A call of the driver, `zephyr_motor_init` included. -/
inductive DriverCall
  | init (pwmDev : PwmDev) (pwmReady gpioReady reverse : Bool)
  | call (c : MotorCall)

def DriverCall.runArgs : DriverCall → Option (MotorMode × Int16)
  | .init _ _ _ _ => none
  | .call c => c.runArgs

def ZephyrMotor.driverCall (motor : ZephyrMotor) : DriverCall → ZephyrMotor × List Output
  | .init pwmDev pwmReady gpioReady reverse => zephyrMotorInit pwmDev pwmReady gpioReady reverse
  | .call c => motor.call c

def ZephyrMotor.driverStep (motor : ZephyrMotor) (c : DriverCall) : ZephyrMotor :=
  (motor.driverCall c).1

def pwmRequests (outs : List Output) : List Pwm :=
  outs.filterMap fun
    | .pwmSet period pulse inverted => some ⟨period, pulse, inverted⟩
    | _ => none

section Request
variable (motor : ZephyrMotor) (mode : MotorMode) (duty : Int16)

/-- The duty that a run hands to `set_pwm`. -/
def pwmArg : UInt16 :=
  match mode with
  | .forward | .backward => pwmDuty motor duty
  | .brake => motor.maxDuty
  | .stop => 0

/-- How far the rescale goes beyond `max_duty`. -/
def excess : ℕ :=
  motor.minDuty.toNat - motor.maxDuty.toNat -
    level motor duty * (motor.minDuty.toNat - motor.maxDuty.toNat) / motor.maxDuty.toNat

/-- A call of `set_pwm` divides by a nonzero `max_duty` and asks for a pulse within the period, with
nothing lost modulo `2 ^ 32`. -/
structure RequestWellFormed (request : Pwm) : Prop where
  divisor : motor.maxDuty ≠ 0
  pulse_le : request.pulse ≤ request.period
  no_wrap : request.pulse.toNat =
    (pwmArg motor mode duty).toNat * 1000 / motor.maxDuty.toNat * 1000

/-- The request is for no rescaled duty, or for one that is beyond `max_duty` by less than a
thousandth of it. -/
def RequestFits : Prop :=
  motor.maxDuty ≠ 0 ∧
    (mode = .stop ∨ mode = .brake ∨ duty = 0 ∨ 1000 * excess motor duty < motor.maxDuty.toNat)

theorem pwmRequests_run :
    pwmRequests (zephyrMotorRun motor mode duty).2 = [runPwm motor mode duty] := by
  obtain ⟨v, w, pulse, inverted, h⟩ := zephyrMotorRun_outputs motor mode duty
  have hlines := applyAll_zephyrMotorRun motor mode duty Lines.reset
  have hrequests : pwmRequests (zephyrMotorRun motor mode duty).2 =
      [⟨pwmUsec motorPwmPeriodUs, pulse, inverted⟩] := by
    rw [h]
    unfold pwmRequests
    split <;> rfl
  have hlast : (Lines.reset.applyAll (zephyrMotorRun motor mode duty).2).pwm =
      some ⟨pwmUsec motorPwmPeriodUs, pulse, inverted⟩ := by
    rw [h, Lines.applyAll_append]
    rfl
  rw [hlines] at hlast
  rw [hrequests, Option.some.inj hlast]

variable {motor mode duty}

theorem toNat_maxDuty_pos (h : motor.maxDuty ≠ 0) : 0 < motor.maxDuty.toNat :=
  Nat.pos_of_ne_zero fun hzero => h (UInt16.toNat_inj.mp hzero)

theorem requestWellFormed_iff_share (h : motor.maxDuty ≠ 0) :
    RequestWellFormed motor mode duty (runPwm motor mode duty) ↔
      share 1000 motor.maxDuty.toNat (pwmArg motor mode duty).toNat ≤ 1000 := by
  have hpulse : (runPwm motor mode duty).pulse.toNat =
      share 1000 motor.maxDuty.toNat (pwmArg motor mode duty).toNat * 1000 % 4294967296 :=
    toNat_pulse_mod motor (pwmArg motor mode duty)
  have hperiod : (runPwm motor mode duty).period.toNat = 1000000 := rfl
  constructor
  · intro hrequest
    have hle := UInt32.le_iff_toNat_le.mp hrequest.pulse_le
    have hexact : (runPwm motor mode duty).pulse.toNat =
        share 1000 motor.maxDuty.toNat (pwmArg motor mode duty).toNat * 1000 := hrequest.no_wrap
    omega
  · intro hshare
    rw [Nat.mod_eq_of_lt (by omega)] at hpulse
    refine ⟨h, ?_, ?_⟩
    · rw [UInt32.le_iff_toNat_le]
      omega
    · exact hpulse

/-- The rescale in `ℤ` when `min_duty` is beyond `max_duty`. -/
theorem rescale_of_gt (hgt : motor.maxDuty.toNat < motor.minDuty.toNat) (p : UInt16)
    (hp : p.toNat ≤ motor.maxDuty.toNat) : rescale motor p =
      (motor.maxDuty.toNat + (motor.minDuty.toNat - motor.maxDuty.toNat -
        p.toNat * (motor.minDuty.toNat - motor.maxDuty.toNat) / motor.maxDuty.toNat) : ℕ) := by
  have hproduct : rescaleProduct motor p =
      -((p.toNat * (motor.minDuty.toNat - motor.maxDuty.toNat) : ℕ) : ℤ) := by
    unfold rescaleProduct
    rw [Nat.cast_mul, Nat.cast_sub hgt.le, ← mul_neg, neg_sub]
  have hscaled := scaled_le (k := motor.minDuty.toNat - motor.maxDuty.toNat) hp
  unfold rescale
  rw [hproduct, Int.neg_tdiv, ← Int.ofNat_tdiv]
  push_cast [Nat.cast_sub hscaled, Nat.cast_sub hgt.le]
  ring

/-- A duty rescaled down from a larger `min_duty` stays at or beyond `max_duty`. -/
theorem toNat_pwmDuty_of_gt (hgt : motor.maxDuty.toNat < motor.minDuty.toNat)
    (hlevel : 0 < level motor duty) :
    (pwmDuty motor duty).toNat = motor.maxDuty.toNat + excess motor duty := by
  have habs := toNat_absDuty motor duty
  have hle : level motor duty ≤ motor.maxDuty.toNat := Nat.min_le_right _ _
  have hrescale := rescale_of_gt hgt (absDuty motor duty) (habs ▸ hle)
  have hmin := motor.minDuty.toNat_lt
  rw [habs] at hrescale
  change _ = ((motor.maxDuty.toNat + excess motor duty : ℕ) : ℤ) at hrescale
  have hexcess : excess motor duty ≤ motor.minDuty.toNat - motor.maxDuty.toNat := Nat.sub_le _ _
  have hcond : motor.minDuty > 0 ∧ absDuty motor duty > 0 := by
    constructor
    · exact UInt16.lt_iff_toNat_lt.mpr (by simp; omega)
    · exact UInt16.lt_iff_toNat_lt.mpr (by simp; omega)
  unfold pwmDuty
  simp only
  rw [if_pos hcond, hrescale, toNat_toUInt16 (by omega) (by omega), Int.toNat_natCast]

theorem level_eq_zero_iff (h : motor.maxDuty ≠ 0) : level motor duty = 0 ↔ duty = 0 := by
  have hpos := toNat_maxDuty_pos h
  rw [← Int16.toInt_inj, Int16.toInt_zero]
  unfold level
  omega

theorem pwmDuty_zero : pwmDuty motor 0 = 0 := by
  have habs := toNat_absDuty motor 0
  have hzero : absDuty motor 0 = 0 := UInt16.toNat_inj.mp (habs.trans (by simp [level]))
  unfold pwmDuty
  simp [hzero]

/-- The share of a driving request is within the period exactly for a small excess. -/
theorem share_pwmDuty_le_iff (h : motor.maxDuty ≠ 0) :
    share 1000 motor.maxDuty.toNat (pwmDuty motor duty).toNat ≤ 1000 ↔
      duty = 0 ∨ 1000 * excess motor duty < motor.maxDuty.toNat := by
  have hpos := toNat_maxDuty_pos h
  by_cases hle : motor.minDuty.toNat ≤ motor.maxDuty.toNat
  · have hnone : excess motor duty = 0 := by
      unfold excess
      rw [Nat.sub_eq_zero_of_le hle]
      exact Nat.zero_sub _
    have hduty := toNat_pwmDuty_le duty (UInt16.le_iff_toNat_le.mpr hle)
    exact iff_of_true (share_le hduty) (.inr (by omega))
  · by_cases hzero : duty = 0
    · rw [hzero, pwmDuty_zero]
      exact iff_of_true (share_le (Nat.zero_le _)) (.inl rfl)
    · have hlevel : 0 < level motor duty := Nat.pos_of_ne_zero fun h0 =>
        hzero ((level_eq_zero_iff h).mp h0)
      rw [toNat_pwmDuty_of_gt (not_le.mp hle) hlevel, or_iff_right hzero]
      unfold share
      rw [← Nat.lt_succ_iff, Nat.div_lt_iff_lt_mul hpos]
      omega

theorem requestWellFormed_iff :
    RequestWellFormed motor mode duty (runPwm motor mode duty) ↔ RequestFits motor mode duty := by
  unfold RequestFits
  by_cases h : motor.maxDuty = 0
  · exact iff_of_false (fun hrequest => hrequest.divisor h) fun hfits => hfits.1 h
  · rw [requestWellFormed_iff_share h, and_iff_right h]
    cases mode with
    | stop => exact iff_of_true (share_le (Nat.zero_le _)) (.inl rfl)
    | brake => exact iff_of_true (share_le le_rfl) (.inr (.inl rfl))
    | forward =>
        rw [or_iff_right (by decide), or_iff_right (by decide)]
        exact share_pwmDuty_le_iff h
    | backward =>
        rw [or_iff_right (by decide), or_iff_right (by decide)]
        exact share_pwmDuty_le_iff h

end Request

/-! ## Sequences of calls -/

def PwmWellFormed (motor : ZephyrMotor) (c : DriverCall) (_ : ZephyrMotor) : Prop :=
  ∀ mode duty, c.runArgs = some (mode, duty) →
    ∀ request ∈ pwmRequests (motor.driverCall c).2, RequestWellFormed motor mode duty request

def PwmFits (motor : ZephyrMotor) (c : DriverCall) (_ : ZephyrMotor) : Prop :=
  ∀ mode duty, c.runArgs = some (mode, duty) → RequestFits motor mode duty

/-- Only the calls that run the motor ask for a pulse, and each asks for one. -/
theorem pwmRequests_driverCall (motor : ZephyrMotor) (c : DriverCall) :
    pwmRequests (motor.driverCall c).2 =
      (c.runArgs.map fun args => runPwm motor args.1 args.2).toList := by
  cases c with
  | init pwmDev pwmReady gpioReady reverse =>
      cases pwmReady <;> cases gpioReady <;> rfl
  | call c =>
      obtain ⟨mode, duty, hargs, hcall⟩ | ⟨hargs, hnone, -⟩ := call_cases motor c
      · show pwmRequests (motor.call c).2 = _
        rw [hcall, DriverCall.runArgs, hargs]
        exact pwmRequests_run motor mode duty
      · show pwmRequests (motor.call c).2 = _
        rw [hnone, DriverCall.runArgs, hargs]
        rfl

theorem pwmWellFormed_iff (motor : ZephyrMotor) (c : DriverCall) :
    PwmWellFormed motor c (motor.driverStep c) ↔ PwmFits motor c (motor.driverStep c) := by
  unfold PwmWellFormed PwmFits
  refine forall₂_congr fun mode duty => forall_congr' fun hargs => ?_
  rw [pwmRequests_driverCall, hargs]
  simp only [Option.map_some, Option.toList_some, List.mem_singleton, forall_eq]
  exact requestWellFormed_iff

/-- In a sequence of driver calls every request to the PWM driver is well formed exactly when every run
finds `max_duty` nonzero and, if it drives the motor, rescales to less than a thousandth beyond it. -/
theorem pwm_request_iff (motor : ZephyrMotor) (calls : List DriverCall) :
    Always ZephyrMotor.driverStep PwmWellFormed motor calls ↔
      Always ZephyrMotor.driverStep PwmFits motor calls :=
  Always.iff_of_forall pwmWellFormed_iff motor calls

/-! ## A `max_duty` of 0, and one below `min_duty` -/

/-- `set_resolution(0)` makes the next run divide by 0, and duty 10 in the range 100 to 50 asks for a
pulse of 1.8 periods. -/
theorem pwm_request_malformed :
    ¬ Always ZephyrMotor.driverStep PwmWellFormed (zephyrMotorInit .pwm1 true true false).1
      [.call (.setResolution 0), .call (.setSpeed 10)] ∧
    ¬ Always ZephyrMotor.driverStep PwmWellFormed (zephyrMotorInit .pwm1 true true false).1
      [.call (.setMinDuty 100), .call (.setMaxDuty 50), .call (.setSpeed 10)] := by
  constructor
  · intro h
    have hfits := (pwmWellFormed_iff _ _).mp h.2.1 _ _ rfl
    exact absurd rfl hfits.1
  · intro h
    have hfits := (pwmWellFormed_iff _ _).mp h.2.2.1 _ _ rfl
    revert hfits
    unfold RequestFits
    decide +kernel

end Mecanum.Motor
