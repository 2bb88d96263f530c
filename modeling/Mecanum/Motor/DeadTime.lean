import Mecanum.Foundations.Trace
import Mecanum.Motor.WriteOrder

/-! # The dead time: when it is inserted, and what the bridge does meanwhile

`last_mode` is written by the dead-time branch alone, so it holds the mode of the last run made
while `deadtime_us` was positive. `History` adds to the motor record both modes a reader could have
in mind: that one and the mode of the immediately preceding run.

During the wait the pins are low and the PWM channel still runs with the request of the last run,
so the bridge is off exactly when that request keeps the PWM pin low: `step_pwmLow_iff` says which
calls leave such a request.
-/

namespace Mecanum.Motor
open Trace Scaling
set_option autoImplicit false

/-- A motor with the modes of its earlier runs; `MOTOR_STOP` stands for "no run yet". -/
structure History where
  motor : ZephyrMotor
  prevMode : MotorMode
  /-- The mode of the last run made with a positive dead time. -/
  guardedMode : MotorMode

namespace History

def start (pwmDev : PwmDev) (pwmReady gpioReady reverse : Bool) : History :=
  ⟨(zephyrMotorInit pwmDev pwmReady gpioReady reverse).1, .stop, .stop⟩

def step (s : History) (c : MotorCall) : History where
  motor := (s.motor.call c).1
  prevMode := c.runMode.getD s.prevMode
  guardedMode := if 0 < s.motor.deadtimeUs then c.runMode.getD s.guardedMode else s.guardedMode

/-- A run with a positive dead time performs the dead-time sequence exactly when its mode differs
from the mode of the run before. -/
def WaitsOnChange (s : History) (c : MotorCall) (_ : History) : Prop :=
  ∀ mode ∈ c.runMode, 0 < s.motor.deadtimeUs →
    (deadTimeSequence s.motor.deadtimeUs <+: (s.motor.call c).2 ↔ mode ≠ s.prevMode)

instance (s : History) (c : MotorCall) (t : History) : Decidable (WaitsOnChange s c t) :=
  inferInstanceAs (Decidable (∀ mode ∈ c.runMode, _ → _))

/-- Comparing the mode of a run that has a positive dead time with the last run of that kind gives
the same answer as comparing it with the run before. -/
def HistoriesAgree (s : History) (c : MotorCall) (_ : History) : Prop :=
  ∀ mode ∈ c.runMode, 0 < s.motor.deadtimeUs → (mode = s.guardedMode ↔ mode = s.prevMode)

def Tracked (s : History) : Prop := s.motor.lastMode = s.guardedMode

theorem start_tracked (pwmDev : PwmDev) (pwmReady gpioReady reverse : Bool) :
    Tracked (start pwmDev pwmReady gpioReady reverse) := rfl

theorem step_tracked (s : History) (c : MotorCall) (h : s.Tracked) : (s.step c).Tracked := by
  unfold Tracked at h ⊢
  unfold step
  obtain ⟨mode, duty, hargs, hcall⟩ | ⟨hargs, _, hlast⟩ := call_cases s.motor c
  · simp only [MotorCall.runMode, hargs, hcall, lastMode_zephyrMotorRun, h, Option.map_some,
      Option.getD_some]
  · simp only [MotorCall.runMode, hargs, hlast, h, Option.map_none, Option.getD_none, ite_self]

theorem performs_iff (s : History) (c : MotorCall) (h : s.Tracked) (mode : MotorMode)
    (hmode : mode ∈ c.runMode) (hdead : 0 < s.motor.deadtimeUs) :
    deadTimeSequence s.motor.deadtimeUs <+: (s.motor.call c).2 ↔ mode ≠ s.guardedMode := by
  unfold Tracked at h
  obtain ⟨mode', duty, hargs, hcall⟩ | ⟨hargs, _, _⟩ := call_cases s.motor c
  · obtain rfl : mode' = mode := by simpa [MotorCall.runMode, hargs] using hmode
    rw [hcall, deadTimeSequence_prefix_iff, ← h]
    simp [WaitsFor, hdead]
  · simp [MotorCall.runMode, hargs] at hmode

theorem waitsOnChange_iff (s : History) (c : MotorCall) (h : s.Tracked) :
    WaitsOnChange s c (s.step c) ↔ HistoriesAgree s c (s.step c) := by
  unfold WaitsOnChange HistoriesAgree
  refine forall₂_congr fun mode hmode => imp_congr_right fun hdead => ?_
  rw [performs_iff s c h mode hmode hdead]
  exact not_iff_not

end History

/-- The dead time follows the mode changes of a call sequence exactly when, at every run with a
positive dead time, the last guarded run and the immediately preceding run say the same about a
change of mode. -/
theorem dead_time_on_change_iff (pwmDev : PwmDev) (pwmReady gpioReady reverse : Bool)
    (calls : List MotorCall) :
    Always History.step History.WaitsOnChange
        (History.start pwmDev pwmReady gpioReady reverse) calls ↔
      Always History.step History.HistoriesAgree
        (History.start pwmDev pwmReady gpioReady reverse) calls :=
  Always.iff_of_invariant History.waitsOnChange_iff
    (fun s c h _ => History.step_tracked s c h) calls (History.start_tracked _ _ _ _)

/-- The dead time is enabled, a forward run is made, and the reversal is made with it disabled. Once
it is enabled again the reversal back to forward runs without it. -/
theorem dead_time_missed_on_reversal :
    ¬ Always History.step History.WaitsOnChange (History.start .pwm1 true true false)
      [.setDeadtime 100, .run .forward 60, .setDeadtime 0, .run .backward 60, .setDeadtime 100,
        .run .forward 60] := by
  decide

/-! ## The bridge during the wait -/

/-- The wires at each `k_busy_wait` of a list of outputs. -/
def Lines.atWaits : Lines → List Output → List Lines
  | _, [] => []
  | l, .kBusyWait _ :: outs => l :: l.atWaits outs
  | l, .pinIn1 level :: outs => (l.apply (.pinIn1 level)).atWaits outs
  | l, .pinIn2 level :: outs => (l.apply (.pinIn2 level)).atWaits outs
  | l, .pwmSet period pulse inverted :: outs =>
      (l.apply (.pwmSet period pulse inverted)).atWaits outs

theorem atWaits_zephyrMotorRun (motor : ZephyrMotor) (mode : MotorMode) (duty : Int16) (l : Lines) :
    l.atWaits (zephyrMotorRun motor mode duty).2 =
      if WaitsFor motor mode then [{ l with in1 := false, in2 := false }] else [] := by
  obtain ⟨v, w, pulse, inverted, h⟩ := zephyrMotorRun_outputs motor mode duty
  rw [h]
  split <;> rfl

namespace Driven

def OffDuringWaits (s : Driven) (c : MotorCall) (_ : Driven) : Prop :=
  ∀ l ∈ s.lines.atWaits (s.motor.call c).2, l.Off

/-- A run that takes the dead-time branch finds a PWM request that keeps the pin low. -/
def WaitsOnLowPwm (s : Driven) (c : MotorCall) (_ : Driven) : Prop :=
  ∀ mode ∈ c.runMode, WaitsFor s.motor mode → s.lines.PwmLow

def HasPeriod (s : Driven) : Prop := ∀ p ∈ s.lines.pwm, 0 < p.period

theorem step_hasPeriod (s : Driven) (c : MotorCall) (h : s.HasPeriod) : (s.step c).HasPeriod := by
  unfold HasPeriod at h ⊢
  unfold step
  obtain ⟨mode, duty, _, hcall⟩ | ⟨_, hout, _⟩ := call_cases s.motor c
  · rw [hcall, applyAll_zephyrMotorRun]
    rintro p hp
    obtain rfl := Option.some.inj hp
    show (0 : UInt32) < pwmUsec motorPwmPeriodUs
    decide
  · rwa [hout]

theorem offDuringWaits_iff (s : Driven) (c : MotorCall) (h : s.HasPeriod) :
    OffDuringWaits s c (s.step c) ↔ WaitsOnLowPwm s c (s.step c) := by
  unfold OffDuringWaits WaitsOnLowPwm
  obtain ⟨mode, duty, hargs, hcall⟩ | ⟨hargs, hout, _⟩ := call_cases s.motor c
  · have hmode : c.runMode = some mode := by rw [MotorCall.runMode, hargs]; rfl
    rw [hcall, atWaits_zephyrMotorRun, hmode]
    have hoff := Lines.off_iff_pwmLow (l := { s.lines with in1 := false, in2 := false }) rfl h
    change _ ↔ s.lines.PwmLow at hoff
    by_cases hw : WaitsFor s.motor mode
    · simpa [hw] using hoff
    · simp [hw]
  · simp [MotorCall.runMode, hargs, hout, Lines.atWaits]

end Driven

/-! ## The runs that leave the PWM pin low -/

/-- A stop, a forward run of duty 0, or a backward run at the full duty, as they reach the output
switch. -/
def KeepsPwmLow (motor : ZephyrMotor) (mode : MotorMode) (duty : Int16) : Prop :=
  match actualMode motor mode with
  | .forward => duty = 0
  | .backward => FullDuty motor duty
  | .brake => False
  | .stop => True

section KeepsPwmLow
variable {motor : ZephyrMotor} (duty : Int16) (hpos : 0 < motor.maxDuty)
  (hle : motor.minDuty ≤ motor.maxDuty) (hfine : motor.maxDuty ≤ 1000)
include hpos hle hfine

theorem pwmDuty_pulse_eq_zero_iff :
    (pwmUsec ((pwmDuty motor duty).toUInt32 * motorPwmPeriodUs / motor.maxDuty.toUInt32)).toNat = 0 ↔
      duty = 0 := by
  have hpos' : 0 < motor.maxDuty.toNat := UInt16.lt_iff_toNat_lt.mp hpos
  have hfine' : motor.maxDuty.toNat ≤ 1000 := UInt16.le_iff_toNat_le.mp hfine
  rw [toNat_pulse (toNat_pwmDuty_le duty hle), toNat_pwmDuty duty hle]
  constructor
  · intro hzero
    by_contra hduty
    have hne : duty.toInt ≠ 0 := fun h => hduty (Int16.toInt_inj.mp h)
    have hlevel : 0 < level motor duty := by
      unfold level
      omega
    have hinter : 0 < interpolate motor.minDuty.toNat motor.maxDuty.toNat (level motor duty) :=
      interpolate_pos hlevel
    have hshare := share_pos hpos' hfine' hinter
    omega
  · rintro rfl
    simp [level]

theorem pwmLow_zephyrMotorRun_iff (mode : MotorMode) (l : Lines) :
    (l.applyAll (zephyrMotorRun motor mode duty).2).PwmLow ↔ KeepsPwmLow motor mode duty := by
  have hpwm : (l.applyAll (zephyrMotorRun motor mode duty).2).pwm =
      some (requestOf motor (actualMode motor mode) duty) := by
    rw [applyAll_zephyrMotorRun, runPwm_eq_requestOf]
  obtain ⟨hstop, hbackward, hbrake⟩ := iaHigh_requestOf hpos hle hpwm
  rw [Lines.pwmLow_iff hpwm period_requestOf_pos]
  unfold KeepsPwmLow
  cases hactual : actualMode motor mode with
  | forward =>
      rw [hactual] at hpwm
      rw [Lines.iaHigh_iff hpwm period_requestOf_pos]
      exact Nat.pos_iff_ne_zero.not.trans
        (not_not.trans (pwmDuty_pulse_eq_zero_iff duty hpos hle hfine))
  | backward => exact (hbackward hactual).not.trans not_not
  | brake => exact iff_of_false (not_not.mpr (hbrake hactual)) id
  | stop => exact iff_of_true (hstop hactual) trivial

end KeepsPwmLow

namespace Driven

theorem init_pwmLow (pwmDev : PwmDev) (pwmReady gpioReady reverse : Bool) :
    (init pwmDev pwmReady gpioReady reverse).lines.PwmLow := by
  rw [init_lines]
  rintro p hp
  cases hp

/-- Every run decides for the waits after it, and the setters leave the request alone. With up to 1000
levels, one for each microsecond, no duty but 0 has an empty pulse. -/
theorem step_pwmLow_iff (s : Driven) (c : MotorCall) (hpos : 0 < s.motor.maxDuty)
    (hle : s.motor.minDuty ≤ s.motor.maxDuty) (hfine : s.motor.maxDuty ≤ 1000) :
    (s.step c).lines.PwmLow ↔
      match c.runArgs with
      | some (mode, duty) => KeepsPwmLow s.motor mode duty
      | none => s.lines.PwmLow := by
  unfold step
  obtain ⟨mode, duty, hargs, hcall⟩ | ⟨hargs, hout, _⟩ := call_cases s.motor c
  · rw [hargs, hcall]
    exact pwmLow_zephyrMotorRun_iff duty hpos hle hfine mode s.lines
  · rw [hargs, hout]
    rfl

end Driven

/-- In a call sequence the bridge is off during every dead time exactly when every dead time starts
under a PWM request that keeps the pin low. -/
theorem bridge_off_during_dead_time_iff (pwmDev : PwmDev) (pwmReady gpioReady reverse : Bool)
    (calls : List MotorCall) :
    Always Driven.step Driven.OffDuringWaits
        (Driven.init pwmDev pwmReady gpioReady reverse) calls ↔
      Always Driven.step Driven.WaitsOnLowPwm
        (Driven.init pwmDev pwmReady gpioReady reverse) calls := by
  refine Always.iff_of_invariant Driven.offDuringWaits_iff
    (fun s c h _ => Driven.step_hasPeriod s c h) calls ?_
  unfold Driven.HasPeriod
  rw [Driven.init_lines]
  rintro p hp
  cases hp

/-- A reversal from full forward duty: while the driver waits, the motor is still driven forward. -/
theorem bridge_driven_during_dead_time :
    ¬ Always Driven.step Driven.OffDuringWaits (Driven.init .pwm1 true true false)
      [.setMinDuty 50, .setMaxDuty 70, .setDeadtime 100, .setSpeed 70, .setSpeed (-70)] := by
  intro h
  have hwait := h.2.2.2.2.1
  have hoff := hwait ⟨false, false, some ⟨1000000, 1000000, false⟩⟩ (by decide)
  exact hoff 0 (by decide) (by decide)

end Mecanum.Motor
