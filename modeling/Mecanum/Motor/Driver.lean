import Mecanum.Foundations.CInt

/-! # `zephyr_motor.c`: the motor driver

A driver call returns the new motor record and the hardware writes it performs, in program order.
The record keeps what the driver reads back. The pin numbers, the channel and the GPIO device only
select where a write goes; a write is named here by its role (`pin_in1`, `pin_in2`, the PWM
channel). Logging and `gpio_pin_configure` are left out.
-/

namespace Mecanum.Motor
open CInt
set_option autoImplicit false

inductive MotorMode
  | stop
  | forward
  | backward
  | brake
  deriving DecidableEq, Repr

inductive PwmDev
  | pwm1
  | pwm2
  | pwm17
  deriving DecidableEq, Repr

structure ZephyrMotor where
  pwmDev : PwmDev
  reversed : Bool
  lastMode : MotorMode
  state : Int8
  minDuty : UInt16
  maxDuty : UInt16
  deadtimeUs : UInt32
  deriving DecidableEq

/-- One hardware access of the driver. -/
inductive Output
  | pinIn1 (level : Bool)
  | pinIn2 (level : Bool)
  /-- `pwm_set`: period and pulse in nanoseconds; `inverted` is `PWM_POLARITY_INVERTED`. -/
  | pwmSet (period pulse : UInt32) (inverted : Bool)
  | kBusyWait (us : UInt32)
  deriving DecidableEq

def motorPwmPeriodUs : UInt32 := 1000

def pwmUsec (x : UInt32) : UInt32 := x * 1000

def setPins (in1Val in2Val : Bool) : List Output := [.pinIn1 in1Val, .pinIn2 in2Val]

def setPwm (motor : ZephyrMotor) (pwmDuty : UInt16) (inverted : Bool) : List Output :=
  [.pwmSet (pwmUsec motorPwmPeriodUs)
    (pwmUsec (pwmDuty.toUInt32 * motorPwmPeriodUs / motor.maxDuty.toUInt32)) inverted]

/-- The two flags say whether the PWM and the GPIO device are ready. -/
def zephyrMotorInit (pwmDev : PwmDev) (pwmReady gpioReady reverse : Bool) :
    ZephyrMotor × List Output :=
  ({ pwmDev := pwmDev, reversed := reverse, lastMode := .stop, state := 0
     minDuty := 0, maxDuty := 255, deadtimeUs := 0 },
    if pwmReady && gpioReady then setPins false false else [])

/-! ## `zephyr_motor_run` -/

/-- The dead-time branch. `last_mode` is written here and nowhere else. -/
def deadTime (motor : ZephyrMotor) (mode : MotorMode) : ZephyrMotor × List Output :=
  if motor.deadtimeUs > 0 ∧ mode ≠ motor.lastMode then
    ({ motor with lastMode := mode }, setPins false false ++ [.kBusyWait motor.deadtimeUs])
  else (motor, [])

def actualMode (motor : ZephyrMotor) (mode : MotorMode) : MotorMode :=
  if motor.reversed then
    match mode with
    | .forward => .backward
    | .backward => .forward
    | m => m
  else mode

/-- The two comparisons are between `int`s; the assignments narrow to `int16_t`. -/
def clampDuty (motor : ZephyrMotor) (duty : Int16) : Int16 :=
  let duty := if duty.toInt > motor.maxDuty.toNat then Int16.ofInt motor.maxDuty.toNat else duty
  if duty.toInt < -(motor.maxDuty.toNat : ℤ) then Int16.ofInt (-(motor.maxDuty.toNat : ℤ)) else duty

/-- `uint16_t pwm_duty = abs(duty)`, after the clamp. -/
def absDuty (motor : ZephyrMotor) (duty : Int16) : UInt16 :=
  toUInt16 (clampDuty motor duty).toInt.natAbs

def rescaleProduct (motor : ZephyrMotor) (pwmDuty : UInt16) : ℤ :=
  pwmDuty.toNat * ((motor.maxDuty.toNat : ℤ) - motor.minDuty.toNat)

def rescale (motor : ZephyrMotor) (pwmDuty : UInt16) : ℤ :=
  (rescaleProduct motor pwmDuty).tdiv motor.maxDuty.toNat + motor.minDuty.toNat

def pwmDuty (motor : ZephyrMotor) (duty : Int16) : UInt16 :=
  let pwmDuty := absDuty motor duty
  if motor.minDuty > 0 ∧ pwmDuty > 0 then toUInt16 (rescale motor pwmDuty) else pwmDuty

/-- The output switch. -/
def drive (motor : ZephyrMotor) (actualMode : MotorMode) (pwmDuty : UInt16) :
    ZephyrMotor × List Output :=
  match actualMode with
  | .forward => ({ motor with state := 1 }, setPins false false ++ setPwm motor pwmDuty false)
  | .backward => ({ motor with state := -1 }, setPins true false ++ setPwm motor pwmDuty true)
  | .brake => ({ motor with state := 0 }, setPins true false ++ setPwm motor motor.maxDuty false)
  | .stop => ({ motor with state := 0 }, setPins false false ++ setPwm motor 0 false)

def zephyrMotorRun (motor : ZephyrMotor) (mode : MotorMode) (duty : Int16) :
    ZephyrMotor × List Output :=
  let waited := deadTime motor mode
  let driven := drive waited.1 (actualMode waited.1 mode) (pwmDuty waited.1 duty)
  (driven.1, waited.2 ++ driven.2)

/-- `-duty` is an `int`; passing it narrows it, so `-32768` is passed on as itself. -/
def zephyrMotorSetSpeed (motor : ZephyrMotor) (duty : Int16) : ZephyrMotor × List Output :=
  if duty > 0 then zephyrMotorRun motor .forward duty
  else if duty < 0 then zephyrMotorRun motor .backward (Int16.ofInt (-duty.toInt))
  else zephyrMotorRun motor .stop 0

def zephyrMotorGetState (motor : ZephyrMotor) : Int8 := motor.state

def zephyrMotorSetMinDuty (motor : ZephyrMotor) (duty : UInt16) : ZephyrMotor :=
  { motor with minDuty := duty }

def zephyrMotorSetMaxDuty (motor : ZephyrMotor) (duty : UInt16) : ZephyrMotor :=
  { motor with maxDuty := duty }

/-- `(1 << bits) - 1`, narrowed to `uint16_t`. -/
def zephyrMotorSetResolution (motor : ZephyrMotor) (bits : UInt8) : ZephyrMotor :=
  { motor with maxDuty := toUInt16 (2 ^ bits.toNat - 1) }

def zephyrMotorSetDeadtime (motor : ZephyrMotor) (us : UInt32) : ZephyrMotor :=
  { motor with deadtimeUs := us }

/-! ## What a run leaves alone -/

section Frame
variable (motor : ZephyrMotor) (mode : MotorMode) (duty : Int16)

/-- The record a run leaves behind: only `last_mode` and `state` can change. -/
theorem zephyrMotorRun_fst :
    (zephyrMotorRun motor mode duty).1 =
      { motor with lastMode := (deadTime motor mode).1.lastMode
                   state := (drive motor (actualMode motor mode) 0).1.state } := by
  unfold zephyrMotorRun deadTime drive actualMode
  split <;> cases mode <;> cases hr : motor.reversed <;> simp [hr]

theorem zephyrMotorRun_snd :
    (zephyrMotorRun motor mode duty).2 =
      (deadTime motor mode).2 ++ (drive (deadTime motor mode).1
        (actualMode (deadTime motor mode).1 mode) (pwmDuty (deadTime motor mode).1 duty)).2 := rfl

def IsMotorState (state : Int8) : Prop := state = 1 ∨ state = -1 ∨ state = 0

/-- A motor that is driven has a direction. -/
theorem IsMotorState.of_ne_zero {state : Int8} (h : IsMotorState state) (hne : state ≠ 0) :
    state = 1 ∨ state = -1 := by
  obtain h | h | h := h
  · exact .inl h
  · exact .inr h
  · exact absurd h hne

theorem zephyrMotorRun_isMotorState : IsMotorState (zephyrMotorRun motor mode duty).1.state := by
  rw [zephyrMotorRun_fst]
  unfold IsMotorState drive
  cases actualMode motor mode <;> simp

def speedMode (duty : Int16) : MotorMode :=
  if duty > 0 then .forward else if duty < 0 then .backward else .stop

def speedArg (duty : Int16) : Int16 :=
  if duty > 0 then duty else if duty < 0 then Int16.ofInt (-duty.toInt) else 0

theorem zephyrMotorSetSpeed_eq_run :
    zephyrMotorSetSpeed motor duty = zephyrMotorRun motor (speedMode duty) (speedArg duty) := by
  unfold zephyrMotorSetSpeed speedMode speedArg
  split
  · rfl
  · split <;> rfl

theorem zephyrMotorSetSpeed_isMotorState :
    IsMotorState (zephyrMotorSetSpeed motor duty).1.state := by
  rw [zephyrMotorSetSpeed_eq_run]
  exact zephyrMotorRun_isMotorState motor _ _

variable {duty}

theorem speedMode_of_pos (h : 0 < duty.toInt) : speedMode duty = .forward :=
  if_pos (int16_pos_iff.mpr h)

theorem speedMode_of_neg (h : duty.toInt < 0) : speedMode duty = .backward := by
  have hpos : ¬ 0 < duty := fun hp => absurd (int16_pos_iff.mp hp) (by omega)
  unfold speedMode
  rw [if_neg hpos, if_pos (int16_neg_iff.mpr h)]

theorem speedMode_of_zero (h : duty.toInt = 0) : speedMode duty = .stop := by
  obtain rfl : duty = 0 := Int16.toInt_inj.mp h
  rfl

end Frame

end Mecanum.Motor
