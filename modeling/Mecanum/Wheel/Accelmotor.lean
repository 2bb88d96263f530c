import Mathlib.Data.List.Basic
import Mecanum.Foundations.FloatArith
import Mecanum.Motor.Driver
import Mecanum.Wheel.Encoder

/-! # `zephyr_accelmotor.c`: the wheel controller

Generic in the arithmetic `F` of its `float` expressions. The record contains the motor and the
encoder that the source points to. A control step hands one duty to `zephyr_motor_set_speed`; the
calls made are returned as a list of `Command`s.
-/

namespace Mecanum.Wheel
open Motor FloatArith CInt
set_option autoImplicit false

inductive AccelRunMode
  | accelPos
  | pidPos
  | accelSpeed
  | pidSpeed
  | idleRun
  deriving DecidableEq, Repr

/-- The value of the enumerator, as the comparison `run_mode > 1` reads it. -/
def AccelRunMode.code : AccelRunMode → ℕ
  | .accelPos => 0
  | .pidPos => 1
  | .accelSpeed => 2
  | .pidSpeed => 3
  | .idleRun => 4

structure ZephyrAccelmotor (F : Type) where
  motor : ZephyrMotor
  encoder : ZephyrEncoder
  ratio : F
  dtMs : UInt32
  dtSec : F
  stopzone : UInt32
  maxSpeed : UInt16
  acceleration : F
  runMode : AccelRunMode
  currentPos : Int32
  lastPos : Int32
  targetPos : Int32
  currentSpeed : Int16
  targetSpeed : Int16
  dutyF : F
  lastTickTime : UInt32
  speedBuf : Vector Int16 3
  speedBufIdx : UInt8
  filteredSpeed : F
  kp : F
  ki : F
  kd : F
  integral : F
  prevInput : Int32
  lastSpeed : F
  controlPos : F
  controlSpeed : F

/-- A call of `zephyr_motor_set_speed`: the duty it is given and the outputs it writes. -/
structure Command where
  duty : Int16
  outputs : List Output

variable {F : Type} [FloatArith F]

def iabs32 (x : Int32) : Int32 := if x < 0 then -x else x

def fabs32 (x : F) : F := if lt x (lit 0) then -x else x

/-- `sign`, whose `int8_t` result is used as an `int`. -/
def sign (x : F) : ℤ := if lt (lit 0) x then 1 else if lt x (lit 0) then -1 else 0

def uptime32 (uptime : Int64) : UInt32 := uptime.toUInt64.toUInt32

def zephyrAccelmotorInit (motor : ZephyrMotor) (encoder : ZephyrEncoder) (uptime : Int64) :
    ZephyrAccelmotor F where
  motor := motor
  encoder := encoder
  ratio := lit 1
  dtMs := 20
  dtSec := lit 0.02
  stopzone := 8
  maxSpeed := 0
  acceleration := lit 1
  runMode := .idleRun
  currentPos := 0
  lastPos := 0
  targetPos := 0
  currentSpeed := 0
  targetSpeed := 0
  dutyF := lit 0
  lastTickTime := uptime32 uptime
  speedBuf := #v[0, 0, 0]
  speedBufIdx := 0
  filteredSpeed := lit 0
  kp := lit 2
  ki := lit 0.9
  kd := lit 0.1
  integral := lit 0
  prevInput := 0
  lastSpeed := lit 0
  controlPos := lit 0
  controlSpeed := lit 0

/-! ## Settings and targets -/

def zephyrAccelmotorSetDt (accel : ZephyrAccelmotor F) (dtMs : UInt32) : ZephyrAccelmotor F :=
  { accel with dtMs := dtMs, dtSec := ofInt dtMs.toNat / lit 1000 }

def zephyrAccelmotorSetStopzone (accel : ZephyrAccelmotor F) (zone : UInt32) : ZephyrAccelmotor F :=
  { accel with stopzone := zone }

def zephyrAccelmotorSetMaxSpeed (accel : ZephyrAccelmotor F) (speed : UInt16) :
    ZephyrAccelmotor F :=
  { accel with maxSpeed := speed }

def zephyrAccelmotorSetAcceleration (accel : ZephyrAccelmotor F) (accelVal : F) :
    ZephyrAccelmotor F :=
  { accel with acceleration := accelVal }

def zephyrAccelmotorSetRunMode (accel : ZephyrAccelmotor F) (mode : AccelRunMode) :
    ZephyrAccelmotor F :=
  let accel := { accel with runMode := mode, integral := lit 0 }
  if mode = .accelPos then
    { accel with controlPos := ofInt accel.currentPos.toInt, controlSpeed := lit 0 }
  else accel

def zephyrAccelmotorSetTargetPos (accel : ZephyrAccelmotor F) (pos : Int32) : ZephyrAccelmotor F :=
  { accel with targetPos := pos }

def zephyrAccelmotorSetTargetSpeed (accel : ZephyrAccelmotor F) (speed : Int16) :
    ZephyrAccelmotor F :=
  { accel with targetSpeed := speed }

def zephyrAccelmotorGetCurrentPos (accel : ZephyrAccelmotor F) : Int32 := accel.currentPos

/-- What `init_hardware` sets after the run mode. -/
def ZephyrAccelmotor.tuned (accel : ZephyrAccelmotor F) : ZephyrAccelmotor F :=
  let accel := zephyrAccelmotorSetAcceleration accel (ofInt 7)
  let accel := zephyrAccelmotorSetMaxSpeed accel 500
  let accel := zephyrAccelmotorSetStopzone accel 5
  { accel with kp := lit 2.2, ki := lit 0.4, kd := lit 0.01 }

/-- The settings that `init_hardware` gives every controller. -/
def ZephyrAccelmotor.shipped (accel : ZephyrAccelmotor F) : ZephyrAccelmotor F :=
  (zephyrAccelmotorSetDt accel 20).tuned

/-! ## The control step -/

def median (a b c : Int16) : Int16 :=
  if a ≤ b ∧ a ≤ c then (if b ≤ c then b else c)
  else if b ≤ a ∧ b ≤ c then (if a ≤ c then a else c)
  else (if a ≤ b then a else b)

def filterSpeed (accel : ZephyrAccelmotor F) (newSpeed : Int16) : ZephyrAccelmotor F × Int16 :=
  let buf := accel.speedBuf.setIfInBounds accel.speedBufIdx.toNat newSpeed
  let m := median buf[0] buf[1] buf[2]
  let filtered := accel.filteredSpeed + (ofInt m.toInt - accel.filteredSpeed) * lit 0.7
  ({ accel with
      speedBuf := buf
      speedBufIdx := UInt8.ofNat ((accel.speedBufIdx.toNat + 1) % 3)
      filteredSpeed := filtered },
    toInt16 filtered)

/-- The sample that `filter_speed` takes from its buffer. -/
def chosenSpeed (accel : ZephyrAccelmotor F) (newSpeed : Int16) : Int16 :=
  let buf := accel.speedBuf.setIfInBounds accel.speedBufIdx.toNat newSpeed
  median buf[0] buf[1] buf[2]

theorem filterSpeed_eq (accel : ZephyrAccelmotor F) (newSpeed : Int16) :
    filterSpeed accel newSpeed =
      let filtered := accel.filteredSpeed +
        (ofInt (chosenSpeed accel newSpeed).toInt - accel.filteredSpeed) * lit 0.7
      ({ accel with
          speedBuf := accel.speedBuf.setIfInBounds accel.speedBufIdx.toNat newSpeed
          speedBufIdx := UInt8.ofNat ((accel.speedBufIdx.toNat + 1) % 3)
          filteredSpeed := filtered },
        toInt16 filtered) := rfl

omit [FloatArith F] in
/-- It is the median of the buffer after the new sample is written. -/
theorem chosenSpeed_eq (accel : ZephyrAccelmotor F) (newSpeed : Int16) :
    ∃ a b c, accel.speedBuf.toList.set accel.speedBufIdx.toNat newSpeed = [a, b, c] ∧
      chosenSpeed accel newSpeed = median a b c := by
  have hthree : ∀ buf : Vector Int16 3, ∃ a b c, buf.toList = [a, b, c] ∧
      median buf[0] buf[1] buf[2] = median a b c := by
    rintro ⟨⟨l⟩, hsize⟩
    obtain ⟨a, b, c, rfl⟩ := List.length_eq_three.mp (by simpa using hsize)
    exact ⟨a, b, c, rfl, rfl⟩
  rw [← Vector.toList_setIfInBounds]
  exact hthree _

/-- The two comparisons with `max_speed`; `0` means no limit. -/
def limitDuty (maxSpeed : UInt16) (duty : F) : F :=
  if maxSpeed > 0 then
    let duty := if lt (ofInt maxSpeed.toNat) duty then ofInt maxSpeed.toNat else duty
    if lt duty (ofInt (-(maxSpeed.toNat : ℤ))) then -ofInt maxSpeed.toNat else duty
  else duty

def commandDuty (accel : ZephyrAccelmotor F) : ZephyrAccelmotor F × List Command :=
  let duty := toInt16 accel.dutyF
  let driven := zephyrMotorSetSpeed accel.motor duty
  ({ accel with motor := driven.1 }, [⟨duty, driven.2⟩])

/-- `pid_control` up to the call of the motor. The local `min_duty` is 0. -/
def pidUpdate (accel : ZephyrAccelmotor F) (target current : Int32) (cutoff : Bool) :
    ZephyrAccelmotor F :=
  let err := target - current
  let minDuty : ℤ := 0
  let dutyF := ofInt err.toInt * accel.kp
  let dutyF := dutyF + ofInt (accel.prevInput - current).toInt * accel.kd / accel.dtSec
  let integral := accel.integral + ofInt err.toInt * accel.ki * accel.dtSec
  let dutyF := dutyF + integral
  -- each branch either clears the integral or adds the starting duty
  let clears := if cutoff then ¬ iabs32 err > accel.stopzone.toInt32 else err = 0 ∧ target = 0
  let dutyF := if clears then dutyF else dutyF + ofInt (sign (ofInt err.toInt : F) * minDuty)
  let integral := if clears then lit 0 else integral
  { accel with
    dutyF := limitDuty accel.maxSpeed dutyF
    prevInput := current
    integral := integral }

def pidControl (accel : ZephyrAccelmotor F) (target current : Int32) (cutoff : Bool) :
    ZephyrAccelmotor F × List Command :=
  commandDuty (pidUpdate accel target current cutoff)

structure Profile (F : Type) where
  controlPos : F
  controlSpeed : F
  lastSpeed : F

/-- The profile update of `ACCEL_POS`, up to the call of `pid_control`. -/
def profileStep (accel : ZephyrAccelmotor F) : Profile F :=
  let err := ofInt accel.targetPos.toInt - accel.controlPos
  if lt (lit 0.1) (fabs32 err) then
    let accelStep := accel.acceleration * accel.dtSec
    -- inside the stop zone and slow: snap to the target
    let snaps := lt (fabs32 err) (ofInt accel.stopzone.toNat) &&
      lt (fabs32 (accel.lastSpeed - accel.controlSpeed)) (lit 2)
    let controlPos := if snaps then ofInt accel.targetPos.toInt else accel.controlPos
    let controlSpeed := if snaps then lit 0 else accel.controlSpeed
    let accelStep := if snaps then lit 0 else accelStep
    -- the braking distance exceeds the remaining one: recompute the step
    let brakes := lt (fabs32 err) (controlSpeed * controlSpeed / (lit 2 * accel.acceleration))
    let accelStep :=
      if brakes then controlSpeed * controlSpeed / (lit 2 * fabs32 (-err)) else accelStep
    let err :=
      if brakes then (if sign controlSpeed = sign (-err) then - -err else -err) else err
    let controlSpeed := controlSpeed + accelStep * ofInt (sign err)
    let maxSpeedDt := ofInt accel.maxSpeed.toNat * accel.dtSec
    let controlSpeed :=
      if accel.maxSpeed > 0 then
        let v := if lt maxSpeedDt controlSpeed then maxSpeedDt else controlSpeed
        if lt v (-maxSpeedDt) then -maxSpeedDt else v
      else controlSpeed
    ⟨controlPos + controlSpeed, controlSpeed, controlSpeed⟩
  else ⟨accel.controlPos, accel.controlSpeed, accel.lastSpeed⟩

def accelPosUpdate (accel : ZephyrAccelmotor F) : ZephyrAccelmotor F :=
  let profile := profileStep accel
  { accel with
    controlPos := profile.controlPos
    controlSpeed := profile.controlSpeed
    lastSpeed := profile.lastSpeed }

def accelSpeedUpdate (accel : ZephyrAccelmotor F) : ZephyrAccelmotor F :=
  let err : F := ofInt (accel.targetSpeed - accel.currentSpeed).toInt
  let reducer := if lt (fabs32 err) accel.acceleration then lit 1 else fabs32 err / accel.acceleration
  let dutyF := accel.dutyF + ofInt (sign err) * accel.acceleration * accel.dtSec * reducer
  { accel with dutyF := limitDuty accel.maxSpeed dutyF }

def regulate (accel : ZephyrAccelmotor F) : ZephyrAccelmotor F × List Command :=
  match accel.runMode with
  | .accelPos =>
      let accel := accelPosUpdate accel
      pidControl accel (toInt32 accel.controlPos) accel.currentPos true
  | .pidPos => pidControl accel accel.targetPos accel.currentPos true
  | .accelSpeed => commandDuty (accelSpeedUpdate accel)
  | .pidSpeed => pidControl accel accel.targetSpeed.toInt32 accel.currentSpeed.toInt32 false
  | .idleRun => (accel, [])

def copyDirection (accel : ZephyrAccelmotor F) : ZephyrAccelmotor F :=
  let motorDir := zephyrMotorGetState accel.motor
  { accel with
    encoder :=
      if motorDir ≠ 0 then zephyrEncoderSetDirection accel.encoder motorDir else accel.encoder }

def sampleSpeed (accel : ZephyrAccelmotor F) : ZephyrAccelmotor F :=
  let deltaPos := accel.currentPos - accel.lastPos
  let raw := (deltaPos * 1000 / accel.dtMs.toInt32).toInt16
  let filtered := filterSpeed { accel with lastTickTime := accel.lastTickTime + accel.dtMs } raw
  { filtered.1 with currentSpeed := filtered.2, lastPos := accel.currentPos }

/-- The sample that a control step hands to `filter_speed`. -/
def rawSpeed (accel : ZephyrAccelmotor F) : Int16 :=
  ((accel.currentPos - accel.lastPos) * 1000 / accel.dtMs.toInt32).toInt16

theorem sampleSpeed_eq (accel : ZephyrAccelmotor F) :
    sampleSpeed accel =
      let filtered := filterSpeed { accel with lastTickTime := accel.lastTickTime + accel.dtMs }
        (rawSpeed accel)
      { filtered.1 with currentSpeed := filtered.2, lastPos := accel.currentPos } := rfl

def sample (accel : ZephyrAccelmotor F) : ZephyrAccelmotor F := copyDirection (sampleSpeed accel)

/-- The time gate: whether a call at this uptime runs a control step. -/
def gateOpen (accel : ZephyrAccelmotor F) (uptime : Int64) : Prop :=
  uptime32 uptime - accel.lastTickTime ≥ accel.dtMs

instance (accel : ZephyrAccelmotor F) (uptime : Int64) : Decidable (gateOpen accel uptime) :=
  inferInstanceAs (Decidable (_ ≥ _))

/-- The value `zephyr_accelmotor_tick` returns. -/
def moving (accel : ZephyrAccelmotor F) : Bool :=
  if accel.runMode.code > 1 then decide (zephyrMotorGetState accel.motor ≠ 0)
  else decide (zephyrMotorGetState accel.motor ≠ 0) ||
    decide (iabs32 (accel.targetPos - accel.currentPos) > accel.stopzone.toInt32)

def controlStep (accel : ZephyrAccelmotor F) (uptime : Int64) :
    ZephyrAccelmotor F × List Command :=
  if gateOpen accel uptime then regulate (sample accel) else (accel, [])

def zephyrAccelmotorTick (accel : ZephyrAccelmotor F) (pos : Int32) (uptime : Int64) :
    ZephyrAccelmotor F × List Command × Bool :=
  let stepped := controlStep { accel with currentPos := pos } uptime
  (stepped.1, stepped.2, moving stepped.1)

/-- The local `min_duty` is 0 here too. -/
def zephyrAccelmotorIsBlocked (accel : ZephyrAccelmotor F) : Bool :=
  let minDuty : UInt16 := 0
  lt (ofInt minDuty.toNat) (fabs32 accel.dutyF) && decide (accel.currentSpeed = 0)

theorem toInt_iabs32 {x : Int32} (h : -2147483648 < x.toInt) : (iabs32 x).toInt = |x.toInt| := by
  have hx := int32_bounds x
  unfold iabs32
  by_cases hneg : x < 0
  · have hneg' : x.toInt < 0 := Int32.lt_iff_toInt_lt.mp hneg
    rw [if_pos hneg, Int32.toInt_neg, abs_of_neg hneg']
    exact Int.bmod_eq_of_le (by simp; omega) (by simp; omega)
  · have hpos : 0 ≤ x.toInt := not_lt.mp fun hlt => hneg (Int32.lt_iff_toInt_lt.mpr hlt)
    rw [if_neg hneg, abs_of_nonneg hpos]

/-! ## What a control step does to the motor and the encoder -/

section Frame
variable (accel : ZephyrAccelmotor F)

omit [FloatArith F] in
theorem copyDirection_eq : copyDirection accel =
    { accel with encoder :=
        if accel.motor.state ≠ 0 then { accel.encoder with direction := accel.motor.state }
        else accel.encoder } := rfl

/-- The fields a regulator can change. -/
theorem regulate_eq : (regulate accel).1 =
    { accel with
      motor := (regulate accel).1.motor
      dutyF := (regulate accel).1.dutyF
      prevInput := (regulate accel).1.prevInput
      integral := (regulate accel).1.integral
      lastSpeed := (regulate accel).1.lastSpeed
      controlPos := (regulate accel).1.controlPos
      controlSpeed := (regulate accel).1.controlSpeed } := by
  unfold regulate
  split <;> rfl

@[simp] theorem regulate_encoder : (regulate accel).1.encoder = accel.encoder := by
  rw [regulate_eq]

/-- A control step either is one call of `zephyr_motor_set_speed` or, when idle, leaves the motor
alone. -/
theorem regulate_motor :
    (∃ duty, (regulate accel).1.motor = (zephyrMotorSetSpeed accel.motor duty).1 ∧
      (regulate accel).2 = [⟨duty, (zephyrMotorSetSpeed accel.motor duty).2⟩]) ∨
    (accel.runMode = .idleRun ∧ regulate accel = (accel, [])) := by
  unfold regulate
  cases accel.runMode
  case idleRun => exact .inr ⟨rfl, rfl⟩
  all_goals exact .inl ⟨_, rfl, rfl⟩

variable {accel} {pos : Int32} {uptime : Int64}

theorem regulate_accelPos (h : accel.runMode = .accelPos) :
    regulate accel = pidControl (accelPosUpdate accel) (toInt32 (accelPosUpdate accel).controlPos)
      accel.currentPos true := by
  unfold regulate
  rw [h]
  rfl

theorem regulate_pidPos (h : accel.runMode = .pidPos) :
    regulate accel = pidControl accel accel.targetPos accel.currentPos true := by
  unfold regulate
  rw [h]

theorem regulate_accelSpeed (h : accel.runMode = .accelSpeed) :
    regulate accel = commandDuty (accelSpeedUpdate accel) := by
  unfold regulate
  rw [h]

theorem regulate_pidSpeed (h : accel.runMode = .pidSpeed) :
    regulate accel =
      pidControl accel accel.targetSpeed.toInt32 accel.currentSpeed.toInt32 false := by
  unfold regulate
  rw [h]

theorem regulate_idleRun (h : accel.runMode = .idleRun) : regulate accel = (accel, []) := by
  unfold regulate
  rw [h]

theorem tick_of_closed (h : ¬ gateOpen accel uptime) :
    zephyrAccelmotorTick accel pos uptime =
      ({ accel with currentPos := pos }, [], moving { accel with currentPos := pos }) := by
  have h' : ¬ gateOpen { accel with currentPos := pos } uptime := h
  unfold zephyrAccelmotorTick controlStep
  rw [if_neg h']

theorem tick_of_open (h : gateOpen accel uptime) :
    zephyrAccelmotorTick accel pos uptime =
      ((regulate (sample { accel with currentPos := pos })).1,
        (regulate (sample { accel with currentPos := pos })).2,
        moving (regulate (sample { accel with currentPos := pos })).1) := by
  have h' : gateOpen { accel with currentPos := pos } uptime := h
  unfold zephyrAccelmotorTick controlStep
  rw [if_pos h']

end Frame

end Mecanum.Wheel
