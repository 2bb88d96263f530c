import Mecanum.Motor.Bridge

/-! # Sequences of driver calls

The calls a program can make of one motor after `zephyr_motor_init`, in any order and with any
arguments, and the state they act on: the motor record and the wires. -/

namespace Mecanum.Motor
set_option autoImplicit false

inductive MotorCall
  | run (mode : MotorMode) (duty : Int16)
  | setSpeed (duty : Int16)
  | setMinDuty (duty : UInt16)
  | setMaxDuty (duty : UInt16)
  | setResolution (bits : UInt8)
  | setDeadtime (us : UInt32)

/-- The `zephyr_motor_run` that a call makes, if it makes one. -/
def MotorCall.runArgs : MotorCall → Option (MotorMode × Int16)
  | .run mode duty => some (mode, duty)
  | .setSpeed duty => some (speedMode duty, speedArg duty)
  | _ => none

def MotorCall.runMode (c : MotorCall) : Option MotorMode := c.runArgs.map Prod.fst

def ZephyrMotor.call (motor : ZephyrMotor) : MotorCall → ZephyrMotor × List Output
  | .run mode duty => zephyrMotorRun motor mode duty
  | .setSpeed duty => zephyrMotorSetSpeed motor duty
  | .setMinDuty duty => (zephyrMotorSetMinDuty motor duty, [])
  | .setMaxDuty duty => (zephyrMotorSetMaxDuty motor duty, [])
  | .setResolution bits => (zephyrMotorSetResolution motor bits, [])
  | .setDeadtime us => (zephyrMotorSetDeadtime motor us, [])

/-- A call either is one `zephyr_motor_run`, or writes no output and keeps `last_mode`. -/
theorem call_cases (motor : ZephyrMotor) (c : MotorCall) :
    (∃ mode duty, c.runArgs = some (mode, duty) ∧
        motor.call c = zephyrMotorRun motor mode duty) ∨
      (c.runArgs = none ∧ (motor.call c).2 = [] ∧
        (motor.call c).1.lastMode = motor.lastMode) := by
  cases c with
  | run mode duty => exact .inl ⟨mode, duty, rfl, rfl⟩
  | setSpeed duty => exact .inl ⟨_, _, rfl, zephyrMotorSetSpeed_eq_run motor duty⟩
  | setMinDuty duty => exact .inr ⟨rfl, rfl, rfl⟩
  | setMaxDuty duty => exact .inr ⟨rfl, rfl, rfl⟩
  | setResolution bits => exact .inr ⟨rfl, rfl, rfl⟩
  | setDeadtime us => exact .inr ⟨rfl, rfl, rfl⟩

structure Driven where
  motor : ZephyrMotor
  lines : Lines

namespace Driven

def init (pwmDev : PwmDev) (pwmReady gpioReady reverse : Bool) : Driven where
  motor := (zephyrMotorInit pwmDev pwmReady gpioReady reverse).1
  lines := Lines.reset.applyAll (zephyrMotorInit pwmDev pwmReady gpioReady reverse).2

def step (s : Driven) (c : MotorCall) : Driven where
  motor := (s.motor.call c).1
  lines := s.lines.applyAll (s.motor.call c).2

theorem init_lines (pwmDev : PwmDev) (pwmReady gpioReady reverse : Bool) :
    (init pwmDev pwmReady gpioReady reverse).lines = Lines.reset := by
  cases pwmReady <;> cases gpioReady <;> rfl

end Driven

/-! ## The dead-time sequence -/

def deadTimeSequence (us : UInt32) : List Output := setPins false false ++ [.kBusyWait us]

section DeadTime
variable (motor : ZephyrMotor) (mode : MotorMode) (duty : Int16)

/-- The branch condition of `zephyr_motor_run`. -/
def WaitsFor : Prop := 0 < motor.deadtimeUs ∧ mode ≠ motor.lastMode

instance : Decidable (WaitsFor motor mode) := inferInstanceAs (Decidable (_ ∧ _))

theorem deadTime_snd : (deadTime motor mode).2 =
    if WaitsFor motor mode then deadTimeSequence motor.deadtimeUs else [] := by
  unfold deadTime
  show (if WaitsFor motor mode then _ else _ : ZephyrMotor × List Output).2 = _
  split <;> rfl

theorem drive_snd (p : UInt16) : ∃ v w pulse inverted, (drive motor mode p).2 =
    [.pinIn1 v, .pinIn2 w, .pwmSet (pwmUsec motorPwmPeriodUs) pulse inverted] := by
  cases mode <;> exact ⟨_, _, _, _, rfl⟩

theorem zephyrMotorRun_outputs :
    ∃ v w pulse inverted, (zephyrMotorRun motor mode duty).2 =
      (if WaitsFor motor mode then deadTimeSequence motor.deadtimeUs else []) ++
        [.pinIn1 v, .pinIn2 w, .pwmSet (pwmUsec motorPwmPeriodUs) pulse inverted] := by
  obtain ⟨v, w, pulse, inverted, h⟩ := drive_snd (deadTime motor mode).1
    (actualMode (deadTime motor mode).1 mode) (pwmDuty (deadTime motor mode).1 duty)
  refine ⟨v, w, pulse, inverted, ?_⟩
  rw [zephyrMotorRun_snd, h, deadTime_snd]

theorem deadTimeSequence_prefix_iff (us : UInt32) :
    deadTimeSequence us <+: (zephyrMotorRun motor mode duty).2 ↔
      us = motor.deadtimeUs ∧ WaitsFor motor mode := by
  obtain ⟨v, w, pulse, inverted, h⟩ := zephyrMotorRun_outputs motor mode duty
  rw [h]
  by_cases hw : WaitsFor motor mode <;> simp [hw, deadTimeSequence, setPins]

theorem lastMode_zephyrMotorRun :
    (zephyrMotorRun motor mode duty).1.lastMode =
      if 0 < motor.deadtimeUs then mode else motor.lastMode := by
  rw [zephyrMotorRun_fst]
  unfold deadTime
  by_cases h0 : motor.deadtimeUs > 0 <;> by_cases hm : mode = motor.lastMode <;> simp [h0, hm]

end DeadTime

end Mecanum.Motor
