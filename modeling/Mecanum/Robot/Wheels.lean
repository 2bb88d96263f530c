import Mecanum.Wheel.Accelmotor

/-! # The four wheels

`main.c` keeps one set of static records for each wheel. A quantity that exists once per wheel is a
function of `WheelId` here; `wheelMotor` and `wheelAccelmotor` are the records that `init_hardware`
sets up. -/

namespace Mecanum.Robot
open Motor Mecanum.Wheel FloatArith
set_option autoImplicit false

inductive WheelId
  | fl
  | fr
  | bl
  | br
  deriving DecidableEq, Repr

theorem WheelId.forall_iff {p : WheelId → Prop} : (∀ w, p w) ↔ p .fl ∧ p .fr ∧ p .bl ∧ p .br :=
  ⟨fun h => ⟨h .fl, h .fr, h .bl, h .br⟩, fun h w => by
    cases w with
    | fl => exact h.1
    | fr => exact h.2.1
    | bl => exact h.2.2.1
    | br => exact h.2.2.2⟩

instance {p : WheelId → Prop} [DecidablePred p] : Decidable (∀ w, p w) :=
  decidable_of_iff _ WheelId.forall_iff.symm

/-- `MAX_SPEED`, the bound of the target speeds and the `max_duty` of every motor. -/
def maxSpeed : ℕ := 70

def minDuty : UInt16 := 50

/-- The PWM device a motor is initialised with: TIM1 for FL and FR, TIM2 for BL, TIM17 for BR. -/
def WheelId.pwmDev : WheelId → PwmDev
  | .fl => .pwm1
  | .fr => .pwm1
  | .bl => .pwm2
  | .br => .pwm17

def wheelMotor (w : WheelId) (minDuty maxDuty : UInt16) : ZephyrMotor :=
  zephyrMotorSetMaxDuty
    (zephyrMotorSetMinDuty (zephyrMotorInit w.pwmDev true true false).1 minDuty) maxDuty

def wheelAccelmotor {F : Type} [FloatArith F] (w : WheelId) (encoder : ZephyrEncoder)
    (uptime : Int64) : ZephyrAccelmotor F :=
  let motor := wheelMotor w minDuty (UInt16.ofNat maxSpeed)
  let accel := zephyrAccelmotorInit motor encoder uptime
  let accel := zephyrAccelmotorSetDt accel 20
  let accel := zephyrAccelmotorSetRunMode accel .pidSpeed
  accel.tuned

end Mecanum.Robot
