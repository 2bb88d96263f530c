import Mecanum.Foundations.Trunc
import Mecanum.Motor.OutputStage
import Mecanum.Wheel.Rounding

/-! # The stop zone

In its stop zone a wheel at rest is given what is left of the duty: the residual error at the
proportional and one integral step, and the integral from before the step. The cutoff clears the
integral only after that.
-/

namespace Mecanum.Wheel
open Motor FloatArith RoundedArith Exact CInt
set_option autoImplicit false

namespace ZephyrAccelmotor
section Residual
variable {F : Type} [FloatArith F] (accel : ZephyrAccelmotor F) (pos : Int32) (uptime : Int64)

/-- A position loop whose profile, if it has one, has arrived. -/
def HoldsTarget : Prop :=
  accel.runMode = .pidPos ∨
    (accel.runMode = .accelPos ∧ accel.controlPos = ofInt accel.targetPos.toInt)

def RestsInZone : Prop :=
  accel.prevInput = pos ∧ |accel.targetPos.toInt - pos.toInt| ≤ accel.stopzone.toNat

/-- The tick commands no duty, the motor is off and the tick reports no motion. -/
structure StopsWheel : Prop where
  duty : (zephyrAccelmotorTick accel pos uptime).2.1.map Command.duty = [0]
  state : (zephyrAccelmotorTick accel pos uptime).1.motor.state = 0
  returned : (zephyrAccelmotorTick accel pos uptime).2.2 = false

/-- The position that the regulator holds: a profile far out is at its target as a `float`. -/
def heldPos : Int32 :=
  match accel.runMode with
  | .accelPos => toInt32 accel.controlPos
  | _ => accel.targetPos

/-- The duty that is left for a wheel at rest. -/
def residualDuty : F :=
  ofInt (accel.heldPos - pos).toInt * accel.kp +
    (accel.integral + ofInt (accel.heldPos - pos).toInt * accel.ki * accel.dtSec)

instance [DecidableEq F] : Decidable accel.HoldsTarget := inferInstanceAs (Decidable (_ ∨ _))

omit [FloatArith F] in
instance : Decidable (accel.RestsInZone pos) := inferInstanceAs (Decidable (_ ∧ _))

variable [RoundedArith F]

/-- The stop zone is a positive `int32_t` for the comparison, and the duty left truncates to 0; without
a limit of the duty, narrowing it to `int16_t` may also leave 0. -/
def LeavesNoDuty : Prop :=
  ¬ iabs32 (accel.targetPos - pos) > accel.stopzone.toInt32 ∧
    (|val (accel.residualDuty pos)| < 1 ∨
      (accel.maxSpeed = 0 ∧ (65536 : ℤ) ∣ (toInt32 (accel.residualDuty pos)).toInt))

instance : Decidable (accel.LeavesNoDuty pos) := inferInstanceAs (Decidable (_ ∧ _))

end Residual

theorem state_zephyrMotorSetSpeed_eq_zero_iff (motor : ZephyrMotor) (duty : Int16) :
    (zephyrMotorSetSpeed motor duty).1.state = 0 ↔ duty = 0 := by
  rw [← Int8.toInt_inj, state_setSpeed, ← Int16.toInt_inj, Int8.toInt_zero, Int16.toInt_zero]
  cases motor.reversed <;> simp

section Rest
variable {F : Type} [FloatArith F] {accel : ZephyrAccelmotor F} {pos : Int32} {uptime : Int64}

omit [FloatArith F] in
theorem moving_eq_false_iff (h : ¬ accel.runMode.code > 1) :
    moving accel = false ↔ accel.motor.state = 0 ∧
      ¬ iabs32 (accel.targetPos - accel.currentPos) > accel.stopzone.toInt32 := by
  unfold moving zephyrMotorGetState
  rw [if_neg h, Bool.or_eq_false_iff, decide_eq_false_iff_not, decide_eq_false_iff_not, not_not]

theorem HoldsTarget.code (h : accel.HoldsTarget) : ¬ accel.runMode.code > 1 := by
  obtain hmode | ⟨hmode, -⟩ := h <;> rw [hmode] <;> decide

variable [RoundedArith F]

theorem toInt16_limitDuty_eq_zero_iff (maxSpeed : UInt16) (duty : F) :
    toInt16 (limitDuty maxSpeed duty) = 0 ↔
      |val duty| < 1 ∨ (maxSpeed = 0 ∧ (65536 : ℤ) ∣ (toInt32 duty).toInt) := by
  rw [toInt16_eq, toInt32_eq, val_limitDuty]
  by_cases hmax : 0 < maxSpeed
  · have hne : maxSpeed ≠ 0 := by
      rintro rfl
      exact absurd hmax (by decide)
    have hone : (1 : ℚ) ≤ maxSpeed.toNat := by
      exact_mod_cast UInt16.lt_iff_toNat_lt.mp hmax
    have hle : (maxSpeed.toNat : ℚ) < 65536 := by
      exact_mod_cast maxSpeed.toNat_lt
    have hlimit := Limit.abs_limit_le (by linarith) (val duty) (m := (maxSpeed.toNat : ℚ))
    rw [if_pos hmax, toInt16_eq_zero_iff_of_lt (hlimit.trans_lt hle),
      Limit.abs_limit_lt_iff hone]
    simp [hne]
  · have hzero : maxSpeed = 0 := by
      rw [← UInt16.toNat_inj]
      rw [UInt16.lt_iff_toNat_lt] at hmax
      exact Nat.eq_zero_of_not_pos hmax
    rw [if_neg hmax, toInt16_eq_zero_iff]
    refine ⟨fun h => .inr ⟨hzero, h⟩, ?_⟩
    rintro (hlt | ⟨-, h⟩)
    · exact toInt16_eq_zero_iff.mp ((toInt16_eq_zero_iff_of_lt (by linarith)).mpr hlt)
    · exact h

theorem regulate_of_holdsTarget (h : accel.HoldsTarget) :
    regulate accel = pidControl accel accel.heldPos accel.currentPos true := by
  unfold heldPos
  obtain hmode | ⟨hmode, harrived⟩ := h
  · rw [regulate_pidPos hmode, hmode]
  · have hat : val accel.profileErr = 0 := by
      rw [ZephyrAccelmotor.profileErr, harrived, val_sub, sub_self, rnd_zero]
    rw [regulate_accelPos hmode, accelPosUpdate_of_arrived hat, hmode]

/-- The duty of a wheel that rests at `pos`. -/
theorem dutyF_of_rest (h : accel.prevInput = pos) :
    (pidUpdate accel accel.heldPos pos true).dutyF =
      limitDuty accel.maxSpeed (accel.residualDuty pos) := by
  rw [dutyF_pidUpdate]
  congr 1
  apply val_inj
  unfold pidSum residualDuty
  simp only [h, Int32.sub_self, Int32.toInt_zero, val_add, val_mul, val_div, val_ofInt, Int.cast_zero,
    rnd_zero, zero_mul, zero_div, add_zero, rnd_rnd]

/-- The tick of a wheel that holds its target and rests. -/
theorem tick_of_rest (hholds : accel.HoldsTarget) (hgate : gateOpen accel uptime)
    (hrest : accel.prevInput = pos) :
    ∃ duty : Int16, (duty = 0 ↔ |val (accel.residualDuty pos)| < 1 ∨
        (accel.maxSpeed = 0 ∧ (65536 : ℤ) ∣ (toInt32 (accel.residualDuty pos)).toInt)) ∧
      (zephyrAccelmotorTick accel pos uptime).2.1.map Command.duty = [duty] ∧
      ((zephyrAccelmotorTick accel pos uptime).1.motor.state = 0 ↔ duty = 0) ∧
      ((zephyrAccelmotorTick accel pos uptime).2.2 = false ↔
        duty = 0 ∧ ¬ iabs32 (accel.targetPos - pos) > accel.stopzone.toInt32) := by
  have hholds' : (sample { accel with currentPos := pos }).HoldsTarget := hholds
  have hrest' : (sample { accel with currentPos := pos }).prevInput = pos := hrest
  have hregulate : regulate (sample { accel with currentPos := pos }) =
      pidControl (sample { accel with currentPos := pos }) accel.heldPos pos true :=
    regulate_of_holdsTarget hholds'
  have hduty : (pidUpdate (sample { accel with currentPos := pos }) accel.heldPos pos true).dutyF =
      limitDuty accel.maxSpeed (accel.residualDuty pos) := dutyF_of_rest hrest'
  have hstate := state_zephyrMotorSetSpeed_eq_zero_iff accel.motor
    (toInt16 (limitDuty accel.maxSpeed (accel.residualDuty pos)))
  rw [tick_of_open hgate, hregulate]
  refine ⟨_, toInt16_limitDuty_eq_zero_iff accel.maxSpeed (accel.residualDuty pos), ?_, ?_, ?_⟩
  · unfold pidControl commandDuty
    rw [hduty]
    rfl
  · unfold pidControl commandDuty
    rw [hduty]
    exact hstate
  · rw [moving_eq_false_iff (by exact hholds.code)]
    refine and_congr_left' ?_
    unfold pidControl commandDuty
    rw [hduty]
    exact hstate

theorem returned_iff (hholds : accel.HoldsTarget) (hgate : gateOpen accel uptime)
    (hrest : accel.prevInput = pos) :
    (zephyrAccelmotorTick accel pos uptime).2.2 = false ↔ accel.LeavesNoDuty pos := by
  obtain ⟨duty, hzero, -, -, hreturned⟩ := tick_of_rest hholds hgate hrest
  rw [hreturned, hzero, and_comm]
  exact Iff.rfl

theorem stopsWheel_iff (hholds : accel.HoldsTarget) (hgate : gateOpen accel uptime)
    (hrest : accel.prevInput = pos) :
    accel.StopsWheel pos uptime ↔ accel.LeavesNoDuty pos := by
  rw [← returned_iff hholds hgate hrest]
  obtain ⟨duty, -, hduty, hstate, hreturned⟩ := tick_of_rest hholds hgate hrest
  refine ⟨fun h => h.returned, fun h => ?_⟩
  obtain ⟨rfl, -⟩ := hreturned.mp h
  exact ⟨hduty, hstate.mpr rfl, h⟩

end Rest

end ZephyrAccelmotor
end Mecanum.Wheel
