import Mathlib.Order.Basic
import Mecanum.Motor.Driver

/-! # Opposite motors

Two motors with the same settings, not reversed, that turn opposite ways. Opposite duties keep them so and
set the same pulse widths.
-/

namespace Mecanum.Motor
open CInt
set_option autoImplicit false

def MotorMode.opposite : MotorMode → MotorMode
  | .stop => .stop
  | .forward => .backward
  | .backward => .forward
  | .brake => .brake

/-- Two motors with the same settings, one turning the other way. -/
structure ZephyrMotor.Opposite (motor other : ZephyrMotor) : Prop where
  reversed : motor.reversed = false
  reversed' : other.reversed = false
  minDuty : other.minDuty = motor.minDuty
  maxDuty : other.maxDuty = motor.maxDuty
  deadtimeUs : other.deadtimeUs = motor.deadtimeUs
  lastMode : other.lastMode = motor.lastMode.opposite
  state : other.state.toInt = -motor.state.toInt

/-- The pulse width that an access requests. -/
def Output.pulse : Output → Option UInt32
  | .pwmSet _ pulse _ => some pulse
  | _ => none

section Opposite
variable {motor other : ZephyrMotor} {d e : Int16}

theorem opposite_inj (m n : MotorMode) : m.opposite = n.opposite ↔ m = n := by
  cases m <;> cases n <;> decide

theorem speedMode_opposite (h : e.toInt = -d.toInt) : speedMode e = (speedMode d).opposite := by
  rcases lt_trichotomy d.toInt 0 with hd | hd | hd
  · rw [speedMode_of_neg hd, speedMode_of_pos (by omega)]
    rfl
  · rw [speedMode_of_zero hd, speedMode_of_zero (by omega)]
    rfl
  · rw [speedMode_of_pos hd, speedMode_of_neg (by omega)]
    rfl

theorem speedArg_opposite (h : e.toInt = -d.toInt) : speedArg e = speedArg d := by
  have hpos : ∀ x : Int16, 0 < x ↔ 0 < x.toInt := fun x => int16_pos_iff
  have hneg : ∀ x : Int16, x < 0 ↔ x.toInt < 0 := fun x => int16_neg_iff
  unfold speedArg
  simp only [gt_iff_lt, hpos, hneg, h]
  rcases lt_trichotomy d.toInt 0 with hd | hd | hd
  · rw [if_pos (by omega), if_neg (by omega), if_pos hd, ← h, Int16.ofInt_toInt]
  · rw [if_neg (by omega), if_neg (by omega), if_neg (by omega), if_neg (by omega)]
  · rw [if_neg (by omega), if_pos (by omega), if_pos hd, neg_neg, Int16.ofInt_toInt]

theorem ZephyrMotor.Opposite.deadTime (h : motor.Opposite other) (mode : MotorMode) :
    (Motor.deadTime motor mode).1.Opposite (Motor.deadTime other mode.opposite).1 ∧
      (Motor.deadTime motor mode).2.filterMap Output.pulse = [] ∧
      (Motor.deadTime other mode.opposite).2.filterMap Output.pulse = [] := by
  have hcond : other.deadtimeUs > 0 ∧ mode.opposite ≠ other.lastMode ↔
      motor.deadtimeUs > 0 ∧ mode ≠ motor.lastMode := by
    rw [h.deadtimeUs, h.lastMode, Ne, Ne, opposite_inj]
  unfold Motor.deadTime
  by_cases hwait : motor.deadtimeUs > 0 ∧ mode ≠ motor.lastMode
  · rw [if_pos hwait, if_pos (hcond.mpr hwait)]
    exact ⟨{ h with lastMode := rfl }, rfl, rfl⟩
  · rw [if_neg hwait, if_neg (fun hother => hwait (hcond.mp hother))]
    exact ⟨h, rfl, rfl⟩

theorem ZephyrMotor.Opposite.pwmDuty (h : motor.Opposite other) (duty : Int16) :
    Motor.pwmDuty other duty = Motor.pwmDuty motor duty := by
  unfold Motor.pwmDuty absDuty clampDuty rescale rescaleProduct
  rw [h.minDuty, h.maxDuty]

theorem ZephyrMotor.Opposite.pulse_setPwm (h : motor.Opposite other) (p : UInt16)
    (inverted inverted' : Bool) :
    (setPwm other p inverted).filterMap Output.pulse =
      (setPwm motor p inverted').filterMap Output.pulse := by
  unfold setPwm
  rw [h.maxDuty]
  rfl

theorem ZephyrMotor.Opposite.drive (h : motor.Opposite other) (mode : MotorMode) (p : UInt16) :
    (Motor.drive motor (actualMode motor mode) p).1.Opposite
        (Motor.drive other (actualMode other mode.opposite) p).1 ∧
      (Motor.drive other (actualMode other mode.opposite) p).2.filterMap Output.pulse =
        (Motor.drive motor (actualMode motor mode) p).2.filterMap Output.pulse := by
  have hmode : actualMode motor mode = mode := by
    unfold actualMode
    rw [h.reversed]
    rfl
  have hmode' : actualMode other mode.opposite = mode.opposite := by
    unfold actualMode
    rw [h.reversed']
    rfl
  rw [hmode, hmode']
  refine ⟨?_, ?_⟩
  · cases mode <;> exact { h with state := rfl }
  · cases mode with
    | stop => exact h.pulse_setPwm 0 false false
    | forward => exact h.pulse_setPwm p true false
    | backward => exact h.pulse_setPwm p false true
    | brake =>
        show (setPwm other other.maxDuty false).filterMap Output.pulse = _
        rw [h.maxDuty]
        exact h.pulse_setPwm motor.maxDuty false false

/-- Opposite duties set opposite motors going with the same pulse. -/
theorem ZephyrMotor.Opposite.setSpeed (h : motor.Opposite other) (hd : e.toInt = -d.toInt) :
    (zephyrMotorSetSpeed motor d).1.Opposite (zephyrMotorSetSpeed other e).1 ∧
      (zephyrMotorSetSpeed other e).2.filterMap Output.pulse =
        (zephyrMotorSetSpeed motor d).2.filterMap Output.pulse := by
  rw [zephyrMotorSetSpeed_eq_run, zephyrMotorSetSpeed_eq_run, speedMode_opposite hd,
    speedArg_opposite hd]
  obtain ⟨hwaited, hpulse, hpulse'⟩ := h.deadTime (speedMode d)
  have hdriven := hwaited.drive (speedMode d) (Motor.pwmDuty (Motor.deadTime motor (speedMode d)).1
    (speedArg d))
  simp only [zephyrMotorRun, hwaited.pwmDuty, List.filterMap_append, hpulse, hpulse',
    List.nil_append]
  exact hdriven

end Opposite
end Mecanum.Motor
