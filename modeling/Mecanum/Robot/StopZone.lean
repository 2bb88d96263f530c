import Mecanum.Robot.ModeMachine
import Mecanum.Wheel.StopZone

/-! # The end of a move

`motor_control_thread` leaves position mode at the tick at which all four wheels are left without a
duty in their stop zones.
-/

namespace Mecanum.Robot
open Mecanum.Wheel FloatArith RoundedArith
set_option autoImplicit false

section EndOfMove
variable {F : Type} [FloatArith F] (s : ControlState F) (count : WheelId → Int32) (uptime : WheelId → Int64)

/-- Position mode is over and the next stick command reaches every wheel. -/
structure ReturnsToSticks : Prop where
  mode : (motorThreadStep s count uptime).positionMode = false
  wheels : ∀ w, ((motorThreadStep s count uptime).accel w).runMode = .pidSpeed
  sticks : ∀ w, ((applySticks (motorThreadStep s count uptime)).accel w).targetSpeed =
    Int16.ofInt (stickMix s.ps2 w)

/-- The four wheels hold their targets and rest in their stop zones when their control steps are
due. -/
structure RestsAtTargets : Prop where
  positionMode : s.positionMode = true
  holds : ∀ w, (s.accel w).HoldsTarget
  rests : ∀ w, (s.accel w).RestsInZone (count w)
  due : ∀ w, gateOpen (s.accel w) (uptime w)

variable [RoundedArith F] {s count uptime}

theorem allStopped_iff (h : RestsAtTargets s count uptime) :
    AllStopped s count uptime ↔ ∀ w, (s.accel w).LeavesNoDuty (count w) := by
  refine forall_congr' fun w => ?_
  have hholds : ZephyrAccelmotor.HoldsTarget { s.accel w with
      encoder := { (s.accel w).encoder with counter := count w } } := h.holds w
  exact ZephyrAccelmotor.returned_iff hholds (h.due w) (h.rests w).1

theorem returnsToSticks_iff (h : RestsAtTargets s count uptime) :
    ReturnsToSticks s count uptime ↔ ∀ w, (s.accel w).LeavesNoDuty (count w) := by
  rw [← allStopped_iff h]
  constructor
  · intro hleaves
    by_contra hrest
    have hstays : ¬ EndsMove s count uptime := fun hends => hrest hends.2
    have hmode := hleaves.mode
    rw [motorThreadStep_eq, if_neg hstays] at hmode
    exact absurd (h.positionMode.symm.trans hmode) (by decide)
  · intro hstopped
    have hstep : motorThreadStep s count uptime = changeMode (tickWheels s count uptime) false := by
      rw [motorThreadStep_eq, if_pos ⟨h.positionMode, hstopped⟩]
    refine ⟨?_, fun w => ?_, fun w => ?_⟩ <;> rw [hstep] <;> rfl

end EndOfMove

/-- A control step stops a wheel at rest in its stop zone, and four such wheels end the move, exactly
when no duty is left. -/
theorem stop_zone_iff {F : Type} [FloatArith F] [RoundedArith F] (s : ControlState F)
    (count : WheelId → Int32) (uptime : WheelId → Int64) :
    (∀ w, (s.accel w).HoldsTarget → (s.accel w).RestsInZone (count w) →
      gateOpen (s.accel w) (uptime w) →
        ((s.accel w).StopsWheel (count w) (uptime w) ↔ (s.accel w).LeavesNoDuty (count w))) ∧
    (RestsAtTargets s count uptime →
      (ReturnsToSticks s count uptime ↔ ∀ w, (s.accel w).LeavesNoDuty (count w))) :=
  ⟨fun _ hholds hrest hdue => ZephyrAccelmotor.stopsWheel_iff hholds hdue hrest.1,
    returnsToSticks_iff⟩

/-- The shipped robot at the end of a 50-count move, with its profiles at the target and its wheels at
rest at `pos`. -/
def arrivedRobot (pos : Int32) : ControlState Single :=
  let s := changeMode shippedSingle true
  { s with
    pos := fun _ => 50
    accel := fun w =>
      { s.accel w with
        targetPos := 50, controlPos := ofInt 50
        currentPos := pos, lastPos := pos, prevInput := pos } }

theorem stop_zone_arrived :
    RestsAtTargets (arrivedRobot 50) (fun _ => 50) (fun _ => 20) ∧
      (((arrivedRobot 50).accel .fl).StopsWheel 50 20 ↔
        ((arrivedRobot 50).accel .fl).LeavesNoDuty 50) ∧
      (ReturnsToSticks (arrivedRobot 50) (fun _ => 50) (fun _ => 20) ↔
        ∀ w, ((arrivedRobot 50).accel w).LeavesNoDuty 50) := by
  have hrests : RestsAtTargets (arrivedRobot 50) (fun _ => 50) (fun _ => 20) :=
    ⟨rfl, by decide +kernel, by decide +kernel, by decide +kernel⟩
  obtain ⟨hwheel, hrobot⟩ := stop_zone_iff (arrivedRobot 50) (fun _ => 50) (fun _ => 20)
  exact ⟨hrests, hwheel .fl (hrests.holds .fl) (hrests.rests .fl) (hrests.due .fl), hrobot hrests⟩

/-- Five counts short, the wheels are given the duty 11 and the robot stays in position mode. -/
theorem short_of_target_keeps_duty :
    RestsAtTargets (arrivedRobot 45) (fun _ => 45) (fun _ => 20) ∧
      (∀ w, 0 ≤ ((arrivedRobot 45).accel w).kp.val ∧ 0 ≤ ((arrivedRobot 45).accel w).ki.val ∧
        0 ≤ ((arrivedRobot 45).accel w).kd.val) ∧
      (∀ w, ¬ ((arrivedRobot 45).accel w).StopsWheel 45 20) ∧
      ¬ ReturnsToSticks (arrivedRobot 45) (fun _ => 45) (fun _ => 20) := by
  have hrests : RestsAtTargets (arrivedRobot 45) (fun _ => 45) (fun _ => 20) :=
    ⟨rfl, by decide +kernel, by decide +kernel, by decide +kernel⟩
  have hduty : ∀ w, ¬ ((arrivedRobot 45).accel w).LeavesNoDuty 45 := by decide +kernel
  refine ⟨hrests, by decide +kernel, fun w hstops => ?_, fun hreturns => ?_⟩
  · exact hduty w ((ZephyrAccelmotor.stopsWheel_iff (hrests.holds w) (hrests.due w)
      (hrests.rests w).1).mp hstops)
  · exact hduty .fl ((returnsToSticks_iff hrests).mp hreturns .fl)

end Mecanum.Robot
