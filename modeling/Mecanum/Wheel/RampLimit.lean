import Mecanum.Foundations.Trace
import Mecanum.Robot.Wheels
import Mecanum.Wheel.Calls
import Mecanum.Wheel.Profile

/-! # The acceleration limit of the position profile

A step of the profile speeds up by `acceleration * dt_sec`. A braking step takes what the distance
left asks for, which the braking test, off by the factor `dt_sec`, does not keep below that.
-/

namespace Mecanum.Wheel
open FloatArith Exact Trace
set_option autoImplicit false

namespace ZephyrAccelmotor

/-- The one step that may stop at once. -/
def Snapping (accel : ZephyrAccelmotor ℚ) : Prop := ¬ accel.Settled ∧ accel.Snaps

instance (accel : ZephyrAccelmotor ℚ) : Decidable accel.Snapping :=
  inferInstanceAs (Decidable (_ ∧ _))

def Braking (accel : ZephyrAccelmotor ℚ) : Prop :=
  ¬ accel.Settled ∧ ¬ accel.Snaps ∧ accel.Brakes

/-- A control step of the profile that does not snap changes its speed within the limit. -/
def WithinAcceleration (accel : ZephyrAccelmotor ℚ) (c : AccelCall) (next : ZephyrAccelmotor ℚ) :
    Prop :=
  ∀ a ∈ accel.atControlStep c, a.runMode = .accelPos → ¬ a.Snapping →
    |next.controlSpeed - a.controlSpeed| ≤ a.acceleration * a.dtSec

/-- Every braking step has the stopping distance of its speed left, at the ramp's own deceleration, unless
the limit of the speed does not let it change by more. -/
def BrakesInTime (accel : ZephyrAccelmotor ℚ) (c : AccelCall) (_ : ZephyrAccelmotor ℚ) : Prop :=
  ∀ a ∈ accel.atControlStep c, a.runMode = .accelPos → a.Braking →
    a.controlSpeed ^ 2 ≤ 2 * |a.toGo| * (a.acceleration * a.dtSec) ∨
      (0 < a.maxSpeed ∧ |a.controlSpeed| + a.maxSpeedDt ≤ a.acceleration * a.dtSec)

/-- What every state of a move keeps. -/
structure Ramping (accel : ZephyrAccelmotor ℚ) : Prop where
  acceleration : 0 < accel.acceleration
  dtSec : 0 < accel.dtSec
  speed : 0 < accel.maxSpeed → |accel.controlSpeed| ≤ accel.maxSpeedDt

section Step
variable {accel : ZephyrAccelmotor ℚ}

theorem abs_limitSpeed_le (h : accel.Ramping) (hmax : 0 < accel.maxSpeed) (speed : ℚ) :
    |accel.limitSpeed speed| ≤ accel.maxSpeedDt := by
  unfold limitSpeed
  rw [if_pos hmax]
  exact Limit.abs_limit_le (maxSpeedDt_nonneg h.dtSec.le) speed

theorem abs_limitSpeed_sub_le (h : accel.Ramping) (change : ℚ) :
    |accel.limitSpeed (accel.controlSpeed + change) - accel.controlSpeed| ≤ |change| := by
  unfold limitSpeed
  split
  · next hmax =>
      have hle := Limit.abs_limit_sub_limit_le accel.maxSpeedDt (accel.controlSpeed + change)
        accel.controlSpeed
      rw [Limit.limit_of_abs_le (h.speed hmax), add_sub_cancel_left] at hle
      exact hle
  · rw [add_sub_cancel_left]

/-- A step that does not brake changes the speed by at most the ramp's own step. -/
theorem change_of_not_brakes (h : accel.Ramping) (hsettled : ¬ accel.Settled)
    (hbrakes : ¬ accel.Brakes) :
    |accel.nextSpeed - accel.controlSpeed| ≤ accel.acceleration * accel.dtSec := by
  have hpos : 0 < accel.acceleration * accel.dtSec := mul_pos h.acceleration h.dtSec
  have hchange : |accel.speedChange| = accel.acceleration * accel.dtSec := by
    unfold speedChange
    rw [if_neg hbrakes, abs_mul, abs_of_pos hpos]
    obtain hgo | hgo := lt_or_gt_of_ne (toGo_ne_zero hsettled)
    · rw [sign_of_neg hgo]
      norm_num
    · rw [sign_of_pos hgo]
      norm_num
  rw [← hchange]
  exact abs_limitSpeed_sub_le h _

theorem brakeStep_nonneg (accel : ZephyrAccelmotor ℚ) : 0 ≤ accel.brakeStep :=
  div_nonneg (mul_self_nonneg _) (mul_nonneg two_pos.le (abs_nonneg _))

theorem brakeStep_le_iff (hsettled : ¬ accel.Settled) (k : ℚ) :
    accel.brakeStep ≤ k ↔ accel.controlSpeed ^ 2 ≤ 2 * |accel.toGo| * k := by
  have hpos : 0 < 2 * |accel.toGo| := mul_pos two_pos (abs_pos.mpr (toGo_ne_zero hsettled))
  unfold brakeStep
  rw [div_le_iff₀ hpos, sq, mul_comm k]

/-- Braking towards zero, in absolute values. -/
theorem brakes_toward_zero (hdt : 0 ≤ accel.dtSec) (hspeed : accel.controlSpeed ≠ 0) (x : ℚ) :
    |accel.limitSpeed (accel.controlSpeed + -(sign accel.controlSpeed * x)) - accel.controlSpeed| =
      |(|accel.controlSpeed| - accel.limitSpeed (|accel.controlSpeed| - x))| := by
  obtain hneg | hpos := lt_or_gt_of_ne hspeed
  · have hflip : accel.controlSpeed + -(sign accel.controlSpeed * x) =
        -(|accel.controlSpeed| - x) := by
      rw [sign_of_neg hneg, abs_of_neg hneg]
      push_cast
      ring
    rw [hflip, limitSpeed_neg hdt, abs_of_neg hneg]
    congr 1
    ring
  · have hsame : accel.controlSpeed + -(sign accel.controlSpeed * x) =
        |accel.controlSpeed| - x := by
      rw [sign_of_pos hpos, abs_of_pos hpos]
      push_cast
      ring
    rw [hsame, abs_of_pos hpos, abs_sub_comm]

theorem change_of_brakes (h : accel.Ramping) (hbrakes : accel.Brakes) :
    |accel.nextSpeed - accel.controlSpeed| =
      if 0 < accel.maxSpeed then min accel.brakeStep (|accel.controlSpeed| + accel.maxSpeedDt)
      else accel.brakeStep := by
  have hstep := brakeStep_nonneg accel
  unfold nextSpeed speedChange
  rw [if_pos hbrakes, brakes_toward_zero h.dtSec.le hbrakes.pos.2]
  unfold limitSpeed
  split
  · next hmax =>
      have hnonneg : 0 ≤ |accel.controlSpeed| + accel.maxSpeedDt :=
        add_nonneg (abs_nonneg _) (maxSpeedDt_nonneg h.dtSec.le)
      rw [Limit.sub_limit_sub (h.speed hmax) hstep, abs_of_nonneg (le_min hstep hnonneg)]
  · rw [sub_sub_cancel, abs_of_nonneg hstep]

theorem change_of_brakes_le_iff (h : accel.Ramping) (hsettled : ¬ accel.Settled)
    (hbrakes : accel.Brakes) (k : ℚ) :
    |accel.nextSpeed - accel.controlSpeed| ≤ k ↔
      accel.controlSpeed ^ 2 ≤ 2 * |accel.toGo| * k ∨
        (0 < accel.maxSpeed ∧ |accel.controlSpeed| + accel.maxSpeedDt ≤ k) := by
  rw [change_of_brakes h hbrakes, ← brakeStep_le_iff hsettled]
  split
  · next hmax => rw [min_le_iff, and_iff_right hmax]
  · next hmax => simp [hmax]

/-- The braking test has no factor `dt_sec`: with control steps of at most a second it fires once the
stopping distance is gone. -/
theorem Brakes.lt_stopping_distance (hbrakes : accel.Brakes) (hdt : accel.dtSec ≤ 1) :
    2 * |accel.toGo| * (accel.acceleration * accel.dtSec) < accel.controlSpeed ^ 2 := by
  have hacceleration := hbrakes.pos.1
  have htest : |accel.toGo| * (2 * accel.acceleration) < accel.controlSpeed * accel.controlSpeed :=
    (lt_div_iff₀ (mul_pos two_pos hacceleration)).mp hbrakes
  have hnonneg : 0 ≤ |accel.toGo| * (2 * accel.acceleration) :=
    mul_nonneg (abs_nonneg _) (mul_nonneg two_pos.le hacceleration.le)
  calc 2 * |accel.toGo| * (accel.acceleration * accel.dtSec)
      = |accel.toGo| * (2 * accel.acceleration) * accel.dtSec := by ring
    _ ≤ |accel.toGo| * (2 * accel.acceleration) := mul_le_of_le_one_right hnonneg hdt
    _ < accel.controlSpeed ^ 2 := by rwa [sq]

/-- So without a limit on the speed the first braking step of a move is too hard. -/
theorem not_brakesInTime_of_braking (c : AccelCall) (next : ZephyrAccelmotor ℚ)
    {a : ZephyrAccelmotor ℚ} (ha : a ∈ accel.atControlStep c) (hmode : a.runMode = .accelPos)
    (hbraking : a.Braking) (hdt : a.dtSec ≤ 1) (hmax : a.maxSpeed = 0) :
    ¬ BrakesInTime accel c next := by
  intro hin
  obtain hdistance | ⟨hpos, -⟩ := hin a ha hmode hbraking
  · exact absurd hdistance (not_le.mpr (hbraking.2.2.lt_stopping_distance hdt))
  · rw [hmax] at hpos
    exact absurd hpos (by decide)

/-! ## Calls -/

variable {c : AccelCall} {a : ZephyrAccelmotor ℚ}

/-- Sampling leaves the profile alone. -/
theorem ramping_of_controlStep (h : accel.Ramping) (ha : accel.atControlStep c = some a) :
    a.Ramping := by
  obtain ⟨pos, uptime, -, -, rfl⟩ := atControlStep_cases ha
  exact ⟨h.acceleration, h.dtSec, h.speed⟩

theorem controlSpeed_of_moves (h : a.Ramping) (hmode : a.runMode = .accelPos)
    (hsettled : ¬ a.Settled) (hsnaps : ¬ a.Snaps) :
    (regulate a).1.controlSpeed = a.nextSpeed := by
  rw [regulate_accelPos hmode]
  exact congrArg Profile.controlSpeed (profileStep_of_moves h.dtSec.le hsettled hsnaps)

theorem controlSpeed_of_settled (hmode : a.runMode = .accelPos) (hsettled : a.Settled) :
    (regulate a).1.controlSpeed = a.controlSpeed := by
  rw [regulate_accelPos hmode]
  exact congrArg Profile.controlSpeed (profileStep_of_settled hsettled)

theorem controlSpeed_of_snaps (h : a.Ramping) (hmode : a.runMode = .accelPos)
    (hsettled : ¬ a.Settled) (hsnaps : a.Snaps) : (regulate a).1.controlSpeed = 0 := by
  rw [regulate_accelPos hmode]
  exact congrArg Profile.controlSpeed (profileStep_of_snaps h.dtSec.le hsettled hsnaps)

theorem withinAcceleration_iff (h : accel.Ramping) (c : AccelCall) :
    WithinAcceleration accel c (accel.step c) ↔ BrakesInTime accel c (accel.step c) := by
  unfold WithinAcceleration BrakesInTime
  refine forall₃_congr fun a ha hmode => ?_
  have hramp := ramping_of_controlStep h ha
  rw [step_of_controlStep ha]
  by_cases hsettled : a.Settled
  · have hsame := controlSpeed_of_settled hmode hsettled
    have hpos := mul_pos hramp.acceleration hramp.dtSec
    rw [hsame, sub_self, abs_zero]
    exact ⟨fun _ hbraking => absurd hsettled hbraking.1, fun _ _ => hpos.le⟩
  · by_cases hsnaps : a.Snaps
    · exact ⟨fun _ hbraking => absurd hsnaps hbraking.2.1,
        fun _ hsnapping => absurd ⟨hsettled, hsnaps⟩ hsnapping⟩
    · rw [controlSpeed_of_moves hramp hmode hsettled hsnaps]
      by_cases hbrakes : a.Brakes
      · have hiff := change_of_brakes_le_iff hramp hsettled hbrakes (a.acceleration * a.dtSec)
        exact ⟨fun hwithin _ => hiff.mp (hwithin fun hsnapping => hsnaps hsnapping.2),
          fun hbraking _ => hiff.mpr (hbraking ⟨hsettled, hsnaps, hbrakes⟩)⟩
      · exact ⟨fun _ hbraking => absurd hbraking.2.2 hbrakes,
          fun _ _ => change_of_not_brakes hramp hsettled hbrakes⟩

theorem regulate_ramping (h : a.Ramping) : (regulate a).1.Ramping := by
  have hsettings : (regulate a).1.acceleration = a.acceleration ∧ (regulate a).1.dtSec = a.dtSec ∧
      (regulate a).1.maxSpeed = a.maxSpeed := by
    rw [regulate_eq]
    exact ⟨rfl, rfl, rfl⟩
  obtain ⟨hacceleration, hdt, hmax⟩ := hsettings
  have hlimit : (regulate a).1.maxSpeedDt = a.maxSpeedDt := by
    unfold maxSpeedDt
    rw [hdt, hmax]
  refine ⟨hacceleration ▸ h.acceleration, hdt ▸ h.dtSec, ?_⟩
  rw [hmax, hlimit]
  intro hpos
  by_cases hmode : a.runMode = .accelPos
  · by_cases hsettled : a.Settled
    · rw [controlSpeed_of_settled hmode hsettled]
      exact h.speed hpos
    · by_cases hsnaps : a.Snaps
      · rw [controlSpeed_of_snaps h hmode hsettled hsnaps, abs_zero]
        exact maxSpeedDt_nonneg h.dtSec.le
      · rw [controlSpeed_of_moves h hmode hsettled hsnaps]
        exact abs_limitSpeed_le h hpos _
  · have hsame : (regulate a).1.controlSpeed = a.controlSpeed := by
      unfold regulate
      cases hm : a.runMode
      case accelPos => exact absurd hm hmode
      all_goals rfl
    rw [hsame]
    exact h.speed hpos

theorem setRunMode_ramping (h : accel.Ramping) (mode : AccelRunMode) :
    (zephyrAccelmotorSetRunMode accel mode).Ramping := by
  unfold zephyrAccelmotorSetRunMode
  split
  · refine ⟨h.acceleration, h.dtSec, fun _ => ?_⟩
    show |(0 : ℚ)| ≤ accel.maxSpeedDt
    rw [abs_zero]
    exact maxSpeedDt_nonneg h.dtSec.le
  · exact ⟨h.acceleration, h.dtSec, h.speed⟩

theorem step_ramping (h : accel.Ramping) (c : AccelCall) : (accel.step c).Ramping := by
  cases ha : accel.atControlStep c with
  | some a =>
      rw [step_of_controlStep ha]
      exact regulate_ramping (ramping_of_controlStep h ha)
  | none =>
      obtain ⟨pos, hstep⟩ | ⟨pos, hstep⟩ | ⟨speed, hstep⟩ | ⟨mode, rfl⟩ := step_of_none ha
      · rw [hstep]
        exact ⟨h.acceleration, h.dtSec, h.speed⟩
      · rw [hstep]
        exact ⟨h.acceleration, h.dtSec, h.speed⟩
      · rw [hstep]
        exact ⟨h.acceleration, h.dtSec, h.speed⟩
      · exact setRunMode_ramping h mode

end Step

/-- A controller that starts a move, whatever it did before. -/
def startMove (accel : ZephyrAccelmotor ℚ) (dtMs : UInt32) : ZephyrAccelmotor ℚ :=
  zephyrAccelmotorSetRunMode (zephyrAccelmotorSetDt accel dtMs) .accelPos

theorem startMove_ramping {accel : ZephyrAccelmotor ℚ} {dtMs : UInt32}
    (hacceleration : 0 < accel.acceleration) (hdt : 0 < dtMs) : (startMove accel dtMs).Ramping := by
  have hpos : (0 : ℚ) < dtMs.toNat / 1000 :=
    div_pos (Nat.cast_pos.mpr (UInt32.lt_iff_toNat_lt.mp hdt)) (by norm_num)
  refine ⟨hacceleration, hpos, fun _ => ?_⟩
  show |(0 : ℚ)| ≤ _
  rw [abs_zero]
  exact maxSpeedDt_nonneg hpos.le

/-- The profile of a move keeps to its acceleration exactly when it always brakes in time. -/
theorem acceleration_limit_iff (accel : ZephyrAccelmotor ℚ) (dtMs : UInt32)
    (hacceleration : 0 < accel.acceleration) (hdt : 0 < dtMs) (calls : List AccelCall) :
    Always step WithinAcceleration (startMove accel dtMs) calls ↔
      Always step BrakesInTime (startMove accel dtMs) calls :=
  Always.iff_of_invariant (I := Ramping) (fun _ c h => withinAcceleration_iff h c)
    (fun _ c h _ => step_ramping h c) calls (startMove_ramping hacceleration hdt)

/-! ## A move that brakes too hard -/

/-- A wheel with an acceleration of 5000 and the settings of `zephyr_accelmotor_init` otherwise. -/
def quickWheel : ZephyrAccelmotor ℚ :=
  zephyrAccelmotorSetAcceleration
    (zephyrAccelmotorInit (Robot.wheelMotor .fl 50 70) (zephyrEncoderInit true 0).1 0) 5000

def quickMove : List AccelCall :=
  [.setTargetPos 608, .tick 0 20, .tick 0 40, .tick 0 60, .tick 0 80]

theorem acceleration_limit_quickMove :
    Always step WithinAcceleration (startMove quickWheel 20) quickMove ↔
      Always step BrakesInTime (startMove quickWheel 20) quickMove :=
  acceleration_limit_iff quickWheel 20 (by decide +kernel) (by decide) quickMove

/-- The fourth step, 8 counts short of the target, changes the speed from 300 to -5325; the limit is
100. -/
theorem quickMove_exceeds : ¬ Always step WithinAcceleration (startMove quickWheel 20) quickMove := by
  intro h
  have hlast := h.2.2.2.2.1 _ rfl rfl (by decide +kernel)
  revert hlast
  decide +kernel

end ZephyrAccelmotor
end Mecanum.Wheel
