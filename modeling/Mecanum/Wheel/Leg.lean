import Mecanum.Wheel.Arrival
import Mecanum.Wheel.StopZone

/-! # One leg of a D-pad move

A press starts the profile 50 counts from its target and at rest. Short of the target no step brakes: the
speed grows by `0.14` counts a step for 25 steps, and the 26th snaps. A wheel found at its target by two
further control steps is off.
-/

namespace Mecanum.Wheel
open Motor FloatArith Exact Trace
set_option autoImplicit false

namespace ZephyrAccelmotor
variable {accel : ZephyrAccelmotor ℚ} {dir : ℚ} {k : ℕ}

/-- The distance left and the speed after `k` control steps of a leg. -/
def legToGo (k : ℕ) : ℚ := if k ≤ 25 then 50 - 0.07 * (k * (k + 1)) else 0

def legSpeed (k : ℕ) : ℚ := if k ≤ 25 then 0.14 * k else 0

structure OnLeg (dir : ℚ) (k : ℕ) (accel : ZephyrAccelmotor ℚ) : Prop
    extends Approaching dir accel where
  toGo_eq : dir * accel.toGo = legToGo k
  speed_eq : dir * accel.controlSpeed = legSpeed k

theorem dir_mul_eq_zero_iff (h : dir * dir = 1) {x : ℚ} : dir * x = 0 ↔ x = 0 := by
  have hdir : dir ≠ 0 := by
    rintro rfl
    norm_num at h
  simp [hdir]

/-- Before the last three counts a step accelerates. -/
theorem OnLeg.accelerates (h : OnLeg dir k accel) (hk : k < 25) :
    dir * (Wheel.accelPosUpdate accel).toGo = legToGo (k + 1) ∧
      dir * (Wheel.accelPosUpdate accel).controlSpeed = legSpeed (k + 1) := by
  have hgo := h.toGo_eq
  have hspeed := h.speed_eq
  have hcast : (k : ℚ) ≤ 24 := by exact_mod_cast Nat.le_of_lt_succ hk
  have hnonneg : (0 : ℚ) ≤ k := Nat.cast_nonneg k
  unfold legToGo at hgo ⊢
  unfold legSpeed at hspeed ⊢
  rw [if_pos hk.le] at hgo hspeed
  rw [if_pos (by omega), if_pos (by omega)]
  have hfar : 5 ≤ dir * accel.toGo := by
    rw [hgo]
    nlinarith
  have hslow : (dir * accel.controlSpeed) ^ 2 ≤ 14 * (dir * accel.toGo) := by
    rw [hgo, hspeed]
    nlinarith
  have hsettled := h.not_settled_of_far hfar
  have hsnaps : ¬ accel.Snaps := by
    have hzone : ((5 : UInt32).toNat : ℚ) = 5 := rfl
    rintro ⟨hnear, -⟩
    rw [h.stopzone, hzone, abs_dir_mul h.dir_sq, abs_of_nonneg (by linarith)] at hnear
    linarith
  have hbrakes : ¬ accel.Brakes := fun hb =>
    absurd ((brakes_iff h.toHasShipped h.dir_sq (by linarith)).mp hb) (not_lt.mpr hslow)
  obtain ⟨htoGo, hnext, -⟩ := toGo_accelPosUpdate_of_moves h.toHasShipped hsettled hsnaps
  have hlimit : dir * accel.nextSpeed = 0.14 * (k + 1) := by
    rw [dir_mul_nextSpeed h.toApproaching,
      speedChange_of_not_brakes h.toApproaching hbrakes (by linarith), hspeed,
      Limit.limit_of_abs_le (abs_le.mpr ⟨by linarith, by linarith⟩)]
    ring
  rw [htoGo, hnext, mul_sub, hgo, hlimit]
  push_cast
  exact ⟨by ring, rfl⟩

/-- The last step snaps, and the profile stays where it is. -/
theorem OnLeg.arrives (h : OnLeg dir k accel) (hk : 25 ≤ k) :
    (Wheel.accelPosUpdate accel).toGo = 0 ∧ (Wheel.accelPosUpdate accel).controlSpeed = 0 := by
  have hgo := h.toGo_eq
  have hspeed := h.speed_eq
  unfold legToGo at hgo
  unfold legSpeed at hspeed
  obtain rfl | hlt := hk.eq_or_lt
  · rw [if_pos le_rfl] at hgo hspeed
    have hsettled : ¬ accel.Settled := by
      unfold Settled
      rw [abs_dir_mul h.dir_sq, hgo]
      norm_num
    have hlast : accel.lastSpeed = accel.controlSpeed := by
      refine h.last.resolve_right fun hrest => ?_
      rw [hrest.1, mul_zero] at hspeed
      norm_num at hspeed
    have hsnaps : accel.Snaps := by
      have hzone : ((5 : UInt32).toNat : ℚ) = 5 := rfl
      unfold Snaps
      rw [h.stopzone, hzone, hlast, sub_self, abs_dir_mul h.dir_sq, hgo]
      norm_num
    have hstep := profileStep_of_snaps h.dtSec_nonneg hsettled hsnaps
    unfold Wheel.accelPosUpdate toGo
    rw [hstep]
    exact ⟨sub_self _, rfl⟩
  · have hk : ¬ k ≤ 25 := not_le.mpr hlt
    rw [if_neg hk, dir_mul_eq_zero_iff h.dir_sq] at hgo hspeed
    have hsettled : accel.Settled := by
      unfold Settled
      rw [hgo, abs_zero]
      norm_num
    rw [accelPosUpdate_of_settled hsettled]
    exact ⟨hgo, hspeed⟩

theorem OnLeg.accelPosUpdate (h : OnLeg dir k accel) :
    OnLeg dir (k + 1) (Wheel.accelPosUpdate accel) := by
  have happroach := h.toApproaching.accelPosUpdate
  by_cases hk : k < 25
  · obtain ⟨hgo, hspeed⟩ := h.accelerates hk
    exact ⟨happroach, hgo, hspeed⟩
  · have hlate : ¬ k + 1 ≤ 25 := by omega
    obtain ⟨hgo, hspeed⟩ := h.arrives (not_lt.mp hk)
    refine ⟨happroach, ?_, ?_⟩
    · rw [hgo, mul_zero]
      exact (if_neg hlate).symm
    · rw [hspeed, mul_zero]
      exact (if_neg hlate).symm

theorem OnLeg.arrived (h : OnLeg dir k accel) (hk : 26 ≤ k) :
    accel.controlPos = accel.targetPos.toInt := by
  have hlate : ¬ k ≤ 25 := by omega
  have hgo := h.toGo_eq
  unfold legToGo at hgo
  rw [if_neg hlate, dir_mul_eq_zero_iff h.dir_sq] at hgo
  exact (sub_eq_zero.mp hgo).symm

theorem SameProfile.onLeg {a b : ZephyrAccelmotor ℚ} (h : SameProfile a b) (hb : OnLeg dir k b) :
    OnLeg dir k a := by
  refine ⟨h.approaching hb.toApproaching, ?_, ?_⟩
  · rw [h.toGo]
    exact hb.toGo_eq
  · rw [h.controlSpeed]
    exact hb.speed_eq

/-- A controller that has just been sent 50 counts off. -/
theorem onLeg_start (h : accel.HasShipped) (hdir : dir * dir = 1)
    (hpos : dir * accel.toGo = 50) (hspeed : accel.controlSpeed = 0) : OnLeg dir 0 accel := by
  refine ⟨⟨h, hdir, ?_, ?_, ?_, .inr ⟨hspeed, ?_⟩⟩, ?_, ?_⟩
  · rw [hpos]
    norm_num
  · rw [hspeed, mul_zero]
  · rw [hspeed, mul_zero]
    norm_num
  · rw [hpos]
    norm_num
  · rw [hpos]
    norm_num [legToGo]
  · rw [hspeed]
    norm_num [legSpeed]

end ZephyrAccelmotor

/-! ## At the target -/

namespace ZephyrAccelmotor
section AtTarget
variable {F : Type} [FloatArith F] {accel : ZephyrAccelmotor F} {uptime : Int64}

/-- The profile is at the target and stays there. -/
structure ProfileRests (accel : ZephyrAccelmotor F) : Prop where
  rests : profileStep accel = ⟨accel.controlPos, accel.controlSpeed, accel.lastSpeed⟩
  arrived : FloatArith.toInt32 accel.controlPos = accel.targetPos

/-- What a control step leaves of a wheel it finds at its target, with the profile there too. -/
structure AtTarget (accel : ZephyrAccelmotor F) : Prop where
  current : accel.currentPos = accel.targetPos
  prev : accel.prevInput = accel.targetPos
  integral : accel.integral = lit 0

/-- The duty for no error, no change and no integral. -/
def restDuty (accel : ZephyrAccelmotor F) : F :=
  limitDuty accel.maxSpeed (ofInt 0 * accel.kp + ofInt 0 * accel.kd / accel.dtSec +
    (lit 0 + ofInt 0 * accel.ki * accel.dtSec))

theorem regulate_of_rests (hmode : accel.runMode = .accelPos) (h : ProfileRests accel) (pos : Int32) :
    regulate (sample { accel with currentPos := pos }) =
      pidControl (sample { accel with currentPos := pos }) accel.targetPos pos true := by
  have hsame := (sameProfile_sample accel pos).profileStep
  have hstep : accelPosUpdate (sample { accel with currentPos := pos }) =
      sample { accel with currentPos := pos } := by
    unfold accelPosUpdate
    rw [hsame, h.rests]
    rfl
  have hmode' : (sample { accel with currentPos := pos }).runMode = .accelPos := hmode
  rw [regulate_accelPos hmode', hstep]
  exact congrArg (fun target => pidControl _ target pos true) h.arrived

omit [FloatArith F] in
/-- The stop zone contains the target. -/
theorem zone_zero (hzone : accel.stopzone = 5) :
    ¬ iabs32 (accel.targetPos - accel.targetPos) > accel.stopzone.toInt32 := by
  rw [Int32.sub_self, hzone]
  decide

theorem toInt16_restDuty [RoundedArith F] (accel : ZephyrAccelmotor F) :
    FloatArith.toInt16 accel.restDuty = 0 := by
  have hzero : RoundedArith.val (ofInt 0 * accel.kp + ofInt 0 * accel.kd / accel.dtSec +
      (lit 0 + ofInt 0 * accel.ki * accel.dtSec)) = 0 := by
    simp only [RoundedArith.val_add, RoundedArith.val_mul, RoundedArith.val_div,
      RoundedArith.val_ofInt, RoundedArith.val_lit, Int.cast_zero, RoundedArith.rnd_zero, zero_mul,
      zero_div, add_zero]
  refine (toInt16_limitDuty_eq_zero_iff _ _).mpr (.inl ?_)
  rw [hzero]
  norm_num

section Rests
variable (hmode : accel.runMode = .accelPos) (hrests : ProfileRests accel)
  (hzone : accel.stopzone = 5) (hgate : gateOpen accel uptime)
include hmode hrests hzone hgate

theorem tick_atTarget : AtTarget (zephyrAccelmotorTick accel accel.targetPos uptime).1 := by
  rw [tick_of_open hgate, regulate_of_rests hmode hrests]
  exact ⟨rfl, rfl, if_pos (zone_zero hzone)⟩

/-- The second such step leaves the motor off. -/
theorem off_of_atTarget [RoundedArith F] (h : AtTarget accel) :
    (zephyrAccelmotorTick accel accel.targetPos uptime).1.motor.state = 0 := by
  have hupdate : (pidUpdate (sample { accel with currentPos := accel.targetPos }) accel.targetPos
      accel.targetPos true).dutyF = accel.restDuty := by
    have hzero : accel.targetPos - accel.targetPos = 0 := Int32.sub_self _
    have hprev : (sample { accel with currentPos := accel.targetPos }).prevInput =
        accel.targetPos := h.prev
    have hintegral : (sample { accel with currentPos := accel.targetPos }).integral = lit 0 :=
      h.integral
    have hclears := zone_zero hzone
    rw [hzero] at hclears
    unfold pidUpdate restDuty
    simp only [hprev, hintegral, hzero, if_true]
    exact congrArg (limitDuty accel.maxSpeed) (if_pos hclears)
  rw [tick_of_open hgate, regulate_of_rests hmode hrests]
  refine (state_zephyrMotorSetSpeed_eq_zero_iff _ _).mpr ?_
  exact (congrArg FloatArith.toInt16 hupdate).trans (toInt16_restDuty accel)

end Rests

omit [FloatArith F] in
/-- A wheel at its target that is off does not move. -/
theorem not_moving_of_off (hmode : accel.runMode = .accelPos) (hzone : accel.stopzone = 5)
    (hcurrent : accel.currentPos = accel.targetPos) (hoff : accel.motor.state = 0) :
    moving accel = false := by
  unfold moving zephyrMotorGetState
  rw [hmode, hoff, hcurrent, hzone, Int32.sub_self]
  decide

end AtTarget

section Exact
variable {accel : ZephyrAccelmotor ℚ}

theorem OnLeg.profileRests {dir : ℚ} {k : ℕ} (h : OnLeg dir k accel) (hk : 26 ≤ k) :
    ProfileRests accel := by
  have harrived := h.arrived hk
  have hsettled : accel.Settled := by
    unfold Settled toGo
    rw [harrived, sub_self, abs_zero]
    norm_num
  refine ⟨profileStep_of_settled hsettled, ?_⟩
  rw [harrived]
  exact toInt32_toInt accel.targetPos

end Exact
end ZephyrAccelmotor
end Mecanum.Wheel
