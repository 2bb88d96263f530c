import Mathlib.Algebra.Order.Archimedean.Basic
import Mecanum.Foundations.Trace
import Mecanum.Wheel.Calls
import Mecanum.Wheel.Profile

/-! # The position profile arrives

With the shipped settings the profile of `ACCEL_POS` reaches its target from any position. In the
direction of travel `dir` the distance and the speed keep to `Approaching`; each control step that starts a
stop zone or more away lowers `distance + speed / 100` by `0.07`, and the first that starts
nearer snaps.
-/

namespace Mecanum.Wheel
open FloatArith Exact Trace
set_option autoImplicit false

namespace ZephyrAccelmotor

/-- The settings that the profile depends on. -/
structure HasShipped (accel : ZephyrAccelmotor ℚ) : Prop where
  acceleration : accel.acceleration = 7
  dtSec : accel.dtSec = 0.02
  maxSpeed : accel.maxSpeed = 500
  stopzone : accel.stopzone = 5

variable {accel : ZephyrAccelmotor ℚ} {dir : ℚ}

theorem HasShipped.maxSpeedDt (h : accel.HasShipped) : accel.maxSpeedDt = 10 := by
  have h500 : ((500 : UInt16).toNat : ℚ) = 500 := rfl
  unfold ZephyrAccelmotor.maxSpeedDt
  rw [h.maxSpeed, h.dtSec, h500]
  norm_num

theorem HasShipped.dtSec_nonneg (h : accel.HasShipped) : 0 ≤ accel.dtSec := by
  rw [h.dtSec]
  norm_num

theorem HasShipped.limitSpeed (h : accel.HasShipped) (speed : ℚ) :
    accel.limitSpeed speed = Limit.limit 10 speed := by
  unfold ZephyrAccelmotor.limitSpeed
  rw [h.maxSpeedDt, h.maxSpeed]
  exact if_pos (by decide)

/-- The profile on its way in the direction `dir`, as it is in the middle of a move. -/
structure Approaching (dir : ℚ) (accel : ZephyrAccelmotor ℚ) : Prop extends accel.HasShipped where
  dir_sq : dir * dir = 1
  past : -5 < dir * accel.toGo
  speed_nonneg : 0 ≤ dir * accel.controlSpeed
  speed_le : dir * accel.controlSpeed ≤ 10
  last : accel.lastSpeed = accel.controlSpeed ∨ (accel.controlSpeed = 0 ∧ 0 ≤ dir * accel.toGo)

theorem abs_dir_mul (h : dir * dir = 1) (x : ℚ) : |x| = |dir * x| := by
  obtain rfl | rfl := mul_self_eq_one_iff.mp h
  · rw [one_mul]
  · rw [neg_one_mul, abs_neg]

theorem sq_dir_mul (h : dir * dir = 1) (x : ℚ) : (dir * x) ^ 2 = x * x := by
  rw [mul_pow, sq, sq, h, one_mul]

theorem sign_of_dir (h : dir * dir = 1) {x : ℚ} (hx : 0 < dir * x) : (sign x : ℚ) = dir := by
  obtain rfl | rfl := mul_self_eq_one_iff.mp h
  · rw [sign_of_pos (by linarith)]
    norm_num
  · rw [sign_of_neg (by linarith)]
    norm_num

theorem limit_dir_mul (h : dir * dir = 1) {m : ℚ} (hm : 0 ≤ m) (x : ℚ) :
    dir * Limit.limit m x = Limit.limit m (dir * x) := by
  obtain rfl | rfl := mul_self_eq_one_iff.mp h
  · rw [one_mul, one_mul]
  · rw [neg_one_mul, neg_one_mul, Limit.limit_neg hm]

/-! ## One step -/

/-- What a step of the profile does short of the target, in the direction of travel. -/
inductive Advance (dir : ℚ) (accel next : ZephyrAccelmotor ℚ) : Prop
  | snap (toGo : next.toGo = 0) (speed : next.controlSpeed = 0)
  | accelerate (far : 5 ≤ dir * accel.toGo ∨ (accel.controlSpeed = 0 ∧ 0 < dir * accel.toGo))
      (slow : (dir * accel.controlSpeed) ^ 2 ≤ 14 * (dir * accel.toGo))
      (toGo : dir * next.toGo = dir * accel.toGo - dir * next.controlSpeed)
      (speed : dir * next.controlSpeed = min 10 (dir * accel.controlSpeed + 0.14))
  | brake (far : 5 ≤ dir * accel.toGo)
      (fast : 14 * (dir * accel.toGo) < (dir * accel.controlSpeed) ^ 2)
      (toGo : dir * next.toGo = dir * accel.toGo - dir * next.controlSpeed)
      (speed : dir * next.controlSpeed = dir * accel.controlSpeed -
        (dir * accel.controlSpeed) ^ 2 / (2 * (dir * accel.toGo)))

theorem brakes_iff (h : accel.HasShipped) (hdir : dir * dir = 1) (hgo : 0 ≤ dir * accel.toGo) :
    accel.Brakes ↔ 14 * (dir * accel.toGo) < (dir * accel.controlSpeed) ^ 2 := by
  unfold Brakes
  rw [abs_dir_mul hdir accel.toGo, abs_of_nonneg hgo, h.acceleration, sq_dir_mul hdir,
    lt_div_iff₀ (by norm_num)]
  constructor <;> intro hlt <;> linarith

theorem toGo_accelPosUpdate_of_moves (h : accel.HasShipped) (hsettled : ¬ accel.Settled)
    (hsnaps : ¬ accel.Snaps) :
    (accelPosUpdate accel).toGo = accel.toGo - accel.nextSpeed ∧
      (accelPosUpdate accel).controlSpeed = accel.nextSpeed ∧
      (accelPosUpdate accel).lastSpeed = accel.nextSpeed := by
  have hstep := profileStep_of_moves h.dtSec_nonneg hsettled hsnaps
  unfold accelPosUpdate toGo
  rw [hstep]
  exact ⟨by ring, rfl, rfl⟩

theorem not_snaps_cases (h : Approaching dir accel) (hsettled : ¬ accel.Settled)
    (hsnaps : ¬ accel.Snaps) :
    5 ≤ dir * accel.toGo ∨ (accel.controlSpeed = 0 ∧ 0 < dir * accel.toGo) := by
  have hpast := h.past
  have hzone : ((5 : UInt32).toNat : ℚ) = 5 := rfl
  have hne : 0.1 < |dir * accel.toGo| := by
    rw [← abs_dir_mul h.dir_sq]
    exact not_le.mp hsettled
  unfold Snaps at hsnaps
  rw [h.stopzone, hzone, abs_dir_mul h.dir_sq accel.toGo] at hsnaps
  by_cases hfar : 5 ≤ dir * accel.toGo
  · exact .inl hfar
  · have hnear : |dir * accel.toGo| < 5 := abs_lt.mpr ⟨hpast, not_le.mp hfar⟩
    obtain hlast | ⟨hzero, hnonneg⟩ := h.last
    · refine absurd ⟨hnear, ?_⟩ hsnaps
      rw [hlast, sub_self, abs_zero]
      norm_num
    · refine .inr ⟨hzero, ?_⟩
      rw [abs_of_nonneg hnonneg] at hne
      linarith

/-- A braking step never turns the speed around. -/
theorem brake_le_speed {d v : ℚ} (hd : 5 ≤ d) (hv : 0 ≤ v) (hle : v ≤ 10) :
    v ^ 2 / (2 * d) ≤ v := by
  rw [div_le_iff₀ (by linarith), sq]
  exact mul_le_mul_of_nonneg_left (by linarith) hv

theorem seven_lt_brake {d v : ℚ} (hd : 5 ≤ d) (hfast : 14 * d < v ^ 2) : 7 < v ^ 2 / (2 * d) := by
  rw [lt_div_iff₀ (by linarith)]
  linarith

theorem dir_mul_nextSpeed (h : Approaching dir accel) : dir * accel.nextSpeed =
    Limit.limit 10 (dir * accel.controlSpeed + dir * accel.speedChange) := by
  unfold nextSpeed
  rw [h.limitSpeed, limit_dir_mul h.dir_sq (by norm_num), mul_add]

theorem speedChange_of_brakes (h : Approaching dir accel) (hb : accel.Brakes)
    (hpos : 0 < dir * accel.toGo) (hv : 0 < dir * accel.controlSpeed) : dir * accel.speedChange =
      -((dir * accel.controlSpeed) ^ 2 / (2 * (dir * accel.toGo))) := by
  unfold speedChange brakeStep
  rw [if_pos hb, sign_of_dir h.dir_sq hv, abs_dir_mul h.dir_sq accel.toGo, abs_of_pos hpos, mul_neg,
    ← mul_assoc, h.dir_sq, one_mul, sq_dir_mul h.dir_sq]

theorem speedChange_of_not_brakes (h : Approaching dir accel) (hb : ¬ accel.Brakes)
    (hpos : 0 < dir * accel.toGo) : dir * accel.speedChange = 0.14 := by
  unfold speedChange
  rw [if_neg hb, sign_of_dir h.dir_sq hpos, h.acceleration, h.dtSec, ← mul_assoc, h.dir_sq]
  norm_num

theorem advance (h : Approaching dir accel) (hsettled : ¬ accel.Settled) :
    Advance dir accel (accelPosUpdate accel) := by
  by_cases hsnaps : accel.Snaps
  · have hstep := profileStep_of_snaps h.dtSec_nonneg hsettled hsnaps
    refine .snap ?_ ?_
    · unfold accelPosUpdate toGo
      rw [hstep]
      exact sub_self _
    · unfold accelPosUpdate
      rw [hstep]
  · have hfar := not_snaps_cases h hsettled hsnaps
    obtain ⟨htoGo, hspeed, -⟩ := toGo_accelPosUpdate_of_moves h.toHasShipped hsettled hsnaps
    have hpos : 0 < dir * accel.toGo := by
      obtain hfar | hfar := hfar
      · linarith
      · exact hfar.2
    have hgo : dir * (accelPosUpdate accel).toGo =
        dir * accel.toGo - dir * (accelPosUpdate accel).controlSpeed := by
      rw [htoGo, hspeed]
      ring
    have hbrakes := brakes_iff h.toHasShipped h.dir_sq hpos.le
    have hnonneg := h.speed_nonneg
    have hle := h.speed_le
    by_cases hb : accel.Brakes
    · have hfast := hbrakes.mp hb
      have hd : 5 ≤ dir * accel.toGo := hfar.resolve_right fun hrest => hb.pos.2 hrest.1
      have hv : 0 < dir * accel.controlSpeed := by
        refine lt_of_le_of_ne hnonneg fun hzero => ?_
        rw [← hzero] at hfast
        linarith
      have hstep := brake_le_speed hd hv.le hle
      have hstep0 : 0 ≤ (dir * accel.controlSpeed) ^ 2 / (2 * (dir * accel.toGo)) := by positivity
      refine .brake hd hfast hgo ?_
      rw [hspeed, dir_mul_nextSpeed h, speedChange_of_brakes h hb hpos hv, ← sub_eq_add_neg]
      exact Limit.limit_of_abs_le (abs_le.mpr ⟨by linarith, by linarith⟩)
    · refine .accelerate hfar (not_lt.mp (fun hlt => hb (hbrakes.mpr hlt))) hgo ?_
      rw [hspeed, dir_mul_nextSpeed h, speedChange_of_not_brakes h hb hpos]
      exact Limit.limit_of_nonneg (by norm_num) (by linarith)

theorem HasShipped.accelPosUpdate (h : accel.HasShipped) :
    (accelPosUpdate accel).HasShipped :=
  ⟨h.acceleration, h.dtSec, h.maxSpeed, h.stopzone⟩

theorem lastSpeed_accelPosUpdate (h : accel.HasShipped) (hsettled : ¬ accel.Settled) :
    (accelPosUpdate accel).lastSpeed = (accelPosUpdate accel).controlSpeed := by
  by_cases hsnaps : accel.Snaps
  · have hstep := profileStep_of_snaps h.dtSec_nonneg hsettled hsnaps
    unfold accelPosUpdate
    rw [hstep]
  · obtain ⟨-, hspeed, hlast⟩ := toGo_accelPosUpdate_of_moves h hsettled hsnaps
    rw [hspeed, hlast]

/-- Distance and speed in the direction of travel, weighed so that braking counts as progress. -/
def remaining (dir : ℚ) (accel : ZephyrAccelmotor ℚ) : ℚ :=
  5 + dir * accel.toGo + dir * accel.controlSpeed / 100

theorem Approaching.remaining_nonneg (h : Approaching dir accel) : 0 ≤ remaining dir accel := by
  have hpast := h.past
  have hspeed := h.speed_nonneg
  unfold remaining
  linarith

theorem Approaching.accelPosUpdate (h : Approaching dir accel) :
    Approaching dir (accelPosUpdate accel) := by
  by_cases hsettled : accel.Settled
  · rw [accelPosUpdate_of_settled hsettled]
    exact h
  · have hlast := lastSpeed_accelPosUpdate h.toHasShipped hsettled
    have hnonneg := h.speed_nonneg
    have hle := h.speed_le
    obtain ⟨hgo, hspeed⟩ | ⟨hfar, hslow, hgo, hspeed⟩ | ⟨hfar, hfast, hgo, hspeed⟩ :=
      advance h hsettled
    · refine ⟨h.toHasShipped.accelPosUpdate, h.dir_sq, ?_, ?_, ?_, .inl hlast⟩
      · rw [hgo]
        norm_num
      · rw [hspeed, mul_zero]
      · rw [hspeed, mul_zero]
        norm_num
    · have hmin := min_le_right 10 (dir * accel.controlSpeed + 0.14)
      refine ⟨h.toHasShipped.accelPosUpdate, h.dir_sq, ?_, ?_, ?_, .inl hlast⟩
      · -- the distance left after the longest step is above `v ^ 2 / 14 - v - 0.14`
        rw [hgo, hspeed]
        nlinarith [sq_nonneg (dir * accel.controlSpeed - 7)]
      · rw [hspeed]
        exact le_min (by norm_num) (by linarith)
      · rw [hspeed]
        exact min_le_left _ _
    · have hbrake := brake_le_speed hfar hnonneg hle
      have hstep := seven_lt_brake hfar hfast
      refine ⟨h.toHasShipped.accelPosUpdate, h.dir_sq, ?_, ?_, ?_, .inl hlast⟩
      · rw [hgo, hspeed]
        linarith
      · rw [hspeed]
        linarith
      · rw [hspeed]
        linarith

theorem Approaching.not_settled_of_far (h : Approaching dir accel) (hfar : 5 ≤ dir * accel.toGo) :
    ¬ accel.Settled := by
  unfold Settled
  rw [abs_dir_mul h.dir_sq, abs_of_nonneg (by linarith)]
  linarith

theorem Approaching.remaining_accelPosUpdate (h : Approaching dir accel)
    (hfar : 5 ≤ dir * accel.toGo) :
    remaining dir (Wheel.accelPosUpdate accel) + 0.07 ≤ remaining dir accel := by
  have hsettled := h.not_settled_of_far hfar
  have hnonneg := h.speed_nonneg
  have hle := h.speed_le
  unfold remaining
  obtain ⟨hgo, hspeed⟩ | ⟨-, -, hgo, hspeed⟩ | ⟨-, hfast, hgo, hspeed⟩ := advance h hsettled
  · rw [hgo, hspeed]
    linarith
  · have hmin : 0.14 ≤ min 10 (dir * accel.controlSpeed + 0.14) :=
      le_min (by norm_num) (by linarith)
    rw [hgo, hspeed]
    linarith
  · have hbrake := brake_le_speed hfar hnonneg hle
    have hstep := seven_lt_brake hfar hfast
    rw [hgo, hspeed]
    linarith

theorem Approaching.settled_of_near (h : Approaching dir accel) (hnear : dir * accel.toGo < 5)
    (hlast : accel.lastSpeed = accel.controlSpeed) : (Wheel.accelPosUpdate accel).Settled := by
  by_cases hsettled : accel.Settled
  · rw [accelPosUpdate_of_settled hsettled]
    exact hsettled
  · have hzone : ((5 : UInt32).toNat : ℚ) = 5 := rfl
    have hsnaps : accel.Snaps := by
      unfold Snaps
      rw [h.stopzone, hzone, hlast, sub_self, abs_zero, abs_dir_mul h.dir_sq]
      exact ⟨abs_lt.mpr ⟨h.past, hnear⟩, by norm_num⟩
    have hstep := profileStep_of_snaps h.dtSec_nonneg hsettled hsnaps
    unfold Settled toGo Wheel.accelPosUpdate
    rw [hstep, sub_self, abs_zero]
    norm_num

/-! ## The whole move -/

theorem Approaching.iterate (h : Approaching dir accel) (n : ℕ) :
    Approaching dir (Wheel.accelPosUpdate^[n] accel) := by
  induction n with
  | zero => exact h
  | succ n ih =>
      rw [Function.iterate_succ_apply']
      exact ih.accelPosUpdate

theorem iterate_of_settled (h : accel.Settled) (n : ℕ) :
    Wheel.accelPosUpdate^[n] accel = accel :=
  Function.iterate_fixed (accelPosUpdate_of_settled h) n

theorem Approaching.exists_settled (h : Approaching dir accel) :
    ∃ n, (Wheel.accelPosUpdate^[n] accel).Settled := by
  by_cases hsettled : accel.Settled
  · exact ⟨0, hsettled⟩
  · have hnext := h.accelPosUpdate
    have hlast := lastSpeed_accelPosUpdate h.toHasShipped hsettled
    obtain ⟨n, ⟨hinv, hlast⟩, hnear⟩ := exists_iterate_of_measure (f := Wheel.accelPosUpdate)
      (I := fun a => Approaching dir a ∧ a.lastSpeed = a.controlSpeed)
      (G := fun a => dir * a.toGo < 5) (μ := remaining dir) (by norm_num)
      (fun a ha hfar => ⟨⟨ha.1.accelPosUpdate,
        lastSpeed_accelPosUpdate ha.1.toHasShipped (ha.1.not_settled_of_far (not_lt.mp hfar))⟩,
        ha.1.remaining_accelPosUpdate (not_lt.mp hfar)⟩)
      (fun a ha => ha.1.remaining_nonneg) ⟨hnext, hlast⟩
    refine ⟨n + 2, ?_⟩
    rw [Function.iterate_succ_apply', Function.iterate_succ_apply]
    exact hinv.settled_of_near hnear hlast

/-! ## What the profile depends on -/

/-- The two controllers have the same profile; their wheels may be anywhere. -/
structure SameProfile {F : Type} (a b : ZephyrAccelmotor F) : Prop where
  runMode : a.runMode = b.runMode
  targetPos : a.targetPos = b.targetPos
  dtSec : a.dtSec = b.dtSec
  stopzone : a.stopzone = b.stopzone
  maxSpeed : a.maxSpeed = b.maxSpeed
  acceleration : a.acceleration = b.acceleration
  controlPos : a.controlPos = b.controlPos
  controlSpeed : a.controlSpeed = b.controlSpeed
  lastSpeed : a.lastSpeed = b.lastSpeed

section Same
variable {F : Type} {a b c : ZephyrAccelmotor F}

theorem SameProfile.trans (h : SameProfile a b) (h' : SameProfile b c) : SameProfile a c :=
  ⟨h.1.trans h'.1, h.2.trans h'.2, h.3.trans h'.3, h.4.trans h'.4, h.5.trans h'.5,
    h.6.trans h'.6, h.7.trans h'.7, h.8.trans h'.8, h.9.trans h'.9⟩

variable [FloatArith F]

theorem SameProfile.profileStep (h : SameProfile a b) : profileStep a = profileStep b := by
  unfold Wheel.profileStep
  rw [h.targetPos, h.controlPos, h.acceleration, h.dtSec, h.stopzone, h.lastSpeed,
    h.controlSpeed, h.maxSpeed]

theorem SameProfile.accelPosUpdate (h : SameProfile a b) :
    SameProfile (Wheel.accelPosUpdate a) (Wheel.accelPosUpdate b) := by
  have hstep := h.profileStep
  refine ⟨h.runMode, h.targetPos, h.dtSec, h.stopzone, h.maxSpeed, h.acceleration, ?_, ?_, ?_⟩
  · exact congrArg Profile.controlPos hstep
  · exact congrArg Profile.controlSpeed hstep
  · exact congrArg Profile.lastSpeed hstep

theorem sameProfile_sample (accel : ZephyrAccelmotor F) (pos : Int32) :
    SameProfile (sample { accel with currentPos := pos }) accel :=
  ⟨rfl, rfl, rfl, rfl, rfl, rfl, rfl, rfl, rfl⟩

theorem sameProfile_step (t : Tick) (h : a.runMode = .accelPos) :
    SameProfile (a.step t.call) (if gateOpen a t.uptime then Wheel.accelPosUpdate a else a) := by
  rw [step_tick]
  split
  · have hsampled := sameProfile_sample a t.pos
    rw [regulate_accelPos (hsampled.runMode.trans h)]
    refine SameProfile.trans ?_ hsampled.accelPosUpdate
    exact ⟨rfl, rfl, rfl, rfl, rfl, rfl, rfl, rfl, rfl⟩
  · exact ⟨rfl, rfl, rfl, rfl, rfl, rfl, rfl, rfl, rfl⟩

end Same

section Exact
variable {a b : ZephyrAccelmotor ℚ}

theorem SameProfile.toGo (h : SameProfile a b) : a.toGo = b.toGo := by
  unfold ZephyrAccelmotor.toGo
  rw [h.targetPos, h.controlPos]

theorem SameProfile.approaching (h : SameProfile a b) (hb : Approaching dir b) :
    Approaching dir a := by
  refine ⟨⟨?_, ?_, ?_, ?_⟩, hb.dir_sq, ?_, ?_, ?_, ?_⟩
  · exact h.acceleration.trans hb.acceleration
  · exact h.dtSec.trans hb.dtSec
  · exact h.maxSpeed.trans hb.maxSpeed
  · exact h.stopzone.trans hb.stopzone
  · rw [h.toGo]
    exact hb.past
  · rw [h.controlSpeed]
    exact hb.speed_nonneg
  · rw [h.controlSpeed]
    exact hb.speed_le
  · rw [h.lastSpeed, h.controlSpeed, h.toGo]
    exact hb.last

end Exact
end ZephyrAccelmotor

/-! ## The ticks of a move -/

/-- A controller in a move, with the position the move started from and the number of control steps
since. -/
structure Move where
  accel : ZephyrAccelmotor ℚ
  origin : Int32
  steps : ℕ

namespace Move
open ZephyrAccelmotor

def start (accel : ZephyrAccelmotor ℚ) (target : Int32) : Move where
  accel := zephyrAccelmotorSetTargetPos (zephyrAccelmotorSetRunMode accel.shipped .accelPos) target
  origin := accel.currentPos
  steps := 0

def step (s : Move) (t : Tick) : Move where
  accel := s.accel.step t.call
  origin := s.origin
  steps := if gateOpen s.accel t.uptime then s.steps + 1 else s.steps

/-- What holds of the profile after every call of a move. -/
structure OnCourse (_ : Move) (_ : Tick) (s : Move) : Prop where
  forward : s.origin ≤ s.accel.targetPos →
    s.accel.controlPos - s.accel.targetPos.toInt < s.accel.stopzone.toNat
  backward : s.accel.targetPos ≤ s.origin →
    s.accel.targetPos.toInt - s.accel.controlPos < s.accel.stopzone.toNat
  speed : |s.accel.controlSpeed| ≤ s.accel.maxSpeed.toNat * s.accel.dtSec
  divisors : ¬ s.accel.Settled → 2 * s.accel.acceleration ≠ 0 ∧ 2 * |s.accel.toGo| ≠ 0

variable {dir : ℚ}

theorem start_approaching (accel : ZephyrAccelmotor ℚ) (target : Int32) (hdir : dir * dir = 1)
    (htoward : 0 ≤ dir * (target.toInt - accel.currentPos.toInt)) :
    Approaching dir (start accel target).accel := by
  refine ⟨⟨rfl, ?_, rfl, rfl⟩, hdir, ?_, ?_, ?_, .inr ⟨rfl, htoward⟩⟩
  · have h20 : (20 : UInt32).toNat = 20 := rfl
    show ((20 : UInt32).toNat : ℚ) / 1000 = 0.02
    rw [h20]
    norm_num
  · show (-5 : ℚ) < dir * (target.toInt - accel.currentPos.toInt)
    linarith
  · show (0 : ℚ) ≤ dir * 0
    rw [mul_zero]
  · show dir * (0 : ℚ) ≤ 10
    rw [mul_zero]
    norm_num

theorem start_forward {accel : ZephyrAccelmotor ℚ} {target : Int32}
    (hle : accel.currentPos ≤ target) : Approaching 1 (start accel target).accel := by
  have hcast : (accel.currentPos.toInt : ℚ) ≤ target.toInt :=
    Int.cast_le.mpr (Int32.le_iff_toInt_le.mp hle)
  exact start_approaching accel target (by norm_num) (by linarith)

theorem start_backward {accel : ZephyrAccelmotor ℚ} {target : Int32}
    (hle : target ≤ accel.currentPos) : Approaching (-1) (start accel target).accel := by
  have hcast : (target.toInt : ℚ) ≤ accel.currentPos.toInt :=
    Int.cast_le.mpr (Int32.le_iff_toInt_le.mp hle)
  exact start_approaching accel target (by norm_num) (by linarith)

theorem exists_approaching (accel : ZephyrAccelmotor ℚ) (target : Int32) :
    ∃ dir, Approaching dir (start accel target).accel := by
  obtain hle | hle := Int32.le_total accel.currentPos target
  · exact ⟨1, start_forward hle⟩
  · exact ⟨-1, start_backward hle⟩

/-- The state after `n` control steps, in the words of the profile alone. -/
def Inv (accel : ZephyrAccelmotor ℚ) (target : Int32) (s : Move) : Prop :=
  s.origin = accel.currentPos ∧
    SameProfile s.accel (accelPosUpdate^[s.steps] (start accel target).accel)

theorem runMode_iterate (accel : ZephyrAccelmotor ℚ) (n : ℕ) :
    (accelPosUpdate^[n] accel).runMode = accel.runMode ∧
      (accelPosUpdate^[n] accel).targetPos = accel.targetPos := by
  induction n with
  | zero => exact ⟨rfl, rfl⟩
  | succ n ih =>
      rw [Function.iterate_succ_apply']
      exact ih

variable {accel : ZephyrAccelmotor ℚ} {target : Int32} {s : Move}

theorem step_inv (h : s.Inv accel target) (t : Tick) : (s.step t).Inv accel target := by
  obtain ⟨horigin, hsame⟩ := h
  have hmode : s.accel.runMode = .accelPos := by
    rw [hsame.runMode, (runMode_iterate _ _).1]
    rfl
  refine ⟨horigin, (sameProfile_step t hmode).trans ?_⟩
  unfold step
  split
  · rw [Function.iterate_succ_apply']
    exact hsame.accelPosUpdate
  · exact hsame

theorem onCourse_of_inv (h : s.Inv accel target) (s' : Move) (t : Tick) : OnCourse s' t s := by
  obtain ⟨horigin, hsame⟩ := h
  have htarget : s.accel.targetPos = target := by
    rw [hsame.targetPos, (runMode_iterate _ _).2]
    rfl
  have hforward : accel.currentPos ≤ target → Approaching 1 s.accel :=
    fun hle => hsame.approaching ((start_forward hle).iterate s.steps)
  have hbackward : target ≤ accel.currentPos → Approaching (-1) s.accel :=
    fun hle => hsame.approaching ((start_backward hle).iterate s.steps)
  obtain ⟨dir, hstart⟩ := exists_approaching accel target
  have hdir := hsame.approaching (hstart.iterate s.steps)
  have hzone : ((5 : UInt32).toNat : ℚ) = 5 := rfl
  refine ⟨?_, ?_, ?_, ?_⟩
  · rw [horigin, htarget, hdir.stopzone, hzone]
    intro hle
    have hpast := (hforward hle).past
    unfold toGo at hpast
    rw [htarget] at hpast
    linarith
  · rw [horigin, htarget, hdir.stopzone, hzone]
    intro hle
    have hpast := (hbackward hle).past
    unfold toGo at hpast
    rw [htarget] at hpast
    linarith
  · have hmax := hdir.maxSpeedDt
    unfold maxSpeedDt at hmax
    rw [hmax, abs_dir_mul hdir.dir_sq, abs_of_nonneg hdir.speed_nonneg]
    exact hdir.speed_le
  · intro hsettled
    refine ⟨?_, mul_ne_zero two_ne_zero (abs_ne_zero.mpr (toGo_ne_zero hsettled))⟩
    rw [hdir.acceleration]
    norm_num

/-- A tick one period after the last opens the gate. -/
theorem exists_tick (s : Move) : ∃ t, (s.step t).steps = s.steps + 1 := by
  refine ⟨⟨0, (s.accel.lastTickTime + s.accel.dtMs).toUInt64.toInt64⟩, if_pos ?_⟩
  unfold gateOpen uptime32
  rw [UInt64.toUInt64_toInt64, UInt32.toUInt32_toUInt64, UInt32.add_comm, UInt32.add_sub_cancel]
  exact UInt32.le_refl _

theorem exists_ticks (s : Move) (n : ℕ) : ∃ ticks, (run step s ticks).steps = s.steps + n := by
  induction n generalizing s with
  | zero => exact ⟨[], rfl⟩
  | succ n ih =>
      obtain ⟨t, ht⟩ := exists_tick s
      obtain ⟨ticks, hticks⟩ := ih (s.step t)
      refine ⟨t :: ticks, ?_⟩
      rw [run_cons, hticks, ht]
      omega

end Move

/-- The profile of a move reaches its target and stays, passes it by less than the stop zone and keeps
to its top speed, and the braking formula never divides by zero. -/
theorem profile_reaches_target (accel : ZephyrAccelmotor ℚ) (target : Int32) :
    (∃ n pos, |(target.toInt : ℚ) - pos| ≤ 0.1 ∧
      (∃ ticks, (run Move.step (Move.start accel target) ticks).steps = n) ∧
      ∀ ticks, n ≤ (run Move.step (Move.start accel target) ticks).steps →
        (run Move.step (Move.start accel target) ticks).accel.controlPos = pos) ∧
      ∀ ticks, Always Move.step Move.OnCourse (Move.start accel target) ticks := by
  have hstart : (Move.start accel target).Inv accel target :=
    ⟨rfl, rfl, rfl, rfl, rfl, rfl, rfl, rfl, rfl, rfl⟩
  refine ⟨?_, fun ticks => ?_⟩
  · obtain ⟨dir, happroach⟩ := Move.exists_approaching accel target
    obtain ⟨n, hsettled⟩ := happroach.exists_settled
    have htarget := (Move.runMode_iterate (Move.start accel target).accel n).2
    refine ⟨n, (accelPosUpdate^[n] (Move.start accel target).accel).controlPos, ?_, ?_, ?_⟩
    · unfold ZephyrAccelmotor.Settled ZephyrAccelmotor.toGo at hsettled
      rw [htarget] at hsettled
      exact hsettled
    · obtain ⟨ticks, hticks⟩ := Move.exists_ticks (Move.start accel target) n
      exact ⟨ticks, hticks.trans (Nat.zero_add n)⟩
    · intro ticks hle
      have hinv := run_invariant (I := Move.Inv accel target) (fun _ t h => Move.step_inv h t) ticks
        hstart
      obtain ⟨more, hmore⟩ := Nat.exists_eq_add_of_le' hle
      rw [hinv.2.controlPos, hmore, Function.iterate_add_apply,
        ZephyrAccelmotor.iterate_of_settled hsettled]
  · exact Always.of_invariant (I := Move.Inv accel target)
      (fun s t h => Move.onCourse_of_inv (Move.step_inv h t) s t) (fun _ t h => Move.step_inv h t) ticks
      hstart

end Mecanum.Wheel
