import Mathlib.Tactic.Linarith
import Mathlib.Tactic.NormNum
import Mecanum.Foundations.Single
import Mecanum.Wheel.Leg

/-! # One leg of a D-pad move in single precision

Rounded to 24 bits the speed is off by parts in `2 ^ 24`, and below `2 ^ 24` counts the position by at most
half a count a step. That is less than the speed from the fourth step on, so the leg of 50 counts that takes
26 steps in exact arithmetic takes at most 30, and ends at its target exactly, without passing it.
-/

namespace Mecanum.Wheel
open Motor FloatArith
set_option autoImplicit false

/-! ## The branches of the profile -/

section Branches
variable {F : Type} [FloatArith F] {accel : ZephyrAccelmotor F}

/-- Outside the stop zone, not braking and below the greatest speed. -/
theorem profileStep_of_cruise {speed : F}
    (hspeed : speed = accel.controlSpeed +
      accel.acceleration * accel.dtSec * ofInt (sign accel.profileErr))
    (hfar : lt (lit 0.1) (fabs32 accel.profileErr) = true)
    (hzone : lt (fabs32 accel.profileErr) (ofInt accel.stopzone.toNat) = false)
    (hbrakes : lt (fabs32 accel.profileErr)
      (accel.controlSpeed * accel.controlSpeed / (lit 2 * accel.acceleration)) = false)
    (hup : lt (ofInt accel.maxSpeed.toNat * accel.dtSec) speed = false)
    (hdown : lt speed (-(ofInt accel.maxSpeed.toNat * accel.dtSec)) = false) :
    profileStep accel = ⟨accel.controlPos + speed, speed, speed⟩ := by
  unfold ZephyrAccelmotor.profileErr at hspeed hfar hzone hbrakes
  simp only [profileStep, hfar, hzone, hbrakes, Bool.false_and, if_true, Bool.false_eq_true, if_false,
    ← hspeed, hup, hdown, ite_self]

/-- In the stop zone and steady. -/
theorem profileStep_of_snap {speed : F}
    (hspeed : speed = lit 0 + lit 0 * ofInt (sign accel.profileErr))
    (hfar : lt (lit 0.1) (fabs32 accel.profileErr) = true)
    (hzone : lt (fabs32 accel.profileErr) (ofInt accel.stopzone.toNat) = true)
    (hsteady : lt (fabs32 (accel.lastSpeed - accel.controlSpeed)) (lit 2) = true)
    (hbrakes : lt (fabs32 accel.profileErr) ((lit 0 : F) * lit 0 / (lit 2 * accel.acceleration)) = false)
    (hup : lt (ofInt accel.maxSpeed.toNat * accel.dtSec) speed = false)
    (hdown : lt speed (-(ofInt accel.maxSpeed.toNat * accel.dtSec)) = false) :
    profileStep accel = ⟨ofInt accel.targetPos.toInt + speed, speed, speed⟩ := by
  unfold ZephyrAccelmotor.profileErr at hspeed hfar hzone hbrakes
  simp only [profileStep, hfar, hzone, hsteady, hbrakes, Bool.and_self, if_true, Bool.false_eq_true,
    if_false, ← hspeed, hup, hdown, ite_self]

end Branches

/-! ## The settings, rounded -/

section Rounded
open Exact

@[simp] theorem val_fabs32_single (x : Single) : (fabs32 x).val = |x.val| := val_fabs32 x

theorem sign_of_dir {x : Single} {dir : ℤ} (hdir : dir = 1 ∨ dir = -1) (h : 0 < dir * x.val) :
    sign x = dir := by
  unfold sign
  simp only [Single.lt_eq, Single.val_lit, single_zero, decide_eq_true_eq]
  obtain rfl | rfl := hdir
  · rw [if_pos (by simpa using h)]
  · have hneg : x.val < 0 := by simpa using h
    rw [if_neg (not_lt.mpr hneg.le), if_pos hneg]

/-- `dt_sec` of a period of 20 ms. -/
def legDt : Single := ofInt 20 / lit 1000

/-- What a step adds to the speed. -/
def legGain : Single := ofInt 7 * legDt

theorem legGain_bounds : 0.1399 < legGain.val ∧ legGain.val < 0.1401 := by
  decide +kernel

theorem legGain_signed {dir : ℤ} (hdir : dir = 1 ∨ dir = -1) :
    (legGain * ofInt dir).val = dir * legGain.val := by
  obtain rfl | rfl := hdir <;> decide +kernel

theorem legLimit : 9 < (ofInt 500 * legDt : Single).val := by
  decide +kernel

theorem legNear : 0 < (lit 0.1 : Single).val ∧ (lit 0.1 : Single).val < 0.11 := by
  decide +kernel

theorem stopzone_val {zone : UInt32} (h : zone = 5) : (ofInt zone.toNat : Single).val = 5 := by
  have hzone : ((5 : UInt32).toNat : ℤ) = 5 := rfl
  rw [h, hzone]
  exact single_intCast (n := 5) (by norm_num)

/-- A rough bound of the rounding, for products and quotients. -/
theorem single_le_two_mul {x : ℚ} (hx : 0 ≤ x) : 0 ≤ single x ∧ single x ≤ 2 * x := by
  have hround := abs_le.mp (abs_single_sub_le x)
  rw [abs_of_nonneg hx] at hround
  exact ⟨by linarith [hround.1], by linarith [hround.2]⟩

theorem abs_dir_sub {dir : ℤ} (hdir : dir = 1 ∨ dir = -1) (x y : ℚ) :
    |dir * x - dir * y| = |x - y| := by
  rw [← mul_sub, abs_mul]
  obtain rfl | rfl := hdir <;> norm_num

theorem abs_eq_dir {dir : ℤ} (hdir : dir = 1 ∨ dir = -1) {x : ℚ} (h : 0 ≤ dir * x) :
    |x| = dir * x := by
  obtain rfl | rfl := hdir
  · push_cast at h ⊢
    rw [one_mul] at h ⊢
    exact abs_of_nonneg h
  · push_cast at h ⊢
    rw [neg_one_mul] at h ⊢
    exact abs_of_nonpos (by linarith)

/-- The settings that the profile depends on. -/
structure LegSettings (accel : ZephyrAccelmotor Single) : Prop where
  acceleration : accel.acceleration = ofInt 7
  dtSec : accel.dtSec = legDt
  maxSpeed : accel.maxSpeed = 500
  stopzone : accel.stopzone = 5
  target : |accel.targetPos.toInt| ≤ 16777152

/-! ## One step -/

variable {accel : ZephyrAccelmotor Single} {dir : ℤ} {k : ℕ}

/-- The distance the profile still has to go. -/
def singleToGo (accel : ZephyrAccelmotor Single) : ℚ := accel.targetPos.toInt - accel.controlPos.val

/-- After `k` steps, short of the target. -/
structure OnSingleLeg (dir : ℤ) (k : ℕ) (accel : ZephyrAccelmotor Single) : Prop
    extends LegSettings accel where
  dir_cases : dir = 1 ∨ dir = -1
  short : 0.2 ≤ dir * singleToGo accel
  toGo_le : dir * singleToGo accel ≤ 50 - 0.0699 * (k * (k + 1)) + k / 2
  speed : 0.1398 * k ≤ dir * accel.controlSpeed.val ∧ dir * accel.controlSpeed.val ≤ 0.1402 * k
  steady : accel.lastSpeed = accel.controlSpeed ∨ 49 ≤ dir * singleToGo accel

structure Arrived (accel : ZephyrAccelmotor Single) : Prop extends LegSettings accel where
  arrived : accel.controlPos.val = accel.targetPos.toInt

theorem LegSettings.target_val (h : LegSettings accel) :
    (ofInt accel.targetPos.toInt : Single).val = accel.targetPos.toInt :=
  single_intCast (h.target.trans_lt (by norm_num))

theorem LegSettings.accelPosUpdate (h : LegSettings accel) : LegSettings (accelPosUpdate accel) :=
  ⟨h.acceleration, h.dtSec, h.maxSpeed, h.stopzone, h.target⟩

namespace OnSingleLeg
variable (h : OnSingleLeg dir k accel)
include h

theorem steps_le : k ≤ 29 := by
  by_contra hlt
  have hcast : (30 : ℚ) ≤ k := by exact_mod_cast not_le.mp hlt
  have hshort := h.short.trans h.toGo_le
  nlinarith

theorem toGo_le_51 : dir * singleToGo accel ≤ 51 := by
  have hle := h.toGo_le
  nlinarith [sq_nonneg ((k : ℚ) - 3)]

theorem speed_le : dir * accel.controlSpeed.val ≤ 4.07 := by
  have hcast : (k : ℚ) ≤ 29 := by exact_mod_cast h.steps_le
  linarith [h.speed.2]

theorem abs_toGo_le : |singleToGo accel| ≤ 51 := by
  rw [abs_eq_dir h.dir_cases (by linarith [h.short])]
  exact h.toGo_le_51

/-- The distance as the code computes it. -/
theorem profileErr_bounds :
    |dir * accel.profileErr.val - dir * singleToGo accel| ≤ 0.00001 ∧
      |accel.profileErr.val| = dir * accel.profileErr.val := by
  have hval : accel.profileErr.val = single (singleToGo accel) := by
    unfold ZephyrAccelmotor.profileErr singleToGo
    rw [Single.val_sub, h.target_val]
  have hround : |dir * accel.profileErr.val - dir * singleToGo accel| ≤ 0.00001 := by
    rw [abs_dir_sub h.dir_cases, hval]
    linarith [abs_single_sub_le (singleToGo accel), h.abs_toGo_le]
  refine ⟨hround, abs_eq_dir h.dir_cases ?_⟩
  linarith [(abs_le.mp hround).1, h.short]

theorem far : lt (lit 0.1) (fabs32 accel.profileErr) = true := by
  obtain ⟨hround, habs⟩ := h.profileErr_bounds
  have hnear := legNear.2
  rw [Single.lt_eq, val_fabs32_single, habs, decide_eq_true_eq]
  linarith [(abs_le.mp hround).1, h.short]

theorem sign_eq : sign accel.profileErr = dir := by
  obtain ⟨hround, -⟩ := h.profileErr_bounds
  exact sign_of_dir h.dir_cases (by linarith [(abs_le.mp hround).1, h.short])

theorem limit_eq : ofInt accel.maxSpeed.toNat * accel.dtSec = (ofInt 500 * legDt : Single) := by
  rw [h.maxSpeed, h.dtSec]
  rfl

/-- In the stop zone the step lands on the target. -/
theorem arrives (hzone : dir * accel.profileErr.val < 5) : Arrived (accelPosUpdate accel) := by
  obtain ⟨hround, habs⟩ := h.profileErr_bounds
  have hsteady : accel.lastSpeed = accel.controlSpeed := by
    refine h.steady.resolve_right fun hfar => ?_
    linarith [(abs_le.mp hround).1]
  have hrest : (lit 0 + lit 0 * ofInt (sign accel.profileErr) : Single).val = 0 := by simp
  have hlimit := legLimit
  have hstep := @profileStep_of_snap Single _ accel _ rfl h.far ?_ ?_ ?_ ?_ ?_
  · refine ⟨h.toLegSettings.accelPosUpdate, ?_⟩
    unfold accelPosUpdate
    simp only [hstep, Single.val_add, hrest, h.target_val, add_zero]
    exact single_intCast (h.target.trans_lt (by norm_num))
  · rw [Single.lt_eq, val_fabs32_single, habs, stopzone_val h.stopzone]
    exact decide_eq_true hzone
  · have htwo : single 2 = 2 := by exact_mod_cast single_intCast (n := 2) (by norm_num)
    rw [hsteady, Single.lt_eq, val_fabs32_single]
    simp [htwo]
  · rw [Single.lt_eq, val_fabs32_single]
    simp
  · rw [h.limit_eq, Single.lt_eq, hrest]
    exact decide_eq_false (by linarith)
  · rw [h.limit_eq, Single.lt_eq, hrest, Single.val_neg]
    exact decide_eq_false (by linarith)

/-- The speed after an accelerating step. -/
def nextSpeed (accel : ZephyrAccelmotor Single) : Single :=
  accel.controlSpeed + accel.acceleration * accel.dtSec * ofInt (sign accel.profileErr)

theorem speed_nonneg : 0 ≤ dir * accel.controlSpeed.val :=
  (mul_nonneg (by norm_num) (Nat.cast_nonneg k)).trans h.speed.1

theorem nextSpeed_bounds : dir * accel.controlSpeed.val + 0.1398 ≤ dir * (nextSpeed accel).val ∧
    dir * (nextSpeed accel).val ≤ dir * accel.controlSpeed.val + 0.1402 := by
  have hgain := legGain_bounds
  have hsq : (dir : ℚ) * dir = 1 := by obtain rfl | rfl := h.dir_cases <;> norm_num
  have hval : (nextSpeed accel).val = single (accel.controlSpeed.val + dir * legGain.val) := by
    have hstep : accel.acceleration * accel.dtSec = legGain := by rw [h.acceleration, h.dtSec, legGain]
    rw [nextSpeed, hstep, h.sign_eq, Single.val_add, legGain_signed h.dir_cases]
  have hexact : dir * (accel.controlSpeed.val + dir * legGain.val) =
      dir * accel.controlSpeed.val + legGain.val := by
    rw [mul_add, ← mul_assoc, hsq, one_mul]
  have hround := abs_single_sub_le (accel.controlSpeed.val + dir * legGain.val)
  have hsize : |accel.controlSpeed.val + dir * legGain.val| ≤ 5 := by
    rw [abs_eq_dir h.dir_cases, hexact]
    · linarith [h.speed_le, hgain.2]
    · rw [hexact]
      linarith [h.speed_nonneg, hgain.1]
  rw [← hval, ← abs_dir_sub h.dir_cases, hexact] at hround
  obtain ⟨hlow, hhigh⟩ := abs_le.mp hround
  exact ⟨by linarith [hgain.1], by linarith [hgain.2]⟩

/-- Far from the target no step brakes. -/
theorem not_brakes (hzone : 5 ≤ dir * accel.profileErr.val) : lt (fabs32 accel.profileErr)
    (accel.controlSpeed * accel.controlSpeed / (lit 2 * accel.acceleration)) = false := by
  obtain ⟨-, habs⟩ := h.profileErr_bounds
  have hdivisor : (lit 2 * ofInt 7 : Single).val = 14 := by decide +kernel
  have hsq : accel.controlSpeed.val * accel.controlSpeed.val ≤ 17 := by
    have hnonneg := h.speed_nonneg
    rw [← abs_mul_abs_self, abs_eq_dir h.dir_cases hnonneg]
    nlinarith [h.speed_le]
  have hsquare := single_le_two_mul (mul_self_nonneg accel.controlSpeed.val)
  rw [h.acceleration, Single.lt_eq, val_fabs32_single, habs, Single.val_div, Single.val_mul, hdivisor]
  have hquotient := single_le_two_mul (div_nonneg hsquare.1 (by norm_num : (0 : ℚ) ≤ 14))
  refine decide_eq_false (not_lt.mpr ?_)
  linarith [hsquare.2, hquotient.2]

/-- Outside the stop zone the step accelerates. -/
theorem accelerates (hzone : 5 ≤ dir * accel.profileErr.val) :
    OnSingleLeg dir (k + 1) (accelPosUpdate accel) := by
  obtain ⟨hround, habs⟩ := h.profileErr_bounds
  obtain ⟨hlow, hhigh⟩ := h.nextSpeed_bounds
  have hsteps : (k : ℚ) ≤ 29 := by exact_mod_cast h.steps_le
  have hspeed := h.speed
  have hsize : |(nextSpeed accel).val| ≤ 4.3 := by
    rw [abs_eq_dir h.dir_cases] <;> linarith [h.speed_nonneg]
  have hlimit := legLimit
  have hstep := @profileStep_of_cruise Single _ accel (nextSpeed accel) rfl h.far ?_ (h.not_brakes hzone)
    ?_ ?_
  · have htoGo : |dir * singleToGo (accelPosUpdate accel) -
        (dir * singleToGo accel - dir * (nextSpeed accel).val)| ≤ 1 / 2 := by
      have hposition : |accel.controlPos.val + (nextSpeed accel).val| < 16777216 := by
        have htarget : |(accel.targetPos.toInt : ℚ)| ≤ 16777152 := by exact_mod_cast h.target
        have htoGo := h.abs_toGo_le
        unfold singleToGo at htoGo
        rw [abs_le] at htarget htoGo hsize
        exact abs_lt.mpr ⟨by linarith [htarget.1, htoGo.2, hsize.1],
          by linarith [htarget.2, htoGo.1, hsize.2]⟩
      rw [← mul_sub, abs_dir_sub h.dir_cases, abs_sub_comm]
      unfold singleToGo accelPosUpdate
      rw [hstep, Single.val_add]
      convert abs_single_sub_le_half hposition using 2
      ring
    have hspeed' : (accelPosUpdate accel).controlSpeed = nextSpeed accel := by
      unfold accelPosUpdate
      rw [hstep]
    have hlast : (accelPosUpdate accel).lastSpeed = nextSpeed accel := by
      unfold accelPosUpdate
      rw [hstep]
    rw [abs_le] at htoGo hround
    refine ⟨h.toLegSettings.accelPosUpdate, h.dir_cases, ?_, ?_, ?_, .inl (hlast.trans hspeed'.symm)⟩
    · linarith [htoGo.1, hround.2]
    · push_cast
      linarith [htoGo.2, h.toGo_le]
    · rw [hspeed']
      push_cast
      exact ⟨by linarith, by linarith⟩
  · rw [Single.lt_eq, val_fabs32_single, habs, stopzone_val h.stopzone]
    exact decide_eq_false (not_lt.mpr hzone)
  · rw [h.limit_eq, Single.lt_eq]
    exact decide_eq_false (not_lt.mpr (by linarith [(abs_le.mp hsize).2]))
  · rw [h.limit_eq, Single.lt_eq, Single.val_neg]
    exact decide_eq_false (not_lt.mpr (by linarith [(abs_le.mp hsize).1]))

end OnSingleLeg

theorem Arrived.rests (h : Arrived accel) :
    profileStep accel = ⟨accel.controlPos, accel.controlSpeed, accel.lastSpeed⟩ := by
  apply profileStep_of_near
  unfold ZephyrAccelmotor.profileErr
  rw [Single.lt_eq, val_fabs32_single, Single.val_sub, h.target_val, h.arrived, sub_self, single_zero, abs_zero]
  exact decide_eq_false (not_lt.mpr legNear.1.le)

theorem Arrived.profileRests (h : Arrived accel) : accel.ProfileRests := by
  refine ⟨h.rests, ?_⟩
  rw [Single.toInt32_eq, h.arrived]
  exact toInt32_toInt accel.targetPos

/-- After `k` steps of a leg. -/
def SingleLeg (k : ℕ) (accel : ZephyrAccelmotor Single) : Prop :=
  (∃ dir, OnSingleLeg dir k accel) ∨ Arrived accel

theorem SingleLeg.accelPosUpdate (h : SingleLeg k accel) : SingleLeg (k + 1) (accelPosUpdate accel) := by
  obtain ⟨dir, honLeg⟩ | harrived := h
  · by_cases hzone : dir * accel.profileErr.val < 5
    · exact .inr (honLeg.arrives hzone)
    · exact .inl ⟨dir, honLeg.accelerates (not_lt.mp hzone)⟩
  · refine .inr ⟨harrived.toLegSettings.accelPosUpdate, ?_⟩
    unfold Wheel.accelPosUpdate
    rw [harrived.rests]
    exact harrived.arrived

theorem SingleLeg.arrived (h : SingleLeg k accel) (hk : 30 ≤ k) : Arrived accel := by
  obtain ⟨dir, honLeg⟩ | harrived := h
  · exact absurd honLeg.steps_le (by omega)
  · exact harrived

theorem SingleLeg.stopzone (h : SingleLeg k accel) : accel.stopzone = 5 := by
  obtain ⟨dir, honLeg⟩ | harrived := h
  · exact honLeg.stopzone
  · exact harrived.stopzone

theorem ZephyrAccelmotor.SameProfile.singleLeg {a b : ZephyrAccelmotor Single}
    (h : ZephyrAccelmotor.SameProfile a b) (hb : SingleLeg k b) : SingleLeg k a := by
  have htoGo : singleToGo a = singleToGo b := by
    unfold singleToGo
    rw [h.targetPos, h.controlPos]
  have hsettings : LegSettings b → LegSettings a := fun hs =>
    ⟨h.acceleration.trans hs.acceleration, h.dtSec.trans hs.dtSec, h.maxSpeed.trans hs.maxSpeed,
      h.stopzone.trans hs.stopzone, by rw [h.targetPos]; exact hs.target⟩
  obtain ⟨dir, hleg⟩ | harrived := hb
  · refine .inl ⟨dir, hsettings hleg.toLegSettings, hleg.dir_cases, ?_, ?_, ?_, ?_⟩
    · rw [htoGo]
      exact hleg.short
    · rw [htoGo]
      exact hleg.toGo_le
    · rw [h.controlSpeed]
      exact hleg.speed
    · rw [h.lastSpeed, h.controlSpeed, htoGo]
      exact hleg.steady
  · refine .inr ⟨hsettings harrived.toLegSettings, ?_⟩
    rw [h.controlPos, h.targetPos]
    exact harrived.arrived

theorem SingleLeg.tick (h : SingleLeg k accel) (hmode : accel.runMode = .accelPos) {pos : Int32}
    {uptime : Int64} (hgate : gateOpen accel uptime) :
    SingleLeg (k + 1) (zephyrAccelmotorTick accel pos uptime).1 := by
  have hstep := ZephyrAccelmotor.sameProfile_step ⟨pos, uptime⟩ hmode
  rw [if_pos hgate] at hstep
  exact hstep.singleLeg h.accelPosUpdate

theorem singleLeg_start (h : LegSettings accel) (hdir : dir = 1 ∨ dir = -1)
    {origin : ℤ} (htarget : accel.targetPos.toInt = origin + 50 * dir)
    (hpos : accel.controlPos = ofInt origin) (hspeed : accel.controlSpeed = lit 0) :
    SingleLeg 0 accel := by
  have hsq : (dir : ℚ) * dir = 1 := by obtain rfl | rfl := hdir <;> norm_num
  have horigin : (ofInt origin : Single).val = origin := by
    have hgoal := abs_le.mp h.target
    apply single_intCast
    obtain rfl | rfl := hdir <;> exact abs_lt.mpr ⟨by omega, by omega⟩
  have hgo : dir * singleToGo accel = 50 := by
    unfold singleToGo
    rw [htarget, hpos, horigin]
    push_cast
    linarith
  have hzero : accel.controlSpeed.val = 0 := by
    rw [hspeed]
    simp
  refine .inl ⟨dir, h, hdir, ?_, ?_, ?_, .inr ?_⟩
  · rw [hgo]
    norm_num
  · rw [hgo]
    norm_num
  · rw [hzero]
    norm_num
  · rw [hgo]
    norm_num

end Rounded

end Mecanum.Wheel
