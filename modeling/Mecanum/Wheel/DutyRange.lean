import Mecanum.Foundations.Single
import Mecanum.Wheel.Encoder
import Mecanum.Wheel.Exact

/-! # The narrowing of the duty

Both branches that set the motor cast `duty_f` to `int16_t`, and only `max_speed` limits it before.
With no limit, or one beyond `int16_t`, a large demand wraps to the other direction.
-/

namespace Mecanum.Wheel
open Motor FloatArith RoundedArith Exact CInt Limit
set_option autoImplicit false

namespace ZephyrAccelmotor
section Request
variable {F : Type} [FloatArith F]

/-- The duty and the step of `ACCEL_SPEED`. -/
def rampSum (accel : ZephyrAccelmotor F) : F :=
  let err : F := ofInt (accel.targetSpeed - accel.currentSpeed).toInt
  accel.dutyF + ofInt (sign err) * accel.acceleration * accel.dtSec *
    if lt (fabs32 err) accel.acceleration then lit 1 else fabs32 err / accel.acceleration

/-- What each run mode asks for before `max_speed` limits it. -/
def requestedDuty (accel : ZephyrAccelmotor F) : F :=
  match accel.runMode with
  | .accelPos => accel.pidSum (toInt32 (profileStep accel).controlPos) accel.currentPos
  | .pidPos => accel.pidSum accel.targetPos accel.currentPos
  | .accelSpeed => accel.rampSum
  | .pidSpeed => accel.pidSum accel.targetSpeed.toInt32 accel.currentSpeed.toInt32
  | .idleRun => accel.dutyF

theorem duties_regulate {accel : ZephyrAccelmotor F} (hmode : accel.runMode ≠ .idleRun) :
    (regulate accel).2.map Command.duty = [toInt16 (regulate accel).1.dutyF] := by
  cases hrun : accel.runMode with
  | accelPos =>
      rw [regulate_accelPos hrun]
      rfl
  | pidPos =>
      rw [regulate_pidPos hrun]
      rfl
  | accelSpeed =>
      rw [regulate_accelSpeed hrun]
      rfl
  | pidSpeed =>
      rw [regulate_pidSpeed hrun]
      rfl
  | idleRun => exact absurd hrun hmode

theorem mem_commands {accel : ZephyrAccelmotor F} (hmode : accel.runMode ≠ .idleRun)
    {command : Command} (hmem : command ∈ (regulate accel).2) :
    command.duty = toInt16 (regulate accel).1.dutyF := by
  have hduty : command.duty ∈ (regulate accel).2.map Command.duty := List.mem_map_of_mem hmem
  rw [duties_regulate hmode, List.mem_singleton] at hduty
  exact hduty

/-- The other controller is set up alike and may be in any state. -/
structure SameSettings (other accel : ZephyrAccelmotor F) : Prop where
  motor : other.motor = accel.motor
  ratio : other.ratio = accel.ratio
  dtMs : other.dtMs = accel.dtMs
  dtSec : other.dtSec = accel.dtSec
  stopzone : other.stopzone = accel.stopzone
  maxSpeed : other.maxSpeed = accel.maxSpeed
  acceleration : other.acceleration = accel.acceleration
  runMode : other.runMode = accel.runMode
  kp : other.kp = accel.kp
  ki : other.ki = accel.ki
  kd : other.kd = accel.kd

end Request

section Rounded
variable {F : Type} [FloatArith F] [RoundedArith F]

/-- The cast drops the fraction of `duty_f` and nothing else. -/
structure KeepsDirection (accel : ZephyrAccelmotor F) : Prop where
  fits : -32768 ≤ trunc (val (regulate accel).1.dutyF) ∧ trunc (val (regulate accel).1.dutyF) ≤ 32767
  truncated : (regulate accel).2.map (fun command => command.duty.toInt) =
    [trunc (val (regulate accel).1.dutyF)]
  direction : ∀ command ∈ (regulate accel).2,
    command.duty = 0 ∨ command.duty.toInt.sign = sign (regulate accel).1.dutyF

/-- `max_speed` is a limit within `int16_t`. -/
def LimitFits (accel : ZephyrAccelmotor F) : Prop := 0 < accel.maxSpeed ∧ accel.maxSpeed ≤ 32767

/-- `max_speed` is a limit within `int16_t`, or the request needs none. At 32768 the lower limit is
the least `int16_t`. -/
def RequestFits (accel : ZephyrAccelmotor F) : Prop :=
  accel.LimitFits ∨ (val accel.requestedDuty < 32768 ∧
    (-32769 < val accel.requestedDuty ∨ accel.maxSpeed = 32768))

variable {accel : ZephyrAccelmotor F}

theorem dutyF_regulate_eq (hmode : accel.runMode ≠ .idleRun) :
    (regulate accel).1.dutyF = limitDuty accel.maxSpeed accel.requestedDuty := by
  unfold requestedDuty
  cases hrun : accel.runMode with
  | accelPos =>
      rw [regulate_accelPos hrun]
      exact dutyF_pidUpdate (accelPosUpdate accel) _ _ true
  | pidPos =>
      rw [regulate_pidPos hrun]
      exact dutyF_pidUpdate accel _ _ true
  | accelSpeed =>
      rw [regulate_accelSpeed hrun]
      rfl
  | pidSpeed =>
      rw [regulate_pidSpeed hrun]
      exact dutyF_pidUpdate accel _ _ false
  | idleRun => exact absurd hrun hmode

theorem limitDuty_fits_iff (maxSpeed : UInt16) (duty : F) :
    (-32769 < val (limitDuty maxSpeed duty) ∧ val (limitDuty maxSpeed duty) < 32768) ↔
      (0 < maxSpeed ∧ maxSpeed ≤ 32767) ∨
        (val duty < 32768 ∧ (-32769 < val duty ∨ maxSpeed = 32768)) := by
  have hlow : (-32769 : ℚ) < -(maxSpeed.toNat : ℚ) ↔ maxSpeed.toNat < 32769 := by
    rw [neg_lt_neg_iff]
    exact_mod_cast Iff.rfl
  have hhigh : (maxSpeed.toNat : ℚ) < 32768 ↔ maxSpeed.toNat < 32768 := by exact_mod_cast Iff.rfl
  have hzero : (0 : UInt16).toNat = 0 := rfl
  have htop : (32767 : UInt16).toNat = 32767 := rfl
  have hedge : (32768 : UInt16).toNat = 32768 := rfl
  have hnonneg : (0 : ℚ) ≤ maxSpeed.toNat := Nat.cast_nonneg _
  rw [← UInt16.toNat_inj, UInt16.le_iff_toNat_le, UInt16.lt_iff_toNat_lt, hzero, htop, hedge,
    val_limitDuty]
  by_cases hmax : 0 < maxSpeed
  · have hpos : 0 < maxSpeed.toNat := UInt16.lt_iff_toNat_lt.mp hmax
    rw [if_pos hmax, limit_lt_iff (by linarith), lt_limit_iff (by linarith), hlow, hhigh]
    have hsplit : maxSpeed.toNat < 32769 ↔ maxSpeed.toNat < 32768 ∨ maxSpeed.toNat = 32768 := by omega
    have hwithin : maxSpeed.toNat ≤ 32767 ↔ maxSpeed.toNat < 32768 := by omega
    rw [hsplit, hwithin, and_iff_right hpos]
    by_cases hin : maxSpeed.toNat < 32768
    · simp [hin]
    · simp only [hin, false_or]
      exact and_comm.trans (and_congr_right fun _ => or_comm)
  · have hnone : ¬ 0 < maxSpeed.toNat := fun h => hmax (UInt16.lt_iff_toNat_lt.mpr h)
    have hfar : ¬ maxSpeed.toNat = 32768 := by omega
    rw [if_neg hmax]
    simp only [hnone, hfar, false_and, false_or, or_false]
    exact and_comm

theorem fits_iff (x : ℚ) :
    (-32768 ≤ trunc x ∧ trunc x ≤ 32767) ↔ (-32769 < x ∧ x < 32768) := by
  have hlow := le_trunc_iff (x := x) (n := 32768) (by decide)
  have hhigh := trunc_le_iff (x := x) (n := 32767) (by decide)
  norm_num at hlow hhigh
  rw [hlow, hhigh]

/-- A duty that fits is cast to its truncation, which has its sign or is 0. -/
theorem keepsDirection_of_fits (hmode : accel.runMode ≠ .idleRun)
    (hfits : -32768 ≤ trunc (val (regulate accel).1.dutyF) ∧
      trunc (val (regulate accel).1.dutyF) ≤ 32767) : accel.KeepsDirection := by
  have hcast : (toInt16 (regulate accel).1.dutyF).toInt = trunc (val (regulate accel).1.dutyF) := by
    rw [toInt16_eq]
    exact toInt_toInt16 hfits.1 (by omega)
  refine ⟨hfits, ?_, fun command hmem => ?_⟩
  · have hduties := congrArg (List.map Int16.toInt) (duties_regulate hmode)
    rw [List.map_map, List.map_singleton, hcast] at hduties
    exact hduties
  · rw [mem_commands hmode hmem, ← Int16.toInt_inj, hcast, ← sign_val]
    rcases trunc_sign (val (regulate accel).1.dutyF) with hzero | ⟨htrunc, hpos⟩ | ⟨htrunc, hneg⟩
    · exact .inl hzero
    · rw [Int.sign_eq_one_of_pos htrunc, sign_of_pos hpos]
      exact .inr rfl
    · rw [Int.sign_eq_neg_one_of_neg htrunc, sign_of_neg hneg]
      exact .inr rfl

theorem keepsDirection_iff (hmode : accel.runMode ≠ .idleRun) :
    accel.KeepsDirection ↔ accel.RequestFits := by
  have hrange : (-32768 ≤ trunc (val (regulate accel).1.dutyF) ∧
      trunc (val (regulate accel).1.dutyF) ≤ 32767) ↔ accel.RequestFits := by
    rw [fits_iff, dutyF_regulate_eq hmode]
    exact limitDuty_fits_iff accel.maxSpeed accel.requestedDuty
  constructor
  · intro h
    exact hrange.mp h.fits
  · intro h
    exact keepsDirection_of_fits hmode (hrange.mpr h)

/-! ## The settings that are safe in every state -/

/-- At its target and at rest, with 65535 left in the integral and in `duty_f`. -/
def overfull (accel : ZephyrAccelmotor F) : ZephyrAccelmotor F :=
  { accel with
    currentPos := 0, targetPos := 0, prevInput := 0, currentSpeed := 0, targetSpeed := 0
    controlPos := lit 0, integral := ofInt 65535, dutyF := ofInt 65535 }

theorem requestedDuty_overfull (hmode : accel.runMode ≠ .idleRun) :
    val accel.overfull.requestedDuty = 65535 := by
  have hfull : val (ofInt 65535 : F) = 65535 := by
    rw [val_ofInt]
    exact_mod_cast rnd_int (F := F) (n := 65535) (by decide)
  have hprev : accel.overfull.prevInput = 0 := rfl
  have hpid : val (accel.overfull.pidSum 0 0) = 65535 := by
    rw [pidSum_of_held hprev]
    exact hfull
  have hsame : accel.overfull.runMode = accel.runMode := rfl
  unfold requestedDuty
  rw [hsame]
  cases hrun : accel.runMode with
  | accelPos =>
      have harrived : val accel.overfull.profileErr = 0 := by
        show val ((ofInt (0 : Int32).toInt - lit 0 : F)) = 0
        simp only [Int32.toInt_zero, val_sub, val_ofInt, val_lit, Int.cast_zero, rnd_zero, sub_zero]
      have hpos : toInt32 (lit 0 : F) = 0 := by
        rw [toInt32_eq, val_lit, rnd_zero]
        rfl
      rw [profileStep_of_arrived harrived]
      show val (accel.overfull.pidSum (toInt32 (lit 0 : F)) 0) = 65535
      rw [hpos]
      exact hpid
  | pidPos => exact hpid
  | accelSpeed =>
      have hsign : sign (ofInt 0 : F) = 0 := by
        rw [← sign_val, val_ofInt, Int.cast_zero, rnd_zero]
        exact sign_zero
      have herr : (accel.overfull.targetSpeed - accel.overfull.currentSpeed).toInt = 0 := by
        show ((0 : Int16) - 0).toInt = 0
        decide
      have hduty : val accel.overfull.dutyF = 65535 := hfull
      have hkeep : rnd F 65535 = 65535 := by
        rw [← hfull]
        exact rnd_val _
      show val accel.overfull.rampSum = 65535
      unfold rampSum
      simp only [herr, hsign, val_add, val_mul, val_ofInt, Int.cast_zero, rnd_zero, zero_mul, add_zero,
        hduty, hkeep]
  | pidSpeed => exact hpid
  | idleRun => exact absurd hrun hmode

end Rounded

/-! ## A far target -/

/-- A wheel right after `zephyr_accelmotor_init`, sent to a position; `max_speed` is still 0. -/
def sentTo (target : Int32) : ZephyrAccelmotor Single :=
  let motor := (zephyrMotorInit .pwm1 true true false).1
  let accel := zephyrAccelmotorInit motor (zephyrEncoderInit true 0).1 0
  zephyrAccelmotorSetTargetPos (zephyrAccelmotorSetRunMode accel .pidPos) target

end ZephyrAccelmotor
end Mecanum.Wheel
