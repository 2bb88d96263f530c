import Mecanum.Wheel.SingleLeg

/-! # A leg far out in single precision

Between `2 ^ 29` and `2 ^ 30` counts the positions of single precision are 64 apart. No step of the
profile is longer than 11, so every one is lost in the rounding, and the profile stays where the press
put it.
-/

namespace Mecanum.Wheel
open Motor FloatArith RoundedArith Exact
set_option autoImplicit false

section Branch
variable {F : Type} [FloatArith F] {accel : ZephyrAccelmotor F}

/-- Outside the stop zone the profile moves by a speed within its limit, if it moves. -/
theorem controlPos_profileStep_of_outside [RoundedArith F] (hmax : accel.maxSpeed > 0)
    (hlimit : 0 ≤ val (ofInt accel.maxSpeed.toNat * accel.dtSec))
    (hzone : lt (fabs32 accel.profileErr) (ofInt accel.stopzone.toNat) = false) :
    (profileStep accel).controlPos = accel.controlPos ∨ ∃ speed,
      |val speed| ≤ val (ofInt accel.maxSpeed.toNat * accel.dtSec) ∧
        (profileStep accel).controlPos = accel.controlPos + speed := by
  by_cases hfar : lt (lit 0.1) (fabs32 accel.profileErr) = true
  · right
    unfold ZephyrAccelmotor.profileErr at hfar hzone
    simp only [profileStep, hfar, hzone, Bool.false_and, if_true, Bool.false_eq_true, if_false, hmax]
    refine ⟨_, ?_, rfl⟩
    simp only [RoundedArith.lt_eq, val_neg, decide_eq_true_eq, apply_ite val]
    rw [Limit.clamp_eq_limit hlimit]
    exact Limit.abs_limit_le hlimit _
  · left
    rw [profileStep_of_near (Bool.not_eq_true _ ▸ hfar)]

theorem controlPos_tick_of_open {uptime : Int64} (hmode : accel.runMode = .accelPos)
    (hgate : gateOpen accel uptime) (pos : Int32) :
    (zephyrAccelmotorTick accel pos uptime).1.controlPos = (profileStep accel).controlPos := by
  have hsame := (ZephyrAccelmotor.sameProfile_sample accel pos).profileStep
  have hmode' : (sample { accel with currentPos := pos }).runMode = .accelPos := hmode
  rw [tick_of_open hgate, regulate_accelPos hmode', ← hsame]
  rfl

end Branch

/-! ## Positions 64 apart -/

section Spacing
variable {x : ℚ}

/-- The sizes at which neighbouring values are 64 apart. -/
def FarOut (x : ℚ) : Prop := 536870912 ≤ |x| ∧ |x| < 1073741824

theorem ulp_of_farOut (h : FarOut x) : ulp x = 64 := by
  have hulp := @ulp_eq x 29 (by norm_num; exact h.1) (by norm_num; exact h.2)
  rw [hulp]
  norm_num

theorem single_of_farOut (h : FarOut x) : ∃ m : ℤ, single x = m * 64 ∧ |single x - x| ≤ 32 := by
  have hround := abs_single_sub_le_ulp x
  rw [ulp_of_farOut h] at hround
  refine ⟨roundEven (x / ulp x), ?_, by linarith⟩
  rw [single, ulp_of_farOut h]

/-- Less than 32 added to a position is lost. -/
theorem single_add_of_farOut {c v : ℚ} {m : ℤ} (hc : c = m * 64) (hv : |v| < 32)
    (h : FarOut (c + v)) : single (c + v) = c := by
  have hulp := ulp_of_farOut h
  have hnear : |c + v - m * ulp (c + v)| < 1 / 2 * ulp (c + v) := by
    rw [hulp, ← hc, add_sub_cancel_left]
    linarith
  rw [single_eq_of_near hnear, hulp, hc]

end Spacing

/-! ## The profile -/

variable {accel : ZephyrAccelmotor Single}

/-- A goal at least 256 counts inside the range. -/
def FarGoal (goal : ℤ) : Prop := 536871168 ≤ |goal| ∧ |goal| ≤ 1073741568

instance (goal : ℤ) : Decidable (FarGoal goal) := inferInstanceAs (Decidable (_ ∧ _))

/-- The profile is where the press put it, 50 counts from the goal. -/
def HeldBack (accel : ZephyrAccelmotor Single) : Prop :=
  ∃ origin : ℤ, |accel.targetPos.toInt - origin| = 50 ∧ accel.controlPos = ofInt origin

theorem FarGoal.farOut {goal : ℤ} (h : FarGoal goal) {x : ℚ} (hx : |x - goal| < 256) :
    FarOut x := by
  have hgoal : (536871168 : ℚ) ≤ |(goal : ℚ)| ∧ |(goal : ℚ)| ≤ 1073741568 := by exact_mod_cast h
  have hlow := abs_sub_abs_le_abs_sub (goal : ℚ) x
  have hhigh := abs_sub_abs_le_abs_sub x (goal : ℚ)
  rw [abs_sub_comm] at hlow
  exact ⟨by linarith [hgoal.1], by linarith [hgoal.2]⟩

/-- The rounding of the press leaves the profile off its goal. -/
theorem HeldBack.distance (h : HeldBack accel) (hfar : FarGoal accel.targetPos.toInt) :
    ∃ m : ℤ, accel.controlPos.val = m * 64 ∧
      18 ≤ |accel.controlPos.val - accel.targetPos.toInt| ∧
      |accel.controlPos.val - accel.targetPos.toInt| ≤ 82 := by
  obtain ⟨origin, hdist, hpos⟩ := h
  have hdist' : |(accel.targetPos.toInt : ℚ) - origin| = 50 := by exact_mod_cast hdist
  have horigin : FarOut (origin : ℚ) := hfar.farOut (by rw [abs_sub_comm, hdist']; norm_num)
  obtain ⟨m, hm, hround⟩ := single_of_farOut horigin
  have hval : accel.controlPos.val = single origin := congrArg Single.val hpos
  rw [← hval] at hm hround
  have hlow := abs_sub_le (accel.targetPos.toInt : ℚ) accel.controlPos.val origin
  have hhigh := abs_sub_le accel.controlPos.val origin (accel.targetPos.toInt : ℚ)
  rw [hdist', abs_sub_comm] at hlow
  rw [abs_sub_comm (origin : ℚ), hdist'] at hhigh
  exact ⟨m, hm, by linarith, by linarith⟩

theorem HeldBack.profileErr_val (h : HeldBack accel) (hfar : FarGoal accel.targetPos.toInt) :
    ∃ n : ℤ, accel.profileErr.val = n * 64 := by
  obtain ⟨m, hpos, -, hdist⟩ := h.distance hfar
  have hgoal : FarOut (accel.targetPos.toInt : ℚ) := hfar.farOut (by simp)
  obtain ⟨n, hn, hround⟩ := single_of_farOut hgoal
  refine ⟨n - m, ?_⟩
  have hsmall : |(n - m) * 64| < 16777216 := by
    rw [hpos] at hdist
    rw [hn] at hround
    rw [abs_le] at hdist hround
    have hlow : (-128 : ℚ) < (n - m) * 64 := by linarith [hdist.2, hround.1]
    have hhigh : ((n : ℚ) - m) * 64 < 128 := by linarith [hdist.1, hround.2]
    have hlow' : -128 < (n - m) * 64 := by exact_mod_cast hlow
    have hhigh' : (n - m) * 64 < 128 := by exact_mod_cast hhigh
    exact abs_lt.mpr ⟨by omega, by omega⟩
  have hexact := single_intCast hsmall
  unfold ZephyrAccelmotor.profileErr
  rw [Single.val_sub, Single.val_ofInt, hn, hpos, ← sub_mul]
  push_cast at hexact ⊢
  exact hexact

/-- No step moves it. -/
theorem HeldBack.controlPos_eq (h : HeldBack accel) (hfar : FarGoal accel.targetPos.toInt)
    (hmax : accel.maxSpeed = 500) (hdt : accel.dtSec = legDt) (hzone : accel.stopzone = 5) :
    (profileStep accel).controlPos = accel.controlPos := by
  obtain ⟨m, hpos, -, hdist⟩ := h.distance hfar
  obtain ⟨n, herr⟩ := h.profileErr_val hfar
  have hnear := legNear
  by_cases hn : n = 0
  · have hclose : lt (lit 0.1) (fabs32 accel.profileErr) = false := by
      rw [Single.lt_eq, val_fabs32_single, herr, hn, Int.cast_zero, zero_mul, abs_zero]
      exact decide_eq_false (not_lt.mpr hnear.1.le)
    rw [profileStep_of_near hclose]
  · have hone : (1 : ℚ) ≤ |(n : ℚ)| := by exact_mod_cast Int.one_le_abs hn
    have houtside : lt (fabs32 accel.profileErr) (ofInt accel.stopzone.toNat) = false := by
      rw [Single.lt_eq, val_fabs32_single, herr, stopzone_val hzone, abs_mul,
        abs_of_pos (by norm_num : (0 : ℚ) < 64)]
      exact decide_eq_false (not_lt.mpr (by linarith))
    have hlimit : 0 ≤ (ofInt accel.maxSpeed.toNat * accel.dtSec : Single).val ∧
        (ofInt accel.maxSpeed.toNat * accel.dtSec : Single).val ≤ 11 := by
      rw [hmax, hdt]
      decide +kernel
    obtain hsame | ⟨speed, hspeed, hmoved⟩ :=
      controlPos_profileStep_of_outside (by rw [hmax]; decide) hlimit.1 houtside
    · exact hsame
    · have hspeed' : |speed.val| ≤ 11 := hspeed.trans hlimit.2
      have hfarOut : FarOut (accel.controlPos.val + speed.val) := by
        have hsum := abs_add_le (accel.controlPos.val - accel.targetPos.toInt) speed.val
        rw [sub_add_eq_add_sub] at hsum
        exact hfar.farOut (by linarith)
      rw [hmoved]
      exact Single.ext (single_add_of_farOut hpos (by linarith) hfarOut)

theorem HeldBack.controlPos_tick (h : HeldBack accel) (hfar : FarGoal accel.targetPos.toInt)
    (hmode : accel.runMode = .accelPos) (hmax : accel.maxSpeed = 500) (hdt : accel.dtSec = legDt)
    (hzone : accel.stopzone = 5) (pos : Int32) (uptime : Int64) :
    (zephyrAccelmotorTick accel pos uptime).1.controlPos = accel.controlPos := by
  by_cases hgate : gateOpen accel uptime
  · rw [controlPos_tick_of_open hmode hgate]
    exact h.controlPos_eq hfar hmax hdt hzone
  · rw [tick_of_closed hgate]

/-- So the regulator is never sent into the stop zone of the goal. -/
theorem HeldBack.regulated (h : HeldBack accel) (hfar : FarGoal accel.targetPos.toInt) :
    18 ≤ |(FloatArith.toInt32 accel.controlPos).toInt - accel.targetPos.toInt| ∧
      |(FloatArith.toInt32 accel.controlPos).toInt - accel.targetPos.toInt| ≤ 82 := by
  obtain ⟨m, hpos, hlow, hhigh⟩ := h.distance hfar
  have hgoal := hfar.2
  have hpos' : accel.controlPos.val = (m * 64 : ℤ) := by
    rw [hpos]
    push_cast
    rfl
  rw [hpos'] at hlow hhigh
  have hlow' : 18 ≤ |m * 64 - accel.targetPos.toInt| := by exact_mod_cast hlow
  have hhigh' : |m * 64 - accel.targetPos.toInt| ≤ 82 := by exact_mod_cast hhigh
  have hfits : (FloatArith.toInt32 accel.controlPos).toInt = m * 64 := by
    rw [abs_le] at hgoal hhigh'
    rw [Single.toInt32_eq, hpos', toInt_toInt32, trunc_intCast]
    all_goals rw [trunc_intCast]; omega
  rw [hfits]
  exact ⟨hlow', hhigh'⟩

end Mecanum.Wheel
