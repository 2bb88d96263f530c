import Mecanum.Foundations.Trace
import Mecanum.Robot.Wheels
import Mecanum.Wheel.Events
import Mecanum.Foundations.Single
import Mecanum.Wheel.Rounding

/-! # The first control step after a mode switch

`set_run_mode` clears the integral and keeps `prev_input`, so the first derivative of the new loop
is taken against the variable of the old one. Each rounded operation on that difference is monotone, so
it is hidden exactly when the least and the greatest `int32_t` leave the same duty.
-/

namespace Mecanum.Wheel
open Motor FloatArith RoundedArith Trace CInt
set_option autoImplicit false

/-- A change between a position loop and the speed loop, either way. -/
def IsSwitch (old new : AccelRunMode) : Prop :=
  ((old = .accelPos ∨ old = .pidPos) ∧ new = .pidSpeed) ∨
    (old = .pidSpeed ∧ (new = .accelPos ∨ new = .pidPos))

instance (old new : AccelRunMode) : Decidable (IsSwitch old new) :=
  inferInstanceAs (Decidable (_ ∨ _))

/-- What can happen to a controller between the switch and its next control step. -/
inductive Between
  | edge
  | tick (pos : Int32) (uptime : Int64)
  | setTargetPos (pos : Int32)
  | setTargetSpeed (speed : Int16)

section Switch
variable {F : Type} [FloatArith F]

def Between.apply (accel : ZephyrAccelmotor F) : Between → ZephyrAccelmotor F
  | .edge => { accel with encoder := encoderIsr accel.encoder }
  | .tick pos uptime => (zephyrAccelmotorTick accel pos uptime).1
  | .setTargetPos pos => zephyrAccelmotorSetTargetPos accel pos
  | .setTargetSpeed speed => zephyrAccelmotorSetTargetSpeed accel speed

def NoControlStep (accel : ZephyrAccelmotor F) (b : Between) (_ : ZephyrAccelmotor F) : Prop :=
  match b with
  | .tick _ uptime => ¬ gateOpen accel uptime
  | _ => True

def switched (accel : ZephyrAccelmotor F) (mode : AccelRunMode) (between : List Between) :
    ZephyrAccelmotor F :=
  run Between.apply (zephyrAccelmotorSetRunMode accel mode) between

def firstTick (accel : ZephyrAccelmotor F) (mode : AccelRunMode) (between : List Between)
    (pos : Int32) (uptime : Int64) : ZephyrAccelmotor F × List Command × Bool :=
  zephyrAccelmotorTick (switched accel mode between) pos uptime

/-- Two controllers that differ in `prev_input` alone compute the same duty and make the same
commands in that tick. -/
def SwitchForgets (accel : ZephyrAccelmotor F) (mode : AccelRunMode) (between : List Between)
    (pos : Int32) (uptime : Int64) : Prop :=
  ∀ p q : Int32,
    (firstTick { accel with prevInput := p } mode between pos uptime).1.dutyF =
        (firstTick { accel with prevInput := q } mode between pos uptime).1.dutyF ∧
      (firstTick { accel with prevInput := p } mode between pos uptime).2.1 =
        (firstTick { accel with prevInput := q } mode between pos uptime).2.1

def sampled (accel : ZephyrAccelmotor F) (mode : AccelRunMode) (between : List Between)
    (pos : Int32) : ZephyrAccelmotor F :=
  sample { switched accel mode between with currentPos := pos }

def loopTarget (accel : ZephyrAccelmotor F) : Int32 :=
  match accel.runMode with
  | .accelPos => toInt32 (profileStep accel).controlPos
  | .pidPos => accel.targetPos
  | _ => accel.targetSpeed.toInt32

def loopInput (accel : ZephyrAccelmotor F) : Int32 :=
  match accel.runMode with
  | .accelPos => accel.currentPos
  | .pidPos => accel.currentPos
  | _ => accel.currentSpeed.toInt32

def loopCutoff (accel : ZephyrAccelmotor F) : Bool := decide (accel.runMode ≠ .pidSpeed)

/-! ## The tick after the switch -/

section Tick
variable (accel : ZephyrAccelmotor F) (p : Int32)

theorem apply_prevInput (b : Between) (h : NoControlStep accel b (b.apply accel)) :
    Between.apply { accel with prevInput := p } b =
      { Between.apply accel b with prevInput := p } := by
  cases b with
  | tick pos uptime =>
      have h' : ¬ gateOpen { accel with prevInput := p } uptime := h
      show (zephyrAccelmotorTick _ pos uptime).1 =
        { (zephyrAccelmotorTick accel pos uptime).1 with prevInput := p }
      rw [tick_of_closed h', tick_of_closed h]
  | _ => rfl

theorem run_prevInput (between : List Between)
    (h : Always Between.apply NoControlStep accel between) :
    run Between.apply { accel with prevInput := p } between =
      { run Between.apply accel between with prevInput := p } := by
  induction between generalizing accel with
  | nil => rfl
  | cons b between ih =>
      rw [run_cons, run_cons, apply_prevInput accel p b h.1]
      exact ih (Between.apply accel b) h.2

theorem run_integral (between : List Between)
    (h : Always Between.apply NoControlStep accel between) :
    (run Between.apply accel between).integral = accel.integral ∧
      (run Between.apply accel between).runMode = accel.runMode := by
  induction between generalizing accel with
  | nil => exact ⟨rfl, rfl⟩
  | cons b between ih =>
      have hkeep : (Between.apply accel b).integral = accel.integral ∧
          (Between.apply accel b).runMode = accel.runMode := by
        cases b with
        | tick pos uptime =>
            show (zephyrAccelmotorTick accel pos uptime).1.integral = _ ∧
              (zephyrAccelmotorTick accel pos uptime).1.runMode = _
            rw [tick_of_closed h.1]
            exact ⟨rfl, rfl⟩
        | _ => exact ⟨rfl, rfl⟩
      rw [run_cons, ← hkeep.1, ← hkeep.2]
      exact ih (Between.apply accel b) h.2

theorem setRunMode_integral (mode : AccelRunMode) :
    (zephyrAccelmotorSetRunMode accel mode).integral = lit 0 ∧
      (zephyrAccelmotorSetRunMode accel mode).runMode = mode := by
  cases mode <;> exact ⟨rfl, rfl⟩

theorem setRunMode_prevInput (mode : AccelRunMode) :
    zephyrAccelmotorSetRunMode { accel with prevInput := p } mode =
      { zephyrAccelmotorSetRunMode accel mode with prevInput := p } := by
  cases mode <;> rfl

theorem regulate_eq_pidControl (h : accel.runMode = .accelPos ∨ accel.runMode = .pidPos ∨
      accel.runMode = .pidSpeed) :
    (regulate accel).1.dutyF =
        (pidUpdate accel (loopTarget accel) (loopInput accel) (loopCutoff accel)).dutyF ∧
      (regulate accel).2 =
        let duty := toInt16 (regulate accel).1.dutyF
        [⟨duty, (zephyrMotorSetSpeed accel.motor duty).2⟩] := by
  unfold regulate loopTarget loopInput loopCutoff
  rcases h with h | h | h <;> rw [h] <;> exact ⟨rfl, rfl⟩

end Tick

section FirstTick
variable (accel : ZephyrAccelmotor F) (mode : AccelRunMode) (between : List Between)
  (pos : Int32) (uptime : Int64)

theorem sampled_integral
    (hquiet : Always Between.apply NoControlStep (zephyrAccelmotorSetRunMode accel mode) between) :
    (sampled accel mode between pos).integral = lit 0 ∧
      (sampled accel mode between pos).runMode = mode := by
  have hkeep := run_integral (zephyrAccelmotorSetRunMode accel mode) between hquiet
  have hset := setRunMode_integral accel mode
  exact ⟨hkeep.1.trans hset.1, hkeep.2.trans hset.2⟩

theorem switched_prevInput (p : Int32)
    (hquiet : Always Between.apply NoControlStep (zephyrAccelmotorSetRunMode accel mode) between) :
    switched { accel with prevInput := p } mode between =
      { switched accel mode between with prevInput := p } := by
  unfold switched
  rw [setRunMode_prevInput, run_prevInput _ _ _ hquiet]

/-- The tick regulates the sampled controller, with whatever `prev_input` was there before. -/
theorem firstTick_prevInput (p : Int32)
    (hquiet : Always Between.apply NoControlStep (zephyrAccelmotorSetRunMode accel mode) between)
    (hgate : gateOpen (switched accel mode between) uptime) :
    (firstTick { accel with prevInput := p } mode between pos uptime).1 =
        (regulate { sampled accel mode between pos with prevInput := p }).1 ∧
      (firstTick { accel with prevInput := p } mode between pos uptime).2.1 =
        (regulate { sampled accel mode between pos with prevInput := p }).2 := by
  have hgate' : gateOpen { switched accel mode between with
      prevInput := p, currentPos := pos } uptime := hgate
  unfold firstTick
  rw [switched_prevInput _ _ _ _ hquiet]
  unfold zephyrAccelmotorTick controlStep
  rw [if_pos hgate']
  exact ⟨rfl, rfl⟩

end FirstTick
end Switch

/-! ## What the derivative changes -/

section Rounded
variable {F : Type} [FloatArith F] [RoundedArith F] (accel : ZephyrAccelmotor F) (mode : AccelRunMode)
  (between : List Between) (pos : Int32) (uptime : Int64)

/-- The three terms of `pid_control` for a difference of `d` in the derivative, with the integral
cleared. -/
def sumWith (d : ℤ) : F :=
  ofInt (loopTarget accel - loopInput accel).toInt * accel.kp + ofInt d * accel.kd / accel.dtSec +
    (lit 0 + ofInt (loopTarget accel - loopInput accel).toInt * accel.ki * accel.dtSec)

/-- The least and the greatest difference leave no trace in the duty: they give the same sum, or sums
beyond the same limit. -/
def DerivativeHidden : Prop :=
  sumWith accel (-2147483648) = sumWith accel 2147483647 ∨ (0 < accel.maxSpeed ∧
    (((accel.maxSpeed.toNat : ℚ) ≤ val (sumWith accel (-2147483648)) ∧
        (accel.maxSpeed.toNat : ℚ) ≤ val (sumWith accel 2147483647)) ∨
      (val (sumWith accel (-2147483648)) ≤ -(accel.maxSpeed.toNat : ℚ) ∧
        val (sumWith accel 2147483647) ≤ -(accel.maxSpeed.toNat : ℚ))))

theorem exists_sub_toInt (current : Int32) {d : ℤ} (h0 : -2147483648 ≤ d) (h1 : d ≤ 2147483647) :
    ∃ p : Int32, (p - current).toInt = d := by
  refine ⟨Int32.ofInt d + current, ?_⟩
  rw [Int32.add_sub_cancel, Int32.toInt_ofInt]
  exact Int.bmod_eq_of_le (by simpa using h0) (by simp; omega)

theorem pidUpdate_prevInput (hintegral : accel.integral = lit 0) (cutoff : Bool) (p : Int32) :
    (pidUpdate { accel with prevInput := p } (loopTarget accel) (loopInput accel) cutoff).dutyF =
      limitDuty accel.maxSpeed (sumWith accel (p - loopInput accel).toInt) := by
  rw [dutyF_pidUpdate]
  unfold ZephyrAccelmotor.pidSum sumWith
  simp only [hintegral]

/-- Every operation on the difference only grows or only falls, and so does the limited sum. -/
theorem limitedSum_oneWay :
    Limit.OneWay fun d => val (limitDuty accel.maxSpeed (sumWith accel d)) := by
  have hcast : Limit.OneWay fun d : ℤ => rnd F d :=
    .inl fun d e hle => rnd_le (Int.cast_le.mpr hle)
  have hproduct : Limit.OneWay fun d : ℤ => rnd F (rnd F d * val accel.kd) :=
    (hcast.mul_const _).comp fun _ _ hle => rnd_le hle
  have hderivative : Limit.OneWay fun d : ℤ =>
      rnd F (rnd F (rnd F d * val accel.kd) / val accel.dtSec) :=
    (hproduct.div_const _).comp fun _ _ hle => rnd_le hle
  have hadded : ∀ c c' : ℚ, ∀ x y : ℚ, x ≤ y →
      rnd F (rnd F (c + x) + c') ≤ rnd F (rnd F (c + y) + c') := by
    intro c c' x y hle
    have hinner : rnd F (c + x) ≤ rnd F (c + y) := rnd_le (by linarith)
    exact rnd_le (by linarith)
  have hsum := hderivative.comp (hadded
    (val (ofInt (loopTarget accel - loopInput accel).toInt * accel.kp))
    (val (lit 0 + ofInt (loopTarget accel - loopInput accel).toInt * accel.ki * accel.dtSec)))
  unfold sumWith
  simp only [val_limitDuty, val_add _ (lit 0 + _), val_add _ (_ / _), val_div, val_mul (ofInt _) accel.kd,
    val_ofInt]
  split
  · exact hsum.comp fun _ _ hle => Limit.limit_le_limit hle
  · exact hsum

theorem limitedSum_ends_iff :
    val (limitDuty accel.maxSpeed (sumWith accel (-2147483648))) =
        val (limitDuty accel.maxSpeed (sumWith accel 2147483647)) ↔ DerivativeHidden accel := by
  have hval : ∀ x y : F, val x = val y ↔ x = y := fun x y => ⟨val_inj, congrArg val⟩
  unfold DerivativeHidden
  rw [val_limitDuty, val_limitDuty, ← hval]
  by_cases hmax : 0 < accel.maxSpeed
  · have hm : (0 : ℚ) < accel.maxSpeed.toNat := Nat.cast_pos.mpr (UInt16.lt_iff_toNat_lt.mp hmax)
    simp only [hmax, if_true, true_and]
    exact Limit.limit_eq_limit_iff hm
  · simp only [hmax, if_false, false_and, or_false]

/-- The regulator forgets `prev_input` exactly when its derivative is hidden. -/
theorem pidUpdate_forgets_iff (hintegral : accel.integral = lit 0) (cutoff : Bool) :
    (∀ p q : Int32,
        (pidUpdate { accel with prevInput := p } (loopTarget accel) (loopInput accel) cutoff).dutyF =
          (pidUpdate { accel with prevInput := q } (loopTarget accel) (loopInput accel) cutoff).dutyF) ↔
      DerivativeHidden accel := by
  rw [← limitedSum_ends_iff, ← (limitedSum_oneWay accel).const_iff (by decide)]
  constructor
  · intro h d e hd hd' he he'
    obtain ⟨p, rfl⟩ := exists_sub_toInt (loopInput accel) hd hd'
    obtain ⟨q, rfl⟩ := exists_sub_toInt (loopInput accel) he he'
    have hpq := h p q
    rw [pidUpdate_prevInput accel hintegral, pidUpdate_prevInput accel hintegral] at hpq
    exact congrArg val hpq
  · intro h p q
    have hp := int32_bounds (p - loopInput accel)
    have hq := int32_bounds (q - loopInput accel)
    rw [pidUpdate_prevInput accel hintegral, pidUpdate_prevInput accel hintegral]
    exact val_inj (h _ _ hp.1 (by omega) hq.1 (by omega))

/-- The first control step after a switch between a position loop and the speed loop forgets the
`prev_input` of the old loop exactly when its derivative is hidden. -/
theorem mode_switch_forgets_iff (accel : ZephyrAccelmotor F) (mode : AccelRunMode)
    (between : List Between) (pos : Int32) (uptime : Int64) (hswitch : IsSwitch accel.runMode mode)
    (hquiet : Always Between.apply NoControlStep (zephyrAccelmotorSetRunMode accel mode) between)
    (hgate : gateOpen (switched accel mode between) uptime) :
    SwitchForgets accel mode between pos uptime ↔
      DerivativeHidden (sampled accel mode between pos) := by
  obtain ⟨hintegral, hmode⟩ := sampled_integral accel mode between pos hquiet
  have hloop : mode = .accelPos ∨ mode = .pidPos ∨ mode = .pidSpeed := by
    obtain ⟨_, h⟩ | ⟨_, h | h⟩ := hswitch
    · exact .inr (.inr h)
    · exact .inl h
    · exact .inr (.inl h)
  rw [← hmode] at hloop
  have htick := fun p => firstTick_prevInput accel mode between pos uptime p hquiet hgate
  have hregulate := fun p : Int32 =>
    regulate_eq_pidControl { sampled accel mode between pos with prevInput := p } hloop
  rw [← pidUpdate_forgets_iff _ hintegral (loopCutoff (sampled accel mode between pos))]
  unfold SwitchForgets
  constructor
  · intro h p q
    have hpq := (h p q).1
    rw [(htick p).1, (htick q).1, (hregulate p).1, (hregulate q).1] at hpq
    exact hpq
  · intro h p q
    have hduty : (regulate { sampled accel mode between pos with prevInput := p }).1.dutyF =
        (regulate { sampled accel mode between pos with prevInput := q }).1.dutyF := by
      rw [(hregulate p).1, (hregulate q).1]
      exact h p q
    rw [(htick p).1, (htick q).1, (htick p).2, (htick q).2, (hregulate p).2, (hregulate q).2, hduty]
    exact ⟨rfl, rfl⟩

/-- A wheel of the robot after a position move of 50 counts and two more control steps at rest. -/
def movedWheel : ZephyrAccelmotor Single :=
  (run WheelRun.step
    (WheelRun.start (Robot.wheelAccelmotor .fl (zephyrEncoderInit true 0).1 0) false 0)
    ([.setRunMode .accelPos, .setTargetPos 50] ++ List.replicate 50 .edge ++
      [.getCount, .tickStart 20, .tickFinish, .getCount, .tickStart 40, .tickFinish,
        .getCount, .tickStart 60, .tickFinish])).accel

theorem mode_switch_forgets_moved :
    SwitchForgets movedWheel .pidSpeed [.setTargetSpeed 0] 50 80 ↔
      DerivativeHidden (sampled movedWheel .pidSpeed [.setTargetSpeed 0] 50) :=
  mode_switch_forgets_iff _ _ _ _ _ (by decide +kernel) ⟨trivial, trivial⟩ (by decide +kernel)

/-- The wheel is at rest, its speed samples and its target speed are 0, and the switch to the speed
loop commands a duty of 25: the derivative subtracts the speed 0 from the position 50. -/
theorem mode_switch_kick :
    ¬ SwitchForgets movedWheel .pidSpeed [.setTargetSpeed 0] 50 80 ∧
      (sampled movedWheel .pidSpeed [.setTargetSpeed 0] 50).speedBuf = #v[0, 0, 0] ∧
      (sampled movedWheel .pidSpeed [.setTargetSpeed 0] 50).currentSpeed = 0 ∧
      (firstTick movedWheel .pidSpeed [.setTargetSpeed 0] 50 80).2.1.map Command.duty = [25] := by
  refine ⟨fun h => ?_, by decide +kernel, by decide +kernel, by decide +kernel⟩
  exact absurd (congrArg Single.val (h 50 0).1) (by decide +kernel)

end Rounded
end Mecanum.Wheel
