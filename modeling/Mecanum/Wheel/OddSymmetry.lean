import Mecanum.Foundations.Trace
import Mecanum.Motor.Opposite
import Mecanum.Robot.Wheels
import Mecanum.Wheel.Calls
import Mecanum.Wheel.Profile

/-! # The controller is odd-symmetric

A run and its replay with every position and every target negated, side by side. As long as nothing
wraps, `Opposite` holds between the two controllers after every call: every signed quantity of one is
the negation of the other's.
-/

namespace Mecanum.Wheel
open Motor FloatArith Exact Trace CInt
set_option autoImplicit false

/-- Two controllers with the same settings and opposite states. -/
structure ZephyrAccelmotor.Opposite (a b : ZephyrAccelmotor ℚ) : Prop where
  motor : a.motor.Opposite b.motor
  dtMs : b.dtMs = a.dtMs
  dtSec : b.dtSec = a.dtSec
  dtSec_nonneg : 0 ≤ a.dtSec
  stopzone : b.stopzone = a.stopzone
  maxSpeed : b.maxSpeed = a.maxSpeed
  acceleration : b.acceleration = a.acceleration
  runMode : b.runMode = a.runMode
  kp : b.kp = a.kp
  ki : b.ki = a.ki
  kd : b.kd = a.kd
  lastTickTime : b.lastTickTime = a.lastTickTime
  speedBufIdx : b.speedBufIdx = a.speedBufIdx
  currentPos : b.currentPos.toInt = -a.currentPos.toInt
  lastPos : b.lastPos.toInt = -a.lastPos.toInt
  targetPos : b.targetPos.toInt = -a.targetPos.toInt
  prevInput : b.prevInput.toInt = -a.prevInput.toInt
  currentSpeed : b.currentSpeed.toInt = -a.currentSpeed.toInt
  targetSpeed : b.targetSpeed.toInt = -a.targetSpeed.toInt
  speedBuf : ∀ i, (h : i < 3) → b.speedBuf[i].toInt = -a.speedBuf[i].toInt
  dutyF : b.dutyF = -a.dutyF
  filteredSpeed : b.filteredSpeed = -a.filteredSpeed
  integral : b.integral = -a.integral
  lastSpeed : b.lastSpeed = -a.lastSpeed
  controlPos : b.controlPos = -a.controlPos
  controlSpeed : b.controlSpeed = -a.controlSpeed

/-! ## What must not wrap -/

/-- The values of the speed sample, and of its filter, of a control step that starts from `a`. -/
structure SampleFits (a : ZephyrAccelmotor ℚ) : Prop where
  counts : Fits32 (a.currentPos.toInt - a.lastPos.toInt)
  scaled : Fits32 ((a.currentPos.toInt - a.lastPos.toInt) * 1000)
  raw : Fits16 (((a.currentPos.toInt - a.lastPos.toInt) * 1000).tdiv a.dtMs.toInt32.toInt)
  filtered : Fits16 (trunc (sample a).filteredSpeed)

structure PidFits (a : ZephyrAccelmotor ℚ) (target current : Int32) (cutoff : Bool) : Prop where
  error : Fits32 (target.toInt - current.toInt)
  change : Fits32 (a.prevInput.toInt - current.toInt)
  duty : Fits16 (trunc (pidUpdate a target current cutoff).dutyF)

def RegulateFits (a : ZephyrAccelmotor ℚ) : Prop :=
  match a.runMode with
  | .accelPos => Fits32 (trunc (accelPosUpdate a).controlPos) ∧
      PidFits (accelPosUpdate a) (FloatArith.toInt32 (accelPosUpdate a).controlPos) a.currentPos true
  | .pidPos => PidFits a a.targetPos a.currentPos true
  | .accelSpeed => Fits16 (a.targetSpeed.toInt - a.currentSpeed.toInt) ∧
      Fits16 (trunc (accelSpeedUpdate a).dutyF)
  | .pidSpeed => PidFits a a.targetSpeed.toInt32 a.currentSpeed.toInt32 false
  | .idleRun => True

/-- No value that a call computes wraps, nor would its negation. -/
def CallFits (a : ZephyrAccelmotor ℚ) : AccelCall → Prop
  | .setRunMode _ => True
  | .setTargetPos pos => Fits32 pos.toInt
  | .setTargetSpeed speed => Fits16 speed.toInt
  | .tick pos uptime => Fits32 pos.toInt ∧
      (¬ a.runMode.code > 1 → Fits32 (a.targetPos.toInt - pos.toInt)) ∧
      (gateOpen a uptime → SampleFits { a with currentPos := pos } ∧
        RegulateFits (sample { a with currentPos := pos }))

/-! ## The sample -/

theorem median_opposite {a b c a' b' c' : Int16} (ha : a'.toInt = -a.toInt)
    (hb : b'.toInt = -b.toInt) (hc : c'.toInt = -c.toInt) :
    (median a' b' c').toInt = -(median a b c).toInt := by
  unfold median
  simp only [Int16.le_iff_toInt_le, ha, hb, hc]
  split_ifs <;> omega

section Sample
variable {a b : ZephyrAccelmotor ℚ}

theorem toInt16_opposite {x y : ℚ} (h : y = -x) (hfits : Fits16 (trunc x)) :
    (Exact.toInt16 y).toInt = -(Exact.toInt16 x).toInt := by
  have hneg : trunc y = -trunc x := by rw [h, trunc_neg]
  obtain ⟨hlow, hhigh⟩ := abs_le.mp hfits
  rw [toInt_toInt16 (by omega) (by omega), toInt_toInt16 (by omega) (by omega), hneg]

theorem toInt32_opposite {x y : ℚ} (h : y = -x) (hfits : Fits32 (trunc x)) :
    (Exact.toInt32 y).toInt = -(Exact.toInt32 x).toInt := by
  have hneg : trunc y = -trunc x := by rw [h, trunc_neg]
  obtain ⟨hlow, hhigh⟩ := abs_le.mp hfits
  rw [toInt_toInt32 (by omega) (by omega), toInt_toInt32 (by omega) (by omega), hneg]

theorem sub_opposite {x y x' y' : Int32} (hx : x'.toInt = -x.toInt) (hy : y'.toInt = -y.toInt)
    (hfits : Fits32 (x.toInt - y.toInt)) : (x' - y').toInt = -(x - y).toInt := by
  have hneg : x'.toInt - y'.toInt = -(x.toInt - y.toInt) := by omega
  rw [hfits.toInt_sub, Fits32.toInt_sub (hneg ▸ hfits.neg), hneg]

theorem toInt_rawSpeed_of_fits {n : ℤ} (hn : a.currentPos.toInt - a.lastPos.toInt = n)
    (hcounts : Fits32 n) (hscaled : Fits32 (n * 1000))
    (hraw : Fits16 ((n * 1000).tdiv a.dtMs.toInt32.toInt)) :
    (rawSpeed a).toInt = (n * 1000).tdiv a.dtMs.toInt32.toInt := by
  have hdelta : (a.currentPos - a.lastPos).toInt = n := by
    rw [← hn] at hcounts
    rw [hcounts.toInt_sub, hn]
  have h1000 : (1000 : Int32).toInt = 1000 := rfl
  have hproduct : ((a.currentPos - a.lastPos) * 1000).toInt = n * 1000 := by
    obtain ⟨hlow, hhigh⟩ := abs_le.mp hscaled
    rw [Int32.toInt_mul, hdelta, h1000]
    exact Int.bmod_eq_of_le (by simp; omega) (by simp; omega)
  obtain ⟨hlow, hhigh⟩ := abs_le.mp hraw
  have hquot : ((a.currentPos - a.lastPos) * 1000 / a.dtMs.toInt32).toInt =
      (n * 1000).tdiv a.dtMs.toInt32.toInt := by
    rw [Int32.toInt_div, hproduct]
    exact Int.bmod_eq_of_le (by simp; omega) (by simp; omega)
  unfold rawSpeed
  rw [Int32.toInt_toInt16, hquot]
  exact Int.bmod_eq_of_le (by simp; omega) (by simp; omega)

theorem rawSpeed_opposite (h : a.Opposite b) (hfits : SampleFits a) :
    (rawSpeed b).toInt = -(rawSpeed a).toInt := by
  have hn : b.currentPos.toInt - b.lastPos.toInt = -(a.currentPos.toInt - a.lastPos.toInt) := by
    have hcurrent := h.currentPos
    have hlast := h.lastPos
    omega
  have hscaled : -(a.currentPos.toInt - a.lastPos.toInt) * 1000 =
      -((a.currentPos.toInt - a.lastPos.toInt) * 1000) := Int.neg_mul _ _
  have hraw : (-(a.currentPos.toInt - a.lastPos.toInt) * 1000).tdiv b.dtMs.toInt32.toInt =
      -((a.currentPos.toInt - a.lastPos.toInt) * 1000).tdiv a.dtMs.toInt32.toInt := by
    rw [hscaled, Int.neg_tdiv, h.dtMs]
  rw [toInt_rawSpeed_of_fits hn hfits.counts.neg (hscaled ▸ hfits.scaled.neg)
    (hraw ▸ hfits.raw.neg), hraw,
    toInt_rawSpeed_of_fits rfl hfits.counts hfits.scaled hfits.raw]

/-- The buffer of the median filter after a new sample. -/
theorem setIfInBounds_opposite {u v : Vector Int16 3} (k : ℕ) {x y : Int16}
    (huv : ∀ (i : ℕ) (h : i < 3), v[i].toInt = -u[i].toInt) (hxy : y.toInt = -x.toInt) :
    ∀ (i : ℕ) (h : i < 3), (v.setIfInBounds k y)[i].toInt = -(u.setIfInBounds k x)[i].toInt := by
  intro i hi
  rw [Vector.getElem_setIfInBounds hi, Vector.getElem_setIfInBounds hi]
  split
  · exact hxy
  · exact huv i hi

/-- Sampling keeps the two controllers opposite. -/
theorem sample_opposite (h : a.Opposite b) (hfits : SampleFits a) :
    (sample a).Opposite (sample b) := by
  have hraw := rawSpeed_opposite h hfits
  have hbuf := setIfInBounds_opposite a.speedBufIdx.toNat h.speedBuf hraw
  have hmedian := median_opposite (hbuf 0 (by decide)) (hbuf 1 (by decide)) (hbuf 2 (by decide))
  have hfiltered : (sample b).filteredSpeed = -(sample a).filteredSpeed := by
    unfold sample copyDirection
    rw [sampleSpeed_eq, sampleSpeed_eq]
    unfold filterSpeed
    simp only [ofInt_eq, lit_eq, h.speedBufIdx, hmedian, h.filteredSpeed]
    push_cast
    ring
  have hspeed := toInt16_opposite hfiltered hfits.filtered
  refine { h with
    lastTickTime := ?_, speedBufIdx := ?_, lastPos := h.currentPos, currentSpeed := hspeed,
    speedBuf := ?_, filteredSpeed := hfiltered }
  · show b.lastTickTime + b.dtMs = a.lastTickTime + a.dtMs
    rw [h.lastTickTime, h.dtMs]
  · show UInt8.ofNat ((b.speedBufIdx.toNat + 1) % 3) = UInt8.ofNat ((a.speedBufIdx.toNat + 1) % 3)
    rw [h.speedBufIdx]
  · show ∀ i, (hi : i < 3) →
      (b.speedBuf.setIfInBounds b.speedBufIdx.toNat (rawSpeed b))[i].toInt =
        -(a.speedBuf.setIfInBounds a.speedBufIdx.toNat (rawSpeed a))[i].toInt
    rw [h.speedBufIdx]
    exact hbuf

end Sample

/-! ## The regulators -/

section Regulators
variable {a b : ZephyrAccelmotor ℚ}

theorem iabs32_opposite {x y : Int32} (h : y.toInt = -x.toInt) : iabs32 y = iabs32 x := by
  have hx := int32_bounds x
  have hy := int32_bounds y
  have habs : ∀ z : Int32, -2147483648 < z.toInt → (iabs32 z).toInt = |z.toInt| :=
    fun z hz => toInt_iabs32 hz
  rw [← Int32.toInt_inj, habs y (by omega), habs x (by omega), h, abs_neg]

/-- The same motor calls with negated duties and the same pulse widths. -/
structure OppositeCommands (cs ds : List Command) : Prop where
  duty : ds.map (fun c => c.duty.toInt) = cs.map (fun c => -c.duty.toInt)
  pulses : ds.map (fun c => c.outputs.filterMap Output.pulse) =
    cs.map (fun c => c.outputs.filterMap Output.pulse)

theorem commandDuty_opposite (h : a.Opposite b) (hfits : Fits16 (trunc a.dutyF)) :
    (commandDuty a).1.Opposite (commandDuty b).1 ∧
      OppositeCommands (commandDuty a).2 (commandDuty b).2 := by
  have hduty := toInt16_opposite h.dutyF hfits
  obtain ⟨hmotor, hpulses⟩ := h.motor.setSpeed hduty
  refine ⟨{ h with motor := hmotor }, ?_, ?_⟩
  · exact congrArg (fun n => [n]) hduty
  · exact congrArg (fun l => [l]) hpulses

section Pid
variable {target current target' current' : Int32} {cutoff : Bool}

theorem clearsIntegral_opposite (h : a.Opposite b) (htarget : target'.toInt = -target.toInt)
    (herror : (target' - current').toInt = -(target - current).toInt) :
    ClearsIntegral b target' current' cutoff ↔ ClearsIntegral a target current cutoff := by
  have hzero : ∀ {x y : Int32}, y.toInt = -x.toInt → (y = 0 ↔ x = 0) := by
    intro x y hxy
    rw [← Int32.toInt_inj, ← @Int32.toInt_inj x, Int32.toInt_zero, hxy, neg_eq_zero]
  unfold ClearsIntegral
  cases cutoff with
  | true => simp only [if_true, iabs32_opposite herror, h.stopzone]
  | false => simp only [Bool.false_eq_true, if_false, hzero herror, hzero htarget]

theorem pidUpdate_opposite (h : a.Opposite b) (htarget : target'.toInt = -target.toInt)
    (hcurrent : current'.toInt = -current.toInt) (hfits : PidFits a target current cutoff) :
    (pidUpdate a target current cutoff).Opposite (pidUpdate b target' current' cutoff) := by
  have herror := sub_opposite htarget hcurrent hfits.error
  have hchange := sub_opposite h.prevInput hcurrent hfits.change
  have hduty : (pidUpdate b target' current' cutoff).dutyF =
      -(pidUpdate a target current cutoff).dutyF := by
    rw [pidUpdate_dutyF, pidUpdate_dutyF, ← limitDuty_neg, h.maxSpeed, herror, hchange, h.kp, h.ki,
      h.kd, h.dtSec, h.integral]
    push_cast
    ring_nf
  have hintegral : (pidUpdate b target' current' cutoff).integral =
      -(pidUpdate a target current cutoff).integral := by
    rw [pidUpdate_integral, pidUpdate_integral]
    simp only [clearsIntegral_opposite h htarget herror]
    split
    · rw [neg_zero]
    · rw [herror, h.ki, h.dtSec, h.integral]
      push_cast
      ring
  exact { h with dutyF := hduty, prevInput := hcurrent, integral := hintegral }

end Pid

section Profile

theorem toGo_opposite (h : a.Opposite b) : b.toGo = -a.toGo := by
  unfold ZephyrAccelmotor.toGo
  rw [h.targetPos, h.controlPos]
  push_cast
  ring

theorem settled_opposite (h : a.Opposite b) : b.Settled ↔ a.Settled := by
  unfold ZephyrAccelmotor.Settled
  rw [toGo_opposite h, abs_neg]

theorem snaps_opposite (h : a.Opposite b) : b.Snaps ↔ a.Snaps := by
  have hsub : -a.lastSpeed - -a.controlSpeed = -(a.lastSpeed - a.controlSpeed) := by ring
  unfold ZephyrAccelmotor.Snaps
  rw [toGo_opposite h, abs_neg, h.stopzone, h.lastSpeed, h.controlSpeed, hsub, abs_neg]

theorem brakes_opposite (h : a.Opposite b) : b.Brakes ↔ a.Brakes := by
  unfold ZephyrAccelmotor.Brakes
  rw [toGo_opposite h, abs_neg, h.controlSpeed, h.acceleration, neg_mul_neg]

theorem nextSpeed_opposite (h : a.Opposite b) : b.nextSpeed = -a.nextSpeed := by
  have hstep : b.brakeStep = a.brakeStep := by
    unfold ZephyrAccelmotor.brakeStep
    rw [toGo_opposite h, abs_neg, h.controlSpeed, neg_mul_neg]
  have hchange : b.speedChange = -a.speedChange := by
    unfold ZephyrAccelmotor.speedChange
    simp only [brakes_opposite h]
    split
    · rw [hstep, h.controlSpeed, sign_neg]
      push_cast
      ring
    · rw [toGo_opposite h, sign_neg, h.acceleration, h.dtSec]
      push_cast
      ring
  have hlimit : ∀ x, b.limitSpeed x = a.limitSpeed x := by
    intro x
    unfold ZephyrAccelmotor.limitSpeed ZephyrAccelmotor.maxSpeedDt
    rw [h.maxSpeed, h.dtSec]
  unfold ZephyrAccelmotor.nextSpeed
  rw [hlimit, hchange, h.controlSpeed, ← neg_add,
    ZephyrAccelmotor.limitSpeed_neg h.dtSec_nonneg]

theorem accelPosUpdate_opposite (h : a.Opposite b) :
    (accelPosUpdate a).Opposite (accelPosUpdate b) := by
  have hdt : 0 ≤ b.dtSec := h.dtSec.symm ▸ h.dtSec_nonneg
  unfold accelPosUpdate
  by_cases hsettled : a.Settled
  · rw [ZephyrAccelmotor.profileStep_of_settled hsettled,
      ZephyrAccelmotor.profileStep_of_settled ((settled_opposite h).mpr hsettled)]
    exact { h with }
  · have hsettled' := mt (settled_opposite h).mp hsettled
    by_cases hsnaps : a.Snaps
    · rw [ZephyrAccelmotor.profileStep_of_snaps h.dtSec_nonneg hsettled hsnaps,
        ZephyrAccelmotor.profileStep_of_snaps hdt hsettled' ((snaps_opposite h).mpr hsnaps)]
      have htarget : (b.targetPos.toInt : ℚ) = -(a.targetPos.toInt : ℚ) := by
        exact_mod_cast h.targetPos
      exact { h with
        controlPos := htarget, controlSpeed := neg_zero.symm, lastSpeed := neg_zero.symm }
    · have hnext := nextSpeed_opposite h
      have hpos : b.controlPos + b.nextSpeed = -(a.controlPos + a.nextSpeed) := by
        rw [h.controlPos, hnext]
        ring
      rw [ZephyrAccelmotor.profileStep_of_moves h.dtSec_nonneg hsettled hsnaps,
        ZephyrAccelmotor.profileStep_of_moves hdt hsettled' (mt (snaps_opposite h).mp hsnaps)]
      exact { h with controlPos := hpos, controlSpeed := hnext, lastSpeed := hnext }

end Profile

theorem accelSpeedUpdate_opposite (h : a.Opposite b)
    (hfits : Fits16 (a.targetSpeed.toInt - a.currentSpeed.toInt)) :
    (accelSpeedUpdate a).Opposite (accelSpeedUpdate b) := by
  have hneg : b.targetSpeed.toInt - b.currentSpeed.toInt =
      -(a.targetSpeed.toInt - a.currentSpeed.toInt) := by
    have htarget := h.targetSpeed
    have hcurrent := h.currentSpeed
    omega
  have herror : (b.targetSpeed - b.currentSpeed).toInt = -(a.targetSpeed - a.currentSpeed).toInt := by
    rw [hfits.toInt_sub, Fits16.toInt_sub (hneg ▸ hfits.neg), hneg]
  have hduty : (accelSpeedUpdate b).dutyF = -(accelSpeedUpdate a).dutyF := by
    unfold accelSpeedUpdate
    simp only [herror, ofInt_eq, Int.cast_neg, fabs32_eq, abs_neg, sign_neg, h.acceleration, h.dtSec,
      h.dutyF, h.maxSpeed, ← limitDuty_neg]
    congr 1
    ring
  exact { h with dutyF := hduty }

theorem regulate_opposite (h : a.Opposite b) (hfits : RegulateFits a) :
    (regulate a).1.Opposite (regulate b).1 ∧ OppositeCommands (regulate a).2 (regulate b).2 := by
  unfold RegulateFits at hfits
  cases hmode : a.runMode with
  | accelPos =>
      rw [hmode] at hfits
      have hprofile := accelPosUpdate_opposite h
      have htarget := toInt32_opposite hprofile.controlPos hfits.1
      rw [regulate_accelPos hmode, regulate_accelPos (h.runMode.trans hmode)]
      exact commandDuty_opposite (pidUpdate_opposite hprofile htarget h.currentPos hfits.2)
        hfits.2.duty
  | pidPos =>
      rw [hmode] at hfits
      rw [regulate_pidPos hmode, regulate_pidPos (h.runMode.trans hmode)]
      exact commandDuty_opposite (pidUpdate_opposite h h.targetPos h.currentPos hfits) hfits.duty
  | accelSpeed =>
      rw [hmode] at hfits
      rw [regulate_accelSpeed hmode, regulate_accelSpeed (h.runMode.trans hmode)]
      exact commandDuty_opposite (accelSpeedUpdate_opposite h hfits.1) hfits.2
  | pidSpeed =>
      rw [hmode] at hfits
      have hwiden : ∀ {x y : Int16}, y.toInt = -x.toInt → y.toInt32.toInt = -x.toInt32.toInt := by
        intro x y hxy
        rw [Int16.toInt_toInt32, Int16.toInt_toInt32, hxy]
      rw [regulate_pidSpeed hmode, regulate_pidSpeed (h.runMode.trans hmode)]
      exact commandDuty_opposite
        (pidUpdate_opposite h (hwiden h.targetSpeed) (hwiden h.currentSpeed) hfits) hfits.duty
  | idleRun =>
      rw [regulate_idleRun hmode, regulate_idleRun (h.runMode.trans hmode)]
      exact ⟨h, rfl, rfl⟩

theorem moving_opposite (h : a.Opposite b)
    (hfits : ¬ a.runMode.code > 1 → Fits32 (a.targetPos.toInt - a.currentPos.toInt)) :
    moving b = moving a := by
  have hstate : b.motor.state ≠ 0 ↔ a.motor.state ≠ 0 := by
    rw [Ne, Ne, ← Int8.toInt_inj, ← @Int8.toInt_inj a.motor.state, h.motor.state, Int8.toInt_zero,
      neg_eq_zero]
  unfold moving zephyrMotorGetState
  rw [h.runMode]
  by_cases hspeed : a.runMode.code > 1
  · rw [if_pos hspeed, if_pos hspeed, decide_eq_decide]
    exact hstate
  · have herror := sub_opposite h.targetPos h.currentPos (hfits hspeed)
    rw [if_neg hspeed, if_neg hspeed, iabs32_opposite herror, h.stopzone, decide_eq_decide.mpr hstate]

end Regulators

/-! ## Runs -/

def AccelCall.opposite : AccelCall → AccelCall
  | .setRunMode mode => .setRunMode mode
  | .setTargetPos pos => .setTargetPos (-pos)
  | .setTargetSpeed speed => .setTargetSpeed (-speed)
  | .tick pos uptime => .tick (-pos) uptime

/-- A controller and the one that replays its run with every position and target negated. -/
structure Replay where
  original : ZephyrAccelmotor ℚ
  replayed : ZephyrAccelmotor ℚ

namespace Replay

def step (s : Replay) (c : AccelCall) : Replay :=
  ⟨s.original.step c, s.replayed.step c.opposite⟩

def NothingWraps (s : Replay) (c : AccelCall) (_ : Replay) : Prop := CallFits s.original c

/-- What a call and its replay show. -/
structure Mirrored (s : Replay) (c : AccelCall) (t : Replay) : Prop where
  currentSpeed : t.replayed.currentSpeed.toInt = -t.original.currentSpeed.toInt
  filteredSpeed : t.replayed.filteredSpeed = -t.original.filteredSpeed
  dutyF : t.replayed.dutyF = -t.original.dutyF
  integral : t.replayed.integral = -t.original.integral
  controlPos : t.replayed.controlPos = -t.original.controlPos
  controlSpeed : t.replayed.controlSpeed = -t.original.controlSpeed
  motorState : t.replayed.motor.state.toInt = -t.original.motor.state.toInt
  commands : OppositeCommands (s.original.call c).2.commands
    (s.replayed.call c.opposite).2.commands
  returned : (s.replayed.call c.opposite).2.returned = (s.original.call c).2.returned

def Inv (s : Replay) : Prop := s.original.Opposite s.replayed

variable {s : Replay} {c : AccelCall}

theorem setRunMode_opposite {a b : ZephyrAccelmotor ℚ} (h : a.Opposite b) (mode : AccelRunMode) :
    (zephyrAccelmotorSetRunMode a mode).Opposite (zephyrAccelmotorSetRunMode b mode) := by
  have hpos : (b.currentPos.toInt : ℚ) = -(a.currentPos.toInt : ℚ) := by
    exact_mod_cast h.currentPos
  have hzero : (lit 0 : ℚ) = -lit 0 := neg_zero.symm
  unfold zephyrAccelmotorSetRunMode
  split
  · exact { h with
      runMode := rfl, integral := hzero, controlPos := hpos, controlSpeed := hzero }
  · exact { h with runMode := rfl, integral := hzero }

/-- A control step of both, from controllers at opposite positions. -/
theorem controlStep_opposite {a b : ZephyrAccelmotor ℚ} (h : a.Opposite b)
    (hreturn : ¬ a.runMode.code > 1 → Fits32 (a.targetPos.toInt - a.currentPos.toInt))
    (hsample : SampleFits a) (hregulate : RegulateFits (sample a)) :
    (regulate (sample a)).1.Opposite (regulate (sample b)).1 ∧
      OppositeCommands (regulate (sample a)).2 (regulate (sample b)).2 ∧
      moving (regulate (sample b)).1 = moving (regulate (sample a)).1 := by
  obtain ⟨hnext, hcommands⟩ := regulate_opposite (sample_opposite h hsample) hregulate
  refine ⟨hnext, hcommands, moving_opposite hnext ?_⟩
  rw [regulate_eq]
  exact hreturn

theorem call_opposite (h : s.Inv) (hfits : CallFits s.original c) :
    (s.step c).Inv ∧
      OppositeCommands (s.original.call c).2.commands (s.replayed.call c.opposite).2.commands ∧
      (s.replayed.call c.opposite).2.returned = (s.original.call c).2.returned := by
  cases c with
  | setRunMode mode => exact ⟨setRunMode_opposite h mode, ⟨rfl, rfl⟩, rfl⟩
  | setTargetPos pos => exact ⟨{ h with targetPos := hfits.toInt_neg }, ⟨rfl, rfl⟩, rfl⟩
  | setTargetSpeed speed => exact ⟨{ h with targetSpeed := hfits.toInt_neg }, ⟨rfl, rfl⟩, rfl⟩
  | tick pos uptime =>
      obtain ⟨hpos, hreturn, hopen⟩ := hfits
      have hmoved : ZephyrAccelmotor.Opposite { s.original with currentPos := pos }
          { s.replayed with currentPos := -pos } := { h with currentPos := hpos.toInt_neg }
      have hgate : gateOpen s.replayed uptime ↔ gateOpen s.original uptime := by
        unfold gateOpen
        rw [h.lastTickTime, h.dtMs]
      unfold Inv step ZephyrAccelmotor.step AccelCall.opposite ZephyrAccelmotor.call
      by_cases hg : gateOpen s.original uptime
      · obtain ⟨hsample, hregulate⟩ := hopen hg
        obtain ⟨hnext, hcommands, hmoving⟩ := controlStep_opposite hmoved hreturn hsample hregulate
        simp only [tick_of_open hg, tick_of_open (hgate.mpr hg)]
        exact ⟨hnext, hcommands, congrArg some hmoving⟩
      · simp only [tick_of_closed hg, tick_of_closed (mt hgate.mp hg)]
        exact ⟨hmoved, ⟨rfl, rfl⟩, congrArg some (moving_opposite hmoved hreturn)⟩

theorem step_mirrored (h : s.Inv) (hfits : NothingWraps s c (s.step c)) :
    Mirrored s c (s.step c) := by
  obtain ⟨hnext, hcommands, hreturned⟩ := call_opposite h hfits
  exact ⟨hnext.currentSpeed, hnext.filteredSpeed, hnext.dutyF, hnext.integral, hnext.controlPos,
    hnext.controlSpeed, hnext.motor.state, hcommands, hreturned⟩

/-- Both controllers as `zephyr_accelmotor_init` leaves them, with the settings of `accel` and of its
motor, which is not reversed. -/
def start (accel : ZephyrAccelmotor ℚ) (dtMs : UInt32) (uptime : Int64) : Replay :=
  let motor := { accel.motor with reversed := false, lastMode := .stop, state := 0 }
  let fresh : ZephyrAccelmotor ℚ :=
    { zephyrAccelmotorSetDt (zephyrAccelmotorInit motor accel.encoder uptime) dtMs with
      stopzone := accel.stopzone
      maxSpeed := accel.maxSpeed
      acceleration := accel.acceleration
      kp := accel.kp
      ki := accel.ki
      kd := accel.kd }
  ⟨fresh, fresh⟩

theorem start_inv (accel : ZephyrAccelmotor ℚ) (dtMs : UInt32) (uptime : Int64) :
    (start accel dtMs uptime).Inv := by
  have hdt : (0 : ℚ) ≤ dtMs.toNat / 1000 := div_nonneg (Nat.cast_nonneg _) (by norm_num)
  have hzero : (lit 0 : ℚ) = -lit 0 := neg_zero.symm
  have hbuf : ∀ i, (hi : i < 3) → (#v[0, 0, 0] : Vector Int16 3)[i].toInt =
      -(#v[0, 0, 0] : Vector Int16 3)[i].toInt := by
    intro i hi
    rcases i with _ | _ | _ | i
    · rfl
    · rfl
    · rfl
    · omega
  exact ⟨⟨rfl, rfl, rfl, rfl, rfl, rfl, rfl⟩, rfl, rfl, hdt, rfl, rfl, rfl, rfl, rfl, rfl, rfl, rfl,
    rfl, rfl, rfl, rfl, rfl, rfl, rfl, hbuf, hzero, hzero, hzero, hzero, hzero, hzero⟩

end Replay

/-- Replaying any run with its positions and targets negated negates everything the controller does,
as long as nothing wraps. -/
theorem odd_symmetry (accel : ZephyrAccelmotor ℚ) (dtMs : UInt32) (uptime : Int64)
    (calls : List AccelCall)
    (hfits : Always Replay.step Replay.NothingWraps (Replay.start accel dtMs uptime) calls) :
    Always Replay.step Replay.Mirrored (Replay.start accel dtMs uptime) calls :=
  Always.of_invariant_of_always (I := Replay.Inv) (fun _ _ h hc => Replay.step_mirrored h hc)
    (fun _ _ h hc => (Replay.call_opposite h hc).1) calls (Replay.start_inv accel dtMs uptime) hfits

/-- A shipped wheel, first in the speed loop and then on a move. -/
def replayedWheel : Replay :=
  Replay.start (Robot.wheelAccelmotor .fl (zephyrEncoderInit true 0).1 0) 20 0

def replayedCalls : List AccelCall :=
  [.setRunMode .pidSpeed, .setTargetSpeed 30, .tick 2 20, .setRunMode .accelPos, .setTargetPos 50,
    .tick 3 40]

theorem odd_symmetry_shipped : Always Replay.step Replay.Mirrored replayedWheel replayedCalls := by
  refine odd_symmetry _ 20 0 replayedCalls ⟨trivial, ?_, ⟨?_, ?_, fun _ => ⟨?_, ?_⟩⟩, trivial, ?_,
    ⟨?_, ?_, fun _ => ⟨?_, ?_⟩⟩, trivial⟩
  · exact (by decide : Fits16 (30 : Int16).toInt)
  · exact (by decide : Fits32 (2 : Int32).toInt)
  · exact fun _ => (by decide : Fits32 ((0 : Int32).toInt - (2 : Int32).toInt))
  · exact ⟨by decide +kernel, by decide +kernel, by decide +kernel, by decide +kernel⟩
  · exact PidFits.mk (by decide +kernel) (by decide +kernel) (by decide +kernel)
  · exact (by decide : Fits32 (50 : Int32).toInt)
  · exact (by decide : Fits32 (3 : Int32).toInt)
  · exact fun _ => (by decide : Fits32 ((50 : Int32).toInt - (3 : Int32).toInt))
  · exact ⟨by decide +kernel, by decide +kernel, by decide +kernel, by decide +kernel⟩
  · exact And.intro (by decide +kernel)
      (PidFits.mk (by decide +kernel) (by decide +kernel) (by decide +kernel))

end Mecanum.Wheel
