import Mecanum.Foundations.Trace
import Mecanum.Robot.Wheels
import Mecanum.Wheel.Calls
import Mecanum.Wheel.Exact

/-! # The integral of the speed loop

In exact arithmetic with the shipped gains the integral is `ki * dt_sec` times the sum of the speed
errors since it was last cleared. Nothing limits it; `pid_control` limits the duty.
-/

namespace Mecanum.Wheel
open Motor FloatArith Exact Trace CInt
set_option autoImplicit false

/-- A speed loop with the sum of the speed errors, and the number of the control steps, since the
integral was last cleared. -/
structure SpeedLoop where
  accel : ZephyrAccelmotor ℚ
  errSum : ℤ
  steps : ℕ

namespace SpeedLoop

def start (accel : ZephyrAccelmotor ℚ) : SpeedLoop :=
  ⟨zephyrAccelmotorSetRunMode accel.shipped .pidSpeed, 0, 0⟩

def count (s : SpeedLoop) (a : ZephyrAccelmotor ℚ) : ℤ × ℕ :=
  if a.targetSpeed = 0 ∧ a.currentSpeed = 0 then (0, 0)
  else (s.errSum + (a.targetSpeed.toInt - a.currentSpeed.toInt), s.steps + 1)

def step (s : SpeedLoop) (c : AccelCall) : SpeedLoop :=
  match s.accel.atControlStep c with
  | some a => ⟨s.accel.step c, (s.count a).1, (s.count a).2⟩
  | none => { s with accel := s.accel.step c }

/-- The run stays in the speed loop, with both speeds within `±MAX_SPEED` at every control step. -/
def InSpeedRange (s : SpeedLoop) (c : AccelCall) (_ : SpeedLoop) : Prop :=
  (∀ mode, c ≠ .setRunMode mode) ∧
    ∀ a ∈ s.accel.atControlStep c, |a.targetSpeed.toInt| ≤ 70 ∧ |a.currentSpeed.toInt| ≤ 70

/-- The limit of the duty bounds the integral. -/
def IntegralWithinLimit (_ : SpeedLoop) (_ : AccelCall) (t : SpeedLoop) : Prop :=
  |t.accel.integral| ≤ t.accel.maxSpeed.toNat

/-- What does bound the integral, and what the limit bounds. -/
structure WindupLaw (s : SpeedLoop) (c : AccelCall) (t : SpeedLoop) : Prop where
  integral : t.accel.integral = 0.008 * t.errSum
  per_step : |t.accel.integral| ≤ 1.12 * t.steps
  within_iff : |t.accel.integral| ≤ t.accel.maxSpeed.toNat ↔ |t.errSum| ≤ 62500
  output : (s.accel.atControlStep c).isSome → |t.accel.dutyF| ≤ t.accel.maxSpeed.toNat

structure Inv (s : SpeedLoop) : Prop where
  mode : s.accel.runMode = .pidSpeed
  ki : s.accel.ki = 0.4
  dtSec : s.accel.dtSec = 0.02
  maxSpeed : s.accel.maxSpeed = 500
  integral : s.accel.integral = 0.008 * s.errSum
  errSum : |s.errSum| ≤ 140 * s.steps

theorem start_inv (accel : ZephyrAccelmotor ℚ) : (start accel).Inv where
  mode := rfl
  ki := rfl
  dtSec := by
    have h20 : (20 : UInt32).toNat = 20 := rfl
    show ((20 : UInt32).toNat : ℚ) / 1000 = 0.02
    rw [h20]
    norm_num
  maxSpeed := rfl
  integral := by
    show (0 : ℚ) = 0.008 * ((0 : ℤ) : ℚ)
    norm_num
  errSum := le_rfl

section Step
variable {s : SpeedLoop} {c : AccelCall} {a : ZephyrAccelmotor ℚ}

theorem clearsIntegral_iff (a : ZephyrAccelmotor ℚ) :
    ClearsIntegral a a.targetSpeed.toInt32 a.currentSpeed.toInt32 false ↔
      a.targetSpeed = 0 ∧ a.currentSpeed = 0 := by
  have herr := toInt_sub_toInt32 a.targetSpeed a.currentSpeed
  unfold ClearsIntegral
  rw [if_neg Bool.false_ne_true]
  simp only [← Int32.toInt_inj, ← Int16.toInt_inj, herr, Int16.toInt_toInt32, Int32.toInt_zero,
    Int16.toInt_zero]
  omega

/-- A control step of the run is one `pid_control` of the sampled controller, which has the settings
and the integral of the controller before. -/
theorem step_eq_pidControl (h : s.Inv) (ha : s.accel.atControlStep c = some a) :
    s.accel.step c = (pidControl a a.targetSpeed.toInt32 a.currentSpeed.toInt32 false).1 ∧
      a.runMode = .pidSpeed ∧ a.ki = 0.4 ∧ a.dtSec = 0.02 ∧ a.maxSpeed = 500 ∧
      a.integral = 0.008 * s.errSum := by
  obtain ⟨pos, uptime, rfl, -, hsample⟩ := ZephyrAccelmotor.atControlStep_cases ha
  have hmode : a.runMode = .pidSpeed := by
    rw [hsample]
    exact h.mode
  refine ⟨?_, hmode, ?_⟩
  · rw [ZephyrAccelmotor.step_of_controlStep ha, regulate_pidSpeed hmode]
  · rw [hsample]
    exact ⟨h.ki, h.dtSec, h.maxSpeed, h.integral⟩

/-- It adds the error, or clears the integral when both speeds are 0. -/
theorem integral_of_controlStep (h : s.Inv) (ha : s.accel.atControlStep c = some a) :
    (s.accel.step c).integral = 0.008 * ((s.count a).1 : ℚ) := by
  obtain ⟨hstep, -, hki, hdt, -, hintegral⟩ := step_eq_pidControl h ha
  have hint : (s.accel.step c).integral =
      (pidUpdate a a.targetSpeed.toInt32 a.currentSpeed.toInt32 false).integral := by
    rw [hstep]
    rfl
  rw [hint, pidUpdate_integral, toInt_sub_toInt32, hki, hdt, hintegral]
  unfold count
  by_cases hclear : a.targetSpeed = 0 ∧ a.currentSpeed = 0
  · rw [if_pos ((clearsIntegral_iff a).mpr hclear), if_pos hclear]
    norm_num
  · rw [if_neg (fun hc => hclear ((clearsIntegral_iff a).mp hc)), if_neg hclear]
    push_cast
    ring

theorem output_of_controlStep (h : s.Inv) (ha : s.accel.atControlStep c = some a) :
    |(s.accel.step c).dutyF| ≤ (500 : UInt16).toNat := by
  obtain ⟨hstep, -, -, -, hmax, -⟩ := step_eq_pidControl h ha
  have hduty : (s.accel.step c).dutyF =
      (pidUpdate a a.targetSpeed.toInt32 a.currentSpeed.toInt32 false).dutyF := by
    rw [hstep]
    rfl
  rw [hduty, pidUpdate_dutyF, hmax]
  exact abs_limitDuty_le (by decide) _

theorem count_bound (h : s.Inv)
    (hrange : |a.targetSpeed.toInt| ≤ 70 ∧ |a.currentSpeed.toInt| ≤ 70) :
    |(s.count a).1| ≤ 140 * (s.count a).2 := by
  have hsum := h.errSum
  unfold count
  split
  · simp
  · push_cast
    simp only [abs_le] at hsum hrange ⊢
    omega

theorem step_inv (h : s.Inv) (hrange : InSpeedRange s c (s.step c)) : (s.step c).Inv := by
  unfold step
  cases ha : s.accel.atControlStep c with
  | some a =>
      have hint := integral_of_controlStep h ha
      have hbound := count_bound h (hrange.2 a ha)
      obtain ⟨hstep, hmode, hki, hdt, hmax, -⟩ := step_eq_pidControl h ha
      refine ⟨?_, ?_, ?_, ?_, hint, hbound⟩ <;> rw [hstep]
      · exact hmode
      · exact hki
      · exact hdt
      · exact hmax
  | none =>
      obtain ⟨pos, hstep⟩ | ⟨pos, hstep⟩ | ⟨speed, hstep⟩ | ⟨mode, hc⟩ :=
        ZephyrAccelmotor.step_of_none ha
      · simp only [hstep]
        exact ⟨h.mode, h.ki, h.dtSec, h.maxSpeed, h.integral, h.errSum⟩
      · simp only [hstep]
        exact ⟨h.mode, h.ki, h.dtSec, h.maxSpeed, h.integral, h.errSum⟩
      · simp only [hstep]
        exact ⟨h.mode, h.ki, h.dtSec, h.maxSpeed, h.integral, h.errSum⟩
      · exact absurd hc (hrange.1 mode)

theorem step_law (h : s.Inv) (hrange : InSpeedRange s c (s.step c)) :
    WindupLaw s c (s.step c) := by
  have hinv := step_inv h hrange
  have hmax : ((s.step c).accel.maxSpeed.toNat : ℚ) = 500 := by
    rw [hinv.maxSpeed]
    rfl
  have habs : |(s.step c).accel.integral| = 0.008 * |((s.step c).errSum : ℚ)| := by
    rw [hinv.integral, abs_mul, abs_of_pos (by norm_num)]
  have hsum : |((s.step c).errSum : ℚ)| ≤ 140 * (s.step c).steps := by
    exact_mod_cast hinv.errSum
  refine ⟨hinv.integral, ?_, ?_, fun hcontrol => ?_⟩
  · rw [habs]
    linarith
  · have hcast : |(s.step c).errSum| ≤ 62500 ↔ |((s.step c).errSum : ℚ)| ≤ 62500 := by
      exact_mod_cast Iff.rfl
    rw [habs, hmax, hcast]
    constructor <;> intro hle <;> linarith
  · obtain ⟨a, ha⟩ := Option.isSome_iff_exists.mp hcontrol
    have hout := output_of_controlStep h ha
    have hstep : (s.step c).accel = s.accel.step c := by
      unfold step
      rw [ha]
    rw [hinv.maxSpeed, hstep]
    exact hout

end Step

/-- Along every run of the speed loop with the shipped gains. -/
theorem windup_law (accel : ZephyrAccelmotor ℚ) (calls : List AccelCall)
    (hrange : Always step InSpeedRange (start accel) calls) :
    Always step WindupLaw (start accel) calls :=
  Always.of_invariant_of_always (I := Inv) (fun _ _ h hr => step_law h hr)
    (fun _ _ h hr => step_inv h hr) calls (start_inv accel) hrange

/-! ## A stalled wheel -/

/-- A wheel that is told to run at 70 and has not moved, after `n` control steps. -/
structure Stalled (n : ℕ) (s : SpeedLoop) : Prop where
  targetSpeed : s.accel.targetSpeed = 70
  dtMs : s.accel.dtMs = 20
  lastPos : s.accel.lastPos = 0
  speedBuf : s.accel.speedBuf = #v[0, 0, 0]
  filteredSpeed : s.accel.filteredSpeed = 0
  lastTickTime : s.accel.lastTickTime = UInt32.ofNat (20 * n)
  errSum : s.errSum = 70 * n

def stalledTick (n : ℕ) : AccelCall := .tick 0 (Int64.ofNat (20 * n + 20))

def stalledTicks : ℕ → ℕ → List AccelCall
  | _, 0 => []
  | n, more + 1 => stalledTick n :: stalledTicks (n + 1) more

section Stalled
variable {s : SpeedLoop} {n : ℕ}

theorem ofNat_nextTick (n : ℕ) : UInt32.ofNat (20 * (n + 1)) = UInt32.ofNat (20 * n) + 20 :=
  UInt32.ofNat_add _ _

/-- Every stalled tick comes exactly `dt_ms` after the last one. -/
theorem Stalled.gateOpen (h : s.Stalled n) : gateOpen s.accel (Int64.ofNat (20 * n + 20)) := by
  have huptime : uptime32 (Int64.ofNat (20 * n + 20)) = UInt32.ofNat (20 * n) + 20 := by
    unfold uptime32
    rw [Int64.toUInt64_ofNat', UInt64.toUInt32_ofNat']
    exact ofNat_nextTick n
  unfold Wheel.gateOpen
  rw [huptime, h.lastTickTime, h.dtMs, UInt32.add_comm, UInt32.add_sub_cancel]
  exact UInt32.le_refl 20

theorem setIfInBounds_zero (i : ℕ) : (#v[0, 0, 0] : Vector Int16 3).setIfInBounds i 0 = #v[0, 0, 0] := by
  have hzero : (#v[0, 0, 0] : Vector Int16 3) = Vector.replicate 3 0 := by decide
  rw [hzero]
  ext j hj
  simp

/-- The sample of a wheel that has not moved: the filter stays at 0. -/
theorem Stalled.sample_eq (h : s.Stalled n) : Wheel.sample { s.accel with currentPos := 0 } =
    copyDirection
      { s.accel with
        currentPos := 0
        lastTickTime := s.accel.lastTickTime + s.accel.dtMs
        speedBuf := #v[0, 0, 0]
        speedBufIdx := UInt8.ofNat ((s.accel.speedBufIdx.toNat + 1) % 3)
        filteredSpeed := 0
        currentSpeed := 0
        lastPos := 0 } := by
  have hraw : ((0 - 0) * 1000 / (20 : UInt32).toInt32 : Int32).toInt16 = 0 := by decide
  have hmedian : (median 0 0 0).toInt = 0 := by decide
  have hfiltered : (0 : ℚ) + (ofInt 0 - 0) * lit 0.7 = 0 := by
    show (0 : ℚ) + (((0 : ℤ) : ℚ) - 0) * 0.7 = 0
    norm_num
  have hspeed : (FloatArith.toInt16 (0 : ℚ)) = 0 := by decide +kernel
  unfold Wheel.sample sampleSpeed filterSpeed
  simp only [h.lastPos, h.dtMs, h.speedBuf, h.filteredSpeed, hraw, setIfInBounds_zero,
    Vector.getElem_mk, List.getElem_toArray, List.getElem_cons_zero, List.getElem_cons_succ, hmedian,
    hfiltered, hspeed]

theorem Stalled.sample (h : s.Stalled n) :
    ∃ a, s.accel.atControlStep (stalledTick n) = some a ∧ a.targetSpeed = 70 ∧ a.currentSpeed = 0 ∧
      a.dtMs = 20 ∧ a.lastPos = 0 ∧ a.speedBuf = #v[0, 0, 0] ∧ a.filteredSpeed = 0 ∧
      a.lastTickTime = UInt32.ofNat (20 * (n + 1)) := by
  refine ⟨Wheel.sample { s.accel with currentPos := 0 }, if_pos h.gateOpen, ?_⟩
  rw [h.sample_eq, ofNat_nextTick, ← h.lastTickTime, ← h.dtMs]
  exact ⟨h.targetSpeed, rfl, rfl, rfl, rfl, rfl, rfl⟩

theorem Stalled.step (h : s.Stalled n) (hinv : s.Inv) :
    InSpeedRange s (stalledTick n) (s.step (stalledTick n)) ∧
      (s.step (stalledTick n)).Stalled (n + 1) := by
  obtain ⟨a, ha, htarget, hcurrent, hdt, hlast, hbuf, hfiltered, htime⟩ := h.sample
  obtain ⟨hstep, -⟩ := step_eq_pidControl hinv ha
  have hs : s.step (stalledTick n) =
      ⟨s.accel.step (stalledTick n), (s.count a).1, (s.count a).2⟩ := by
    unfold SpeedLoop.step
    rw [ha]
  refine ⟨⟨by simp [stalledTick], ?_⟩, ?_⟩
  · intro a' ha'
    obtain rfl := Option.some.inj (ha.symm.trans ha')
    rw [htarget, hcurrent]
    decide
  · rw [hs, hstep]
    refine ⟨htarget, hdt, hlast, hbuf, hfiltered, htime, ?_⟩
    have h70 : (70 : Int16).toInt = 70 := rfl
    have h0 : (0 : Int16).toInt = 0 := rfl
    have hne : ¬ ((70 : Int16) = 0 ∧ (0 : Int16) = 0) := by decide
    show (s.count a).1 = _
    unfold count
    rw [htarget, hcurrent, if_neg hne, h.errSum, h70, h0]
    push_cast
    ring

theorem Stalled.run (h : s.Stalled n) (hinv : s.Inv) (more : ℕ) :
    Always SpeedLoop.step InSpeedRange s (stalledTicks n more) ∧
      (Trace.run SpeedLoop.step s (stalledTicks n more)).Stalled (n + more) := by
  induction more generalizing s n with
  | zero => exact ⟨trivial, h⟩
  | succ more ih =>
      obtain ⟨hrange, hnext⟩ := h.step hinv
      obtain ⟨hranges, hlast⟩ := ih hnext (step_inv hinv hrange)
      refine ⟨⟨hrange, hranges⟩, ?_⟩
      have hn : n + 1 + more = n + (more + 1) := by omega
      rw [hn] at hlast
      exact hlast

end Stalled

/-- A wheel of the robot, right after `init_hardware`. -/
def wheelLoop : SpeedLoop := start (Robot.wheelAccelmotor .fl (zephyrEncoderInit true 0).1 0)

/-- The stick is held at full speed for `n` control steps and the wheel does not turn. -/
def stalledCalls (n : ℕ) : List AccelCall := .setTargetSpeed 70 :: stalledTicks 0 n

theorem wheelLoop_inv : wheelLoop.Inv := start_inv _

theorem wheelLoop_inRange :
    InSpeedRange wheelLoop (.setTargetSpeed 70) (wheelLoop.step (.setTargetSpeed 70)) :=
  ⟨by simp, fun a ha => by cases ha⟩

theorem stalled_start : Stalled 0 (wheelLoop.step (.setTargetSpeed 70)) where
  targetSpeed := rfl
  dtMs := rfl
  lastPos := rfl
  speedBuf := rfl
  filteredSpeed := rfl
  lastTickTime := rfl
  errSum := rfl

theorem stalledCalls_inRange (n : ℕ) : Always step InSpeedRange wheelLoop (stalledCalls n) :=
  ⟨wheelLoop_inRange, (stalled_start.run (step_inv wheelLoop_inv wheelLoop_inRange) n).1⟩

/-- Every control step adds 0.56, whatever the limit of the duty. -/
theorem integral_of_stalledCalls (n : ℕ) :
    (run step wheelLoop (stalledCalls n)).accel.integral = 0.56 * n ∧
      (run step wheelLoop (stalledCalls n)).accel.maxSpeed = 500 := by
  have hinv := Always.run_of_invariant (I := Inv) (fun _ _ h hr => step_inv h hr) (stalledCalls n)
    wheelLoop_inv (stalledCalls_inRange n)
  have hlast := (stalled_start.run (step_inv wheelLoop_inv wheelLoop_inRange) n).2
  have hsum : (run step wheelLoop (stalledCalls n)).errSum = 70 * n := by
    have h := hlast.errSum
    rw [Nat.zero_add] at h
    exact h
  refine ⟨?_, hinv.maxSpeed⟩
  rw [hinv.integral, hsum]
  push_cast
  ring

theorem windup_law_stalled : Always step WindupLaw wheelLoop (stalledCalls 900) :=
  windup_law _ _ (stalledCalls_inRange 900)

/-- After 18 seconds the integral is 504, above the limit 500 of the duty. -/
theorem integral_exceeds_limit :
    Always step InSpeedRange wheelLoop (stalledCalls 900) ∧
      ¬ Always step IntegralWithinLimit wheelLoop (stalledCalls 900) := by
  refine ⟨stalledCalls_inRange 900, fun hwithin => ?_⟩
  have hstart : |wheelLoop.accel.integral| ≤ wheelLoop.accel.maxSpeed.toNat := by
    rw [wheelLoop_inv.integral, wheelLoop_inv.maxSpeed]
    exact (by decide +kernel : |(0.008 : ℚ) * ((0 : ℤ) : ℚ)| ≤ (500 : UInt16).toNat)
  have hle := Always.run_of_post
    (R := fun t : SpeedLoop => |t.accel.integral| ≤ t.accel.maxSpeed.toNat) hstart (stalledCalls 900)
    hwithin
  have hmax : ((500 : UInt16).toNat : ℚ) = 500 := rfl
  obtain ⟨hintegral, hlimit⟩ := integral_of_stalledCalls 900
  rw [hintegral, hlimit, hmax] at hle
  norm_num at hle

end SpeedLoop
end Mecanum.Wheel
