import Mecanum.Wheel.Arrival
import Mecanum.Wheel.Standstill

/-! # A wheel that is pushed and does not turn

Nothing reads `zephyr_accelmotor_is_blocked`, so a regulator goes on against a blocked wheel. Its error
is then constant up to what the filter still reports of the last motion, the integral grows by the same
amount in every control step, and the duty with it until the limit. `Stuck` counts the control steps in a
row that find a wheel so.
-/

namespace Mecanum.Wheel
open Motor FloatArith Exact CInt Signal
set_option autoImplicit false

/-- The control steps in a row that found a wheel pushed by one demand and standing, with what the first
and the last of them left. -/
structure Stuck where
  steps : ℕ
  mode : AccelRunMode
  demand : Int32
  integral : ℚ
  firstIntegral : ℚ
  firstSpeed : ℚ

namespace Stuck

def none : Stuck := ⟨0, .idleRun, 0, 0, 0, 0⟩

/-- How much duty the row has built up at least: the proportional part, and the integral of the demand less
what it had to make up for. -/
def push (g : Stuck) (kp rate : ℚ) : ℚ :=
  |(g.demand.toInt : ℚ)| * (kp + (g.steps - 1) * rate) - |g.firstIntegral| - rate * |g.firstSpeed|

end Stuck

namespace ZephyrAccelmotor
variable {accel : ZephyrAccelmotor ℚ} {g : Stuck} {pos : Int32} {uptime : Int64}

/-- The error that `pid_control` is given for a wheel that stands at `pos`. -/
def demand (accel : ZephyrAccelmotor ℚ) (pos : Int32) : Int32 :=
  match accel.runMode with
  | .accelPos => Exact.toInt32 (profileStep accel).controlPos - pos
  | .pidPos => accel.targetPos - pos
  | .pidSpeed => accel.targetSpeed.toInt32
  | .accelSpeed | .idleRun => 0

/-- The regulator keeps its integral: outside the stop zone, or with a target speed. -/
def Pushes (accel : ZephyrAccelmotor ℚ) (pos : Int32) : Prop :=
  match accel.runMode with
  | .accelPos | .pidPos => iabs32 (accel.demand pos) > accel.stopzone.toInt32
  | .pidSpeed => accel.demand pos ≠ 0
  | .accelSpeed | .idleRun => False

instance (accel : ZephyrAccelmotor ℚ) (pos : Int32) : Decidable (accel.Pushes pos) := by
  unfold Pushes
  split <;> infer_instance

/-- The wheel is pushed, and is where the last control step left it. -/
def FoundStuck (accel : ZephyrAccelmotor ℚ) (pos : Int32) : Prop :=
  accel.Pushes pos ∧ pos = accel.lastPos

instance (accel : ZephyrAccelmotor ℚ) (pos : Int32) : Decidable (accel.FoundStuck pos) :=
  inferInstanceAs (Decidable (_ ∧ _))

/-- Since the last of the control steps that `g` counts the regulator was left alone. -/
def Continues (accel : ZephyrAccelmotor ℚ) (g : Stuck) (pos : Int32) : Prop :=
  0 < g.steps ∧ g.mode = accel.runMode ∧ g.demand = accel.demand pos ∧ g.integral = accel.integral

instance (accel : ZephyrAccelmotor ℚ) (g : Stuck) (pos : Int32) : Decidable (accel.Continues g pos) :=
  inferInstanceAs (Decidable (_ ∧ _))

def stuckAfter (accel : ZephyrAccelmotor ℚ) (g : Stuck) (pos : Int32) (uptime : Int64) : Stuck :=
  if gateOpen accel uptime then
    if accel.FoundStuck pos then
      let next := (zephyrAccelmotorTick accel pos uptime).1
      if accel.Continues g pos then { g with steps := g.steps + 1, integral := next.integral }
      else ⟨1, accel.runMode, accel.demand pos, next.integral, next.integral, next.filteredSpeed⟩
    else Stuck.none
  else g

/-! ## One control step -/

/-- What the filter still reports of the last motion, as far as the regulator reads it. -/
def slip (accel : ZephyrAccelmotor ℚ) : ℤ :=
  if accel.runMode = .pidSpeed then accel.currentSpeed.toInt else 0

/-- What `pid_control` measures. -/
def measured (accel : ZephyrAccelmotor ℚ) : Int32 :=
  if accel.runMode = .pidSpeed then accel.currentSpeed.toInt32 else accel.lastPos

/-- What a control step with this error does to a regulator that keeps its integral. -/
structure PushStep (accel : ZephyrAccelmotor ℚ) (error : ℤ) (next : ZephyrAccelmotor ℚ) : Prop where
  integral : next.integral = accel.integral + error * (accel.ki * accel.dtSec)
  dutyF : next.dutyF = limitDuty accel.maxSpeed (error * accel.kp +
    (accel.prevInput - accel.measured).toInt * accel.kd / accel.dtSec + next.integral)
  prevInput : next.prevInput = accel.measured
  motor : next.motor = (zephyrMotorSetSpeed accel.motor (Exact.toInt16 next.dutyF)).1

theorem pushStep_pidControl {a : ZephyrAccelmotor ℚ} {target : Int32} {cutoff : Bool}
    (hclears : ¬ ClearsIntegral a target a.measured cutoff) :
    PushStep a (target - a.measured).toInt (pidControl a target a.measured cutoff).1 := by
  have hintegral : (pidUpdate a target a.measured cutoff).integral =
      a.integral + (target - a.measured).toInt * (a.ki * a.dtSec) := by
    rw [pidUpdate_integral, if_neg hclears, mul_assoc]
  refine ⟨hintegral, ?_, rfl, rfl⟩
  show (pidUpdate a target a.measured cutoff).dutyF = limitDuty a.maxSpeed
    (_ + _ + (pidUpdate a target a.measured cutoff).integral)
  rw [pidUpdate_dutyF, hintegral, mul_assoc]

/-- Outside the stop zone a position loop keeps its integral. -/
theorem not_clearsIntegral {a : ZephyrAccelmotor ℚ} {target current : Int32}
    (h : iabs32 (target - current) > a.stopzone.toInt32) : ¬ ClearsIntegral a target current true :=
  not_not.mpr h

/-- In every mode the error is the demand, less what the filter still reports of the last motion. -/
theorem pushStep_regulate {a : ZephyrAccelmotor ℚ} (hpush : a.Pushes a.lastPos)
    (hstands : a.currentPos = a.lastPos) :
    PushStep a ((a.demand a.lastPos).toInt - a.slip) (regulate a).1 := by
  unfold Pushes at hpush
  cases hmode : a.runMode with
  | accelPos =>
      have hmeasured : a.measured = a.lastPos := by simp [measured, hmode]
      have hdemand : a.demand a.lastPos = Exact.toInt32 (accelPosUpdate a).controlPos - a.measured := by
        rw [hmeasured]
        simp only [demand, hmode]
        rfl
      have hslip : a.slip = 0 := by simp [slip, hmode]
      simp only [hmode, hdemand] at hpush
      have hstep : PushStep (accelPosUpdate a) _ _ :=
        pushStep_pidControl (not_clearsIntegral (a := accelPosUpdate a) hpush)
      rw [regulate_accelPos hmode, hstands, hdemand, hslip, sub_zero, ← hmeasured]
      exact ⟨hstep.integral, hstep.dutyF, hstep.prevInput, hstep.motor⟩
  | pidPos =>
      have hmeasured : a.measured = a.lastPos := by simp [measured, hmode]
      have hdemand : a.demand a.lastPos = a.targetPos - a.measured := by
        rw [hmeasured]
        simp only [demand, hmode]
      have hslip : a.slip = 0 := by simp [slip, hmode]
      simp only [hmode, hdemand] at hpush
      rw [regulate_pidPos hmode, hstands, hdemand, hslip, sub_zero, ← hmeasured]
      exact pushStep_pidControl (not_clearsIntegral hpush)
  | pidSpeed =>
      have hmeasured : a.measured = a.currentSpeed.toInt32 := by simp [measured, hmode]
      have hdemand : a.demand a.lastPos = a.targetSpeed.toInt32 := by simp only [demand, hmode]
      have hslip : a.slip = a.currentSpeed.toInt := by simp [slip, hmode]
      simp only [hmode, hdemand] at hpush
      have herror : (a.demand a.lastPos).toInt - a.slip =
          (a.targetSpeed.toInt32 - a.measured).toInt := by
        rw [hmeasured, toInt_sub_toInt32, hdemand, hslip, Int16.toInt_toInt32]
      rw [regulate_pidSpeed hmode, herror, ← hmeasured]
      exact pushStep_pidControl fun hclears => hpush hclears.2
  | accelSpeed => simp only [hmode] at hpush
  | idleRun => simp only [hmode] at hpush

/-! ## Control steps in a row -/

/-- What the control steps in a row leave: the filter has only the rest of its first speed to report, the
integral has grown by the demand in each of them up to that rest, and from the eleventh on the duty is
that of the demand and the integral. -/
structure PushedBy (accel : ZephyrAccelmotor ℚ) (g : Stuck) : Prop where
  filter : ∃ samples, Filtered.Inv ⟨accel, samples⟩ ∧
    ∀ k, g.steps = k + 1 → samples.head? = some 0 ∧ accel.filteredSpeed = 0.3 ^ k * g.firstSpeed
  firstSpeed : |g.firstSpeed| ≤ 32768
  reported : 0 < g.steps → accel.currentSpeed = Exact.toInt16 accel.filteredSpeed
  prevInput : 0 < g.steps → accel.prevInput =
    if g.mode = .pidSpeed then accel.currentSpeed.toInt32 else accel.lastPos
  drift : ∀ k, g.steps = k + 1 →
    |g.integral - (g.firstIntegral + k * (g.demand.toInt * (accel.ki * accel.dtSec)))| ≤
      (1 - 0.3 ^ k) * (3 / 7 * (accel.ki * accel.dtSec * |g.firstSpeed|))
  dutyF : 11 ≤ g.steps →
    accel.dutyF = limitDuty accel.maxSpeed (g.demand.toInt * accel.kp + g.integral)

/-- The sample that a control step takes of a wheel it finds standing. -/
theorem stuckSample {samples : List Int16} (h : Filtered.Inv ⟨accel, samples⟩)
    (hpos : pos = accel.lastPos) :
    let a := sample { accel with currentPos := pos }
    Filtered.Inv ⟨a, 0 :: samples⟩ ∧ a.currentSpeed = Exact.toInt16 a.filteredSpeed ∧
      (samples.head? = some 0 → a.filteredSpeed = 0.3 * accel.filteredSpeed) := by
  obtain ⟨hnext, hsmooth, hreported⟩ := filter_step h pos
  rw [rawSpeed_of_standing hpos] at hnext hsmooth
  refine ⟨hnext, hreported, fun hhead => ?_⟩
  rw [Filtered.chosen_eq (v := 0) h hhead, Int16.toInt_zero, Int.cast_zero] at hsmooth
  rw [hsmooth]
  unfold smooth
  ring

/-- The reported speed is at most the filtered one. -/
theorem abs_reported_le {a : ZephyrAccelmotor ℚ} {samples : List Int16}
    (h : Filtered.Inv ⟨a, samples⟩) (hreported : a.currentSpeed = Exact.toInt16 a.filteredSpeed) :
    |(a.currentSpeed.toInt : ℚ)| ≤ |a.filteredSpeed| := by
  obtain ⟨hlow, hhigh⟩ := Filtered.trunc_range h
  rw [hreported, toInt_toInt16 hlow (Int.lt_of_le_of_lt hhigh (by decide))]
  exact abs_trunc_le _

theorem abs_slip_le {a : ZephyrAccelmotor ℚ} (h : |(a.currentSpeed.toInt : ℚ)| ≤ |a.filteredSpeed|) :
    |(a.slip : ℚ)| ≤ |a.filteredSpeed| := by
  unfold slip
  split
  · exact h
  · rw [Int.cast_zero, abs_zero]
    exact abs_nonneg _

/-- One more error, which differs from the demand `e` by at most the rest `0.3 ^ (k + 1) * f`. -/
theorem drift_step {i first e r f : ℚ} {s : ℚ} {k : ℕ} (hr : 0 ≤ r)
    (h : |i - (first + k * (e * r))| ≤ (1 - 0.3 ^ k) * (3 / 7 * (r * f)))
    (hs : |s| ≤ 0.3 ^ (k + 1) * f) :
    |i + (e - s) * r - (first + (k + 1 : ℕ) * (e * r))| ≤
      (1 - 0.3 ^ (k + 1)) * (3 / 7 * (r * f)) := by
  have hsplit : i + (e - s) * r - (first + (k + 1 : ℕ) * (e * r)) =
      i - (first + k * (e * r)) - s * r := by
    push_cast
    ring
  have hslip : |s * r| ≤ 0.3 ^ (k + 1) * f * r := by
    rw [abs_mul, abs_of_nonneg hr]
    exact mul_le_mul_of_nonneg_right hs hr
  rw [hsplit]
  calc |i - (first + k * (e * r)) - s * r| ≤ |i - (first + k * (e * r))| + |s * r| := abs_sub _ _
    _ ≤ (1 - 0.3 ^ k) * (3 / 7 * (r * f)) + 0.3 ^ (k + 1) * f * r := add_le_add h hslip
    _ = (1 - 0.3 ^ (k + 1)) * (3 / 7 * (r * f)) := by
      rw [pow_succ]
      ring

theorem PushedBy.none {samples : List Int16} (h : Filtered.Inv ⟨accel, samples⟩) :
    PushedBy accel Stuck.none where
  filter := ⟨samples, h, fun k hk => by cases hk⟩
  firstSpeed := by
    show |(0 : ℚ)| ≤ 32768
    norm_num
  reported := fun h0 => absurd h0 (lt_irrefl 0)
  prevInput := fun h0 => absurd h0 (lt_irrefl 0)
  drift := fun k hk => by cases hk
  dutyF := fun h11 => absurd h11 (by decide)

section Step
variable {samples : List Int16}

/-- The controller as the regulator finds it when the wheel stands. -/
def atRest (accel : ZephyrAccelmotor ℚ) : ZephyrAccelmotor ℚ :=
  sample { accel with currentPos := accel.lastPos }

theorem sameProfile_atRest : SameProfile accel.atRest accel :=
  ⟨rfl, rfl, rfl, rfl, rfl, rfl, rfl, rfl, rfl⟩

theorem demand_atRest : accel.atRest.demand accel.lastPos = accel.demand accel.lastPos := by
  unfold demand
  rw [sameProfile_atRest.profileStep]
  rfl

theorem pushStep_atRest (hpush : accel.Pushes accel.lastPos) :
    PushStep accel.atRest ((accel.demand accel.lastPos).toInt - accel.atRest.slip)
      (regulate accel.atRest).1 := by
  have hpush' : accel.atRest.Pushes accel.lastPos := by
    unfold Pushes at hpush ⊢
    rw [demand_atRest]
    exact hpush
  have hstep := pushStep_regulate (a := accel.atRest) hpush' rfl
  rw [← demand_atRest]
  exact hstep

/-- The first control step of a row. -/
theorem PushedBy.first (hfilter : Filtered.Inv ⟨accel, samples⟩)
    (hpush : accel.Pushes accel.lastPos) :
    PushedBy (regulate accel.atRest).1 ⟨1, accel.runMode, accel.demand accel.lastPos,
      (regulate accel.atRest).1.integral, (regulate accel.atRest).1.integral,
      accel.atRest.filteredSpeed⟩ := by
  obtain ⟨hnext, hreported, -⟩ := stuckSample hfilter rfl
  obtain ⟨hlow, hhigh⟩ := Filtered.filteredWithin_int16 hnext
  have hfields := regulate_eq accel.atRest
  constructor
  case filter =>
    refine ⟨0 :: samples, hnext.congr ?_ ?_ ?_, fun k hk => ⟨rfl, ?_⟩⟩
    · rw [hfields]
      rfl
    · rw [hfields]
      rfl
    · rw [hfields]
      rfl
    · obtain rfl : k = 0 := Nat.succ.inj hk.symm
      rw [hfields, pow_zero, one_mul]
  case firstSpeed => exact abs_le.mpr ⟨hlow, hhigh.trans (by norm_num)⟩
  case reported =>
    intro _
    rw [hfields]
    exact hreported
  case prevInput =>
    intro _
    rw [(pushStep_atRest hpush).prevInput, hfields]
    rfl
  case drift =>
    intro k hk
    obtain rfl : k = 0 := Nat.succ.inj hk.symm
    simp
  case dutyF => exact fun h11 => absurd h11 (show ¬ 11 ≤ 1 by decide)

/-- In one more control step the filter shrinks what it has left to report. -/
theorem PushedBy.rest {n : ℕ} (h : PushedBy accel g) (hn : g.steps = n + 1) :
    (∃ samples, Filtered.Inv ⟨accel.atRest, 0 :: samples⟩) ∧
      accel.atRest.filteredSpeed = 0.3 ^ (n + 1) * g.firstSpeed ∧
      accel.atRest.currentSpeed = Exact.toInt16 accel.atRest.filteredSpeed ∧
      |(accel.atRest.slip : ℚ)| ≤ 0.3 ^ (n + 1) * |g.firstSpeed| := by
  obtain ⟨samples, hinv, hrest⟩ := h.filter
  obtain ⟨hhead, hspeed⟩ := hrest n hn
  obtain ⟨hnext, hreported, hshrink⟩ := stuckSample hinv rfl
  have hfiltered : accel.atRest.filteredSpeed = 0.3 ^ (n + 1) * g.firstSpeed := by
    rw [atRest, hshrink hhead, hspeed, pow_succ]
    ring
  have habs : |accel.atRest.filteredSpeed| = 0.3 ^ (n + 1) * |g.firstSpeed| := by
    rw [hfiltered, abs_mul, abs_of_nonneg (by positivity)]
  have hslip := abs_slip_le (abs_reported_le hnext hreported)
  exact ⟨⟨samples, hnext⟩, hfiltered, hreported, hslip.trans_eq habs⟩

/-- After ten of them the regulator measures what it measured before, and no motion. -/
theorem PushedBy.settled {n : ℕ} (h : PushedBy accel g) (hn : g.steps = n + 1) (hn9 : 9 ≤ n)
    (hmode : g.mode = accel.runMode) :
    accel.prevInput = accel.atRest.measured ∧ accel.atRest.slip = 0 := by
  have hsmall : ∀ m, |0.3 ^ m * g.firstSpeed| ≤ 0.3 ^ m * 32768 := by
    intro m
    rw [abs_mul, abs_of_nonneg (by positivity)]
    exact mul_le_mul_of_nonneg_left h.firstSpeed (by positivity)
  have hbefore : accel.currentSpeed = 0 := by
    obtain ⟨samples, -, hrest⟩ := h.filter
    rw [h.reported (by omega), (hrest n hn).2]
    exact reported_of_standing hn9 (hsmall n)
  have hnow : accel.atRest.currentSpeed = 0 := by
    obtain ⟨-, hfiltered, hreported, -⟩ := h.rest hn
    rw [hreported, hfiltered]
    exact reported_of_standing (Nat.le_succ_of_le hn9) (hsmall (n + 1))
  constructor
  · rw [h.prevInput (by omega), hmode, hbefore]
    unfold measured
    rw [hnow]
    rfl
  · unfold slip
    rw [hnow]
    split <;> rfl

/-- One more control step of a row. -/
theorem PushedBy.next (hrate : 0 ≤ accel.ki * accel.dtSec) (h : PushedBy accel g)
    (hpush : accel.Pushes accel.lastPos) (hcontinues : accel.Continues g accel.lastPos) :
    PushedBy (regulate accel.atRest).1
      { g with steps := g.steps + 1, integral := (regulate accel.atRest).1.integral } := by
  obtain ⟨hsteps, hmode, hdemand, hintegral⟩ := hcontinues
  obtain ⟨n, hn⟩ : ∃ n, g.steps = n + 1 := ⟨g.steps - 1, by omega⟩
  obtain ⟨⟨samples, hnext⟩, hfiltered, hreported, hslip⟩ := h.rest hn
  have hstep := pushStep_atRest hpush
  have hfields := regulate_eq accel.atRest
  have hlast : ∀ k, g.steps + 1 = k + 1 → k = n + 1 := by omega
  constructor
  case filter =>
    refine ⟨0 :: samples, hnext.congr ?_ ?_ ?_, fun k hk => ⟨rfl, ?_⟩⟩
    · rw [hfields]
    · rw [hfields]
    · rw [hfields]
    · rw [hfields, hlast k hk]
      exact hfiltered
  case firstSpeed => exact h.firstSpeed
  case reported =>
    intro _
    rw [hfields]
    exact hreported
  case prevInput =>
    intro _
    rw [hstep.prevInput, hfields]
    show accel.atRest.measured = if g.mode = .pidSpeed then _ else _
    rw [hmode]
    rfl
  case drift =>
    intro k hk
    have hdrift := drift_step hrate (h.drift n hn) hslip
    have hkept : (regulate accel.atRest).1.ki * (regulate accel.atRest).1.dtSec =
        accel.ki * accel.dtSec := by
      rw [hfields]
      rfl
    have hsum : (regulate accel.atRest).1.integral =
        g.integral + (g.demand.toInt - accel.atRest.slip) * (accel.ki * accel.dtSec) := by
      rw [hstep.integral, hdemand, hintegral, Int.cast_sub]
      rfl
    rw [hkept, hsum, hlast k hk]
    exact hdrift
  case dutyF =>
    intro h11
    have hn9 : 9 ≤ n := by
      have hle : 11 ≤ g.steps + 1 := h11
      omega
    obtain ⟨hprev, hnone⟩ := h.settled hn hn9 hmode
    have hderivative : (accel.atRest.prevInput - accel.atRest.measured).toInt = 0 := by
      rw [← hprev]
      exact congrArg Int32.toInt (Int32.sub_self accel.prevInput)
    have hlimits : (regulate accel.atRest).1.maxSpeed = accel.atRest.maxSpeed ∧
        (regulate accel.atRest).1.kp = accel.atRest.kp := by
      rw [hfields]
      exact ⟨rfl, rfl⟩
    rw [hstep.dutyF, hnone, hderivative, hlimits.1, hlimits.2, hdemand, sub_zero, Int.cast_zero,
      zero_mul, zero_div, add_zero]

theorem PushedBy.tick (hrate : 0 ≤ accel.ki * accel.dtSec) (h : PushedBy accel g) (pos : Int32)
    (uptime : Int64) :
    PushedBy (zephyrAccelmotorTick accel pos uptime).1 (accel.stuckAfter g pos uptime) := by
  obtain ⟨samples, hinv, hrest⟩ := h.filter
  unfold stuckAfter
  by_cases hgate : gateOpen accel uptime
  · rw [tick_of_open hgate, if_pos hgate]
    by_cases hfound : accel.FoundStuck pos
    · obtain ⟨hpush, rfl⟩ := hfound
      rw [if_pos ⟨hpush, rfl⟩]
      by_cases hcontinues : accel.Continues g accel.lastPos
      · rw [if_pos hcontinues]
        exact h.next hrate hpush hcontinues
      · have hspeed : (regulate accel.atRest).1.filteredSpeed = accel.atRest.filteredSpeed := by
          rw [regulate_eq]
        have hfirst := PushedBy.first hinv hpush
        rw [← hspeed] at hfirst
        rw [if_neg hcontinues]
        exact hfirst
    · obtain ⟨hnext, -, -⟩ := filter_step hinv pos
      rw [if_neg hfound]
      refine PushedBy.none (hnext.congr ?_ ?_ ?_) <;> rw [regulate_eq]
  · rw [tick_of_closed hgate, if_neg hgate]
    exact ⟨⟨samples, hinv.congr rfl rfl rfl, hrest⟩, h.firstSpeed, h.reported, h.prevInput, h.drift,
      h.dutyF⟩

end Step

/-! ## Calls between two control steps -/

theorem PushedBy.withCounter (h : PushedBy accel g) (encoder : ZephyrEncoder) :
    PushedBy { accel with encoder := encoder } g := by
  obtain ⟨samples, hinv, hrest⟩ := h.filter
  exact ⟨⟨samples, hinv.congr rfl rfl rfl, hrest⟩, h.firstSpeed, h.reported, h.prevInput, h.drift,
    h.dutyF⟩

theorem PushedBy.setRunMode (h : PushedBy accel g) (mode : AccelRunMode) :
    PushedBy (zephyrAccelmotorSetRunMode accel mode) g := by
  obtain ⟨samples, hinv, hrest⟩ := h.filter
  cases mode <;>
    exact ⟨⟨samples, hinv.congr rfl rfl rfl, hrest⟩, h.firstSpeed, h.reported, h.prevInput, h.drift,
      h.dutyF⟩

theorem PushedBy.setTargetPos (h : PushedBy accel g) (pos : Int32) :
    PushedBy (zephyrAccelmotorSetTargetPos accel pos) g := by
  obtain ⟨samples, hinv, hrest⟩ := h.filter
  exact ⟨⟨samples, hinv.congr rfl rfl rfl, hrest⟩, h.firstSpeed, h.reported, h.prevInput, h.drift,
    h.dutyF⟩

theorem PushedBy.setTargetSpeed (h : PushedBy accel g) (speed : Int16) :
    PushedBy (zephyrAccelmotorSetTargetSpeed accel speed) g := by
  obtain ⟨samples, hinv, hrest⟩ := h.filter
  exact ⟨⟨samples, hinv.congr rfl rfl rfl, hrest⟩, h.firstSpeed, h.reported, h.prevInput, h.drift,
    h.dutyF⟩

/-! ## The duty against a blocked wheel -/

theorem PushedBy.reported_zero (h : PushedBy accel g) (h11 : 11 ≤ g.steps) :
    accel.currentSpeed = 0 := by
  obtain ⟨n, hn⟩ : ∃ n, g.steps = n + 1 := ⟨g.steps - 1, by omega⟩
  obtain ⟨samples, -, hrest⟩ := h.filter
  rw [h.reported (by omega), (hrest n hn).2]
  refine reported_of_standing (n := n) (by omega) ?_
  rw [abs_mul, abs_of_nonneg (by positivity)]
  exact mul_le_mul_of_nonneg_left h.firstSpeed (by positivity)

/-- The duty before its limit, in the direction of the demand. -/
theorem PushedBy.push_le (hrate : 0 ≤ accel.ki * accel.dtSec) (h : PushedBy accel g)
    (hsteps : 0 < g.steps) :
    g.push accel.kp (accel.ki * accel.dtSec) ≤
      g.demand.toInt.sign * (g.demand.toInt * accel.kp + g.integral) := by
  obtain ⟨n, hn⟩ : ∃ n, g.steps = n + 1 := ⟨g.steps - 1, by omega⟩
  have hcount : (g.steps : ℚ) - 1 = n := by
    rw [hn]
    push_cast
    ring
  have hdrift : |g.integral - (g.firstIntegral + n * (g.demand.toInt * (accel.ki * accel.dtSec)))| ≤
      accel.ki * accel.dtSec * |g.firstSpeed| := by
    have hrest : 0 ≤ accel.ki * accel.dtSec * |g.firstSpeed| := mul_nonneg hrate (abs_nonneg _)
    have hpart : (1 - 0.3 ^ n) * (3 / 7 : ℚ) ≤ 1 := by
      have hpow : (0 : ℚ) ≤ 0.3 ^ n := by positivity
      linarith
    calc _ ≤ (1 - 0.3 ^ n) * (3 / 7 * (accel.ki * accel.dtSec * |g.firstSpeed|)) := h.drift n hn
      _ = (1 - 0.3 ^ n) * (3 / 7) * (accel.ki * accel.dtSec * |g.firstSpeed|) := by ring
      _ ≤ accel.ki * accel.dtSec * |g.firstSpeed| := mul_le_of_le_one_left hrest hpart
  obtain ⟨hlow, hhigh⟩ := abs_le.mp hdrift
  have hfirst := neg_abs_le g.firstIntegral
  have hfirst' := le_abs_self g.firstIntegral
  have hspeed := abs_nonneg g.firstSpeed
  unfold Stuck.push
  rw [hcount]
  rcases lt_trichotomy g.demand.toInt 0 with hd | hd | hd
  · have habs : |(g.demand.toInt : ℚ)| = -g.demand.toInt := abs_of_neg (Int.cast_lt_zero.mpr hd)
    rw [Int.sign_eq_neg_one_of_neg hd, habs]
    push_cast
    linarith
  · have hrest := mul_nonneg hrate hspeed
    have habs := abs_nonneg g.firstIntegral
    rw [hd, Int.sign_zero, Int.cast_zero, abs_zero]
    linarith
  · have habs : |(g.demand.toInt : ℚ)| = g.demand.toInt := abs_of_pos (Int.cast_pos.mpr hd)
    rw [Int.sign_eq_one_of_pos hd, habs]
    push_cast
    linarith

/-- The limiter keeps a lower bound of the signed value up to the limit. -/
theorem min_le_sign_mul_limit {m x push : ℚ} {d : ℤ} (hm : 0 ≤ m) (h : push ≤ d.sign * x) :
    min m push ≤ d.sign * Limit.limit m x := by
  have hlimit : ∀ y, push ≤ y → min m push ≤ Limit.limit m y := fun y hy =>
    (min_le_min_left m hy).trans (le_max_right _ _)
  rcases lt_trichotomy d 0 with hneg | rfl | hpos
  · rw [Int.sign_eq_neg_one_of_neg hneg, Int.cast_neg, Int.cast_one, neg_one_mul] at h ⊢
    rw [← Limit.limit_neg hm]
    exact hlimit _ h
  · rw [Int.sign_zero, Int.cast_zero, zero_mul] at h ⊢
    exact min_le_of_right_le h
  · rw [Int.sign_eq_one_of_pos hpos, Int.cast_one, one_mul] at h ⊢
    exact hlimit _ h

theorem PushedBy.le_dutyF (hrate : 0 ≤ accel.ki * accel.dtSec) (hmax : 0 < accel.maxSpeed)
    (h : PushedBy accel g) (h11 : 11 ≤ g.steps) :
    min (accel.maxSpeed.toNat : ℚ) (g.push accel.kp (accel.ki * accel.dtSec)) ≤
      g.demand.toInt.sign * accel.dutyF := by
  rw [h.dutyF h11, limitDuty_eq, if_pos hmax]
  exact min_le_sign_mul_limit (Nat.cast_nonneg _) (h.push_le hrate (by omega))

/-- Once the row has built up any duty, the wheel is blocked in the words of the source. -/
theorem PushedBy.isBlocked (hrate : 0 ≤ accel.ki * accel.dtSec) (hmax : 0 < accel.maxSpeed)
    (h : PushedBy accel g) (h11 : 11 ≤ g.steps)
    (hpush : 0 < g.push accel.kp (accel.ki * accel.dtSec)) :
    zephyrAccelmotorIsBlocked accel = true := by
  have hmax' : (0 : ℚ) < accel.maxSpeed.toNat := Nat.cast_pos.mpr (UInt16.lt_iff_toNat_lt.mp hmax)
  have hpos := (lt_min hmax' hpush).trans_le (h.le_dutyF hrate hmax h11)
  have hne : accel.dutyF ≠ 0 := by
    rintro hzero
    rw [hzero, mul_zero] at hpos
    exact lt_irrefl 0 hpos
  have hzero : (0 : UInt16).toNat = 0 := rfl
  unfold zephyrAccelmotorIsBlocked
  simp only [hzero, fabs32_eq, ofInt_eq, lt_eq, Nat.cast_zero, Int.cast_zero, abs_pos,
    h.reported_zero h11, Bool.and_eq_true, decide_eq_true_eq]
  exact ⟨hne, trivial⟩

end ZephyrAccelmotor
end Mecanum.Wheel
