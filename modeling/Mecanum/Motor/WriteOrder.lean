import Mecanum.Foundations.Trace
import Mecanum.Motor.Calls
import Mecanum.Motor.OutputStage

/-! # Between two writes of a call

A run writes `pin_in1`, `pin_in2` and the PWM channel one after the other, so until its last write
the new level of `pin_in1` meets the PWM request of the previous run. With the pin low that mixture
drives forward wherever the old request holds IA high; with the pin high it drives backward wherever
the old request holds IA low.
-/

namespace Mecanum.Motor
open Trace Scaling
set_option autoImplicit false

inductive RunCall
  | run (mode : MotorMode) (duty : Int16)
  | setSpeed (duty : Int16)

def RunCall.toCall : RunCall → MotorCall
  | .run mode duty => .run mode duty
  | .setSpeed duty => .setSpeed duty

def RunCall.args : RunCall → MotorMode × Int16
  | .run mode duty => (mode, duty)
  | .setSpeed duty => (speedMode duty, speedArg duty)

theorem call_toCall (motor : ZephyrMotor) (c : RunCall) :
    motor.call c.toCall = zephyrMotorRun motor c.args.1 c.args.2 := by
  cases c with
  | run mode duty => rfl
  | setSpeed duty => exact zephyrMotorSetSpeed_eq_run motor duty

/-! ## The bridge under a mixture -/

namespace Lines

/-- The wires after each of a list of writes but the last. -/
def between : Lines → List Output → List Lines
  | _, [] => []
  | _, [_] => []
  | l, o :: o' :: outs => l.apply o :: (l.apply o).between (o' :: outs)

def InPeriod (l : Lines) (t : ℕ) : Prop := ∀ p ∈ l.pwm, t < p.period.toNat

/-- `1` is forward (IA high, IB low) and `-1` backward, as in the `state` of a motor. -/
def directionAt (l : Lines) (t : ℕ) : Int8 := if l.ia t = l.ib then 0 else if l.ia t then 1 else -1

def IaHigh (l : Lines) : Prop := ∃ t, l.InPeriod t ∧ l.ia t = true

def IaLow (l : Lines) : Prop := ∃ t, l.InPeriod t ∧ l.ia t = false

def Toward (l : Lines) (a b : Int8) : Prop :=
  ∀ t, l.InPeriod t → l.directionAt t = 0 ∨ l.directionAt t = a ∨ l.directionAt t = b

variable {l : Lines} {a b : Int8}

theorem toward_of_in1_low (h1 : l.in1 = false) :
    l.Toward a b ↔ (l.IaHigh → a = 1 ∨ b = 1) := by
  unfold Toward IaHigh directionAt ib
  rw [h1]
  constructor
  · rintro h ⟨t, ht, hia⟩
    have hdir := h t ht
    simp only [hia, if_true, Bool.true_eq_false, if_false] at hdir
    rcases hdir with h0 | ha | hb
    · exact absurd h0 (by decide)
    · exact .inl ha.symm
    · exact .inr hb.symm
  · intro h t ht
    cases hia : l.ia t
    · exact .inl rfl
    · rcases h ⟨t, ht, hia⟩ with ha | hb
      · exact .inr (.inl ha.symm)
      · exact .inr (.inr hb.symm)

theorem toward_of_in1_high (h1 : l.in1 = true) :
    l.Toward a b ↔ (l.IaLow → a = -1 ∨ b = -1) := by
  unfold Toward IaLow directionAt ib
  rw [h1]
  constructor
  · rintro h ⟨t, ht, hia⟩
    have hdir := h t ht
    simp only [hia, Bool.false_eq_true, if_false] at hdir
    rcases hdir with h0 | ha | hb
    · exact absurd h0 (by decide)
    · exact .inl ha.symm
    · exact .inr hb.symm
  · intro h t ht
    cases hia : l.ia t
    · rcases h ⟨t, ht, hia⟩ with ha | hb
      · exact .inr (.inl ha.symm)
      · exact .inr (.inr hb.symm)
    · exact .inl rfl

section Request
variable {p : Pwm} (hp : l.pwm = some p) (hpos : 0 < p.period.toNat)
include hp

theorem inPeriod_iff (t : ℕ) : l.InPeriod t ↔ t < p.period.toNat := by
  unfold InPeriod
  rw [hp]
  simp

theorem ia_eq (t : ℕ) : l.ia t = (decide (t < p.pulse.toNat) ^^ p.inverted) := by
  unfold ia pulse inverted
  rw [hp]
  rfl

include hpos

theorem iaHigh_iff : l.IaHigh ↔
    if p.inverted then p.pulse.toNat < p.period.toNat else 0 < p.pulse.toNat := by
  unfold IaHigh
  simp only [inPeriod_iff hp, ia_eq hp]
  cases p.inverted
  · simp only [Bool.xor_false, decide_eq_true_eq, Bool.false_eq_true, if_false]
    constructor
    · rintro ⟨t, -, ht⟩
      omega
    · intro h
      exact ⟨0, hpos, h⟩
  · simp only [Bool.xor_true, Bool.not_eq_true', decide_eq_false_iff_not, not_lt, if_true]
    constructor
    · rintro ⟨t, ht, hle⟩
      omega
    · intro h
      exact ⟨p.pulse.toNat, h, le_rfl⟩

theorem iaLow_iff : l.IaLow ↔
    if p.inverted then 0 < p.pulse.toNat else p.pulse.toNat < p.period.toNat := by
  unfold IaLow
  simp only [inPeriod_iff hp, ia_eq hp]
  cases p.inverted
  · simp only [Bool.xor_false, decide_eq_false_iff_not, not_lt, Bool.false_eq_true, if_false]
    constructor
    · rintro ⟨t, ht, hle⟩
      omega
    · intro h
      exact ⟨p.pulse.toNat, h, le_rfl⟩
  · simp only [Bool.xor_true, Bool.not_eq_false', decide_eq_true_eq, if_true]
    constructor
    · rintro ⟨t, -, ht⟩
      omega
    · intro h
      exact ⟨0, hpos, h⟩

theorem pwmLow_iff : l.PwmLow ↔ ¬ l.IaHigh := by
  rw [iaHigh_iff hp hpos]
  unfold PwmLow
  rw [hp]
  cases hinverted : p.inverted
  · simp [hinverted, ← UInt32.toNat_inj]
  · simp [hinverted, UInt32.le_iff_toNat_le]

end Request
end Lines

/-! ## What the previous run left -/

section Run
variable (motor : ZephyrMotor) (mode : MotorMode) (duty : Int16)

def modeState : MotorMode → Int8
  | .forward => 1
  | .backward => -1
  | .brake => 0
  | .stop => 0

theorem state_zephyrMotorRun :
    (zephyrMotorRun motor mode duty).1.state = modeState (actualMode motor mode) := by
  rw [zephyrMotorRun_fst]
  cases actualMode motor mode <;> rfl

theorem between_zephyrMotorRun (l : Lines) (hdead : motor.deadtimeUs = 0) :
    l.between (zephyrMotorRun motor mode duty).2 =
      [{ l with in1 := runIn1 motor mode }, { l with in1 := runIn1 motor mode, in2 := false }] := by
  have hwait : ¬ (motor.deadtimeUs > 0 ∧ mode ≠ motor.lastMode) := by
    rw [hdead]
    exact fun h => absurd h.1 (by decide)
  have hdrive : (zephyrMotorRun motor mode duty).2 =
      (drive motor (actualMode motor mode) (pwmDuty motor duty)).2 := by
    unfold zephyrMotorRun deadTime
    rw [if_neg hwait]
    rfl
  rw [hdrive]
  unfold runIn1
  cases actualMode motor mode <;> rfl

/-- The duty reaches the whole period: it is clamped to `max_duty`, or the duty range has one value. -/
def FullDuty : Prop :=
  motor.maxDuty.toNat ≤ duty.toInt.natAbs ∨ (duty ≠ 0 ∧ motor.minDuty = motor.maxDuty)

instance : Decidable (FullDuty motor duty) := inferInstanceAs (Decidable (_ ∨ _))

variable {motor duty}

theorem fullDuty_iff (hpos : 0 < motor.maxDuty) (hle : motor.minDuty ≤ motor.maxDuty) :
    FullDuty motor duty ↔ (pwmDuty motor duty).toNat = motor.maxDuty.toNat := by
  have hpos' : 0 < motor.maxDuty.toNat := UInt16.lt_iff_toNat_lt.mp hpos
  have hle' : motor.minDuty.toNat ≤ motor.maxDuty.toNat := UInt16.le_iff_toNat_le.mp hle
  have hne : duty ≠ 0 ↔ duty.toInt ≠ 0 := not_congr Int16.toInt_inj.symm
  have hlevel : level motor duty ≤ motor.maxDuty.toNat := Nat.min_le_right _ _
  rw [toNat_pwmDuty duty hle, interpolate_eq_full_iff hle' hlevel hpos']
  unfold FullDuty level
  rw [hne, ← UInt16.toNat_inj]
  omega

theorem requested_lt_period_iff (hpos : 0 < motor.maxDuty) {p : UInt16}
    (hp : p.toNat ≤ motor.maxDuty.toNat) :
    (pwmUsec (p.toUInt32 * motorPwmPeriodUs / motor.maxDuty.toUInt32)).toNat < 1000000 ↔
      p.toNat ≠ motor.maxDuty.toNat := by
  have hpos' : 0 < motor.maxDuty.toNat := UInt16.lt_iff_toNat_lt.mp hpos
  have h1000 : 0 < 1000 := by decide
  have hfull := share_eq_full_iff hpos' h1000 hp
  have hle : share 1000 motor.maxDuty.toNat p.toNat ≤ 1000 := share_le hp
  rw [toNat_pulse hp, ne_eq, ← hfull]
  omega

/-- The PWM request of a run, by the mode that reaches the output switch. -/
def requestOf (motor : ZephyrMotor) (actual : MotorMode) (duty : Int16) : Pwm where
  period := pwmUsec motorPwmPeriodUs
  pulse := pwmUsec ((match actual with
    | .forward | .backward => pwmDuty motor duty
    | .brake => motor.maxDuty
    | .stop => 0).toUInt32 * motorPwmPeriodUs / motor.maxDuty.toUInt32)
  inverted := decide (actual = .backward)

theorem runPwm_eq_requestOf :
    runPwm motor mode duty = requestOf motor (actualMode motor mode) duty := by
  unfold runPwm requestOf actualMode
  cases mode <;> cases motor.reversed <;> rfl

theorem period_requestOf_pos {actual : MotorMode} :
    0 < (requestOf motor actual duty).period.toNat := by
  show 0 < (pwmUsec motorPwmPeriodUs).toNat
  decide

section Prev
variable {l : Lines} {actual : MotorMode} (hpos : 0 < motor.maxDuty)
  (hle : motor.minDuty ≤ motor.maxDuty)
include hpos hle

theorem pulse_lt_period_iff :
    (pwmUsec ((pwmDuty motor duty).toUInt32 * motorPwmPeriodUs / motor.maxDuty.toUInt32)).toNat <
        1000000 ↔ ¬ FullDuty motor duty := by
  have hp := toNat_pwmDuty_le duty hle
  rw [requested_lt_period_iff hpos hp, fullDuty_iff hpos hle]

/-- Where the request of the previous run holds IA high, for the modes that matter to a `stop`. -/
theorem iaHigh_requestOf (hl : l.pwm = some (requestOf motor actual duty)) :
    (actual = .stop → ¬ l.IaHigh) ∧ (actual = .backward → (l.IaHigh ↔ ¬ FullDuty motor duty)) ∧
      (actual = .brake → l.IaHigh) := by
  have hperiod : 0 < (requestOf motor actual duty).period.toNat := period_requestOf_pos
  rw [Lines.iaHigh_iff hl hperiod]
  refine ⟨?_, ?_, ?_⟩
  · rintro rfl
    simp [requestOf, pwmUsec]
  · rintro rfl
    exact pulse_lt_period_iff hpos hle
  · rintro rfl
    have hfull := (requested_lt_period_iff hpos (le_refl motor.maxDuty.toNat)).not
    have hge : ¬ (requestOf motor .brake duty).pulse.toNat < 1000000 := hfull.mpr (by simp)
    simp only [requestOf, reduceCtorEq, decide_false, Bool.false_eq_true, if_false] at hge ⊢
    omega

/-- Where it holds IA low, for the modes that matter to a `brake`. -/
theorem iaLow_requestOf (hl : l.pwm = some (requestOf motor actual duty)) :
    (actual = .stop → l.IaLow) ∧ (actual = .forward → (l.IaLow ↔ ¬ FullDuty motor duty)) ∧
      (actual = .brake → ¬ l.IaLow) := by
  have hperiod : 0 < (requestOf motor actual duty).period.toNat := period_requestOf_pos
  rw [Lines.iaLow_iff hl hperiod]
  refine ⟨?_, ?_, ?_⟩
  · rintro rfl
    simp [requestOf, pwmUsec, motorPwmPeriodUs]
  · rintro rfl
    exact pulse_lt_period_iff hpos hle
  · rintro rfl
    have hfull := (requested_lt_period_iff hpos (le_refl motor.maxDuty.toNat)).not
    exact hfull.mpr (by simp)

end Prev
end Run

/-! ## Sequences of runs -/

/-- A motor and its wires, with the last run: the mode that reached the output switch and the duty. -/
structure Commanded where
  motor : ZephyrMotor
  lines : Lines
  prev : Option (MotorMode × Int16)

namespace Commanded

/-- After `zephyr_motor_init` and the two setters of the duty range. -/
def start (pwmDev : PwmDev) (pwmReady gpioReady reverse : Bool) (minDuty maxDuty : UInt16) :
    Commanded where
  motor := zephyrMotorSetMaxDuty (zephyrMotorSetMinDuty
    (zephyrMotorInit pwmDev pwmReady gpioReady reverse).1 minDuty) maxDuty
  lines := Lines.reset.applyAll (zephyrMotorInit pwmDev pwmReady gpioReady reverse).2
  prev := none

def step (s : Commanded) (c : RunCall) : Commanded where
  motor := (s.motor.call c.toCall).1
  lines := s.lines.applyAll (s.motor.call c.toCall).2
  prev := some (actualMode s.motor c.args.1, c.args.2)

/-- Between the writes of the call the bridge is undriven, or driven in the direction of the command
before or of this one. -/
def NoWrongWay (s : Commanded) (c : RunCall) (t : Commanded) : Prop :=
  ∀ l ∈ s.lines.between (s.motor.call c.toCall).2, l.Toward s.motor.state t.motor.state

/-- A stop does not follow a brake, nor a backward run below the full duty; a brake follows a
backward run, a brake, or a forward run at the full duty. -/
def FollowsSafely (s : Commanded) (c : RunCall) (_ : Commanded) : Prop :=
  match actualMode s.motor c.args.1, s.prev with
  | .stop, some (.backward, duty) => FullDuty s.motor duty
  | .stop, some (.brake, _) => False
  | .brake, none => False
  | .brake, some (.stop, _) => False
  | .brake, some (.forward, duty) => FullDuty s.motor duty
  | _, _ => True

structure Inv (s : Commanded) : Prop where
  pos : 0 < s.motor.maxDuty
  le : s.motor.minDuty ≤ s.motor.maxDuty
  dead : s.motor.deadtimeUs = 0
  pwm : s.lines.pwm = s.prev.map fun r => requestOf s.motor r.1 r.2
  state : s.motor.state = (s.prev.map fun r => modeState r.1).getD 0

theorem start_inv (pwmDev : PwmDev) (pwmReady gpioReady reverse : Bool) {minDuty maxDuty : UInt16}
    (hpos : 0 < maxDuty) (hle : minDuty ≤ maxDuty) :
    (start pwmDev pwmReady gpioReady reverse minDuty maxDuty).Inv where
  pos := hpos
  le := hle
  dead := rfl
  pwm := by cases pwmReady <;> cases gpioReady <;> rfl
  state := rfl

section Step
variable {s : Commanded} (c : RunCall)

theorem step_inv (h : s.Inv) : (s.step c).Inv := by
  have hmotor : (s.step c).motor = (zephyrMotorRun s.motor c.args.1 c.args.2).1 :=
    congrArg Prod.fst (call_toCall s.motor c)
  have hlines : (s.step c).lines =
      s.lines.applyAll (zephyrMotorRun s.motor c.args.1 c.args.2).2 := by
    unfold step
    rw [call_toCall]
  have hfst := zephyrMotorRun_fst s.motor c.args.1 c.args.2
  refine ⟨?_, ?_, ?_, ?_, ?_⟩
  · rw [hmotor, hfst]
    exact h.pos
  · rw [hmotor, hfst]
    exact h.le
  · rw [hmotor, hfst]
    exact h.dead
  · rw [hlines, applyAll_zephyrMotorRun, runPwm_eq_requestOf, hmotor, hfst]
    rfl
  · rw [hmotor, state_zephyrMotorRun]
    rfl

theorem noWrongWay_iff_toward (h : s.Inv) : NoWrongWay s c (s.step c) ↔
    Lines.Toward { s.lines with in1 := runIn1 s.motor c.args.1 } s.motor.state
      (modeState (actualMode s.motor c.args.1)) := by
  have hstate : (s.step c).motor.state = modeState (actualMode s.motor c.args.1) := by
    have hmotor : (s.step c).motor = (zephyrMotorRun s.motor c.args.1 c.args.2).1 :=
      congrArg Prod.fst (call_toCall s.motor c)
    rw [hmotor, state_zephyrMotorRun]
  unfold NoWrongWay
  rw [call_toCall, between_zephyrMotorRun _ _ _ _ h.dead, hstate]
  simp only [List.mem_cons, List.not_mem_nil, or_false, forall_eq_or_imp, forall_eq]
  -- `pin_in2` does not reach the bridge
  exact and_self_iff

theorem followsSafely_stop (h : s.Inv) (hmode : actualMode s.motor c.args.1 = .stop) :
    (s.lines.IaHigh → s.motor.state = 1 ∨ (0 : Int8) = 1) ↔ FollowsSafely s c (s.step c) := by
  have hpwm := h.pwm
  have hstate := h.state
  unfold FollowsSafely
  rw [hmode]
  cases hprev : s.prev with
  | none =>
    rw [hprev] at hpwm
    simp [Lines.IaHigh, Lines.ia, Lines.pulse, Lines.inverted, hpwm]
  | some r =>
    obtain ⟨actual, duty⟩ := r
    rw [hprev] at hpwm hstate
    have hia := iaHigh_requestOf h.pos h.le hpwm
    cases actual with
    | stop => simp [hia.1 rfl]
    | forward => simp [hstate, modeState]
    | backward => simp [hia.2.1 rfl, hstate, modeState]
    | brake => simp [hia.2.2 rfl, hstate, modeState]

theorem followsSafely_brake (h : s.Inv) (hmode : actualMode s.motor c.args.1 = .brake) :
    (s.lines.IaLow → s.motor.state = -1 ∨ (0 : Int8) = -1) ↔ FollowsSafely s c (s.step c) := by
  have hpwm := h.pwm
  have hstate := h.state
  unfold FollowsSafely
  rw [hmode]
  cases hprev : s.prev with
  | none =>
    rw [hprev] at hpwm hstate
    have hlow : s.lines.IaLow := ⟨0, by simp [Lines.InPeriod, hpwm], by
      simp [Lines.ia, Lines.pulse, Lines.inverted, hpwm]⟩
    simp [hlow, hstate]
  | some r =>
    obtain ⟨actual, duty⟩ := r
    rw [hprev] at hpwm hstate
    have hia := iaLow_requestOf h.pos h.le hpwm
    cases actual with
    | stop => simp [hia.1 rfl, hstate, modeState]
    | forward => simp [hia.2.1 rfl, hstate, modeState]
    | backward => simp [hstate, modeState]
    | brake => simp [hia.2.2 rfl]

theorem noWrongWay_iff (h : s.Inv) : NoWrongWay s c (s.step c) ↔ FollowsSafely s c (s.step c) := by
  rw [noWrongWay_iff_toward c h]
  cases hmode : actualMode s.motor c.args.1 with
  | stop =>
    have hin1 : runIn1 s.motor c.args.1 = false := by simp [runIn1, hmode]
    rw [hin1, Lines.toward_of_in1_low rfl]
    exact followsSafely_stop c h hmode
  | brake =>
    have hin1 : runIn1 s.motor c.args.1 = true := by simp [runIn1, hmode]
    rw [hin1, Lines.toward_of_in1_high rfl]
    exact followsSafely_brake c h hmode
  | forward =>
    have hin1 : runIn1 s.motor c.args.1 = false := by simp [runIn1, hmode]
    rw [hin1, Lines.toward_of_in1_low rfl]
    simp [FollowsSafely, hmode, modeState]
  | backward =>
    have hin1 : runIn1 s.motor c.args.1 = true := by simp [runIn1, hmode]
    rw [hin1, Lines.toward_of_in1_high rfl]
    simp [FollowsSafely, hmode, modeState]

end Step
end Commanded

/-- Without a dead time no call drives the motor the wrong way between its writes exactly when every
stop and every brake follows safely. -/
theorem no_wrong_way_iff (pwmDev : PwmDev) (pwmReady gpioReady reverse : Bool)
    (minDuty maxDuty : UInt16) (hpos : 0 < maxDuty) (hle : minDuty ≤ maxDuty)
    (calls : List RunCall) :
    Always Commanded.step Commanded.NoWrongWay
        (Commanded.start pwmDev pwmReady gpioReady reverse minDuty maxDuty) calls ↔
      Always Commanded.step Commanded.FollowsSafely
        (Commanded.start pwmDev pwmReady gpioReady reverse minDuty maxDuty) calls :=
  Always.iff_of_invariant (I := Commanded.Inv) (fun _ c h => Commanded.noWrongWay_iff c h)
    (fun _ c h _ => Commanded.step_inv c h) calls
    (Commanded.start_inv pwmDev pwmReady gpioReady reverse hpos hle)

/-- The robot's duty range. -/
theorem no_wrong_way_shipped :
    Always Commanded.step Commanded.NoWrongWay (Commanded.start .pwm1 true true false 50 70)
        [.setSpeed 45, .setSpeed (-70), .setSpeed 0] ↔
      Always Commanded.step Commanded.FollowsSafely (Commanded.start .pwm1 true true false 50 70)
        [.setSpeed 45, .setSpeed (-70), .setSpeed 0] :=
  no_wrong_way_iff .pwm1 true true false 50 70 (by decide) (by decide) _

/-- The autotest's step from backward to stop: once `pin_in1` is low and before the PWM request is
withdrawn, the motor is driven forward for the last 115 microseconds of the period. -/
theorem stop_drives_forward :
    ¬ Always Commanded.step Commanded.NoWrongWay (Commanded.start .pwm1 true true false 50 70)
      [.setSpeed 45, .setSpeed (-45), .setSpeed 0] := by
  intro h
  have hstop := h.2.2.1
  have hdir := hstop ⟨false, false, some ⟨1000000, 885000, true⟩⟩ (by decide) 885000
    (by simp [Lines.InPeriod])
  revert hdir
  decide

end Mecanum.Motor
