import Mecanum.Robot.Envelope
import Mecanum.Robot.Pilot
import Mecanum.Wheel.SingleLeg

/-! # A move ends

A D-pad move needs no more control steps of each wheel than its profile has, and then a stay of two
control steps at the target, with no tick elsewhere in between. `MoveWatch` adds these counts to the
control state; once all four wheels have them, position mode is over. `Legs` is what this takes of the
arithmetic: exact arithmetic has it for every goal, and single precision for the goals below `2 ^ 24`.
-/

namespace Mecanum.Robot
open Motor Mecanum.Wheel Gamepad FloatArith Exact Trace CInt ZephyrAccelmotor
set_option autoImplicit false

/-! ## The arithmetic -/

/-- The legs to the goals in `Reach`, of `cover` control steps at most. -/
structure Legs (F : Type) [FloatArith F] where
  Leg : ℕ → ZephyrAccelmotor F → Prop
  cover : ℕ
  Reach : ℤ → Prop
  fits : ∀ {goal}, Reach goal → -2147483648 ≤ goal ∧ goal < 2147483648
  start : ∀ {accel : ZephyrAccelmotor F} {dir origin : ℤ}, AccelSettings accel → dir = 1 ∨ dir = -1 →
    Reach (origin + 50 * dir) → accel.targetPos.toInt = origin + 50 * dir →
    accel.controlPos = ofInt origin → accel.controlSpeed = lit 0 → Leg 0 accel
  zone : ∀ {k accel}, Leg k accel → accel.stopzone = 5
  counted : ∀ {k accel} count, Leg k accel → Leg k (withCount accel count)
  paused : ∀ {k accel} pos, Leg k accel → Leg k { accel with currentPos := pos }
  step : ∀ {k accel pos uptime}, accel.runMode = .accelPos → gateOpen accel uptime → Leg k accel →
    Leg (k + 1) (zephyrAccelmotorTick accel pos uptime).1
  rests : ∀ {k accel}, Leg k accel → cover ≤ k → ProfileRests accel

section Arithmetic
variable {F : Type} [FloatArith F] (legs : Legs F)

/-! ## One wheel -/

/-- What `steps` control steps since the press, and the last `rests` of them at the target, say of a
wheel. -/
structure Underway (accel : ZephyrAccelmotor F) (steps rests : ℕ) : Prop where
  leg : legs.Leg steps accel
  atTarget : 1 ≤ rests → legs.cover ≤ steps ∧ AtTarget accel
  off : 2 ≤ rests → accel.motor.state = 0

/-- The control steps of an uninterrupted stay at the target. It begins with the profile there, and a
tick at any other position ends it. -/
def restsAfter (accel : ZephyrAccelmotor F) (cover steps rests : ℕ) (pos : Int32)
    (uptime : Int64) : ℕ :=
  if pos = accel.targetPos then
    if cover ≤ steps ∧ gateOpen accel uptime then rests + 1 else rests
  else 0

section Wheel
variable {legs} {accel : ZephyrAccelmotor F} {steps rests : ℕ} {pos : Int32} {uptime : Int64}

theorem Underway.withCount (h : Underway legs accel steps rests) (count : Int32) :
    Underway legs (withCount accel count) steps rests := by
  refine ⟨legs.counted count h.leg, fun hrests => ?_, h.off⟩
  obtain ⟨hsteps, hat⟩ := h.atTarget hrests
  exact ⟨hsteps, hat.current, hat.prev, hat.integral⟩

theorem Underway.tick_of_open [RoundedArith F] (h : Underway legs accel steps rests)
    (hmode : accel.runMode = .accelPos) (hgate : gateOpen accel uptime) :
    Underway legs (zephyrAccelmotorTick accel pos uptime).1 (steps + 1)
      (restsAfter accel legs.cover steps rests pos uptime) := by
  have hnext : legs.Leg (steps + 1) (zephyrAccelmotorTick accel pos uptime).1 :=
    legs.step hmode hgate h.leg
  have hzone := legs.zone h.leg
  unfold restsAfter
  by_cases hpos : pos = accel.targetPos
  · by_cases hsteps : legs.cover ≤ steps
    · have hrest := legs.rests h.leg hsteps
      rw [if_pos hpos, if_pos ⟨hsteps, hgate⟩, hpos]
      refine ⟨hpos ▸ hnext, fun _ => ⟨by omega, tick_atTarget hmode hrest hzone hgate⟩,
        fun hrests => ?_⟩
      exact off_of_atTarget hmode hrest hzone hgate (h.atTarget (by omega)).2
    · rw [if_pos hpos, if_neg fun hboth => hsteps hboth.1]
      refine ⟨hnext, fun hrests => ?_, fun hrests => ?_⟩
      · exact absurd (h.atTarget hrests).1 hsteps
      · exact absurd (h.atTarget (by omega)).1 hsteps
  · rw [if_neg hpos]
    exact ⟨hnext, fun hrests => by omega, fun hrests => by omega⟩

theorem Underway.tick_of_closed (h : Underway legs accel steps rests)
    (hgate : ¬ gateOpen accel uptime) :
    Underway legs (zephyrAccelmotorTick accel pos uptime).1 steps
      (restsAfter accel legs.cover steps rests pos uptime) := by
  have hpaused := legs.paused pos h.leg
  rw [Wheel.tick_of_closed hgate]
  unfold restsAfter
  by_cases hpos : pos = accel.targetPos
  · rw [if_pos hpos, if_neg fun hboth => hgate hboth.2]
    refine ⟨hpaused, fun hrests => ?_, h.off⟩
    obtain ⟨hsteps, hat⟩ := h.atTarget hrests
    exact ⟨hsteps, hpos, hat.prev, hat.integral⟩
  · rw [if_neg hpos]
    exact ⟨hpaused, fun hrests => by omega, fun hrests => by omega⟩

end Wheel

end Arithmetic

/-! ## The four wheels -/

/-- The control state, with the control steps of each wheel since the last press and those of its
present stay at the target. -/
structure MoveWatch (F : Type) where
  robot : ControlState F
  steps : WheelId → ℕ
  rests : WheelId → ℕ

namespace MoveWatch
section Watch
variable {F : Type} [FloatArith F]

def start (robot : ControlState F) : MoveWatch F := ⟨robot, fun _ => 0, fun _ => 0⟩

def step (cover : ℕ) (s : MoveWatch F) (e : RobotEvent) : MoveWatch F where
  robot := s.robot.step e
  steps := match e with
    | .motor _ uptime => fun w =>
        if gateOpen (s.robot.accel w) (uptime w) then s.steps w + 1 else s.steps w
    | .pad _ _ => if (newlyPressed s.robot e).Nonempty then fun _ => 0 else s.steps
  rests := match e with
    | .motor count uptime => fun w =>
        restsAfter (s.robot.accel w) cover (s.steps w) (s.rests w) (count w) (uptime w)
    | .pad _ _ => if (newlyPressed s.robot e).Nonempty then fun _ => 0 else s.rests

/-- As long as the robot is in position mode some wheel has not stayed two control steps at its target. -/
def Busy (_ : MoveWatch F) (_ : RobotEvent) (t : MoveWatch F) : Prop :=
  t.robot.positionMode = true → ∃ w, t.rests w < 2

omit [FloatArith F] in
theorem busy_iff (s : MoveWatch F) (e : RobotEvent) (t : MoveWatch F) :
    (t.robot.positionMode = true → ¬ ∀ w, ¬ t.rests w < 2) ↔ Busy s e t := by
  simp [Busy]

instance (s : MoveWatch F) (e : RobotEvent) (t : MoveWatch F) : Decidable (Busy s e t) :=
  decidable_of_iff _ (busy_iff s e t)

variable (legs : Legs F)

structure Inv (s : MoveWatch F) : Prop where
  agree : Agree s.robot
  envelope : Wheels Envelope s.robot
  underway : s.robot.positionMode = true →
    ∀ w, Underway legs (s.robot.accel w) (s.steps w) (s.rests w)
  busy : s.robot.positionMode = true → ∃ w, s.rests w < 2

/-- The goal of a move that the event starts is in reach. -/
def GoalIn (Reach : ℤ → Prop) (s : ControlState F) (e : RobotEvent) (_ : ControlState F) : Prop :=
  ∀ b ∈ lastTested (newlyPressed s e), ∀ w,
    Reach ((s.accel w).currentPos.toInt + b.displacement w)

instance (Reach : ℤ → Prop) [DecidablePred Reach] (s : ControlState F) (e : RobotEvent)
    (t : ControlState F) : Decidable (GoalIn Reach s e t) :=
  inferInstanceAs (Decidable (∀ b ∈ lastTested (newlyPressed s e), ∀ _, _))

section Step
variable {legs} {s : MoveWatch F} {w : WheelId} {steps rests : ℕ}

/-- A wheel whose count of rests reaches two is not moving. -/
theorem not_moving_of_rests (hmode : (s.robot.accel w).runMode = .accelPos)
    (henv : Wheels Envelope s.robot) (count : WheelId → Int32) (uptime : WheelId → Int64)
    (hunder : Underway legs (tickWheel s.robot count uptime w).1 steps rests) (hrests : 2 ≤ rests) :
    (tickWheel s.robot count uptime w).2.2 = false := by
  obtain ⟨hrun, -, -, hzone, -⟩ := tickWheel_settings s.robot count uptime w
  exact not_moving_of_off (hrun.trans hmode) (hzone.trans (henv w).settings.stopzone)
    (hunder.atTarget (by omega)).2.current (hunder.off hrests)

theorem underway_tickWheel [RoundedArith F] (h : s.Inv legs) (hmode : s.robot.positionMode = true)
    (count : WheelId → Int32) (uptime : WheelId → Int64) (w : WheelId) :
    Underway legs (tickWheel s.robot count uptime w).1
      ((s.step legs.cover (.motor count uptime)).steps w)
      ((s.step legs.cover (.motor count uptime)).rests w) := by
  have hrun : (s.robot.accel w).runMode = .accelPos := by
    rw [h.agree.modes w, hmode]
    rfl
  have hcounted := (h.underway hmode w).withCount (count w)
  show Underway legs _ (if gateOpen (s.robot.accel w) (uptime w) then s.steps w + 1 else s.steps w)
    (restsAfter (s.robot.accel w) legs.cover (s.steps w) (s.rests w) (count w) (uptime w))
  rw [tickWheel_eq]
  split
  · next hgate => exact hcounted.tick_of_open hrun hgate
  · next hgate => exact hcounted.tick_of_closed hgate

theorem motor_inv [RoundedArith F] (h : s.Inv legs) (count : WheelId → Int32)
    (uptime : WheelId → Int64) :
    let t := s.step legs.cover (.motor count uptime)
    (t.robot.positionMode = true →
      ∀ w, Underway legs (t.robot.accel w) (t.steps w) (t.rests w)) ∧
      (t.robot.positionMode = true → ∃ w, t.rests w < 2) := by
  have hstep : (s.step legs.cover (.motor count uptime)).robot = motorThreadStep s.robot count uptime :=
    rfl
  simp only [hstep]
  rw [motorThreadStep_eq]
  by_cases hends : EndsMove s.robot count uptime
  · simp only [if_pos hends, changeMode_positionMode]
    exact ⟨fun hon => (by cases hon), fun hon => (by cases hon)⟩
  · simp only [if_neg hends]
    refine ⟨fun hmode => underway_tickWheel h hmode count uptime, fun hmode => ?_⟩
    by_contra hdone
    refine hends ⟨hmode, fun w => ?_⟩
    have hrests : 2 ≤ (s.step legs.cover (.motor count uptime)).rests w := by
      by_contra hlt
      exact hdone ⟨w, not_le.mp hlt⟩
    have hrun : (s.robot.accel w).runMode = .accelPos := by
      rw [h.agree.modes w, show s.robot.positionMode = true from hmode]
      rfl
    exact not_moving_of_rests hrun h.envelope count uptime
      (underway_tickWheel h hmode count uptime w) hrests

theorem heading_cases (b : DpadButton) (w : WheelId) : b.heading w = 1 ∨ b.heading w = -1 := by
  cases b <;> cases w <;> decide

/-- A press starts a leg on every wheel. -/
theorem underway_moveBy {robot : ControlState F} (henv : Wheels Envelope robot) (b : DpadButton)
    (hreach : ∀ w, legs.Reach ((robot.accel w).currentPos.toInt + b.displacement w)) (w : WheelId) :
    Underway legs ((moveBy robot b).accel w) 0 0 := by
  have hfits := legs.fits (hreach w)
  have hsmall := displacement_bounds b w
  have htarget : ((moveBy robot b).accel w).targetPos.toInt =
      (robot.accel w).currentPos.toInt + b.displacement w :=
    (toInt_add_ofInt_iff (by omega) (by omega)).mpr ⟨rfl, hfits⟩
  have hsettings : AccelSettings ((moveBy robot b).accel w) := by
    have hbefore := (henv w).settings
    exact ⟨hbefore.dtMs, hbefore.dtSec, hbefore.stopzone, hbefore.maxSpeed, hbefore.acceleration,
      hbefore.kp, hbefore.ki, hbefore.kd⟩
  have hstep : b.displacement w = 50 * b.heading w := by
    cases b <;> cases w <;> decide
  have hgoal := hreach w
  rw [hstep] at hgoal htarget
  exact ⟨legs.start hsettings (heading_cases b w) hgoal htarget rfl rfl, fun hrests => by omega,
    fun hrests => by omega⟩

theorem pad_inv (h : s.Inv legs) (frame : Vector UInt8 21) (lastRead : UInt64)
    (hreach : GoalIn legs.Reach s.robot (.pad frame lastRead) (s.robot.step (.pad frame lastRead))) :
    let t := s.step legs.cover (.pad frame lastRead)
    (t.robot.positionMode = true →
      ∀ w, Underway legs (t.robot.accel w) (t.steps w) (t.rests w)) ∧
      (t.robot.positionMode = true → ∃ w, t.rests w < 2) := by
  have hstep : (s.step legs.cover (.pad frame lastRead)).robot = s.robot.step (.pad frame lastRead) :=
    rfl
  have hsteps : (s.step legs.cover (.pad frame lastRead)).steps =
      if (newlyPressed s.robot (.pad frame lastRead)).Nonempty then fun _ => 0 else s.steps := rfl
  have hrests : (s.step legs.cover (.pad frame lastRead)).rests =
      if (newlyPressed s.robot (.pad frame lastRead)).Nonempty then fun _ => 0 else s.rests := rfl
  simp only [hstep, hsteps, hrests]
  by_cases hok : frameOk frame = true
  · rw [step_pad_of_ok s.robot lastRead hok]
    by_cases hpressed : (newlyPressed s.robot (.pad frame lastRead)).Nonempty
    · obtain ⟨b, hlast, -⟩ := lastTested_isSome _ hpressed
      simp only [if_pos hpressed, hlast, Option.elim_some]
      have hmoved : applySticks (moveBy (s.robot.latch frame lastRead) b) =
          moveBy (s.robot.latch frame lastRead) b := rfl
      have henv : Wheels Envelope (s.robot.latch frame lastRead) := h.envelope
      rw [hmoved]
      exact ⟨fun _ => underway_moveBy henv b (hreach b hlast), fun _ => ⟨.fl, by norm_num⟩⟩
    · have hnone : newlyPressed s.robot (.pad frame lastRead) = ∅ :=
        Finset.not_nonempty_iff_eq_empty.mp hpressed
      have hlast : lastTested (∅ : Finset DpadButton) = none := by decide
      simp only [hnone, hlast, Option.elim_none, Finset.not_nonempty_empty, if_false,
        applySticks_positionMode]
      refine ⟨fun hmode w => ?_, h.busy⟩
      have hsame : applySticks (s.robot.latch frame lastRead) = s.robot.latch frame lastRead :=
        if_pos hmode
      rw [hsame]
      exact h.underway hmode w
  · rw [step_pad_of_bad s.robot lastRead hok]
    exact ⟨fun hon => (by cases hon), fun hon => (by cases hon)⟩

theorem step_inv [RoundedArith F] (h : s.Inv legs) (e : RobotEvent)
    (hreach : GoalIn legs.Reach s.robot e (s.robot.step e)) : (s.step legs.cover e).Inv legs := by
  have hagree : Agree (s.robot.step e) :=
    Watch.step_agree ⟨s.robot, false⟩ e ⟨h.agree, fun hlost => by cases hlost⟩
  have henv : Wheels Envelope (s.robot.step e) := envelope_kept.step h.envelope e
  cases e with
  | motor count uptime =>
      obtain ⟨hunder, hbusy⟩ := motor_inv h count uptime
      exact ⟨hagree, henv, hunder, hbusy⟩
  | pad frame lastRead =>
      obtain ⟨hunder, hbusy⟩ := pad_inv h frame lastRead hreach
      exact ⟨hagree, henv, hunder, hbusy⟩

end Step

theorem always_busy [RoundedArith F] {W : Type} {board : Board} {bus : Bus W} {world : W}
    {s : ControlState F} (hinit : initHardware board bus world = some s) (events : List RobotEvent)
    (hreach : Always ControlState.step (GoalIn legs.Reach) s events) :
    Always (step legs.cover) Busy (start s) events := by
  obtain ⟨⟨hagree, -⟩, hmode, -⟩ := Watch.initHardware_inv board bus world s hinit
  have hwatched : Always (step legs.cover) (fun t e t' => GoalIn legs.Reach t.robot e t'.robot)
      (start s) events := Always.of_project (fun _ _ => rfl) events hreach
  refine Always.of_invariant_of_always (I := Inv legs) (fun s e h hf => (step_inv h e hf).busy)
    (fun s e h hf => step_inv h e hf) events ⟨hagree, initHardware_envelope hinit, ?_, ?_⟩ hwatched
  · intro hon
    exact absurd (hmode.symm.trans hon) (by decide)
  · intro hon
    exact absurd (hmode.symm.trans hon) (by decide)

end Watch

/-! ## The two arithmetics -/

theorem exactLeg_start {accel : ZephyrAccelmotor ℚ} {dir origin : ℤ} (h : AccelSettings accel)
    (hdir : dir = 1 ∨ dir = -1) (htarget : accel.targetPos.toInt = origin + 50 * dir)
    (hpos : accel.controlPos = ofInt origin) (hspeed : accel.controlSpeed = lit 0) :
    OnLeg (dir : ℚ) 0 accel := by
  have hsq : (dir : ℚ) * dir = 1 := by
    obtain rfl | rfl := hdir <;> norm_num
  have hdt : accel.dtSec = 0.02 := by
    have h20 : ((20 : UInt32).toNat : ℚ) = 20 := rfl
    rw [h.dtSec, ofInt_eq, lit_eq, Int.cast_natCast, h20]
    norm_num
  have hgo : (dir : ℚ) * accel.toGo = 50 := by
    unfold toGo
    rw [htarget, hpos, ofInt_eq]
    push_cast
    linarith
  exact onLeg_start ⟨h.acceleration, hdt, h.maxSpeed, h.stopzone⟩ hsq hgo hspeed

def exactLegs : Legs ℚ where
  Leg k accel := ∃ dir, OnLeg dir k accel
  cover := 26
  Reach goal := -2147483648 ≤ goal ∧ goal < 2147483648
  fits h := h
  start h hdir _ htarget hpos hspeed := ⟨_, exactLeg_start h hdir htarget hpos hspeed⟩
  zone h := h.elim fun _ hleg => hleg.stopzone
  counted {k accel} count h := by
    have hsame : SameProfile (withCount accel count) accel :=
      ⟨rfl, rfl, rfl, rfl, rfl, rfl, rfl, rfl, rfl⟩
    exact h.imp fun _ hleg => hsame.onLeg hleg
  paused {k accel} pos h := by
    have hsame : SameProfile { accel with currentPos := pos } accel :=
      ⟨rfl, rfl, rfl, rfl, rfl, rfl, rfl, rfl, rfl⟩
    exact h.imp fun _ hleg => hsame.onLeg hleg
  step {k accel pos uptime} hmode hgate h := by
    obtain ⟨dir, hleg⟩ := h
    have hstep := sameProfile_step ⟨pos, uptime⟩ hmode
    rw [if_pos hgate] at hstep
    exact ⟨dir, hstep.onLeg hleg.accelPosUpdate⟩
  rests h hk := h.elim fun _ hleg => hleg.profileRests hk

theorem legSettings_of_accel {accel : ZephyrAccelmotor Single} (h : AccelSettings accel)
    (htarget : |accel.targetPos.toInt| ≤ 16777152) : LegSettings accel :=
  ⟨h.acceleration, h.dtSec, h.maxSpeed, h.stopzone, htarget⟩

def singleLegs : Legs Single where
  Leg := SingleLeg
  cover := 30
  Reach goal := |goal| ≤ 16777152
  fits h := by
    obtain ⟨hlow, hhigh⟩ := abs_le.mp h
    exact ⟨by omega, by omega⟩
  start {accel dir origin} h hdir hreach htarget hpos hspeed :=
    singleLeg_start (legSettings_of_accel h (by rwa [htarget])) hdir htarget hpos hspeed
  zone h := h.stopzone
  counted {k accel} count h := by
    have hsame : SameProfile (withCount accel count) accel :=
      ⟨rfl, rfl, rfl, rfl, rfl, rfl, rfl, rfl, rfl⟩
    exact hsame.singleLeg h
  paused {k accel} pos h := by
    have hsame : SameProfile { accel with currentPos := pos } accel :=
      ⟨rfl, rfl, rfl, rfl, rfl, rfl, rfl, rfl, rfl⟩
    exact hsame.singleLeg h
  step hmode hgate h := h.tick hmode hgate
  rests h hk := (h.arrived hk).profileRests

/-- In exact arithmetic, along every interleaving from `init_hardware` whose goals fit `int32_t`, a move
is over when every wheel has made 26 control steps since the press and stays at its target for two
more, with no tick elsewhere in between. -/
theorem move_ends {W : Type} (board : Board) (bus : Bus W) (world : W) (s : ControlState ℚ)
    (hinit : initHardware board bus world = some s) (events : List RobotEvent)
    (hfits : Always ControlState.step GoalFits s events) :
    Always (step 26) Busy (start s) events :=
  always_busy exactLegs hinit events hfits

theorem move_ends_up :
    Always (step 26) Busy (start shippedRobot) (.pad StickWatch.upFrame 0 :: StickWatch.moveSteps) :=
  move_ends _ _ _ _ initHardware_shipped _ (by decide +kernel)

/-- In single precision four steps more before the stay are enough, for goals in the range where a
rounding moves the profile by half a count at most. -/
theorem move_ends_single {W : Type} (board : Board) (bus : Bus W) (world : W) (s : ControlState Single)
    (hinit : initHardware board bus world = some s) (events : List RobotEvent)
    (hreach : Always ControlState.step (GoalIn fun goal => |goal| ≤ 16777152) s events) :
    Always (step 30) Busy (start s) events :=
  always_busy singleLegs hinit events hreach

theorem move_ends_single_up :
    Always (step 30) Busy (start shippedSingle)
      (.pad StickWatch.upFrame 0 :: StickWatch.moveSteps) :=
  move_ends_single readyBoard replay _ _ (Option.some_get _).symm _ (by decide +kernel)

end MoveWatch
end Mecanum.Robot
