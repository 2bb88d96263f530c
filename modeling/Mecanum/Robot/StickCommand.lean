import Mecanum.Robot.ModeMachine

/-! # The stick command across a position move

`target_speed` is written only outside position mode, so a move ends with the mix of the last frame
read before it. `StickWatch` adds to the control state the mix that should be in force and the mix
that was applied last.
-/

namespace Mecanum.Robot
open Motor Mecanum.Wheel Gamepad FloatArith Trace CInt
set_option autoImplicit false

/-! ## Who writes `target_speed` -/

section TargetSpeed
variable {F : Type} [FloatArith F] (s : ControlState F) (w : WheelId)

theorem changeMode_targetSpeed (mode : Bool) :
    ((changeMode s mode).accel w).targetSpeed = (s.accel w).targetSpeed := by
  cases mode <;> rfl

theorem dpadMove_targetSpeed (button : UInt16) (step : WheelId → Int32) :
    ((dpadMove button step s).accel w).targetSpeed = (s.accel w).targetSpeed ∧
      (dpadMove button step s).ps2 = s.ps2 := by
  unfold dpadMove
  split
  · exact ⟨changeMode_targetSpeed s w true, rfl⟩
  · exact ⟨rfl, rfl⟩

theorem dpadMoves_targetSpeed : ((dpadMoves s).accel w).targetSpeed = (s.accel w).targetSpeed ∧
    (dpadMoves s).ps2 = s.ps2 := by
  have h1 := dpadMove_targetSpeed s w
  have h2 := dpadMove_targetSpeed (moveLeft s) w
  have h3 := dpadMove_targetSpeed (moveRight (moveLeft s)) w
  have h4 := dpadMove_targetSpeed (moveUp (moveRight (moveLeft s))) w
  exact ⟨(h4 _ _).1.trans ((h3 _ _).1.trans ((h2 _ _).1.trans (h1 _ _).1)),
    (h4 _ _).2.trans ((h3 _ _).2.trans ((h2 _ _).2.trans (h1 _ _).2))⟩

omit [FloatArith F] in
theorem applySticks_targetSpeed : ((applySticks s).accel w).targetSpeed =
    if s.positionMode then (s.accel w).targetSpeed else Int16.ofInt (stickMix s.ps2 w) := by
  unfold applySticks
  split <;> rfl

theorem motorThreadStep_targetSpeed (count : WheelId → Int32) (uptime : WheelId → Int64) :
    ((motorThreadStep s count uptime).accel w).targetSpeed = (s.accel w).targetSpeed := by
  rw [motorThreadStep_eq]
  have htick := (tickWheel_settings s count uptime w).2.2.1
  split
  · rw [changeMode_targetSpeed]
    exact htick
  · exact htick

end TargetSpeed

/-- The mix is within `±MAX_SPEED`, so narrowing it to `int16_t` keeps it. -/
theorem toInt_stickMix (ps2 : Ps2) (w : WheelId) :
    (Int16.ofInt (stickMix ps2 w)).toInt = stickMix ps2 w := by
  have hbounds : -70 ≤ stickMix ps2 w ∧ stickMix ps2 w ≤ 70 := by
    unfold stickMix maxSpeed
    simp only
    split <;> split <;> omega
  exact toInt_int16 (by omega) (by omega)

/-! ## The law -/

/-- The control state with two stick mixes for each wheel. -/
structure StickWatch (F : Type) where
  robot : ControlState F
  /-- The mix of the last frame read; `0` before the first and after a failed read. -/
  expected : WheelId → ℤ
  /-- The mix of the last frame read outside position mode; `0` before the first and after a failed
  read. -/
  applied : WheelId → ℤ

namespace StickWatch
variable {F : Type} [FloatArith F]

def start (robot : ControlState F) : StickWatch F := ⟨robot, fun _ => 0, fun _ => 0⟩

def step (s : StickWatch F) (e : RobotEvent) : StickWatch F where
  robot := s.robot.step e
  expected := match e with
    | .motor _ _ => s.expected
    | .pad frame lastRead =>
        if frameOk frame then stickMix (s.robot.ps2.latch frame lastRead) else fun _ => 0
  applied := match e with
    | .motor _ _ => s.applied
    | .pad frame lastRead =>
        if frameOk frame then
          if (s.robot.step e).positionMode then s.applied
          else stickMix (s.robot.ps2.latch frame lastRead)
        else fun _ => 0

/-- Outside position mode every target speed is the mix of the last frame. -/
def Fresh (_ : StickWatch F) (_ : RobotEvent) (t : StickWatch F) : Prop :=
  t.robot.positionMode = false → ∀ w, (t.robot.accel w).targetSpeed.toInt = t.expected w

instance (s : StickWatch F) (e : RobotEvent) (t : StickWatch F) : Decidable (Fresh s e t) :=
  inferInstanceAs (Decidable (_ → ∀ _, _))

/-- A motor step that ends a move finds the last frame asking for the mix of the last frame before
the move. -/
def EndsOnSameMix (s : StickWatch F) (e : RobotEvent) (_ : StickWatch F) : Prop :=
  match e with
  | .motor count uptime => EndsMove s.robot count uptime → ∀ w, s.applied w = s.expected w
  | .pad _ _ => True

structure Inv (s : StickWatch F) : Prop where
  applied : ∀ w, (s.robot.accel w).targetSpeed.toInt = s.applied w
  fresh : s.robot.positionMode = false → ∀ w, s.applied w = s.expected w

section Step
variable (s : StickWatch F) (e : RobotEvent)

theorem step_applied (h : s.Inv) (w : WheelId) :
    ((s.step e).robot.accel w).targetSpeed.toInt = (s.step e).applied w := by
  cases e with
  | motor count uptime =>
      show ((motorThreadStep s.robot count uptime).accel w).targetSpeed.toInt = s.applied w
      rw [motorThreadStep_targetSpeed]
      exact h.applied w
  | pad frame lastRead =>
      cases hok : frameOk frame
      · simp only [step, ControlState.step, hok]
        rfl
      · obtain ⟨hspeed, hps2⟩ := dpadMoves_targetSpeed (s.robot.latch frame lastRead) w
        have hstep : s.robot.step (.pad frame lastRead) =
            applySticks (dpadMoves (s.robot.latch frame lastRead)) := if_pos hok
        simp only [step, hok, if_true]
        rw [hstep, applySticks_positionMode, applySticks_targetSpeed, hspeed, hps2]
        split
        · exact h.applied w
        · exact toInt_stickMix _ w

theorem step_fresh_of_pad {frame : Vector UInt8 21} {lastRead : UInt64}
    (hmode : (s.step (.pad frame lastRead)).robot.positionMode = false) (w : WheelId) :
    (s.step (.pad frame lastRead)).applied w = (s.step (.pad frame lastRead)).expected w := by
  change (s.robot.step (.pad frame lastRead)).positionMode = false at hmode
  simp only [step, hmode, Bool.false_eq_true, if_false]

theorem fresh_iff (h : s.Inv) : Fresh s e (s.step e) ↔ EndsOnSameMix s e (s.step e) := by
  have happlied := step_applied s e h
  unfold Fresh EndsOnSameMix
  simp only [happlied]
  cases e with
  | pad frame lastRead => exact iff_of_true (step_fresh_of_pad s) trivial
  | motor count uptime =>
      have hmode : (s.step (.motor count uptime)).robot.positionMode =
          (motorThreadStep s.robot count uptime).positionMode := rfl
      rw [hmode, motorThreadStep_eq]
      by_cases hends : EndsMove s.robot count uptime
      · simp only [hends, if_true, changeMode_positionMode, true_imp_iff]
        exact Iff.rfl
      · simp only [hends, if_false, false_imp_iff, iff_true]
        exact h.fresh

theorem step_inv (h : s.Inv) (hC : EndsOnSameMix s e (s.step e)) : (s.step e).Inv := by
  have happlied := step_applied s e h
  refine ⟨happlied, fun hmode w => ?_⟩
  rw [← happlied w]
  exact (fresh_iff s e h).mpr hC hmode w

end Step

/-- Along every interleaving from the state `init_hardware` leaves, the target speeds are those of
the last frame whenever position mode is off exactly when every move ends on a frame with the mix
of the last frame before the move. -/
theorem no_stale_stick_iff {W : Type} (board : Board) (bus : Bus W) (world : W) (s : ControlState F)
    (hinit : initHardware board bus world = some s) (events : List RobotEvent) :
    Always step Fresh (start s) events ↔ Always step EndsOnSameMix (start s) events := by
  obtain ⟨-, -, hspeed⟩ := Watch.initHardware_inv board bus world s hinit
  refine Always.iff_of_invariant fresh_iff step_inv events ⟨fun w => ?_, fun _ _ => rfl⟩
  show (s.accel w).targetSpeed.toInt = 0
  rw [hspeed w]
  rfl

def stickUpFrame : Vector UInt8 21 :=
  paddedFrame [0xFF, 0x73, 0x5A, 0xFF, 0xFF, 0x80, 0x80, 0x80, 0x00]

def upFrame : Vector UInt8 21 := paddedFrame (restFrame 0xEF)

/-- The 28 motor steps of a 50-count move whose wheels follow the profile one step behind. -/
def moveSteps : List RobotEvent :=
  (List.range 28).map fun k =>
    .motor (fun _ => if k < 26 then Int32.ofNat (7 * k * (k + 1) / 100) else 50)
      (fun _ => 40 + 20 * Int64.ofNat k)

theorem no_stale_stick_move :
    Always step Fresh (start shippedRobot) (.pad upFrame 0 :: moveSteps) ↔
      Always step EndsOnSameMix (start shippedRobot) (.pad upFrame 0 :: moveSteps) :=
  no_stale_stick_iff _ _ _ _ initHardware_shipped _

/-- The stick is pushed for one frame and released before UP is pressed. When the move ends the
wheels are set to the old stick speed. -/
theorem stale_stick_after_move :
    ¬ Always step Fresh (start shippedRobot)
      ([.pad stickUpFrame 0, .motor (fun _ => 0) (fun _ => 20), .pad upFrame 0] ++ moveSteps) := by
  decide +kernel

end StickWatch
end Mecanum.Robot
