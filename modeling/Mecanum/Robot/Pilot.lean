import Mecanum.Robot.DpadMoves
import Mecanum.Robot.WheelSteps

/-! # The robot as its operator sees it

`Pilot` is an abstract machine: it drives at a stick command or moves to a goal, and it reacts to a tick, a
frame or a lost link. It knows no controller, no run mode and no 32-bit register. The two threads
implement it: `ControlState.pilot` reads its state off the records of `main.c`, and every
critical section is one of its steps.
-/

namespace Mecanum.Robot
open Motor Mecanum.Wheel Gamepad FloatArith Trace CInt
set_option autoImplicit false

/-! ## The abstract machine -/

inductive Activity
  | driving
  | moving (goal : WheelId → ℤ)

structure Pilot where
  activity : Activity
  /-- The stick command in force, or the one that a move interrupted. -/
  speeds : WheelId → ℤ
  held : Finset DpadButton
  place : WheelId → ℤ

inductive Observation
  /-- The wheels have got to `place`; `arrived` says that all of them stand at their goals. -/
  | ticked (place : WheelId → ℤ) (arrived : Bool)
  | frame (held : Finset DpadButton) (sticks : WheelId → ℤ)
  | lost (held : Finset DpadButton)

namespace Pilot

def atRest (held : Finset DpadButton) : Pilot := ⟨.driving, fun _ => 0, held, fun _ => 0⟩

/-- A new press starts a move from where the wheels are. Without one the sticks set the speeds, except
during a move. -/
def steer (s : Pilot) (pressed : Option DpadButton) (sticks : WheelId → ℤ) : Pilot :=
  match pressed, s.activity with
  | some b, _ => { s with activity := .moving fun w => s.place w + b.displacement w }
  | none, .driving => { s with speeds := sticks }
  | none, .moving _ => s

def step (s : Pilot) : Observation → Pilot
  | .ticked place arrived =>
      { s with place := place, activity := if arrived then .driving else s.activity }
  | .frame held sticks => { s.steer (lastTested (held \ s.held)) sticks with held := held }
  | .lost held => { s with activity := .driving, speeds := fun _ => 0, held := held }

theorem steer_held (s : Pilot) (pressed : Option DpadButton) (sticks : WheelId → ℤ)
    (held : Finset DpadButton) :
    { s with held := held }.steer pressed sticks = { s.steer pressed sticks with held := held } := by
  obtain ⟨activity, speeds, before, place⟩ := s
  cases pressed <;> cases activity <;> rfl

end Pilot

/-! ## What the records mean -/

section Abstraction
variable {F : Type} [FloatArith F]

def heldSet (word : UInt16) : Finset DpadButton := Finset.univ.filter fun b => Held word b.bit

def ControlState.pilot (s : ControlState F) : Pilot where
  activity :=
    if s.positionMode then .moving fun w => (s.accel w).targetPos.toInt else .driving
  speeds w := (s.accel w).targetSpeed.toInt
  held := heldSet s.ps2.buttons
  place w := (s.accel w).currentPos.toInt

instance (s : ControlState F) (count : WheelId → Int32) (uptime : WheelId → Int64) :
    Decidable (AllStopped s count uptime) := inferInstanceAs (Decidable (∀ _, _))

def ControlState.observe (s : ControlState F) : RobotEvent → Observation
  | .motor count uptime =>
      .ticked (fun w => (count w).toInt) (decide (AllStopped s count uptime))
  | .pad frame lastRead =>
      if frameOk frame then
        .frame (heldSet (buttonWord frame)) (stickMix (s.ps2.latch frame lastRead))
      else .lost (heldSet (buttonWord frame))

/-- The goal of a move that the event starts fits `int32_t`. -/
def GoalFits (s : ControlState F) (e : RobotEvent) (_ : ControlState F) : Prop :=
  ∀ b ∈ lastTested (newlyPressed s e), ∀ w,
    -2147483648 ≤ (s.accel w).currentPos.toInt + b.displacement w ∧
      (s.accel w).currentPos.toInt + b.displacement w < 2147483648

instance (s : ControlState F) (e : RobotEvent) (t : ControlState F) : Decidable (GoalFits s e t) :=
  inferInstanceAs (Decidable (∀ b ∈ lastTested (newlyPressed s e), ∀ _, _))

theorem pressedSet_eq (prev now : UInt16) : pressedSet prev now = heldSet now \ heldSet prev := by
  ext b
  simp [pressedSet, heldSet, and_comm]

omit [FloatArith F] in
theorem applySticks_keeps (s : ControlState F) (w : WheelId) :
    ((applySticks s).accel w).currentPos = (s.accel w).currentPos ∧ (applySticks s).ps2 = s.ps2 := by
  unfold applySticks
  split <;> exact ⟨rfl, rfl⟩

end Abstraction

/-! ## One step -/

section Step
variable {F : Type} [FloatArith F] (s : ControlState F)

/-- The D-pad branches of a frame, in the words of the last one taken. -/
theorem dpadMoves_pressed (w : WheelId) :
    let last := lastTested (pressedSet s.ps2.lastButtons s.ps2.buttons)
    ((dpadMoves s).accel w).targetPos = last.elim (s.accel w).targetPos
        (fun b => (s.accel w).currentPos + Int32.ofInt (b.displacement w)) ∧
      ((dpadMoves s).accel w).currentPos = (s.accel w).currentPos ∧
      (dpadMoves s).positionMode = (s.positionMode || last.isSome) := by
  rw [dpadMoves_eq_moveBy]
  cases lastTested (pressedSet s.ps2.lastButtons s.ps2.buttons) with
  | none => exact ⟨rfl, rfl, (Bool.or_false _).symm⟩
  | some b => exact ⟨rfl, rfl, (Bool.or_true _).symm⟩

theorem pilot_changeMode_false : (changeMode s false).pilot = { s.pilot with activity := .driving } :=
  rfl

theorem pilot_tickWheels (count : WheelId → Int32) (uptime : WheelId → Int64) :
    (tickWheels s count uptime).pilot = { s.pilot with place := fun w => (count w).toInt } := by
  have hwheel := tickWheel_settings s count uptime
  have htarget : (fun w => ((tickWheels s count uptime).accel w).targetPos.toInt) =
      fun w => (s.accel w).targetPos.toInt := funext fun w => congrArg Int32.toInt (hwheel w).2.1
  have hspeed : (fun w => ((tickWheels s count uptime).accel w).targetSpeed.toInt) =
      fun w => (s.accel w).targetSpeed.toInt :=
    funext fun w => congrArg Int16.toInt (hwheel w).2.2.1
  have hplace : (fun w => ((tickWheels s count uptime).accel w).currentPos.toInt) =
      fun w => (count w).toInt := funext fun w => congrArg Int32.toInt (hwheel w).2.2.2.2
  unfold ControlState.pilot
  rw [htarget, hspeed, hplace]
  rfl

theorem motor_refines (count : WheelId → Int32) (uptime : WheelId → Int64) :
    (motorThreadStep s count uptime).pilot = s.pilot.step (s.observe (.motor count uptime)) := by
  have hplace := pilot_tickWheels s count uptime
  rw [motorThreadStep_eq]
  by_cases hends : EndsMove s count uptime
  · have hobserve : s.observe (.motor count uptime) = .ticked (fun w => (count w).toInt) true :=
      congrArg (Observation.ticked _) (decide_eq_true hends.2)
    rw [if_pos hends, pilot_changeMode_false, hplace, hobserve]
    rfl
  · rw [if_neg hends, hplace]
    by_cases hstopped : AllStopped s count uptime
    · -- outside position mode the wheels may stand without a move to end
      have hmode : s.positionMode = false := by
        by_contra hon
        exact hends ⟨Bool.eq_true_of_not_eq_false hon, hstopped⟩
      have hobserve : s.observe (.motor count uptime) = .ticked (fun w => (count w).toInt) true :=
        congrArg (Observation.ticked _) (decide_eq_true hstopped)
      rw [hobserve]
      unfold Pilot.step ControlState.pilot
      rw [hmode]
      rfl
    · have hobserve : s.observe (.motor count uptime) = .ticked (fun w => (count w).toInt) false :=
        congrArg (Observation.ticked _) (decide_eq_false hstopped)
      rw [hobserve]
      rfl

/-- The stick branch and the D-pad branches together. -/
theorem pilot_applySticks_dpadMoves (hfits : ∀ b ∈ lastTested (pressedSet s.ps2.lastButtons s.ps2.buttons),
      ∀ w, -2147483648 ≤ (s.accel w).currentPos.toInt + b.displacement w ∧
        (s.accel w).currentPos.toInt + b.displacement w < 2147483648) :
    (applySticks (dpadMoves s)).pilot = s.pilot.steer
      (lastTested (pressedSet s.ps2.lastButtons s.ps2.buttons)) (stickMix s.ps2) := by
  have hbranches := dpadMoves_pressed s
  have hps2 := (dpadMoves_targetSpeed s .fl).2
  have hspeed : ∀ w, ((applySticks (dpadMoves s)).accel w).targetSpeed.toInt =
      if (dpadMoves s).positionMode then (s.accel w).targetSpeed.toInt else stickMix s.ps2 w := by
    intro w
    rw [applySticks_targetSpeed, (dpadMoves_targetSpeed s w).1, hps2]
    split
    · rfl
    · exact toInt_stickMix s.ps2 w
  have hplace : ∀ w, ((applySticks (dpadMoves s)).accel w).currentPos = (s.accel w).currentPos :=
    fun w => (applySticks_keeps (dpadMoves s) w).1.trans (hbranches w).2.1
  have hheld : (applySticks (dpadMoves s)).ps2 = s.ps2 := (applySticks_keeps (dpadMoves s) .fl).2.trans hps2
  unfold ControlState.pilot Pilot.steer
  simp only [applySticks_positionMode, applySticks_targetPos, hspeed, hplace, hheld,
    (hbranches .fl).2.2]
  cases hlast : lastTested (pressedSet s.ps2.lastButtons s.ps2.buttons) with
  | some b =>
      have hgoal : ∀ w, ((dpadMoves s).accel w).targetPos.toInt =
          (s.accel w).currentPos.toInt + b.displacement w := by
        intro w
        have hfit := hfits b (by rw [hlast]; rfl) w
        have hsmall := displacement_bounds b w
        rw [(hbranches w).1, hlast]
        exact (toInt_add_ofInt_iff (by omega) (by omega)).mpr ⟨rfl, hfit⟩
      simp only [Option.isSome_some, Bool.or_true, if_true, hgoal]
  | none =>
      have hgoal : ∀ w, ((dpadMoves s).accel w).targetPos = (s.accel w).targetPos := by
        intro w
        rw [(hbranches w).1, hlast]
        rfl
      cases hmode : s.positionMode <;>
        simp only [Option.isSome_none, Bool.or_false, Bool.false_eq_true, if_false, if_true, hgoal]

theorem step_refines (e : RobotEvent) (hfits : GoalFits s e (s.step e)) :
    (s.step e).pilot = s.pilot.step (s.observe e) := by
  cases e with
  | motor count uptime => exact motor_refines s count uptime
  | pad frame lastRead =>
      by_cases hok : frameOk frame = true
      · have hset : newlyPressed s (.pad frame lastRead) =
            pressedSet s.ps2.buttons (buttonWord frame) := if_pos hok
        have hstep : s.step (.pad frame lastRead) =
            applySticks (dpadMoves (s.latch frame lastRead)) := if_pos hok
        have hobserve : s.observe (.pad frame lastRead) =
            .frame (heldSet (buttonWord frame)) (stickMix (s.ps2.latch frame lastRead)) := if_pos hok
        unfold GoalFits at hfits
        rw [hset] at hfits
        have hpilot := pilot_applySticks_dpadMoves (s.latch frame lastRead) hfits
        have hlatch : (s.latch frame lastRead).pilot =
            { s.pilot with held := heldSet (buttonWord frame) } := rfl
        have hpressed : lastTested (pressedSet s.ps2.buttons (buttonWord frame)) =
            lastTested (heldSet (buttonWord frame) \ s.pilot.held) :=
          congrArg lastTested (pressedSet_eq _ _)
        rw [hstep, hobserve, hpilot, hlatch, Pilot.steer_held]
        exact congrArg (fun pressed => { s.pilot.steer pressed (stickMix (s.ps2.latch frame lastRead))
          with held := heldSet (buttonWord frame) }) hpressed
      · have hstep : s.step (.pad frame lastRead) = linkLost (s.latch frame lastRead) := by
          rw [ControlState.step, Bool.eq_false_of_not_eq_true hok]
          rfl
        have hobserve : s.observe (.pad frame lastRead) = .lost (heldSet (buttonWord frame)) :=
          if_neg hok
        rw [hstep, hobserve]
        rfl

end Step

theorem initHardware_pilot {F W : Type} [FloatArith F] {board : Board} {bus : Bus W} {world : W}
    {s : ControlState F} (h : initHardware board bus world = some s) :
    s.pilot = Pilot.atRest (heldSet s.ps2.buttons) := by
  rw [initHardware_eq h]
  rfl

/-- Every run of the two threads is a run of the operator's machine from rest, for any interleaving
and any arithmetic, as long as the goals fit `int32_t`. -/
theorem robot_refines_pilot {F W : Type} [FloatArith F] (board : Board) (bus : Bus W) (world : W)
    (s : ControlState F) (hinit : initHardware board bus world = some s) (events : List RobotEvent)
    (hfits : Always ControlState.step GoalFits s events) :
    (run ControlState.step s events).pilot =
      run Pilot.step (Pilot.atRest (heldSet s.ps2.buttons))
        (observed ControlState.step ControlState.observe s events) := by
  rw [← initHardware_pilot hinit]
  exact hfits.run_refines (fun s e h => step_refines s e h) events

/-- UP is pressed, and the wheels have not moved at the next tick. -/
theorem robot_refines_pilot_up :
    (run ControlState.step shippedRobot
      [.pad StickWatch.upFrame 0, .motor (fun _ => 0) (fun _ => 20)]).pilot =
      run Pilot.step (Pilot.atRest (heldSet shippedRobot.ps2.buttons))
        (observed ControlState.step ControlState.observe shippedRobot
          [.pad StickWatch.upFrame 0, .motor (fun _ => 0) (fun _ => 20)]) :=
  robot_refines_pilot _ _ _ _ initHardware_shipped _ (by decide +kernel)

end Mecanum.Robot
