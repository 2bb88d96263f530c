import Mecanum.Robot.MoveEnds
import Mecanum.Wheel.FarLeg

/-! # Moves far out

The range in which a move ends by itself is bounded. Single precision loses every step of a profile whose
goal is between `2 ^ 29` and `2 ^ 30` counts, so the regulator holds the wheel where it was, and the motor
thread waits for it.
-/

namespace Mecanum.Robot
open Motor Mecanum.Wheel Gamepad FloatArith Trace CInt ZephyrAccelmotor
set_option autoImplicit false

/-- The distance between where the regulator holds a wheel and its goal. -/
def shortfall (accel : ZephyrAccelmotor Single) : ℤ :=
  |(FloatArith.toInt32 accel.controlPos).toInt - accel.targetPos.toInt|

/-- A wheel with a far goal is held at least 18 counts off it, and the move goes on as long as one of these
wheels is found within 12 counts of where it is held. -/
structure FarLaw (s : ControlState Single) (e : RobotEvent) (t : ControlState Single) : Prop where
  short : t.positionMode = true → ∀ w, FarGoal (t.accel w).targetPos.toInt →
    18 ≤ shortfall (t.accel w)
  goesOn : ∀ count uptime, e = .motor count uptime → s.positionMode = true → ∀ w,
    FarGoal (s.accel w).targetPos.toInt →
    |(count w).toInt - (FloatArith.toInt32 (s.accel w).controlPos).toInt| ≤ 12 → t.positionMode = true

namespace FarMoves

structure Inv (s : ControlState Single) : Prop where
  agree : Agree s
  envelope : Wheels Envelope s
  heldBack : s.positionMode = true → ∀ w, FarGoal (s.accel w).targetPos.toInt → HeldBack (s.accel w)

variable {s : ControlState Single} {w : WheelId}

theorem heldBack_tickWheel (h : Inv s) (hmode : s.positionMode = true)
    (hfar : FarGoal (s.accel w).targetPos.toInt) (count : WheelId → Int32) (uptime : WheelId → Int64) :
    HeldBack (tickWheel s count uptime w).1 := by
  have hrun : (withCount (s.accel w) (count w)).runMode = .accelPos := by
    show (s.accel w).runMode = .accelPos
    rw [h.agree.modes w, hmode]
    rfl
  have hset := (h.envelope w).settings
  have hheldBack := h.heldBack hmode w hfar
  have hcounted : HeldBack (withCount (s.accel w) (count w)) := hheldBack
  have hpos : (tickWheel s count uptime w).1.controlPos = (s.accel w).controlPos :=
    hcounted.controlPos_tick hfar hrun hset.maxSpeed hset.dtSec hset.stopzone _ _
  obtain ⟨origin, hdist, hstart⟩ := hheldBack
  refine ⟨origin, ?_, hpos.trans hstart⟩
  rw [(tickWheel_settings s count uptime w).2.1]
  exact hdist

/-- A wheel near where it is held is not near its goal. -/
theorem not_endsMove (h : Inv s) (hfar : FarGoal (s.accel w).targetPos.toInt)
    (count : WheelId → Int32) (uptime : WheelId → Int64)
    (hheld : |(count w).toInt - (FloatArith.toInt32 (s.accel w).controlPos).toInt| ≤ 12) :
    ¬ EndsMove s count uptime := by
  rintro ⟨hmode, hstopped⟩
  obtain ⟨hrun, htarget, -, hzone, hcurrent⟩ := tickWheel_settings s count uptime w
  have hheldBack := h.heldBack hmode w hfar
  obtain ⟨hshort, hclose⟩ := hheldBack.regulated hfar
  have hfive : (tickWheel s count uptime w).1.stopzone.toNat = 5 := by
    rw [hzone, (h.envelope w).settings.stopzone]
    rfl
  have hmode' : (tickWheel s count uptime w).1.runMode = .accelPos := by
    rw [hrun, h.agree.modes w, hmode]
    rfl
  have hbounds := int32_bounds (count w)
  have hrange := hfar.2
  rw [abs_le] at hheld hrange hclose
  have hnear := (stopped_of_not_moving _ hmode' (hstopped w) (by rw [htarget, hcurrent]; omega)
    (by rw [htarget, hcurrent]; omega)).2
  rw [htarget, hcurrent, hfive, abs_le] at hnear
  rw [le_abs] at hshort
  push_cast at hnear
  omega

/-- A press puts the profile 50 counts from every goal that is far out. -/
theorem heldBack_moveBy (s : ControlState Single) (b : DpadButton) (w : WheelId)
    (hfar : FarGoal ((moveBy s b).accel w).targetPos.toInt) : HeldBack ((moveBy s b).accel w) := by
  have htarget : ((moveBy s b).accel w).targetPos =
      (s.accel w).currentPos + Int32.ofInt (b.displacement w) := rfl
  have hback : ((moveBy s b).accel w).targetPos + Int32.ofInt (-b.displacement w) =
      (s.accel w).currentPos := by
    rw [htarget, Int32.ofInt_neg, Int32.add_assoc, Int32.add_right_neg, Int32.add_zero]
  have hstep : b.displacement w = 50 ∨ b.displacement w = -50 := by
    cases b <;> cases w <;> decide
  have hrange := abs_le.mp hfar.2
  have horigin : (s.accel w).currentPos.toInt =
      ((moveBy s b).accel w).targetPos.toInt + -b.displacement w := by
    rw [← hback]
    exact (toInt_add_ofInt_iff (by omega) (by omega)).mpr ⟨rfl, by omega, by omega⟩
  refine ⟨(s.accel w).currentPos.toInt, ?_, rfl⟩
  rw [horigin, sub_add_cancel_left, neg_neg]
  obtain hd | hd := hstep <;> rw [hd] <;> rfl

theorem motor_inv (h : Inv s) (count : WheelId → Int32) (uptime : WheelId → Int64)
    (hmode : (motorThreadStep s count uptime).positionMode = true)
    (hfar : FarGoal ((motorThreadStep s count uptime).accel w).targetPos.toInt) :
    HeldBack ((motorThreadStep s count uptime).accel w) := by
  rw [motorThreadStep_eq] at hmode hfar ⊢
  by_cases hends : EndsMove s count uptime
  · rw [if_pos hends, changeMode_positionMode] at hmode
    cases hmode
  · rw [if_neg hends] at hmode hfar ⊢
    have htarget := (tickWheel_settings s count uptime w).2.1
    exact heldBack_tickWheel h hmode (by rw [← htarget]; exact hfar) count uptime

theorem pad_inv (h : Inv s) (frame : Vector UInt8 21) (lastRead : UInt64)
    (hmode : (s.step (.pad frame lastRead)).positionMode = true)
    (hfar : FarGoal ((s.step (.pad frame lastRead)).accel w).targetPos.toInt) :
    HeldBack ((s.step (.pad frame lastRead)).accel w) := by
  by_cases hok : frameOk frame = true
  · rw [step_pad_of_ok s lastRead hok] at hmode hfar ⊢
    by_cases hpressed : (newlyPressed s (.pad frame lastRead)).Nonempty
    · obtain ⟨b, hlast, -⟩ := lastTested_isSome _ hpressed
      have hmoved : applySticks (moveBy (s.latch frame lastRead) b) = moveBy (s.latch frame lastRead) b :=
        rfl
      rw [hlast, Option.elim_some, hmoved] at hfar ⊢
      exact heldBack_moveBy _ b w hfar
    · have hnone : newlyPressed s (.pad frame lastRead) = ∅ :=
        Finset.not_nonempty_iff_eq_empty.mp hpressed
      have hlast : lastTested (∅ : Finset DpadButton) = none := by decide
      rw [hnone, hlast, Option.elim_none] at hmode hfar ⊢
      rw [applySticks_positionMode] at hmode
      have hsame : applySticks (s.latch frame lastRead) = s.latch frame lastRead := if_pos hmode
      rw [hsame] at hfar ⊢
      exact h.heldBack hmode w hfar
  · rw [step_pad_of_bad s lastRead hok] at hmode
    cases hmode

theorem step_inv (h : Inv s) (e : RobotEvent) : Inv (s.step e) := by
  have hagree : Agree (s.step e) :=
    Watch.step_agree ⟨s, false⟩ e ⟨h.agree, fun hlost => by cases hlost⟩
  refine ⟨hagree, envelope_kept.step h.envelope e, fun hmode w hfar => ?_⟩
  cases e with
  | motor count uptime => exact motor_inv h count uptime hmode hfar
  | pad frame lastRead => exact pad_inv h frame lastRead hmode hfar

theorem step_farLaw (h : Inv s) (e : RobotEvent) : FarLaw s e (s.step e) := by
  refine ⟨fun hmode w hfar => ((step_inv h e).heldBack hmode w hfar).regulated hfar |>.1, ?_⟩
  rintro count uptime rfl hmode w hfar hheld
  show (motorThreadStep s count uptime).positionMode = true
  rw [motorThreadStep_eq, if_neg (not_endsMove h hfar count uptime hheld)]
  exact hmode

end FarMoves

/-- In single precision, in every interleaving from `init_hardware`. -/
theorem far_moves_go_on {W : Type} (board : Board) (bus : Bus W) (world : W) (s : ControlState Single)
    (hinit : initHardware board bus world = some s) (events : List RobotEvent) :
    Always ControlState.step FarLaw s events := by
  obtain ⟨⟨hagree, -⟩, hmode, -⟩ := Watch.initHardware_inv board bus world s hinit
  refine Always.of_invariant (I := FarMoves.Inv) (fun _ e h => FarMoves.step_farLaw h e)
    (fun _ e h => FarMoves.step_inv h e) events ⟨hagree, initHardware_envelope hinit, ?_⟩
  intro hon
  exact absurd (hmode.symm.trans hon) (by decide)

/-- A wheel at 536872000 counts stays there through 40 steps after the press. -/
def farEvents : List RobotEvent :=
  [.motor (fun _ => 536872000) (fun _ => 20), .pad StickWatch.upFrame 0] ++
    (List.range 40).map fun k => .motor (fun _ => 536872000) (fun _ => 40 + 20 * Int64.ofNat k)

theorem far_moves_go_on_up : Always ControlState.step FarLaw shippedSingle farEvents ∧
    (run ControlState.step shippedSingle farEvents).positionMode = true :=
  ⟨far_moves_go_on readyBoard replay _ _ (Option.some_get _).symm _, by decide +kernel⟩

end Mecanum.Robot
