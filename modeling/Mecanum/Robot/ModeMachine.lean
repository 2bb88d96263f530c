import Mecanum.Foundations.Trace
import Mecanum.Robot.Control

/-! # The mode machine of the two threads

`position_mode` and the four run modes move together, targets follow the `pos_*` variables while it
is set, and it is cleared only by a lost link or at the end of a move. `Watch` adds to the control
state whether the last read failed.
-/

namespace Mecanum.Robot
open Motor Mecanum.Wheel Gamepad FloatArith Trace CInt
set_option autoImplicit false

/-! ## What the pieces of a step do -/

section Pieces
variable {F : Type} [FloatArith F]

theorem tick_settings (accel : ZephyrAccelmotor F) (pos : Int32) (uptime : Int64) :
    (zephyrAccelmotorTick accel pos uptime).1.runMode = accel.runMode ∧
    (zephyrAccelmotorTick accel pos uptime).1.targetPos = accel.targetPos ∧
    (zephyrAccelmotorTick accel pos uptime).1.targetSpeed = accel.targetSpeed ∧
    (zephyrAccelmotorTick accel pos uptime).1.stopzone = accel.stopzone ∧
    (zephyrAccelmotorTick accel pos uptime).1.currentPos = pos := by
  unfold zephyrAccelmotorTick controlStep
  split
  · rw [regulate_eq]
    exact ⟨rfl, rfl, rfl, rfl, rfl⟩
  · exact ⟨rfl, rfl, rfl, rfl, rfl⟩

theorem tickWheel_settings (s : ControlState F) (count : WheelId → Int32)
    (uptime : WheelId → Int64) (w : WheelId) :
    (tickWheel s count uptime w).1.runMode = (s.accel w).runMode ∧
    (tickWheel s count uptime w).1.targetPos = (s.accel w).targetPos ∧
    (tickWheel s count uptime w).1.targetSpeed = (s.accel w).targetSpeed ∧
    (tickWheel s count uptime w).1.stopzone = (s.accel w).stopzone ∧
    (tickWheel s count uptime w).1.currentPos = count w :=
  tick_settings _ _ _

omit [FloatArith F] in
/-- A position loop that reports no motion is undriven and, where nothing overflows, within its stop
zone. -/
theorem stopped_of_not_moving (accel : ZephyrAccelmotor F) (hmode : accel.runMode = .accelPos)
    (hmoving : moving accel = false)
    (hlow : -2147483648 < accel.targetPos.toInt - accel.currentPos.toInt)
    (hhigh : accel.targetPos.toInt - accel.currentPos.toInt < 2147483648) :
    accel.motor.state = 0 ∧
      |accel.targetPos.toInt - accel.currentPos.toInt| ≤ accel.stopzone.toNat := by
  have hsub : (accel.targetPos - accel.currentPos).toInt =
      accel.targetPos.toInt - accel.currentPos.toInt := toInt_sub_int32 (by omega) hhigh
  have habs : (iabs32 (accel.targetPos - accel.currentPos)).toInt =
      |accel.targetPos.toInt - accel.currentPos.toInt| := by
    rw [toInt_iabs32 (by omega), hsub]
  have hzone : accel.stopzone.toInt32.toInt ≤ accel.stopzone.toNat := by
    show accel.stopzone.toBitVec.toInt ≤ accel.stopzone.toBitVec.toNat
    rw [BitVec.toInt_eq_toNat_cond]
    split <;> omega
  unfold moving at hmoving
  rw [hmode] at hmoving
  simp only [AccelRunMode.code, gt_iff_lt, Nat.not_lt_zero, if_false, zephyrMotorGetState,
    Bool.or_eq_false_iff, decide_eq_false_iff_not, Int32.not_lt, Int32.le_iff_toInt_le,
    habs] at hmoving
  exact ⟨of_not_not (of_decide_eq_false hmoving.1), hmoving.2.trans hzone⟩

end Pieces
/-! ## Mode and targets together -/

section Modes
variable {F : Type} [FloatArith F] (s : ControlState F)

structure Agree (s : ControlState F) : Prop where
  modes : ∀ w, (s.accel w).runMode = if s.positionMode then .accelPos else .pidSpeed
  targets : s.positionMode = true → ∀ w, (s.accel w).targetPos = s.pos w

def AllStopped (count : WheelId → Int32) (uptime : WheelId → Int64) : Prop :=
  ∀ w, (tickWheel s count uptime w).2.2 = false

def EndsMove (count : WheelId → Int32) (uptime : WheelId → Int64) : Prop :=
  s.positionMode = true ∧ AllStopped s count uptime

instance (count : WheelId → Int32) (uptime : WheelId → Int64) :
    Decidable (EndsMove s count uptime) := inferInstanceAs (Decidable (_ ∧ ∀ _, _))

theorem motorThreadStep_eq (count : WheelId → Int32) (uptime : WheelId → Int64) :
    motorThreadStep s count uptime =
      if EndsMove s count uptime then changeMode (tickWheels s count uptime) false
      else tickWheels s count uptime := by
  have hcond : (s.positionMode && !(tickWheel s count uptime .fl).2.2 &&
      !(tickWheel s count uptime .fr).2.2 && !(tickWheel s count uptime .bl).2.2 &&
      !(tickWheel s count uptime .br).2.2) = true ↔ EndsMove s count uptime := by
    unfold EndsMove AllStopped
    rw [WheelId.forall_iff]
    simp only [Bool.and_eq_true, Bool.not_eq_true', and_assoc]
  exact if_congr hcond rfl rfl

theorem changeMode_agree (mode : Bool) : Agree (changeMode s mode) := by
  cases mode
  · exact ⟨fun _ => rfl, fun h => by cases h⟩
  · exact ⟨fun _ => rfl, fun _ _ => rfl⟩

theorem changeMode_positionMode (mode : Bool) : (changeMode s mode).positionMode = mode := by
  cases mode <;> rfl

theorem tickWheels_agree (h : Agree s) (count : WheelId → Int32) (uptime : WheelId → Int64) :
    Agree (tickWheels s count uptime) := by
  constructor
  · intro w
    exact (tickWheel_settings s count uptime w).1.trans (h.modes w)
  · intro hpos w
    exact (tickWheel_settings s count uptime w).2.1.trans (h.targets hpos w)

theorem dpadMove_agree (h : Agree s) (button : UInt16) (step : WheelId → Int32) :
    Agree (dpadMove button step s) := by
  unfold dpadMove
  split
  · exact ⟨fun w => (changeMode_agree s true).modes w, fun _ _ => rfl⟩
  · exact h

theorem dpadMove_positionMode (button : UInt16) (step : WheelId → Int32)
    (h : s.positionMode = true) : (dpadMove button step s).positionMode = true := by
  unfold dpadMove
  split
  · rfl
  · exact h

omit [FloatArith F] in
theorem applySticks_agree (h : Agree s) : Agree (applySticks s) := by
  unfold applySticks
  split
  · exact h
  · exact ⟨h.modes, h.targets⟩

omit [FloatArith F] in
theorem applySticks_positionMode : (applySticks s).positionMode = s.positionMode := by
  unfold applySticks
  split <;> rfl

theorem ps2ThreadStep_agree (h : Agree s) (success : Bool) : Agree (ps2ThreadStep s success) := by
  cases success
  · exact ⟨(changeMode_agree s false).modes, fun hpos => by cases hpos⟩
  · exact applySticks_agree _ (dpadMove_agree _ (dpadMove_agree _ (dpadMove_agree _
      (dpadMove_agree _ h _ _) _ _) _ _) _ _)

theorem ps2ThreadStep_positionMode (h : s.positionMode = true) :
    (ps2ThreadStep s true).positionMode = true :=
  (applySticks_positionMode _).trans (dpadMove_positionMode _ _ _ (dpadMove_positionMode _ _ _
    (dpadMove_positionMode _ _ _ (dpadMove_positionMode _ _ _ h))))

theorem motorThreadStep_agree (h : Agree s) (count : WheelId → Int32) (uptime : WheelId → Int64) :
    Agree (motorThreadStep s count uptime) := by
  rw [motorThreadStep_eq]
  split
  · exact changeMode_agree _ false
  · exact tickWheels_agree s h count uptime

end Modes

/-! ## The law -/

/-- The control state, and whether the last read failed. -/
structure Watch (F : Type) where
  robot : ControlState F
  lost : Bool

namespace Watch
variable {F : Type} [FloatArith F]

def step (s : Watch F) (e : RobotEvent) : Watch F where
  robot := s.robot.step e
  lost := match e with
    | .motor _ _ => s.lost
    | .pad frame _ => !frameOk frame

/-- In a motor step, the difference that the end-of-move test takes fits `int32_t` for each wheel,
and so does its absolute value. -/
def PositionsFit (s : Watch F) (e : RobotEvent) (_ : Watch F) : Prop :=
  match e with
  | .motor count _ => ∀ w,
      -2147483648 < (s.robot.accel w).targetPos.toInt - (count w).toInt ∧
        (s.robot.accel w).targetPos.toInt - (count w).toInt < 2147483648
  | .pad _ _ => True

instance (s : Watch F) : ∀ e t, Decidable (PositionsFit s e t)
  | .motor _ _, _ => inferInstanceAs (Decidable (∀ _, _))
  | .pad _ _, _ => inferInstanceAs (Decidable True)

/-- The four clauses, about the state after a step and, for the last, the step itself. -/
structure ModeLaw (s : Watch F) (e : RobotEvent) (t : Watch F) : Prop where
  position : t.robot.positionMode = true ↔ ∀ w, (t.robot.accel w).runMode = .accelPos
  speed : t.robot.positionMode = false ↔ ∀ w, (t.robot.accel w).runMode = .pidSpeed
  targets : t.robot.positionMode = true → ∀ w, (t.robot.accel w).targetPos = t.robot.pos w
  link : t.lost = true →
    t.robot.positionMode = false ∧ ∀ w, (t.robot.accel w).targetSpeed = 0
  ends : s.robot.positionMode = true → t.robot.positionMode = false →
    (∃ frame lastRead, e = .pad frame lastRead ∧ frameOk frame = false) ∨
    (∃ count uptime, e = .motor count uptime ∧ ∀ w, (t.robot.accel w).motor.state = 0 ∧
      |(t.robot.accel w).targetPos.toInt - (t.robot.accel w).currentPos.toInt| ≤
        (t.robot.accel w).stopzone.toNat)

structure Inv (s : Watch F) : Prop where
  agree : Agree s.robot
  link : s.lost = true → s.robot.positionMode = false ∧ ∀ w, (s.robot.accel w).targetSpeed = 0

section Step
variable (s : Watch F) (e : RobotEvent)

theorem step_agree (h : s.Inv) : Agree (s.step e).robot := by
  cases e with
  | motor count uptime => exact motorThreadStep_agree _ h.agree count uptime
  | pad frame lastRead =>
      exact ps2ThreadStep_agree (s.robot.latch frame lastRead)
        ⟨h.agree.modes, h.agree.targets⟩ (frameOk frame)

theorem step_link (h : s.Inv) : (s.step e).lost = true →
    (s.step e).robot.positionMode = false ∧
      ∀ w, ((s.step e).robot.accel w).targetSpeed = 0 := by
  cases e with
  | motor count uptime =>
      intro hlost
      obtain ⟨hmode, hspeed⟩ := h.link hlost
      have hends : ¬ EndsMove s.robot count uptime := fun hends => by
        rw [hends.1] at hmode
        cases hmode
      show (motorThreadStep s.robot count uptime).positionMode = false ∧
        ∀ w, ((motorThreadStep s.robot count uptime).accel w).targetSpeed = 0
      rw [motorThreadStep_eq, if_neg hends]
      refine ⟨hmode, fun w => ?_⟩
      exact (tickWheel_settings s.robot count uptime w).2.2.1.trans (hspeed w)
  | pad frame lastRead =>
      intro hlost
      have hbad : frameOk frame = false := by simpa [step] using hlost
      show (ps2ThreadStep _ (frameOk frame)).positionMode = false ∧
        ∀ w, ((ps2ThreadStep _ (frameOk frame)).accel w).targetSpeed = 0
      rw [hbad]
      exact ⟨rfl, fun _ => rfl⟩

theorem step_ends (h : s.Inv) (hfit : PositionsFit s e (s.step e))
    (hbefore : s.robot.positionMode = true) (hafter : (s.step e).robot.positionMode = false) :
    (∃ frame lastRead, e = .pad frame lastRead ∧ frameOk frame = false) ∨
    (∃ count uptime, e = .motor count uptime ∧ ∀ w, ((s.step e).robot.accel w).motor.state = 0 ∧
      |((s.step e).robot.accel w).targetPos.toInt - ((s.step e).robot.accel w).currentPos.toInt| ≤
        ((s.step e).robot.accel w).stopzone.toNat) := by
  cases e with
  | pad frame lastRead =>
      refine .inl ⟨frame, lastRead, rfl, ?_⟩
      by_contra hgood
      rw [Bool.not_eq_false] at hgood
      have hkept := ps2ThreadStep_positionMode (s.robot.latch frame lastRead) hbefore
      change (ps2ThreadStep _ (frameOk frame)).positionMode = false at hafter
      rw [hgood, hkept] at hafter
      cases hafter
  | motor count uptime =>
      refine .inr ⟨count, uptime, rfl, fun w => ?_⟩
      change (motorThreadStep s.robot count uptime).positionMode = false at hafter
      show ((motorThreadStep s.robot count uptime).accel w).motor.state = 0 ∧
        |((motorThreadStep s.robot count uptime).accel w).targetPos.toInt -
          ((motorThreadStep s.robot count uptime).accel w).currentPos.toInt| ≤
            ((motorThreadStep s.robot count uptime).accel w).stopzone.toNat
      rw [motorThreadStep_eq] at hafter ⊢
      by_cases hends : EndsMove s.robot count uptime
      · rw [if_pos hends]
        obtain ⟨hmode, htarget, -, -, hcurrent⟩ := tickWheel_settings s.robot count uptime w
        have hrun : (s.robot.accel w).runMode = .accelPos := by
          rw [h.agree.modes w, hbefore]
          rfl
        have hw := hfit w
        rw [← htarget, ← hcurrent] at hw
        exact stopped_of_not_moving (tickWheel s.robot count uptime w).1 (hmode.trans hrun)
          (hends.2 w) hw.1 hw.2
      · rw [if_neg hends] at hafter
        change s.robot.positionMode = false at hafter
        rw [hbefore] at hafter
        cases hafter

theorem step_inv (h : s.Inv) : (s.step e).Inv := ⟨step_agree s e h, step_link s e h⟩

theorem step_modeLaw (h : s.Inv) (hfit : PositionsFit s e (s.step e)) :
    ModeLaw s e (s.step e) := by
  have hagree := step_agree s e h
  have hmodes := hagree.modes
  refine ⟨?_, ?_, hagree.targets, step_link s e h, step_ends s e h hfit⟩
  · constructor
    · intro hpos w
      rw [hmodes w, hpos]
      rfl
    · intro hall
      have hfl := (hmodes .fl).symm.trans (hall .fl)
      cases hpos : (s.step e).robot.positionMode
      · rw [hpos] at hfl
        cases hfl
      · rfl
  · constructor
    · intro hpos w
      rw [hmodes w, hpos]
      rfl
    · intro hall
      have hfl := (hmodes .fl).symm.trans (hall .fl)
      cases hpos : (s.step e).robot.positionMode
      · rfl
      · rw [hpos] at hfl
        cases hfl

end Step

theorem initHardware_inv {W : Type} (board : Board) (bus : Bus W) (world : W) (s : ControlState F)
    (h : initHardware board bus world = some s) :
    Inv ⟨s, false⟩ ∧ s.positionMode = false ∧ ∀ w, (s.accel w).targetSpeed = 0 := by
  unfold initHardware at h
  split at h
  · simp only at h
    split at h
    · split at h
      · obtain rfl := Option.some.inj h
        exact ⟨⟨⟨fun _ => rfl, fun hpos => by cases hpos⟩, fun hlost => by cases hlost⟩, rfl,
          fun _ => rfl⟩
      · cases h
    · cases h
  · cases h

/-- Along every interleaving of the two threads' critical sections from the state `init_hardware`
leaves, with positions that fit, every step obeys the law. -/
theorem mode_machine_law {W : Type} (board : Board) (bus : Bus W) (world : W) (s : ControlState F)
    (hinit : initHardware board bus world = some s) (events : List RobotEvent)
    (hfit : Always step PositionsFit ⟨s, false⟩ events) :
    Always step ModeLaw ⟨s, false⟩ events :=
  Always.of_invariant_of_always step_modeLaw (fun s e h _ => step_inv s e h) events
    (initHardware_inv board bus world s hinit).1 hfit

theorem mode_machine_law_left : Always step ModeLaw ⟨shippedRobot, false⟩
    [.pad (paddedFrame (restFrame 0x7F)) 0, .motor (fun _ => 0) (fun _ => 20)] :=
  mode_machine_law _ _ _ _ initHardware_shipped _ (by decide +kernel)

end Watch
end Mecanum.Robot
