import Mathlib.Algebra.BigOperators.Group.Finset.Basic
import Mathlib.Data.Fintype.Powerset
import Mecanum.Gamepad.ButtonEvents
import Mecanum.Robot.StickCommand

/-! # Several D-pad buttons in one frame

Each branch of the D-pad captures the positions again before it adds its displacement, so the
branch tested last overwrites the others. The displacements add up only where the others cancel.
-/

namespace Mecanum.Robot
open Motor Mecanum.Wheel Gamepad FloatArith Trace CInt
set_option autoImplicit false

inductive DpadButton
  | left
  | right
  | up
  | down
  deriving DecidableEq

namespace DpadButton

instance : Fintype DpadButton := ⟨{.left, .right, .up, .down}, fun b => by cases b <;> decide⟩

/-- The position of the button in the button word. -/
def bit : DpadButton → ℕ
  | .up => 4
  | .right => 5
  | .down => 6
  | .left => 7

/-- Which way a button turns each wheel. -/
def heading : DpadButton → WheelId → ℤ
  | .left => fun | .fl => 1 | .fr => -1 | .bl => -1 | .br => 1
  | .right => fun | .fl => -1 | .fr => 1 | .bl => 1 | .br => -1
  | .up => fun _ => 1
  | .down => fun _ => -1

def displacement (b : DpadButton) (w : WheelId) : ℤ := b.heading w * stepSize.toInt

/-- The order of the branches of `ps2_thread`. -/
def testOrder : List DpadButton := [.left, .right, .up, .down]

end DpadButton

/-- The buttons that go down from one word to the next. -/
def pressedSet (prev now : UInt16) : Finset DpadButton :=
  Finset.univ.filter fun b => ¬ Held prev b.bit ∧ Held now b.bit

def displacementSum (buttons : Finset DpadButton) (w : WheelId) : ℤ :=
  ∑ b ∈ buttons, b.displacement w

/-- The last button to be tested. -/
def lastTested (buttons : Finset DpadButton) : Option DpadButton :=
  (DpadButton.testOrder.filter (· ∈ buttons)).getLast?

/-- One button, or LEFT and RIGHT with one of UP and DOWN. -/
def OthersCancel (buttons : Finset DpadButton) : Prop :=
  buttons.card = 1 ∨ buttons = {.left, .right, .up} ∨ buttons = {.left, .right, .down}

instance (buttons : Finset DpadButton) : Decidable (OthersCancel buttons) :=
  inferInstanceAs (Decidable (_ ∨ _ ∨ _))

theorem lastTested_isSome (buttons : Finset DpadButton) (h : buttons.Nonempty) :
    ∃ last, lastTested buttons = some last ∧
      ((∀ w, displacementSum buttons w = last.displacement w) ↔ OthersCancel buttons) := by
  revert buttons
  decide

theorem displacement_bounds (b : DpadButton) (w : WheelId) :
    -200 ≤ b.displacement w ∧ b.displacement w ≤ 200 := by
  revert b w
  decide

theorem displacementSum_bounds (buttons : Finset DpadButton) (w : WheelId) :
    -200 ≤ displacementSum buttons w ∧ displacementSum buttons w ≤ 200 := by
  revert buttons w
  decide

/-! ## The four branches -/

section Branches
variable {F : Type} [FloatArith F] (s : ControlState F) (w : WheelId)

/-- The branch of one button. -/
def pressBranch (s : ControlState F) (b : DpadButton) : ControlState F :=
  dpadMove (buttonMask b.bit) (fun w => Int32.ofInt (b.displacement w)) s

theorem dpadMoves_eq : dpadMoves s = DpadButton.testOrder.foldl pressBranch s := by
  have hleft : ∀ s : ControlState F, moveLeft s = pressBranch s .left := fun s =>
    congrArg (fun step => dpadMove psbPadLeft step s) (funext fun w => by cases w <;> rfl)
  have hright : ∀ s : ControlState F, moveRight s = pressBranch s .right := fun s =>
    congrArg (fun step => dpadMove psbPadRight step s) (funext fun w => by cases w <;> rfl)
  unfold dpadMoves
  rw [hleft, hright]
  rfl

/-- The body of a branch. -/
def moveBy (s : ControlState F) (b : DpadButton) : ControlState F :=
  let s := changeMode s true
  updateTargetPositions { s with pos := fun w => s.pos w + Int32.ofInt (b.displacement w) }

theorem moveBy_moveBy (b b' : DpadButton) : moveBy (moveBy s b) b' = moveBy s b' := by
  simp [moveBy, changeMode, updateTargetPositions, zephyrAccelmotorSetRunMode,
    zephyrAccelmotorSetTargetPos, zephyrAccelmotorGetCurrentPos]

/-- The last branch that is taken decides, of the whole state. -/
theorem foldl_pressBranch_eq (buttons : List DpadButton) :
    buttons.foldl pressBranch s =
      ((buttons.filter fun b => ps2ButtonPressed s.ps2 (buttonMask b.bit)).getLast?).elim s
        (moveBy s) := by
  induction buttons using List.reverseRecOn with
  | nil => rfl
  | append_singleton buttons b ih =>
      have hbranch : ∀ s' : ControlState F, s'.ps2 = s.ps2 → pressBranch s' b =
          if ps2ButtonPressed s.ps2 (buttonMask b.bit) then moveBy s' b else s' := by
        intro s' hps2
        rw [← hps2]
        rfl
      rw [List.foldl_append, List.foldl_cons, List.foldl_nil, List.filter_append, ih]
      generalize (buttons.filter fun b => ps2ButtonPressed s.ps2 (buttonMask b.bit)) = taken
      have hps2 : (taken.getLast?.elim s (moveBy s)).ps2 = s.ps2 := by
        cases taken.getLast? <;> rfl
      rw [hbranch _ hps2]
      by_cases hpressed : ps2ButtonPressed s.ps2 (buttonMask b.bit) = true
      · cases taken.getLast? <;> simp [hpressed, moveBy_moveBy]
      · simp [hpressed]

/-- The last branch that is taken decides. -/
theorem foldl_pressBranch (buttons : List DpadButton) :
    ((buttons.foldl pressBranch s).accel w).targetPos =
      ((buttons.filter fun b => ps2ButtonPressed s.ps2 (buttonMask b.bit)).getLast?).elim
        (s.accel w).targetPos
        (fun b => (s.accel w).currentPos + Int32.ofInt (b.displacement w)) ∧
    ((buttons.foldl pressBranch s).accel w).currentPos = (s.accel w).currentPos ∧
    (buttons.foldl pressBranch s).ps2 = s.ps2 := by
  rw [foldl_pressBranch_eq]
  cases (buttons.filter fun b => ps2ButtonPressed s.ps2 (buttonMask b.bit)).getLast? with
  | none => exact ⟨rfl, rfl, rfl⟩
  | some b => exact ⟨rfl, rfl, rfl⟩

omit [FloatArith F] in
theorem applySticks_targetPos :
    ((applySticks s).accel w).targetPos = (s.accel w).targetPos := by
  unfold applySticks
  split <;> rfl

end Branches

/-! ## Sequences of frames -/

section Runs
variable {F : Type} [FloatArith F]

/-- The buttons that go down in a successfully read frame. -/
def newlyPressed (s : ControlState F) : RobotEvent → Finset DpadButton
  | .motor _ _ => ∅
  | .pad frame _ =>
      if frameOk frame then pressedSet s.ps2.buttons (buttonWord frame) else ∅

/-- Buttons that go down together move the targets by the sum of their displacements from the current
positions. -/
def Superposes (s : ControlState F) (e : RobotEvent) (t : ControlState F) : Prop :=
  (newlyPressed s e).Nonempty → ∀ w,
    (t.accel w).targetPos.toInt =
      (s.accel w).currentPos.toInt + displacementSum (newlyPressed s e) w

/-- All but one of the buttons cancel, and the targets fit `int32_t`. -/
def MovesAsOne (s : ControlState F) (e : RobotEvent) (_ : ControlState F) : Prop :=
  (newlyPressed s e).Nonempty → OthersCancel (newlyPressed s e) ∧ ∀ w,
    -2147483648 ≤ (s.accel w).currentPos.toInt + displacementSum (newlyPressed s e) w ∧
      (s.accel w).currentPos.toInt + displacementSum (newlyPressed s e) w < 2147483648

theorem pressedSet_filter (ps2 : Ps2) (buttons : List DpadButton) :
    (buttons.filter fun b => ps2ButtonPressed ps2 (buttonMask b.bit)) =
      buttons.filter (· ∈ pressedSet ps2.lastButtons ps2.buttons) := by
  refine List.filter_congr fun b _ => ?_
  have hbit : b.bit < 16 := by
    cases b <;> decide
  rw [Bool.eq_iff_iff, ps2ButtonPressed_iff ps2 hbit, decide_eq_true_iff]
  simp [pressedSet]

theorem dpadMoves_eq_moveBy (s : ControlState F) : dpadMoves s =
    (lastTested (pressedSet s.ps2.lastButtons s.ps2.buttons)).elim s (moveBy s) := by
  rw [dpadMoves_eq, foldl_pressBranch_eq, pressedSet_filter]
  rfl

/-- A good frame moves by the last branch taken, if there is one, and then applies the sticks. -/
theorem step_pad_of_ok (s : ControlState F) {frame : Vector UInt8 21} (lastRead : UInt64)
    (hok : frameOk frame = true) : s.step (.pad frame lastRead) =
      applySticks ((lastTested (newlyPressed s (.pad frame lastRead))).elim (s.latch frame lastRead)
        (moveBy (s.latch frame lastRead))) := by
  have hset : newlyPressed s (.pad frame lastRead) = pressedSet s.ps2.buttons (buttonWord frame) :=
    if_pos hok
  have hstep : s.step (.pad frame lastRead) = applySticks (dpadMoves (s.latch frame lastRead)) :=
    if_pos hok
  rw [hstep, hset, dpadMoves_eq_moveBy]
  rfl

theorem step_pad_of_bad (s : ControlState F) {frame : Vector UInt8 21} (lastRead : UInt64)
    (hbad : ¬ frameOk frame = true) :
    s.step (.pad frame lastRead) = linkLost (s.latch frame lastRead) :=
  if_neg hbad

/-- A frame with buttons going down sends every wheel where the last of them says. -/
theorem step_targetPos (s : ControlState F) (e : RobotEvent) (h : (newlyPressed s e).Nonempty)
    {last : DpadButton} (hlast : lastTested (newlyPressed s e) = some last) (w : WheelId) :
    ((s.step e).accel w).targetPos =
      (s.accel w).currentPos + Int32.ofInt (last.displacement w) := by
  cases e with
  | motor count uptime => exact absurd rfl h.ne_empty
  | pad frame lastRead =>
      have hok : frameOk frame = true := by
        by_contra hbad
        exact absurd (if_neg hbad) h.ne_empty
      have hset : newlyPressed s (.pad frame lastRead) =
          pressedSet s.ps2.buttons (buttonWord frame) := if_pos hok
      have hstep : s.step (.pad frame lastRead) =
          applySticks (dpadMoves (s.latch frame lastRead)) := if_pos hok
      have hfilter := pressedSet_filter (s.latch frame lastRead).ps2 DpadButton.testOrder
      change _ = DpadButton.testOrder.filter (· ∈ pressedSet s.ps2.buttons (buttonWord frame)) at hfilter
      rw [hset] at hlast
      rw [hstep, applySticks_targetPos, dpadMoves_eq, (foldl_pressBranch _ w _).1, hfilter]
      unfold lastTested at hlast
      rw [hlast]
      rfl

theorem superposes_iff (s : ControlState F) (e : RobotEvent) :
    Superposes s e (s.step e) ↔ MovesAsOne s e (s.step e) := by
  unfold Superposes MovesAsOne
  refine forall_congr' fun hpressed => ?_
  obtain ⟨last, hlast, hcancel⟩ := lastTested_isSome _ hpressed
  have hwheel : ∀ w, ((s.step e).accel w).targetPos.toInt =
      (s.accel w).currentPos.toInt + displacementSum (newlyPressed s e) w ↔
      displacementSum (newlyPressed s e) w = last.displacement w ∧
        -2147483648 ≤ (s.accel w).currentPos.toInt + displacementSum (newlyPressed s e) w ∧
        (s.accel w).currentPos.toInt + displacementSum (newlyPressed s e) w < 2147483648 := by
    intro w
    have hone := displacement_bounds last w
    have hsum := displacementSum_bounds (newlyPressed s e) w
    rw [step_targetPos s e hpressed hlast]
    exact toInt_add_ofInt_iff (by omega) (by omega)
  rw [forall_congr' hwheel, forall_and, hcancel]

/-- In a sequence of critical sections the D-pad presses superpose throughout exactly when, in every
frame with presses, all but one of the buttons cancel and the targets fit. -/
theorem dpad_superposes_iff (s : ControlState F) (events : List RobotEvent) :
    Always ControlState.step Superposes s events ↔ Always ControlState.step MovesAsOne s events :=
  Always.iff_of_forall superposes_iff s events

end Runs

/-- LEFT and UP go down in one frame, and the wheels move as for UP alone. -/
theorem left_up_not_superposed :
    ¬ Always ControlState.step Superposes shippedRobot
      [.pad (paddedFrame (restFrame 0x6F)) 0] := by
  intro h
  have hfl := h.1 (by decide +kernel) .fl
  revert hfl
  decide +kernel

end Mecanum.Robot
