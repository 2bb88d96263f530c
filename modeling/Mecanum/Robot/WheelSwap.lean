import Mecanum.Robot.Pilot
import Mecanum.Robot.StickMix

/-! # The robot with its wheels swapped

Swapping the left wheels for the right ones, or the front wheels for the back ones, swaps what LEFT and
RIGHT do and leaves UP and DOWN; swapping them along the diagonals leaves all four. Two robots whose
wheels and inputs are swapped stay swapped, except that `ps2_thread` tests LEFT before RIGHT.
-/

namespace Mecanum.Robot
open Motor Mecanum.Wheel Gamepad FloatArith Trace CInt
set_option autoImplicit false

/-! ## Swaps -/

/-- Left wheels with right wheels, front wheels with back wheels, or along the diagonals. -/
inductive WheelSwap
  | leftRight
  | frontBack
  | diagonal
  deriving DecidableEq

namespace WheelSwap

def wheel : WheelSwap → WheelId → WheelId
  | .leftRight => fun | .fl => .fr | .fr => .fl | .bl => .br | .br => .bl
  | .frontBack => fun | .fl => .bl | .bl => .fl | .fr => .br | .br => .fr
  | .diagonal => fun | .fl => .br | .br => .fl | .fr => .bl | .bl => .fr

/-- The stick axes that change their sign. -/
def flips : WheelSwap → UInt8 → Bool
  | .leftRight => fun channel => channel == pssLx || channel == pssRx
  | .frontBack => fun channel => channel == pssLx
  | .diagonal => fun channel => channel == pssRx

/-- The button that moves the swapped wheels as `b` moves the wheels. -/
def button (σ : WheelSwap) (b : DpadButton) : DpadButton :=
  if σ.flips pssLx then
    match b with
    | .left => .right
    | .right => .left
    | .up => .up
    | .down => .down
  else b

theorem wheel_wheel (σ : WheelSwap) (w : WheelId) : σ.wheel (σ.wheel w) = w := by
  cases σ <;> cases w <;> rfl

theorem forall_wheel (σ : WheelSwap) {p : WheelId → Prop} : (∀ w, p (σ.wheel w)) ↔ ∀ w, p w :=
  ⟨fun h w => σ.wheel_wheel w ▸ h (σ.wheel w), fun h w => h (σ.wheel w)⟩

theorem button_injective (σ : WheelSwap) : Function.Injective σ.button := by
  intro b b' h
  revert h
  cases σ <;> cases b <;> cases b' <;> decide

theorem displacement_button (σ : WheelSwap) (b : DpadButton) (w : WheelId) :
    (σ.button b).displacement (σ.wheel w) = b.displacement w := by
  cases σ <;> cases b <;> cases w <;> rfl

/-- LEFT and RIGHT are not pressed alone together. The diagonal swap leaves both in their places and
asks nothing. -/
def Clear (σ : WheelSwap) (buttons : Finset DpadButton) : Prop :=
  σ = .diagonal ∨ buttons ≠ {.left, .right}

instance (σ : WheelSwap) (buttons : Finset DpadButton) : Decidable (σ.Clear buttons) :=
  inferInstanceAs (Decidable (_ ∨ _))

theorem lastTested_image (σ : WheelSwap) (buttons : Finset DpadButton) (h : σ.Clear buttons) :
    lastTested (buttons.image σ.button) = (lastTested buttons).map σ.button := by
  revert h
  revert buttons
  cases σ <;> decide

theorem lastTested_of_not_clear (σ : WheelSwap) (buttons : Finset DpadButton) (h : ¬ σ.Clear buttons) :
    lastTested buttons = some .right ∧ lastTested (buttons.image σ.button) = some .right ∧
      σ.button .right ≠ .right := by
  revert h
  revert buttons
  cases σ <;> decide

end WheelSwap

/-! ## Swapped robots -/

def stickByte (data : Vector UInt8 21) (channel : UInt8) : ℕ := (data[channel.toNat]?.getD 0).toNat

/-- The sticks of the two frames: a flipped axis is reflected about its middle, the others agree. -/
def SticksSwapped (σ : WheelSwap) (data data' : Vector UInt8 21) : Prop :=
  ∀ channel ∈ [pssLx, pssLy, pssRx, pssRy],
    if σ.flips channel then stickByte data channel + stickByte data' channel = 256
    else stickByte data' channel = stickByte data channel

/-- Both threads' inputs with the wheels, the buttons and the sticks exchanged. -/
inductive SwappedEvent (σ : WheelSwap) : RobotEvent → RobotEvent → Prop
  | motor {count count' : WheelId → Int32} {uptime uptime' : WheelId → Int64}
      (counts : ∀ w, count' (σ.wheel w) = count w) (uptimes : ∀ w, uptime' (σ.wheel w) = uptime w) :
      SwappedEvent σ (.motor count uptime) (.motor count' uptime')
  | pad {frame frame' : Vector UInt8 21} {lastRead lastRead' : UInt64}
      (ok : frameOk frame' = frameOk frame)
      (held : heldSet (buttonWord frame') = (heldSet (buttonWord frame)).image σ.button)
      (sticks : SticksSwapped σ frame frame') :
      SwappedEvent σ (.pad frame lastRead) (.pad frame' lastRead')

/-- The same controller with its motor on another PWM device. -/
def onDev {F : Type} (accel : ZephyrAccelmotor F) (dev : PwmDev) : ZephyrAccelmotor F :=
  { accel with motor := { accel.motor with pwmDev := dev } }

structure Swapped {F : Type} (σ : WheelSwap) (s t : ControlState F) : Prop where
  accel : ∀ w, t.accel (σ.wheel w) = onDev (s.accel w) (σ.wheel w).pwmDev
  lines : ∀ w, t.lines (σ.wheel w) = s.lines w
  positionMode : t.positionMode = s.positionMode
  pos : ∀ w, t.pos (σ.wheel w) = s.pos w
  held : heldSet t.ps2.buttons = (heldSet s.ps2.buttons).image σ.button

/-! ## The controller does not know its PWM device -/

section OnDev
variable {F : Type} [FloatArith F] (accel : ZephyrAccelmotor F) (dev : PwmDev)

theorem zephyrMotorSetSpeed_onDev (motor : ZephyrMotor) (duty : Int16) :
    zephyrMotorSetSpeed { motor with pwmDev := dev } duty =
      ({ (zephyrMotorSetSpeed motor duty).1 with pwmDev := dev },
        (zephyrMotorSetSpeed motor duty).2) := by
  rw [zephyrMotorSetSpeed_eq_run, zephyrMotorSetSpeed_eq_run]
  generalize speedMode duty = mode
  unfold zephyrMotorRun deadTime
  split <;> cases mode <;> cases hr : motor.reversed <;> simp [actualMode, drive, hr] <;> rfl

theorem commandDuty_onDev : commandDuty (onDev accel dev) =
    (onDev (commandDuty accel).1 dev, (commandDuty accel).2) := by
  have hmotor := zephyrMotorSetSpeed_onDev dev accel.motor (toInt16 accel.dutyF)
  unfold commandDuty onDev
  simp only [hmotor]

theorem pidControl_onDev (target current : Int32) (cutoff : Bool) :
    pidControl (onDev accel dev) target current cutoff =
      (onDev (pidControl accel target current cutoff).1 dev,
        (pidControl accel target current cutoff).2) := by
  have hupdate : pidUpdate (onDev accel dev) target current cutoff =
      onDev (pidUpdate accel target current cutoff) dev := rfl
  unfold pidControl
  rw [hupdate, commandDuty_onDev]

theorem regulate_onDev : regulate (onDev accel dev) =
    (onDev (regulate accel).1 dev, (regulate accel).2) := by
  cases hmode : accel.runMode with
  | accelPos =>
      have hmode' : (onDev accel dev).runMode = .accelPos := hmode
      have hprofile : accelPosUpdate (onDev accel dev) = onDev (accelPosUpdate accel) dev := rfl
      have hpos : (onDev (accelPosUpdate accel) dev).controlPos = (accelPosUpdate accel).controlPos := rfl
      rw [regulate_accelPos hmode, regulate_accelPos hmode', hprofile, hpos,
        ← pidControl_onDev]
      rfl
  | pidPos =>
      have hmode' : (onDev accel dev).runMode = .pidPos := hmode
      rw [regulate_pidPos hmode, regulate_pidPos hmode', ← pidControl_onDev]
      rfl
  | accelSpeed =>
      have hmode' : (onDev accel dev).runMode = .accelSpeed := hmode
      have hspeed : accelSpeedUpdate (onDev accel dev) = onDev (accelSpeedUpdate accel) dev := rfl
      rw [regulate_accelSpeed hmode, regulate_accelSpeed hmode', hspeed,
        commandDuty_onDev]
  | pidSpeed =>
      have hmode' : (onDev accel dev).runMode = .pidSpeed := hmode
      rw [regulate_pidSpeed hmode, regulate_pidSpeed hmode',
        ← pidControl_onDev]
      rfl
  | idleRun =>
      have hmode' : (onDev accel dev).runMode = .idleRun := hmode
      rw [regulate_idleRun hmode, regulate_idleRun hmode']

theorem tick_onDev (pos : Int32) (uptime : Int64) :
    zephyrAccelmotorTick (onDev accel dev) pos uptime =
      (onDev (zephyrAccelmotorTick accel pos uptime).1 dev,
        (zephyrAccelmotorTick accel pos uptime).2) := by
  by_cases hgate : gateOpen accel uptime
  · have hgate' : gateOpen (onDev accel dev) uptime := hgate
    rw [tick_of_open hgate, tick_of_open hgate']
    have hsample : sample { onDev accel dev with currentPos := pos } =
        onDev (sample { accel with currentPos := pos }) dev := rfl
    rw [hsample, regulate_onDev]
    rfl
  · have hgate' : ¬ gateOpen (onDev accel dev) uptime := hgate
    rw [tick_of_closed hgate, tick_of_closed hgate']
    rfl

end OnDev

/-! ## One step -/

section Step
variable {F : Type} [FloatArith F] {σ : WheelSwap} {s t : ControlState F}

theorem Swapped.changeMode (h : Swapped σ s t) (mode : Bool) :
    Swapped σ (changeMode s mode) (changeMode t mode) := by
  cases mode with
  | true =>
      refine ⟨fun w => ?_, h.lines, rfl, fun w => ?_, h.held⟩
      · simp only [Robot.changeMode, updateTargetPositions, if_true, h.accel]
        rfl
      · simp only [Robot.changeMode, updateTargetPositions, if_true, h.accel]
        rfl
  | false =>
      refine ⟨fun w => ?_, h.lines, rfl, h.pos, h.held⟩
      simp only [Robot.changeMode, Bool.false_eq_true, if_false, h.accel]
      rfl

theorem tickWheel_swapped (h : Swapped σ s t) {count count' : WheelId → Int32}
    {uptime uptime' : WheelId → Int64} (hcount : ∀ w, count' (σ.wheel w) = count w)
    (huptime : ∀ w, uptime' (σ.wheel w) = uptime w) (w : WheelId) :
    tickWheel t count' uptime' (σ.wheel w) =
      (onDev (tickWheel s count uptime w).1 (σ.wheel w).pwmDev, (tickWheel s count uptime w).2) := by
  have hcounted : withCount (onDev (s.accel w) (σ.wheel w).pwmDev) (count w) =
      onDev (withCount (s.accel w) (count w)) (σ.wheel w).pwmDev := rfl
  rw [tickWheel_eq, tickWheel_eq, h.accel, hcount, huptime, hcounted]
  exact tick_onDev _ _ _ _

theorem Swapped.motorThreadStep (h : Swapped σ s t) {count count' : WheelId → Int32}
    {uptime uptime' : WheelId → Int64} (hcount : ∀ w, count' (σ.wheel w) = count w)
    (huptime : ∀ w, uptime' (σ.wheel w) = uptime w) :
    Swapped σ (motorThreadStep s count uptime) (motorThreadStep t count' uptime') := by
  have htick := tickWheel_swapped h hcount huptime
  have hticked : Swapped σ (tickWheels s count uptime) (tickWheels t count' uptime') := by
    refine ⟨fun w => congrArg Prod.fst (htick w), fun w => ?_, h.positionMode, h.pos, h.held⟩
    show (t.lines (σ.wheel w)).applyAll _ = (s.lines w).applyAll _
    rw [htick, h.lines]
  have hends : EndsMove t count' uptime' ↔ EndsMove s count uptime := by
    unfold EndsMove AllStopped
    rw [h.positionMode, ← σ.forall_wheel]
    simp only [htick]
  rw [motorThreadStep_eq, motorThreadStep_eq, if_congr hends rfl rfl]
  split
  · exact hticked.changeMode false
  · exact hticked

theorem Swapped.linkLost (h : Swapped σ s t) : Swapped σ (linkLost s) (linkLost t) := by
  have hmode := h.changeMode false
  refine ⟨fun w => ?_, hmode.lines, hmode.positionMode, hmode.pos, hmode.held⟩
  show zephyrAccelmotorSetTargetSpeed ((Robot.changeMode t false).accel (σ.wheel w)) 0 = _
  rw [hmode.accel]
  rfl

/-- The displacements decide whether two moves leave the robots swapped. -/
theorem Swapped.moveBy_iff (h : Swapped σ s t) (b b' : DpadButton) :
    Swapped σ (moveBy s b) (moveBy t b') ↔
      ∀ w, b'.displacement (σ.wheel w) = b.displacement w := by
  have hcurrent : ∀ w, (t.accel (σ.wheel w)).currentPos = (s.accel w).currentPos := fun w =>
    congrArg (fun a => a.currentPos) (h.accel w)
  constructor
  · intro hmoved w
    have htarget : (s.accel w).currentPos + Int32.ofInt (b'.displacement (σ.wheel w)) =
        (s.accel w).currentPos + Int32.ofInt (b.displacement w) := by
      have hpos := hmoved.pos w
      change (t.accel (σ.wheel w)).currentPos + Int32.ofInt (b'.displacement (σ.wheel w)) =
        (s.accel w).currentPos + Int32.ofInt (b.displacement w) at hpos
      rwa [hcurrent w] at hpos
    have hof := Int32.add_right_inj (s.accel w).currentPos |>.mp htarget
    have hb := displacement_bounds b w
    have hb' := displacement_bounds b' (σ.wheel w)
    have hint := congrArg Int32.toInt hof
    rwa [Int32.toInt_ofInt_of_le (by omega) (by omega),
      Int32.toInt_ofInt_of_le (by omega) (by omega)] at hint
  · intro hsame
    have hmode := h.changeMode true
    have hpos : ∀ w, (moveBy t b').pos (σ.wheel w) = (moveBy s b).pos w := by
      intro w
      show (t.accel (σ.wheel w)).currentPos + _ = (s.accel w).currentPos + _
      rw [hcurrent, hsame]
    refine ⟨fun w => ?_, hmode.lines, rfl, hpos, hmode.held⟩
    show zephyrAccelmotorSetTargetPos ((Robot.changeMode t true).accel (σ.wheel w))
        ((moveBy t b').pos (σ.wheel w)) =
      onDev (zephyrAccelmotorSetTargetPos ((Robot.changeMode s true).accel w) ((moveBy s b).pos w)) _
    rw [hmode.accel, hpos]
    rfl

theorem stickValue_swapped {ps2 ps2' : Ps2} (h : SticksSwapped σ ps2.data ps2'.data) (channel : UInt8)
    (hchannel : channel ∈ [pssLx, pssLy, pssRx, pssRy]) : stickValue ps2' channel =
      if σ.flips channel then -stickValue ps2 channel else stickValue ps2 channel := by
  have hbyte := h channel hchannel
  split
  · next hflips =>
      rw [if_pos hflips] at hbyte
      exact stickValue_neg hbyte
  · next hflips =>
      rw [if_neg hflips] at hbyte
      have hsame : (ps2Analog ps2' channel).toNat = (ps2Analog ps2 channel).toNat := hbyte
      unfold stickValue
      rw [hsame]

theorem stickMix_swapped {ps2 ps2' : Ps2} (h : SticksSwapped σ ps2.data ps2'.data) (w : WheelId) :
    stickMix ps2' (σ.wheel w) = stickMix ps2 w := by
  have hlx := stickValue_swapped h pssLx (by simp)
  have hly := stickValue_swapped h pssLy (by simp)
  have hrx := stickValue_swapped h pssRx (by simp)
  have hry := stickValue_swapped h pssRy (by simp)
  rw [stickMix_eq, stickMix_eq]
  unfold translation forwardBackward rotation
  rw [hlx, hly, hrx, hry]
  cases σ <;> cases w <;>
    simp [WheelSwap.wheel, WheelSwap.flips, pssLx, pssLy, pssRx, pssRy, sub_eq_add_neg]

omit [FloatArith F] in
theorem Swapped.applySticks (h : Swapped σ s t) (hsticks : SticksSwapped σ s.ps2.data t.ps2.data) :
    Swapped σ (applySticks s) (applySticks t) := by
  unfold Robot.applySticks
  rw [h.positionMode]
  split
  · exact h
  · refine ⟨fun w => ?_, h.lines, rfl, h.pos, h.held⟩
    simp only [h.accel, stickMix_swapped hsticks]
    rfl

/-- Without LEFT and RIGHT together the swapped branch is taken, and with them RIGHT on both robots. -/
theorem Swapped.ps2ThreadStep_iff (h : Swapped σ s t) (hsticks : SticksSwapped σ s.ps2.data t.ps2.data)
    {buttons : Finset DpadButton} (hs : pressedSet s.ps2.lastButtons s.ps2.buttons = buttons)
    (ht : pressedSet t.ps2.lastButtons t.ps2.buttons = buttons.image σ.button) :
    Swapped σ (ps2ThreadStep s true) (ps2ThreadStep t true) ↔ σ.Clear buttons := by
  have hstep : ∀ s : ControlState F, ps2ThreadStep s true = Robot.applySticks (dpadMoves s) :=
    fun _ => rfl
  rw [hstep, hstep, dpadMoves_eq_moveBy, dpadMoves_eq_moveBy, hs, ht]
  by_cases hclear : σ.Clear buttons
  · rw [σ.lastTested_image buttons hclear, iff_true_right hclear]
    cases lastTested buttons with
    | none => exact h.applySticks hsticks
    | some b => exact (h.moveBy_iff b (σ.button b)).mpr (σ.displacement_button b)
  · obtain ⟨hlast, himage, hbutton⟩ := σ.lastTested_of_not_clear buttons hclear
    rw [hlast, himage, iff_false_right hclear]
    show ¬ Swapped σ (moveBy s .right) (moveBy t .right)
    rw [h.moveBy_iff]
    intro hsame
    revert hbutton hsame
    cases σ <;> decide

theorem step_swapped_iff (h : Swapped σ s t) {e e' : RobotEvent} (he : SwappedEvent σ e e') :
    Swapped σ (s.step e) (t.step e') ↔ σ.Clear (newlyPressed s e) := by
  have hempty : σ.Clear ∅ := .inr (by decide)
  cases he with
  | motor hcount huptime => exact iff_of_true (h.motorThreadStep hcount huptime) hempty
  | @pad frame frame' lastRead lastRead' hok hheld hsticks =>
      have hlatch : Swapped σ (s.latch frame lastRead) (t.latch frame' lastRead') :=
        ⟨h.accel, h.lines, h.positionMode, h.pos, hheld⟩
      show Swapped σ (ps2ThreadStep (s.latch frame lastRead) (frameOk frame))
        (ps2ThreadStep (t.latch frame' lastRead') (frameOk frame')) ↔
          σ.Clear (if frameOk frame then pressedSet s.ps2.buttons (buttonWord frame) else ∅)
      rw [hok]
      cases frameOk frame with
      | false => exact iff_of_true hlatch.linkLost hempty
      | true =>
          refine hlatch.ps2ThreadStep_iff hsticks rfl ?_
          show pressedSet t.ps2.buttons (buttonWord frame') = _
          rw [pressedSet_eq, hheld, h.held, ← Finset.image_sdiff _ _ σ.button_injective, if_pos rfl,
            pressedSet_eq]

end Step

/-! ## Runs -/

section Runs
variable {F : Type} [FloatArith F]

/-- The frame does not press LEFT and RIGHT alone together, where the swap exchanges them. -/
def ClearPress (σ : WheelSwap) (s : ControlState F) (e : RobotEvent) (_ : ControlState F) : Prop :=
  σ.Clear (newlyPressed s e)

instance (σ : WheelSwap) (s : ControlState F) (e : RobotEvent) (t : ControlState F) :
    Decidable (ClearPress σ s e t) := inferInstanceAs (Decidable (σ.Clear _))

/-- Boards whose clocks are swapped make robots that are. -/
theorem initHardware_swapped {W : Type} {σ : WheelSwap} {board board' : Board} {bus bus' : Bus W}
    {world world' : W} {s t : ControlState F} (hs : initHardware board bus world = some s)
    (ht : initHardware board' bus' world' = some t)
    (hencoder : ∀ w, board'.encoderUptime (σ.wheel w) = board.encoderUptime w)
    (haccel : ∀ w, board'.accelUptime (σ.wheel w) = board.accelUptime w)
    (hheld : heldSet t.ps2.buttons = (heldSet s.ps2.buttons).image σ.button) : Swapped σ s t := by
  rw [initHardware_eq hs, initHardware_eq ht]
  refine ⟨fun w => ?_, fun _ => rfl, rfl, fun _ => rfl, hheld⟩
  simp only [hencoder, haccel]
  rfl

end Runs

/-- LEFT on one robot and RIGHT on the other, and a tick. -/
def leftAndRight : List (RobotEvent × RobotEvent) :=
  [(.pad (paddedFrame (restFrame 0x7F)) 0, .pad (paddedFrame (restFrame 0xDF)) 0),
    (.motor (fun _ => 0) (fun _ => 20), .motor (fun _ => 0) (fun _ => 20))]

end Mecanum.Robot
