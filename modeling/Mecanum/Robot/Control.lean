import Mecanum.Foundations.Single
import Mecanum.Gamepad.Ps2
import Mecanum.Motor.Bridge
import Mecanum.Robot.Wheels

/-! # `main.c`: the two control threads

The PS2 build (`MOTOR_AUTOTEST_NO_PS2` is 0). Each critical section under `control_lock` is one
step: `motorThreadStep` for `motor_control_thread`, `ps2ThreadStep` for `ps2_thread` after its read.
The debug output is left out.
-/

namespace Mecanum.Robot
open Motor Mecanum.Wheel Gamepad FloatArith
set_option autoImplicit false

/-- The static records of `main.c`, with the wires of the motors. -/
structure ControlState (F : Type) where
  accel : WheelId → ZephyrAccelmotor F
  lines : WheelId → Lines
  positionMode : Bool
  pos : WheelId → Int32
  ps2 : Ps2

section Control
variable {F : Type} [FloatArith F]

def updateTargetPositions (s : ControlState F) : ControlState F :=
  { s with accel := fun w => zephyrAccelmotorSetTargetPos (s.accel w) (s.pos w) }

def changeMode (s : ControlState F) (mode : Bool) : ControlState F :=
  if mode then
    let accel := fun w => zephyrAccelmotorSetRunMode (s.accel w) .accelPos
    updateTargetPositions
      { s with
        positionMode := mode
        accel := accel
        pos := fun w => zephyrAccelmotorGetCurrentPos (accel w) }
  else
    { s with
      positionMode := mode
      accel := fun w => zephyrAccelmotorSetRunMode (s.accel w) .pidSpeed }

/-! ## `motor_control_thread` -/

/-- The tick of one wheel, once the edges since the last one have left its counter at `count`. -/
def tickWheel (s : ControlState F) (count : WheelId → Int32) (uptime : WheelId → Int64) (w : WheelId) :
    ZephyrAccelmotor F × List Command × Bool :=
  let accel := s.accel w
  let encoder := { accel.encoder with counter := count w }
  zephyrAccelmotorTick { accel with encoder := encoder } (zephyrEncoderGetCount encoder) (uptime w)

def tickWheels (s : ControlState F) (count : WheelId → Int32) (uptime : WheelId → Int64) : ControlState F :=
  { s with
    accel := fun w => (tickWheel s count uptime w).1
    lines := fun w =>
      (s.lines w).applyAll ((tickWheel s count uptime w).2.1.flatMap Command.outputs) }

def motorThreadStep (s : ControlState F) (count : WheelId → Int32) (uptime : WheelId → Int64) : ControlState F :=
  let moving w := (tickWheel s count uptime w).2.2
  let s := tickWheels s count uptime
  if s.positionMode && !moving .fl && !moving .fr && !moving .bl && !moving .br then
    changeMode s false
  else s

/-! ## `ps2_thread` -/

/-- One D-pad branch: a button and the displacement it adds. -/
def dpadMove (button : UInt16) (step : WheelId → Int32) (s : ControlState F) : ControlState F :=
  if ps2ButtonPressed s.ps2 button then
    let s := changeMode s true
    updateTargetPositions { s with pos := fun w => s.pos w + step w }
  else s

def stepSize : Int32 := 50

def moveLeft (s : ControlState F) : ControlState F :=
  dpadMove psbPadLeft
    (fun | .fl => stepSize | .fr => -stepSize | .bl => -stepSize | .br => stepSize) s

def moveRight (s : ControlState F) : ControlState F :=
  dpadMove psbPadRight
    (fun | .fl => -stepSize | .fr => stepSize | .bl => stepSize | .br => -stepSize) s

def moveUp (s : ControlState F) : ControlState F := dpadMove psbPadUp (fun _ => stepSize) s

def moveDown (s : ControlState F) : ControlState F := dpadMove psbPadDown (fun _ => -stepSize) s

def dpadMoves (s : ControlState F) : ControlState F := moveDown (moveUp (moveRight (moveLeft s)))

/-- A stick axis: centred, then scaled to `MAX_SPEED`. The division is C's. -/
def stickValue (ps2 : Ps2) (channel : UInt8) : ℤ :=
  (((ps2Analog ps2 channel).toNat - 128 : ℤ) * maxSpeed).tdiv 128

def stickDuty (ps2 : Ps2) : WheelId → ℤ :=
  let lx := stickValue ps2 pssLx
  let ly := stickValue ps2 pssLy
  let rx := stickValue ps2 pssRx
  let ry := stickValue ps2 pssRy
  fun
  | .fr => ly + lx + (ry - rx)
  | .fl => ly - lx + (ry + rx)
  | .br => ly - lx + (ry - rx)
  | .bl => ly + lx + (ry + rx)

def stickMix (ps2 : Ps2) (w : WheelId) : ℤ :=
  let duty := stickDuty ps2 w
  let duty := if duty > (maxSpeed : ℤ) then (maxSpeed : ℤ) else duty
  if duty < -(maxSpeed : ℤ) then -(maxSpeed : ℤ) else duty

/-- The stick branch; the mix is narrowed to the `int16_t` argument. -/
def applySticks (s : ControlState F) : ControlState F :=
  if s.positionMode then s
  else
    { s with accel := fun w =>
        zephyrAccelmotorSetTargetSpeed (s.accel w) (Int16.ofInt (stickMix s.ps2 w)) }

def linkLost (s : ControlState F) : ControlState F :=
  let s := changeMode s false
  { s with accel := fun w => zephyrAccelmotorSetTargetSpeed (s.accel w) 0 }

def ps2ThreadStep (s : ControlState F) (success : Bool) : ControlState F :=
  if success then applySticks (dpadMoves s) else linkLost s

def ps2ThreadIteration {W : Type} (bus : Bus W) (s : ControlState F) (w : W) : ControlState F :=
  let read := ps2ReadGamepad bus s.ps2 false 0 w
  ps2ThreadStep { s with ps2 := read.1 } read.2.1

/-! ## Interleavings -/

/-- A critical section of either thread. A read is given by the frame it ends with. -/
inductive RobotEvent
  | motor (count : WheelId → Int32) (uptime : WheelId → Int64)
  | pad (frame : Vector UInt8 21) (lastRead : UInt64)

def ControlState.latch (s : ControlState F) (frame : Vector UInt8 21) (lastRead : UInt64) :
    ControlState F :=
  { s with ps2 := s.ps2.latch frame lastRead }

def ControlState.step (s : ControlState F) : RobotEvent → ControlState F
  | .motor count uptime => motorThreadStep s count uptime
  | .pad frame lastRead => ps2ThreadStep (s.latch frame lastRead) (frameOk frame)

/-- Whatever the world does, an iteration of `ps2_thread` is a `pad` event. -/
theorem ps2ThreadIteration_eq_step {W : Type} (bus : Bus W) (s : ControlState F) (w : W) :
    ∃ frame lastRead, ps2ThreadIteration bus s w = s.step (.pad frame lastRead) := by
  obtain ⟨lastRead, hlatch, hok⟩ := ps2ReadGamepad_eq_latch bus s.ps2 false 0 w
  refine ⟨(receive bus s.ps2 false 0 w).1, lastRead, ?_⟩
  unfold ps2ThreadIteration ControlState.step ControlState.latch
  simp only [hlatch, hok]

/-! ## `init_hardware` -/

inductive GpioPort
  | a
  | b
  | c
  | d
  | e

structure Board where
  pwmReady : PwmDev → Bool
  gpioReady : GpioPort → Bool
  encoderUptime : WheelId → Int64
  accelUptime : WheelId → Int64

def readyBoard : Board := ⟨fun _ => true, fun _ => true, fun _ => 0, fun _ => 0⟩

def WheelId.motorPort : WheelId → GpioPort
  | .fl => .b
  | .fr => .e
  | .bl => .b
  | .br => .a

def WheelId.encoderPort : WheelId → GpioPort
  | .fl => .b
  | .fr => .c
  | .bl => .e
  | .br => .d

/-- `none` when it returns false. The gamepad is on port C. -/
def initHardware {W : Type} (board : Board) (bus : Bus W) (world : W) : Option (ControlState F) :=
  if board.pwmReady .pwm1 && board.pwmReady .pwm2 && board.pwmReady .pwm17 && board.gpioReady .b &&
      board.gpioReady .e && board.gpioReady .a && board.gpioReady .c && board.gpioReady .d then
    let encoder w :=
      zephyrEncoderInit (board.gpioReady (WheelId.encoderPort w)) (board.encoderUptime w)
    if (encoder .fl).2 && (encoder .fr).2 && (encoder .bl).2 && (encoder .br).2 then
      let gamepad :=
        ps2Init { bus with ready := board.gpioReady .c } zeroed false false world
      if gamepad.2.1 then
        some
          { accel := fun w => wheelAccelmotor w (encoder w).1 (board.accelUptime w)
            lines := fun w => Lines.reset.applyAll (zephyrMotorInit w.pwmDev
              (board.pwmReady w.pwmDev) (board.gpioReady (WheelId.motorPort w)) false).2
            positionMode := false
            pos := fun _ => 0
            ps2 := gamepad.1 }
      else none
    else none
  else none

end Control

/-- The robot after `init_hardware`, with every device ready and a controller at rest. -/
def shippedRobot : ControlState ℚ :=
  (initHardware readyBoard replay (restFrame 0xFF, 0)).get (by decide +kernel)

theorem initHardware_shipped :
    initHardware readyBoard replay (restFrame 0xFF, 0) = some shippedRobot :=
  (Option.some_get _).symm

/-- The same in single precision. -/
def shippedSingle : ControlState Single :=
  (initHardware readyBoard replay (restFrame 0xFF, 0)).get (by decide +kernel)

end Mecanum.Robot
