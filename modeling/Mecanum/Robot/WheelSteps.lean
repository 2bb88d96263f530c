import Mecanum.Robot.ModeMachine
import Mecanum.Wheel.Calls

/-! # A critical section as seen by one wheel

A critical section of either thread reaches a wheel only through its encoder's count and calls of
its controller, and of those only the ones in `RobotCall`. What every such call keeps of a controller and its
wires, every interleaving keeps of the four wheels.
-/

namespace Mecanum.Robot
open Motor Mecanum.Wheel Gamepad FloatArith Trace CInt
set_option autoImplicit false

/-- The calls that `main.c` makes: two run modes, and target speeds within `±MAX_SPEED`. -/
def RobotCall : AccelCall → Prop
  | .setRunMode mode => mode = .accelPos ∨ mode = .pidSpeed
  | .setTargetPos _ => True
  | .setTargetSpeed speed => |speed.toInt| ≤ maxSpeed
  | .tick _ _ => True

/-- The controller after the edges that leave its counter at `count`. -/
def withCount {F : Type} (accel : ZephyrAccelmotor F) (count : Int32) : ZephyrAccelmotor F :=
  { accel with encoder := { accel.encoder with counter := count } }

section Rule
variable {F : Type} [FloatArith F]

theorem tickWheel_eq (s : ControlState F) (count : WheelId → Int32) (uptime : WheelId → Int64)
    (w : WheelId) : tickWheel s count uptime w =
      zephyrAccelmotorTick (withCount (s.accel w) (count w)) (count w) (uptime w) := rfl

/-- A property of each wheel's controller and wires that setting a run mode or a target keeps. -/
structure KeptBySettings (I : WheelId → ZephyrAccelmotor F → Lines → Prop) : Prop where
  setRunMode : ∀ w accel lines mode, mode = .accelPos ∨ mode = .pidSpeed → I w accel lines →
    I w (zephyrAccelmotorSetRunMode accel mode) lines
  setTargetPos : ∀ w accel lines pos, I w accel lines →
    I w (zephyrAccelmotorSetTargetPos accel pos) lines
  setTargetSpeed : ∀ w accel lines (speed : Int16), |speed.toInt| ≤ maxSpeed → I w accel lines →
    I w (zephyrAccelmotorSetTargetSpeed accel speed) lines

/-- A property that the edges of the encoder and all of the robot's calls keep. -/
structure KeptByCalls (I : WheelId → ZephyrAccelmotor F → Lines → Prop) : Prop where
  count : ∀ w accel lines count, I w accel lines → I w (withCount accel count) lines
  call : ∀ w accel lines c, RobotCall c → I w accel lines →
    I w (accel.call c).1 (lines.applyAll ((accel.call c).2.commands.flatMap Command.outputs))

def Wheels (I : WheelId → ZephyrAccelmotor F → Lines → Prop) (s : ControlState F) : Prop :=
  ∀ w, I w (s.accel w) (s.lines w)

variable {I : WheelId → ZephyrAccelmotor F → Lines → Prop} {s : ControlState F}

theorem abs_stickMix_le (ps2 : Ps2) (w : WheelId) : |stickMix ps2 w| ≤ maxSpeed := by
  unfold stickMix maxSpeed
  simp only
  rw [abs_le]
  split <;> split <;> omega

theorem KeptBySettings.changeMode (h : KeptBySettings I) (hI : Wheels I s) (mode : Bool) :
    Wheels I (changeMode s mode) := by
  intro w
  cases mode with
  | true => exact h.setTargetPos _ _ _ _ (h.setRunMode _ _ _ _ (.inl rfl) (hI w))
  | false => exact h.setRunMode _ _ _ _ (.inr rfl) (hI w)

theorem KeptBySettings.dpadMove (h : KeptBySettings I) (hI : Wheels I s) (button : UInt16)
    (step : WheelId → Int32) : Wheels I (dpadMove button step s) := by
  unfold Robot.dpadMove
  split
  · exact fun w => h.setTargetPos _ _ _ _ (h.changeMode hI true w)
  · exact hI

theorem KeptBySettings.applySticks (h : KeptBySettings I) (hI : Wheels I s) :
    Wheels I (applySticks s) := by
  unfold Robot.applySticks
  split
  · exact hI
  · intro w
    refine h.setTargetSpeed _ _ _ _ ?_ (hI w)
    have habs := abs_stickMix_le s.ps2 w
    have hsize : (maxSpeed : ℤ) = 70 := rfl
    rw [hsize, abs_le] at habs
    rw [toInt_int16 (by omega) (by omega)]
    exact abs_stickMix_le s.ps2 w

theorem KeptBySettings.ps2ThreadStep (h : KeptBySettings I) (hI : Wheels I s) (success : Bool) :
    Wheels I (ps2ThreadStep s success) := by
  cases success with
  | true =>
      exact h.applySticks (h.dpadMove (h.dpadMove (h.dpadMove (h.dpadMove hI _ _) _ _) _ _) _ _)
  | false => exact fun w => h.setTargetSpeed _ _ _ _ (by decide) (h.changeMode hI false w)

theorem KeptByCalls.settings (h : KeptByCalls I) : KeptBySettings I where
  setRunMode w accel lines mode hmode hI := h.call w accel lines (.setRunMode mode) hmode hI
  setTargetPos w accel lines pos hI := h.call w accel lines (.setTargetPos pos) trivial hI
  setTargetSpeed w accel lines speed hspeed hI :=
    h.call w accel lines (.setTargetSpeed speed) hspeed hI

theorem KeptByCalls.tickWheels (h : KeptByCalls I) (hI : Wheels I s) (count : WheelId → Int32)
    (uptime : WheelId → Int64) : Wheels I (tickWheels s count uptime) :=
  fun w => h.call w _ (s.lines w) (.tick (count w) (uptime w)) trivial
    (h.count w (s.accel w) (s.lines w) (count w) (hI w))

theorem KeptByCalls.motorThreadStep (h : KeptByCalls I) (hI : Wheels I s) (count : WheelId → Int32)
    (uptime : WheelId → Int64) : Wheels I (motorThreadStep s count uptime) := by
  rw [motorThreadStep_eq]
  split
  · exact h.settings.changeMode (h.tickWheels hI count uptime) false
  · exact h.tickWheels hI count uptime

/-- What the calls keep, every critical section keeps. -/
theorem KeptByCalls.step (h : KeptByCalls I) (hI : Wheels I s) (e : RobotEvent) :
    Wheels I (s.step e) := by
  cases e with
  | motor count uptime => exact h.motorThreadStep hI count uptime
  | pad frame lastRead => exact h.settings.ps2ThreadStep (s := s.latch frame lastRead) hI (frameOk frame)

theorem KeptByCalls.run (h : KeptByCalls I) (hI : Wheels I s) (events : List RobotEvent) :
    Wheels I (run ControlState.step s events) :=
  run_invariant (I := Wheels I) (fun _ e hs => h.step hs e) events hI

theorem KeptByCalls.always (h : KeptByCalls I) (hI : Wheels I s) (events : List RobotEvent) :
    Always ControlState.step (fun _ _ t => Wheels I t) s events :=
  Always.of_invariant (I := Wheels I) (fun _ e hs => h.step hs e) (fun _ e hs => h.step hs e) events hI

/-- What a successful `init_hardware` leaves. Only the gamepad's record depends on the bus. -/
theorem initHardware_eq {W : Type} {board : Board} {bus : Bus W} {world : W} {s : ControlState F}
    (h : initHardware board bus world = some s) : s =
      { accel := fun w => wheelAccelmotor w (zephyrEncoderInit true (board.encoderUptime w)).1
          (board.accelUptime w)
        lines := fun _ => Lines.reset
        positionMode := false
        pos := fun _ => 0
        ps2 := s.ps2 } := by
  have hlines : ∀ dev ready ready', Lines.reset.applyAll (zephyrMotorInit dev ready ready' false).2 =
      Lines.reset := by
    intro dev ready ready'
    cases ready <;> cases ready' <;> rfl
  unfold initHardware at h
  simp only [hlines] at h
  split at h
  · split at h
    · split at h
      · obtain rfl := Option.some.inj h
        rfl
      · cases h
    · cases h
  · cases h

end Rule

end Mecanum.Robot
