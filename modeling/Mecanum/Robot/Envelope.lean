import Mecanum.Motor.OutputStage
import Mecanum.Robot.StickCommand
import Mecanum.Robot.WheelSteps
import Mecanum.Wheel.DutyRange
import Mecanum.Wheel.StopZone

/-! # What no interleaving can leave

`Envelope` is what holds of every wheel at every moment of the PS2 build: the settings of
`init_hardware`, target speeds within `±MAX_SPEED`, and wires that drive the bridge in the direction of the
motor state by no less than the smallest pulse and no more than the period. In exact arithmetic
every due control step gives its motor one command, the truncation of a duty within the limit.
-/

namespace Mecanum.Robot
open Motor Mecanum.Wheel Gamepad FloatArith Exact Trace CInt
set_option autoImplicit false

section Settings
variable {F : Type} [FloatArith F]

/-- The motor's settings, which no call changes. -/
structure MotorSettings (w : WheelId) (motor : ZephyrMotor) : Prop where
  pwmDev : motor.pwmDev = w.pwmDev
  reversed : motor.reversed = false
  minDuty : motor.minDuty = 50
  maxDuty : motor.maxDuty = 70
  deadtimeUs : motor.deadtimeUs = 0

/-- The controller's settings. -/
structure AccelSettings (accel : ZephyrAccelmotor F) : Prop where
  dtMs : accel.dtMs = 20
  dtSec : accel.dtSec = ofInt (20 : UInt32).toNat / lit 1000
  stopzone : accel.stopzone = 5
  maxSpeed : accel.maxSpeed = 500
  acceleration : accel.acceleration = ofInt 7
  kp : accel.kp = lit 2.2
  ki : accel.ki = lit 0.4
  kd : accel.kd = lit 0.01

theorem AccelSettings.regulate {accel : ZephyrAccelmotor F} (h : AccelSettings accel) :
    AccelSettings (regulate accel).1 := by
  rw [regulate_eq]
  exact ⟨h.dtMs, h.dtSec, h.stopzone, h.maxSpeed, h.acceleration, h.kp, h.ki, h.kd⟩

theorem AccelSettings.call {accel : ZephyrAccelmotor F} (h : AccelSettings accel) (c : AccelCall) :
    AccelSettings (accel.call c).1 := by
  cases c with
  | setRunMode mode =>
      cases mode <;>
        exact ⟨h.dtMs, h.dtSec, h.stopzone, h.maxSpeed, h.acceleration, h.kp, h.ki, h.kd⟩
  | setTargetPos pos =>
      exact ⟨h.dtMs, h.dtSec, h.stopzone, h.maxSpeed, h.acceleration, h.kp, h.ki, h.kd⟩
  | setTargetSpeed speed =>
      exact ⟨h.dtMs, h.dtSec, h.stopzone, h.maxSpeed, h.acceleration, h.kp, h.ki, h.kd⟩
  | tick pos uptime =>
      by_cases hgate : gateOpen accel uptime
      · have hsample : AccelSettings (sample { accel with currentPos := pos }) :=
          ⟨h.dtMs, h.dtSec, h.stopzone, h.maxSpeed, h.acceleration, h.kp, h.ki, h.kd⟩
        show AccelSettings (zephyrAccelmotorTick accel pos uptime).1
        rw [tick_of_open hgate]
        exact hsample.regulate
      · show AccelSettings (zephyrAccelmotorTick accel pos uptime).1
        rw [tick_of_closed hgate]
        exact ⟨h.dtMs, h.dtSec, h.stopzone, h.maxSpeed, h.acceleration, h.kp, h.ki, h.kd⟩

/-- A call gives the motor one command or none. -/
theorem call_motor (accel : ZephyrAccelmotor F) (c : AccelCall) :
    (∃ duty, (accel.call c).1.motor = (zephyrMotorSetSpeed accel.motor duty).1 ∧
      (accel.call c).2.commands = [⟨duty, (zephyrMotorSetSpeed accel.motor duty).2⟩]) ∨
    ((accel.call c).1.motor = accel.motor ∧ (accel.call c).2.commands = []) := by
  cases c with
  | setRunMode mode => cases mode <;> exact .inr ⟨rfl, rfl⟩
  | setTargetPos pos => exact .inr ⟨rfl, rfl⟩
  | setTargetSpeed speed => exact .inr ⟨rfl, rfl⟩
  | tick pos uptime =>
      by_cases hgate : gateOpen accel uptime
      · rw [ZephyrAccelmotor.call_of_open hgate]
        obtain ⟨duty, hmotor, hcommands⟩ | ⟨-, hidle⟩ :=
          regulate_motor (sample { accel with currentPos := pos })
        · exact .inl ⟨duty, hmotor, hcommands⟩
        · exact .inr ⟨congrArg (fun r => r.1.motor) hidle, congrArg Prod.snd hidle⟩
      · rw [ZephyrAccelmotor.call_of_closed hgate]
        exact .inr ⟨rfl, rfl⟩

/-- A call sets the encoder's direction to that of a driven motor, or not at all. -/
theorem call_direction (accel : ZephyrAccelmotor F) (c : AccelCall) :
    (accel.call c).1.encoder.direction = accel.encoder.direction ∨
      (accel.motor.state ≠ 0 ∧ (accel.call c).1.encoder.direction = accel.motor.state) := by
  cases c with
  | setRunMode mode => cases mode <;> exact .inl rfl
  | setTargetPos pos => exact .inl rfl
  | setTargetSpeed speed => exact .inl rfl
  | tick pos uptime =>
      by_cases hgate : gateOpen accel uptime
      · have hcopied : (accel.call (.tick pos uptime)).1.encoder =
            if accel.motor.state ≠ 0 then { accel.encoder with direction := accel.motor.state }
            else accel.encoder := by
          rw [ZephyrAccelmotor.call_of_open hgate, regulate_encoder]
          rfl
        rw [hcopied]
        by_cases hstate : accel.motor.state ≠ 0
        · rw [if_pos hstate]
          exact .inr ⟨hstate, rfl⟩
        · rw [if_neg hstate]
          exact .inl rfl
      · rw [ZephyrAccelmotor.call_of_closed hgate]
        exact .inl rfl

theorem call_targetSpeed {accel : ZephyrAccelmotor F} {c : AccelCall} (hc : RobotCall c)
    (h : |accel.targetSpeed.toInt| ≤ maxSpeed) : |(accel.call c).1.targetSpeed.toInt| ≤ maxSpeed := by
  cases c with
  | setRunMode mode => cases mode <;> exact h
  | setTargetPos pos => exact h
  | setTargetSpeed speed => exact hc
  | tick pos uptime =>
      have htarget := (tick_settings accel pos uptime).2.2.1
      show |(zephyrAccelmotorTick accel pos uptime).1.targetSpeed.toInt| ≤ _
      rw [htarget]
      exact h

end Settings

/-! ## The wires and the motor state -/

/-- The wires drive the bridge the way `state` says, and not at all when it is 0. Any drive is at least the
pulse of `MIN_DUTY`. -/
structure WiresAgree (state : Int8) (lines : Lines) : Prop where
  isMotorState : IsMotorState state
  drive : lines.drive = some (state.toInt * lines.pulse)
  off : state = 0 → lines.pulse = 0
  driven : state ≠ 0 → 714000 ≤ lines.pulse ∧ lines.pulse ≤ 1000000
  period : ∀ p ∈ lines.pwm, p.period.toNat = 1000000

theorem WiresAgree.reset : WiresAgree 0 Lines.reset :=
  ⟨.inr (.inr rfl), rfl, fun _ => rfl, fun h => absurd rfl h, fun p hp => by cases hp⟩

/-- Whatever was on the wires, a command leaves them in agreement. -/
theorem WiresAgree.setSpeed {w : WheelId} {motor : ZephyrMotor} (h : MotorSettings w motor)
    (duty : Int16) (lines : Lines) :
    WiresAgree (zephyrMotorSetSpeed motor duty).1.state (speedLines motor duty lines) := by
  have hrange : motor.minDuty ≤ motor.maxDuty := by
    rw [h.minDuty, h.maxDuty]
    decide
  have hpos : 0 < motor.maxDuty := by
    rw [h.maxDuty]
    decide
  have hpulse := pulse_speedLines motor duty hrange lines
  have hzero : (zephyrMotorSetSpeed motor duty).1.state = 0 ↔ duty = 0 :=
    ZephyrAccelmotor.state_zephyrMotorSetSpeed_eq_zero_iff motor duty
  refine ⟨zephyrMotorSetSpeed_isMotorState motor duty, drive_speedLines motor duty lines,
    fun hstate => ?_, fun hstate => ⟨?_, ?_⟩, ?_⟩
  · rw [hpulse, hzero.mp hstate]
    simp [pulseUs, level]
  · have hfloor : motor.minDuty.toNat * 1000 / motor.maxDuty.toNat ≤ pulseUs motor duty :=
      le_pulseUs duty hpos (mt hzero.mpr hstate)
    rw [h.minDuty, h.maxDuty] at hfloor
    rw [hpulse]
    exact Nat.mul_le_mul_right 1000 hfloor
  · have hfull := pulseUs_le duty hrange
    rw [hpulse]
    omega
  · have hperiod := period_speedLines motor duty lines
    intro p hp
    unfold Lines.period at hperiod
    rw [Option.mem_def.mp hp] at hperiod
    exact hperiod

/-! ## The envelope -/

section Law
variable {F : Type} [FloatArith F]

structure Envelope (w : WheelId) (accel : ZephyrAccelmotor F) (lines : Lines) : Prop where
  motor : MotorSettings w accel.motor
  settings : AccelSettings accel
  target : |accel.targetSpeed.toInt| ≤ maxSpeed
  direction : accel.encoder.direction = 1 ∨ accel.encoder.direction = -1
  wires : WiresAgree accel.motor.state lines

theorem MotorSettings.setSpeed {w : WheelId} {motor : ZephyrMotor} (h : MotorSettings w motor)
    (duty : Int16) : MotorSettings w (zephyrMotorSetSpeed motor duty).1 := by
  rw [zephyrMotorSetSpeed_eq_run, zephyrMotorRun_fst]
  exact ⟨h.pwmDev, h.reversed, h.minDuty, h.maxDuty, h.deadtimeUs⟩

theorem envelope_kept : KeptByCalls (F := F) Envelope where
  count w accel lines count h :=
    ⟨h.motor, ⟨h.settings.dtMs, h.settings.dtSec, h.settings.stopzone, h.settings.maxSpeed,
      h.settings.acceleration, h.settings.kp, h.settings.ki, h.settings.kd⟩, h.target, h.direction, h.wires⟩
  call w accel lines c hc h := by
    have hdirection : (accel.call c).1.encoder.direction = 1 ∨
        (accel.call c).1.encoder.direction = -1 := by
      obtain hkept | ⟨hne, hcopied⟩ := call_direction accel c
      · rw [hkept]
        exact h.direction
      · rw [hcopied]
        exact h.wires.isMotorState.of_ne_zero hne
    obtain ⟨duty, hmotor, hcommands⟩ | ⟨hmotor, hcommands⟩ := call_motor accel c
    · refine ⟨?_, h.settings.call c, call_targetSpeed hc h.target, hdirection, ?_⟩
      · rw [hmotor]
        exact h.motor.setSpeed duty
      · rw [hmotor, hcommands, List.flatMap_singleton]
        exact WiresAgree.setSpeed h.motor duty lines
    · refine ⟨?_, h.settings.call c, call_targetSpeed hc h.target, hdirection, ?_⟩
      · rw [hmotor]
        exact h.motor
      · rw [hmotor, hcommands]
        exact h.wires

theorem initHardware_envelope {W : Type} {board : Board} {bus : Bus W} {world : W}
    {s : ControlState F} (h : initHardware board bus world = some s) : Wheels Envelope s := by
  have htarget : |(0 : Int16).toInt| ≤ maxSpeed := by decide
  rw [initHardware_eq h]
  exact fun w => ⟨⟨rfl, rfl, rfl, rfl, rfl⟩, ⟨rfl, rfl, rfl, rfl, rfl, rfl, rfl, rfl⟩, htarget, .inl rfl,
    WiresAgree.reset⟩

/-- After every critical section of every interleaving every wheel is within its envelope, in any
arithmetic and whatever the counts, the clock and the gamepad do. -/
theorem drive_envelope {W : Type} (board : Board) (bus : Bus W) (world : W) (s : ControlState F)
    (hinit : initHardware board bus world = some s) (events : List RobotEvent) :
    Always ControlState.step (fun _ _ t => Wheels Envelope t) s events :=
  envelope_kept.always (initHardware_envelope hinit) events

theorem drive_envelope_move :
    Always ControlState.step (fun _ _ t => Wheels Envelope t) shippedRobot
      [.pad StickWatch.upFrame 0, .motor (fun _ => 0) (fun _ => 20)] :=
  drive_envelope _ _ _ _ initHardware_shipped _

end Law

/-! ## The commands -/

/-- The commands that an event gives the motor of a wheel. -/
def commandsOf {F : Type} [FloatArith F] (s : ControlState F) (w : WheelId) :
    RobotEvent → List Command
  | .motor count uptime => (tickWheel s count uptime w).2.1
  | .pad _ _ => []

/-- A wheel is due when its time gate is open in a motor step. -/
def Due {F : Type} [FloatArith F] (s : ControlState F) (w : WheelId) : RobotEvent → Prop
  | .motor _ uptime => gateOpen (s.accel w) (uptime w)
  | .pad _ _ => False

instance {F : Type} [FloatArith F] (s : ControlState F) (w : WheelId) : ∀ e, Decidable (Due s w e)
  | .motor _ uptime => inferInstanceAs (Decidable (gateOpen (s.accel w) (uptime w)))
  | .pad _ _ => inferInstanceAs (Decidable False)

/-- A due wheel is given one command: the truncation of its duty, which is within the limit; its motor
turns the way of the command, and its wires with it. A wheel that is not due is left alone. -/
structure CommandLaw (s : ControlState ℚ) (e : RobotEvent) (t : ControlState ℚ) (w : WheelId) :
    Prop where
  due : Due s w e → ∃ command, commandsOf s w e = [command] ∧
    |(t.accel w).dutyF| ≤ 500 ∧ command.duty.toInt = trunc (t.accel w).dutyF ∧
    (t.accel w).motor.state.toInt = command.duty.toInt.sign ∧
    t.lines w = (s.lines w).applyAll command.outputs
  idle : ¬ Due s w e → commandsOf s w e = [] ∧ (t.accel w).motor = (s.accel w).motor ∧
    t.lines w = s.lines w

section Commands
variable {s : ControlState ℚ} {w : WheelId}

/-- Neither setting the run mode nor a target reaches the motor, its wires or the duty. -/
theorem motorThreadStep_drive (count : WheelId → Int32) (uptime : WheelId → Int64) :
    ((motorThreadStep s count uptime).accel w).motor = (tickWheel s count uptime w).1.motor ∧
    ((motorThreadStep s count uptime).accel w).dutyF = (tickWheel s count uptime w).1.dutyF ∧
    (motorThreadStep s count uptime).lines w =
      (s.lines w).applyAll ((tickWheel s count uptime w).2.1.flatMap Command.outputs) := by
  rw [motorThreadStep_eq]
  split <;> exact ⟨rfl, rfl, rfl⟩

theorem dpadMove_drive (s : ControlState ℚ) (button : UInt16) (step : WheelId → Int32) :
    ((dpadMove button step s).accel w).motor = (s.accel w).motor ∧
      (dpadMove button step s).lines w = s.lines w := by
  unfold dpadMove
  split <;> exact ⟨rfl, rfl⟩

theorem ps2ThreadStep_drive (success : Bool) :
    ((ps2ThreadStep s success).accel w).motor = (s.accel w).motor ∧
      (ps2ThreadStep s success).lines w = s.lines w := by
  cases success with
  | false => exact ⟨rfl, rfl⟩
  | true =>
      have hsticks : ∀ s : ControlState ℚ, ((applySticks s).accel w).motor = (s.accel w).motor ∧
          (applySticks s).lines w = s.lines w := by
        intro s
        unfold applySticks
        split <;> exact ⟨rfl, rfl⟩
      have hleft := dpadMove_drive (w := w) s
      have hright := dpadMove_drive (w := w) (moveLeft s)
      have hup := dpadMove_drive (w := w) (moveRight (moveLeft s))
      have hdown := dpadMove_drive (w := w) (moveUp (moveRight (moveLeft s)))
      have hlast := hsticks (dpadMoves s)
      exact ⟨hlast.1.trans ((hdown _ _).1.trans ((hup _ _).1.trans ((hright _ _).1.trans
          (hleft _ _).1))),
        hlast.2.trans ((hdown _ _).2.trans ((hup _ _).2.trans ((hright _ _).2.trans
          (hleft _ _).2)))⟩

theorem commandLaw_of_due (hmode : (s.accel w).runMode ≠ .idleRun) (h : Wheels Envelope s)
    (count : WheelId → Int32) (uptime : WheelId → Int64) (hdue : gateOpen (s.accel w) (uptime w)) :
    ∃ command, (tickWheel s count uptime w).2.1 = [command] ∧
      |(tickWheel s count uptime w).1.dutyF| ≤ 500 ∧
      command.duty.toInt = trunc (tickWheel s count uptime w).1.dutyF ∧
      (tickWheel s count uptime w).1.motor.state.toInt = command.duty.toInt.sign := by
  -- the controller as the run mode switch finds it
  let a := sample { s.accel w with
    encoder := { (s.accel w).encoder with counter := count w }, currentPos := count w }
  have hgate : gateOpen { s.accel w with
      encoder := { (s.accel w).encoder with counter := count w } } (uptime w) := hdue
  have htick : tickWheel s count uptime w =
      ((regulate a).1, (regulate a).2, moving (regulate a).1) := tick_of_open hgate
  have hrun : a.runMode ≠ .idleRun := hmode
  have hmax : a.maxSpeed = 500 := (h w).settings.maxSpeed
  have hpos : (0 : UInt16) < 500 := by decide
  have hlimit : |(regulate a).1.dutyF| ≤ 500 := by
    rw [ZephyrAccelmotor.dutyF_regulate_eq hrun, hmax]
    exact abs_limitDuty_le hpos _
  have hduties := ZephyrAccelmotor.duties_regulate hrun
  have hcast : (Exact.toInt16 (regulate a).1.dutyF).toInt = trunc (regulate a).1.dutyF := by
    obtain ⟨hlow, hhigh⟩ := abs_le.mp hlimit
    have hfits := (ZephyrAccelmotor.fits_iff (regulate a).1.dutyF).mpr ⟨by linarith, by linarith⟩
    exact toInt_toInt16 hfits.1 (Int.lt_of_le_of_lt hfits.2 (by decide))
  obtain ⟨duty, hmotor, hcommands⟩ | ⟨hidle, -⟩ := regulate_motor a
  · rw [hcommands, List.map_singleton] at hduties
    obtain rfl : duty = Exact.toInt16 (regulate a).1.dutyF := List.singleton_inj.mp hduties
    rw [htick]
    refine ⟨_, hcommands, hlimit, hcast, ?_⟩
    have hreversed : a.motor.reversed = false := (h w).motor.reversed
    rw [hmotor, state_setSpeed, hreversed]
    exact one_mul _
  · exact absurd hidle hrun

theorem commandLaw_step (hagree : Agree s) (h : Wheels Envelope s) (e : RobotEvent) :
    ∀ w, CommandLaw s e (s.step e) w := by
  intro w
  cases e with
  | pad frame lastRead =>
      obtain ⟨hmotor, hlines⟩ :=
        ps2ThreadStep_drive (s := s.latch frame lastRead) (w := w) (frameOk frame)
      exact ⟨fun hdue => hdue.elim, fun _ => ⟨rfl, hmotor, hlines⟩⟩
  | motor count uptime =>
      obtain ⟨hmotor, hduty, hlines⟩ := motorThreadStep_drive (s := s) (w := w) count uptime
      constructor
      · intro hdue
        have hmode : (s.accel w).runMode ≠ .idleRun := by
          rw [hagree.modes w]
          split <;> decide
        obtain ⟨command, hcommand, hlimit, htrunc, hstate⟩ :=
          commandLaw_of_due hmode h count uptime hdue
        refine ⟨command, hcommand, ?_, ?_, ?_, ?_⟩
        · exact (congrArg abs hduty).trans_le hlimit
        · exact htrunc.trans (congrArg trunc hduty.symm)
        · exact (congrArg (fun m : ZephyrMotor => m.state.toInt) hmotor).trans hstate
        · refine hlines.trans ?_
          rw [hcommand, List.flatMap_singleton]
      · intro hdue
        have hclosed : ¬ gateOpen { s.accel w with
            encoder := { (s.accel w).encoder with counter := count w } } (uptime w) := hdue
        have htick : tickWheel s count uptime w = _ := tick_of_closed hclosed
        have hcommands : (tickWheel s count uptime w).2.1 = [] := congrArg (fun t => t.2.1) htick
        refine ⟨hcommands, hmotor.trans (congrArg (fun t => t.1.motor) htick), ?_⟩
        refine hlines.trans ?_
        rw [hcommands]
        rfl

end Commands

/-- Every control step of every wheel commands the truncation of a duty within the limit, so that no
narrowing reverses a wheel, and nothing else reaches the motors. -/
theorem command_law {W : Type} (board : Board) (bus : Bus W) (world : W) (s : ControlState ℚ)
    (hinit : initHardware board bus world = some s) (events : List RobotEvent) :
    Always ControlState.step (fun s e t => ∀ w, CommandLaw s e t w) s events := by
  obtain ⟨⟨hagree, -⟩, -⟩ := Watch.initHardware_inv board bus world s hinit
  refine Always.of_invariant (I := fun s => Agree s ∧ Wheels Envelope s)
    (fun s e h => commandLaw_step h.1 h.2 e) (fun s e h => ⟨?_, envelope_kept.step h.2 e⟩) events
    ⟨hagree, initHardware_envelope hinit⟩
  exact Watch.step_agree ⟨s, false⟩ e ⟨h.1, fun hlost => by cases hlost⟩

theorem command_law_move :
    Always ControlState.step (fun s e t => ∀ w, CommandLaw s e t w) shippedRobot
      [.pad StickWatch.upFrame 0, .motor (fun _ => 0) (fun _ => 20)] :=
  command_law _ _ _ _ initHardware_shipped _

end Mecanum.Robot
