import Mecanum.Robot.Envelope
import Mecanum.Wheel.Standstill

/-! # Standing still

A lost link puts every wheel in the speed loop at target 0, as centred sticks do. `StopWatch` counts
the control steps in a row that found a wheel so and standing; from the eleventh on its motor and its wires are
off, and they stay off as long as the wheel stands.
-/

namespace Mecanum.Robot
open Motor Mecanum.Wheel Gamepad FloatArith Exact Trace ZephyrAccelmotor
set_option autoImplicit false

/-- The mode machine, with the control steps in a row that found each wheel standing. -/
structure StopWatch where
  watch : Watch ℚ
  stands : WheelId → ℕ

namespace StopWatch

def start (robot : ControlState ℚ) : StopWatch := ⟨⟨robot, false⟩, fun _ => 0⟩

def step (s : StopWatch) (e : RobotEvent) : StopWatch where
  watch := s.watch.step e
  stands := match e with
    | .motor count uptime => fun w =>
        standsAfter (s.watch.robot.accel w) (s.stands w) (count w) (uptime w)
    | .pad _ _ => s.stands

/-- A wheel found standing eleven times in a row is not driven, and while the link is lost every control
step that finds it where the last one left it counts. -/
structure StopLaw (s : StopWatch) (e : RobotEvent) (t : StopWatch) : Prop where
  off : ∀ w, 11 ≤ t.stands w → (t.watch.robot.accel w).motor.state = 0 ∧
    (t.watch.robot.lines w).pulse = 0
  link : s.watch.lost = true → ∀ count uptime, e = .motor count uptime → ∀ w,
    gateOpen (s.watch.robot.accel w) (uptime w) → count w = (s.watch.robot.accel w).lastPos →
      t.stands w = s.stands w + 1

structure Inv (s : StopWatch) : Prop where
  watch : s.watch.Inv
  envelope : Wheels Envelope s.watch.robot
  standing : ∀ w, Standing (s.watch.robot.accel w) (s.stands w)

section Step
variable {s : StopWatch}

theorem standing_settings (stands : WheelId → ℕ) :
    KeptBySettings (F := ℚ) fun w accel _ => Standing accel (stands w) where
  setRunMode _ _ _ mode _ h := h.setRunMode mode
  setTargetPos _ _ _ pos h := h.setTargetPos pos
  setTargetSpeed _ _ _ speed _ h := h.setTargetSpeed speed

theorem step_standing (h : s.Inv) (e : RobotEvent) (w : WheelId) :
    Standing ((s.step e).watch.robot.accel w) ((s.step e).stands w) := by
  cases e with
  | motor count uptime =>
      have hticked : Wheels (fun w accel _ => Standing accel ((s.step (.motor count uptime)).stands w))
          (tickWheels s.watch.robot count uptime) := fun w =>
        ((h.standing w).withCounter
          { (s.watch.robot.accel w).encoder with counter := count w }).tick (count w) (uptime w)
      show Standing ((motorThreadStep s.watch.robot count uptime).accel w) _
      rw [motorThreadStep_eq]
      split
      · exact (standing_settings _).changeMode hticked false w
      · exact hticked w
  | pad frame lastRead =>
      exact (standing_settings s.stands).ps2ThreadStep (s := s.watch.robot.latch frame lastRead)
        h.standing (frameOk frame) w

theorem step_inv (h : s.Inv) (e : RobotEvent) : (s.step e).Inv :=
  ⟨Watch.step_inv s.watch e h.watch, envelope_kept.step h.envelope e, step_standing h e⟩

/-- While the link is lost the wheels are told to stop. -/
theorem foundStanding_of_lost (h : s.Inv) (hlost : s.watch.lost = true) {w : WheelId} {pos : Int32}
    (hpos : pos = (s.watch.robot.accel w).lastPos) :
    FoundStanding (s.watch.robot.accel w) pos := by
  obtain ⟨hmode, hspeed⟩ := h.watch.link hlost
  refine ⟨?_, hspeed w, hpos⟩
  rw [h.watch.agree.modes w, hmode]
  rfl

theorem step_stopLaw (h : s.Inv) (e : RobotEvent) : StopLaw s e (s.step e) := by
  have hnext := step_inv h e
  constructor
  · intro w hstands
    have hstate := (hnext.standing w).off hstands
    exact ⟨hstate, (hnext.envelope w).wires.off hstate⟩
  · rintro hlost count uptime rfl w hgate hpos
    have hfound := foundStanding_of_lost h hlost hpos
    show standsAfter (s.watch.robot.accel w) (s.stands w) (count w) (uptime w) = _
    unfold standsAfter
    rw [if_pos hgate, if_pos hfound]

end Step

theorem initHardware_standing {W : Type} {board : Board} {bus : Bus W} {world : W}
    {s : ControlState ℚ} (h : initHardware board bus world = some s) (w : WheelId) :
    Standing (s.accel w) 0 := by
  rw [initHardware_eq h]
  have hfilter := Filtered.inv_init (wheelMotor w minDuty (UInt16.ofNat maxSpeed))
    (zephyrEncoderInit true (board.encoderUptime w)).1 (board.accelUptime w)
  exact ⟨⟨[], hfilter.congr rfl rfl rfl, fun k hk => by omega⟩, fun hn => by omega,
    fun hn => by omega⟩

/-- Along every interleaving in exact arithmetic, a wheel that is told to stop and stands is off from
the eleventh control step on. -/
theorem standing_wheels_off {W : Type} (board : Board) (bus : Bus W) (world : W)
    (s : ControlState ℚ) (hinit : initHardware board bus world = some s)
    (events : List RobotEvent) : Always step StopLaw (start s) events := by
  obtain ⟨hwatch, -, -⟩ := Watch.initHardware_inv board bus world s hinit
  exact Always.of_invariant (I := Inv) (fun s e h => step_stopLaw h e) (fun s e h => step_inv h e)
    events ⟨hwatch, initHardware_envelope hinit, initHardware_standing hinit⟩

/-- The stick is pushed up, the wheels turn, and the link is lost. -/
theorem standing_wheels_off_lost :
    Always step StopLaw (start shippedRobot)
      ([.pad (paddedFrame [0xFF, 0x73, 0x5A, 0xFF, 0xFF, 0x80, 0x80, 0x80, 0x00]) 0,
          .motor (fun _ => -4) (fun _ => 20), .pad zeroed 0] ++
        (List.range 12).map fun k => .motor (fun _ => -4) (fun _ => 40 + 20 * Int64.ofNat k)) :=
  standing_wheels_off _ _ _ _ initHardware_shipped _

end StopWatch
end Mecanum.Robot
