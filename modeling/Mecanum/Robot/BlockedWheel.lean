import Mecanum.Robot.Envelope
import Mecanum.Wheel.Blocked

/-! # A blocked wheel of the robot

`main.c` never asks `zephyr_accelmotor_is_blocked`. A wheel that is told to turn and cannot is pushed with a
duty that grows in every control step, and from 70 on its wires are high for the whole period, for as
long as it stays blocked.
-/

namespace Mecanum.Robot
open Motor Mecanum.Wheel Gamepad FloatArith Exact Trace ZephyrAccelmotor
set_option autoImplicit false

/-- The wires carry the pulse of the truncated duty, in its direction. -/
structure DutyOnWires (accel : ZephyrAccelmotor ℚ) (lines : Lines) : Prop where
  state : accel.motor.state.toInt = (Exact.toInt16 accel.dutyF).toInt.sign
  drive : lines.drive = some (accel.motor.state.toInt *
    (pulseUs accel.motor (Exact.toInt16 accel.dutyF) * 1000 : ℕ))

theorem pulseUs_setSpeed (motor : ZephyrMotor) (duty d : Int16) :
    pulseUs (zephyrMotorSetSpeed motor duty).1 d = pulseUs motor d := by
  rw [zephyrMotorSetSpeed_eq_run, zephyrMotorRun_fst]
  rfl

theorem dutyOnWires_regulate {w : WheelId} {a : ZephyrAccelmotor ℚ} {lines : Lines}
    (hmotor : MotorSettings w a.motor) (h : DutyOnWires a lines) :
    DutyOnWires (regulate a).1 (lines.applyAll ((regulate a).2.flatMap Command.outputs)) := by
  have hrange : a.motor.minDuty ≤ a.motor.maxDuty := by
    rw [hmotor.minDuty, hmotor.maxDuty]
    decide
  obtain ⟨duty, hnext, hcommands⟩ | ⟨-, hidle⟩ := regulate_motor a
  · have hmode : a.runMode ≠ .idleRun := by
      intro hidle
      rw [regulate_idleRun hidle] at hcommands
      cases hcommands
    have hduties := ZephyrAccelmotor.duties_regulate hmode
    rw [hcommands, List.map_singleton] at hduties
    obtain rfl : duty = Exact.toInt16 (regulate a).1.dutyF := List.singleton_inj.mp hduties
    rw [hcommands, List.flatMap_singleton]
    constructor
    · rw [hnext, state_setSpeed, hmotor.reversed]
      exact one_mul _
    · rw [hnext, pulseUs_setSpeed, ← pulse_speedLines a.motor _ hrange lines]
      exact drive_speedLines a.motor _ lines
  · rw [hidle]
    exact h

theorem DutyOnWires.tick {w : WheelId} {accel : ZephyrAccelmotor ℚ} {lines : Lines}
    (hmotor : MotorSettings w accel.motor) (h : DutyOnWires accel lines) (pos : Int32)
    (uptime : Int64) :
    DutyOnWires (zephyrAccelmotorTick accel pos uptime).1
      (lines.applyAll ((zephyrAccelmotorTick accel pos uptime).2.1.flatMap Command.outputs)) := by
  by_cases hgate : gateOpen accel uptime
  · rw [tick_of_open hgate]
    exact dutyOnWires_regulate (a := sample { accel with currentPos := pos }) hmotor ⟨h.state, h.drive⟩
  · rw [tick_of_closed hgate]
    exact ⟨h.state, h.drive⟩

/-- The robot, with the control steps in a row that found each wheel pushed and standing. -/
structure BlockWatch where
  robot : ControlState ℚ
  stuck : WheelId → Stuck

namespace BlockWatch

def start (robot : ControlState ℚ) : BlockWatch := ⟨robot, fun _ => Stuck.none⟩

def step (s : BlockWatch) (e : RobotEvent) : BlockWatch where
  robot := s.robot.step e
  stuck := match e with
    | .motor count uptime => fun w =>
        (withCount (s.robot.accel w) (count w)).stuckAfter (s.stuck w) (count w) (uptime w)
    | .pad _ _ => s.stuck

/-- The duty that the shipped gains have built up against a blocked wheel. -/
def push (g : Stuck) : ℚ := g.push 2.2 0.008

/-- From the eleventh control step in a row on the duty is at least what has been built up, and the wheel
blocked; from 1 on the motor is driven in the direction of the demand, and from 70 on for the whole
period. -/
structure BlockLaw (g : Stuck) (accel : ZephyrAccelmotor ℚ) (lines : Lines) : Prop where
  duty : 11 ≤ g.steps → min 500 (push g) ≤ g.demand.toInt.sign * accel.dutyF
  blocked : 11 ≤ g.steps → 0 < push g → zephyrAccelmotorIsBlocked accel = true
  driven : 11 ≤ g.steps → 1 ≤ push g → accel.motor.state.toInt = g.demand.toInt.sign
  full : 11 ≤ g.steps → 70 ≤ push g → lines.drive = some (g.demand.toInt.sign * 1000000)

structure Inv (s : BlockWatch) : Prop where
  envelope : Wheels Envelope s.robot
  pushed : ∀ w, PushedBy (s.robot.accel w) (s.stuck w)
  wires : ∀ w, DutyOnWires (s.robot.accel w) (s.robot.lines w)

section Law
variable {w : WheelId} {g : Stuck} {accel : ZephyrAccelmotor ℚ} {lines : Lines}

theorem rate_eq (h : AccelSettings accel) : accel.ki * accel.dtSec = 0.008 := by
  have h20 : ((20 : UInt32).toNat : ℤ) = 20 := rfl
  rw [h.ki, h.dtSec, h20]
  simp only [lit_eq, ofInt_eq]
  norm_num

/-- A duty of at least `k` in the direction of `d` is commanded as at least `k` in that direction. -/
theorem command_of_le {duty : ℚ} {k d : ℤ} (hk : 1 ≤ k) (hrange : |duty| ≤ 500)
    (h : (k : ℚ) ≤ d.sign * duty) :
    (Exact.toInt16 duty).toInt.sign = d.sign ∧ k ≤ (Exact.toInt16 duty).toInt.natAbs := by
  have hcast : (Exact.toInt16 duty).toInt = trunc duty := by
    obtain ⟨hlow, hhigh⟩ := abs_le.mp hrange
    have hfits := (ZephyrAccelmotor.fits_iff duty).mpr ⟨by linarith, by linarith⟩
    exact toInt_toInt16 hfits.1 (Int.lt_of_le_of_lt hfits.2 (by decide))
  rw [hcast]
  rcases lt_trichotomy d 0 with hneg | hzero | hpos
  · rw [Int.sign_eq_neg_one_of_neg hneg, Int.cast_neg, Int.cast_one, neg_one_mul] at h
    have hle := le_trunc (by omega) h
    rw [trunc_neg] at hle
    rw [Int.sign_eq_neg_one_of_neg hneg, Int.sign_eq_neg_one_of_neg (by omega)]
    exact ⟨rfl, by omega⟩
  · have hk' : (1 : ℚ) ≤ k := by exact_mod_cast hk
    rw [hzero, Int.sign_zero, Int.cast_zero, zero_mul] at h
    exact absurd (hk'.trans h) (by norm_num)
  · rw [Int.sign_eq_one_of_pos hpos, Int.cast_one, one_mul] at h
    have hle := le_trunc (by omega) h
    rw [Int.sign_eq_one_of_pos hpos, Int.sign_eq_one_of_pos (by omega)]
    exact ⟨rfl, by omega⟩

theorem blockLaw (henvelope : Envelope w accel lines) (hpushed : PushedBy accel g)
    (hwires : DutyOnWires accel lines) : BlockLaw g accel lines := by
  have hrate := rate_eq henvelope.settings
  have hnonneg : 0 ≤ accel.ki * accel.dtSec := by
    rw [hrate]
    norm_num
  have hmax : 0 < accel.maxSpeed := by
    rw [henvelope.settings.maxSpeed]
    decide
  have hkp : accel.kp = 2.2 := henvelope.settings.kp
  have hlimit : (accel.maxSpeed.toNat : ℚ) = 500 := by
    rw [henvelope.settings.maxSpeed]
    rfl
  have hduty : 11 ≤ g.steps → min 500 (push g) ≤ g.demand.toInt.sign * accel.dutyF := by
    intro h11
    have hle := hpushed.le_dutyF hnonneg hmax h11
    rw [hlimit, hkp, hrate] at hle
    exact hle
  have hrange : 11 ≤ g.steps → |accel.dutyF| ≤ 500 := by
    intro h11
    rw [hpushed.dutyF h11, ← hlimit]
    exact abs_limitDuty_le hmax _
  have hcommand : ∀ k : ℤ, 1 ≤ k → k ≤ 500 → 11 ≤ g.steps → (k : ℚ) ≤ push g →
      (Exact.toInt16 accel.dutyF).toInt.sign = g.demand.toInt.sign ∧
        k ≤ (Exact.toInt16 accel.dutyF).toInt.natAbs := by
    intro k hk hk500 h11 hpush
    have hcast : (k : ℚ) ≤ 500 := by exact_mod_cast hk500
    exact command_of_le hk (hrange h11) ((le_min hcast hpush).trans (hduty h11))
  refine ⟨hduty, fun h11 hpush => ?_, fun h11 hpush => ?_, fun h11 hpush => ?_⟩
  · refine hpushed.isBlocked hnonneg hmax h11 ?_
    rw [hkp, hrate]
    exact hpush
  · rw [hwires.state]
    exact (hcommand 1 le_rfl (by decide) h11 (by exact_mod_cast hpush)).1
  · obtain ⟨hsign, hlarge⟩ := hcommand 70 (by decide) (by decide) h11 (by exact_mod_cast hpush)
    have hmaxDuty : accel.motor.maxDuty.toNat = 70 := by
      rw [henvelope.motor.maxDuty]
      rfl
    have hfull : pulseUs accel.motor (Exact.toInt16 accel.dutyF) = 1000 := by
      refine pulseUs_full _ ?_ ?_ ?_
      · rw [henvelope.motor.maxDuty]
        decide
      · rw [henvelope.motor.minDuty, henvelope.motor.maxDuty]
        decide
      · omega
    rw [hwires.drive, hwires.state, hsign, hfull]
    rfl

end Law

section Step
variable {s : BlockWatch}

theorem pushed_settings (stuck : WheelId → Stuck) :
    KeptBySettings (F := ℚ) fun w accel _ => PushedBy accel (stuck w) where
  setRunMode _ _ _ mode _ h := h.setRunMode mode
  setTargetPos _ _ _ pos h := h.setTargetPos pos
  setTargetSpeed _ _ _ speed _ h := h.setTargetSpeed speed

theorem wires_settings : KeptBySettings (F := ℚ) fun _ accel lines => DutyOnWires accel lines where
  setRunMode _ _ _ mode _ h := by cases mode <;> exact ⟨h.state, h.drive⟩
  setTargetPos _ _ _ _ h := ⟨h.state, h.drive⟩
  setTargetSpeed _ _ _ _ _ h := ⟨h.state, h.drive⟩

theorem step_pushed (h : s.Inv) (e : RobotEvent) (w : WheelId) :
    PushedBy ((s.step e).robot.accel w) ((s.step e).stuck w) := by
  cases e with
  | motor count uptime =>
      have hticked : Wheels (fun w accel _ => PushedBy accel ((s.step (.motor count uptime)).stuck w))
          (tickWheels s.robot count uptime) := by
        intro w
        have hrate : 0 ≤ (withCount (s.robot.accel w) (count w)).ki *
            (withCount (s.robot.accel w) (count w)).dtSec := by
          show 0 ≤ (s.robot.accel w).ki * (s.robot.accel w).dtSec
          rw [rate_eq (h.envelope w).settings]
          norm_num
        exact ((h.pushed w).withCounter _).tick hrate (count w) (uptime w)
      show PushedBy ((motorThreadStep s.robot count uptime).accel w) _
      rw [motorThreadStep_eq]
      split
      · exact (pushed_settings _).changeMode hticked false w
      · exact hticked w
  | pad frame lastRead =>
      exact (pushed_settings s.stuck).ps2ThreadStep (s := s.robot.latch frame lastRead)
        h.pushed (frameOk frame) w

theorem step_wires (h : s.Inv) (e : RobotEvent) :
    Wheels (fun _ accel lines => DutyOnWires accel lines) (s.step e).robot := by
  cases e with
  | motor count uptime =>
      have hticked : Wheels (fun _ accel lines => DutyOnWires accel lines)
          (tickWheels s.robot count uptime) := by
        intro w
        have hcounted : DutyOnWires (withCount (s.robot.accel w) (count w)) (s.robot.lines w) :=
          ⟨(h.wires w).state, (h.wires w).drive⟩
        have hmotor : MotorSettings w (withCount (s.robot.accel w) (count w)).motor :=
          (h.envelope w).motor
        exact hcounted.tick hmotor (count w) (uptime w)
      show Wheels _ (motorThreadStep s.robot count uptime)
      rw [motorThreadStep_eq]
      split
      · exact wires_settings.changeMode hticked false
      · exact hticked
  | pad frame lastRead =>
      exact wires_settings.ps2ThreadStep (s := s.robot.latch frame lastRead) h.wires (frameOk frame)

theorem step_inv (h : s.Inv) (e : RobotEvent) : (s.step e).Inv :=
  ⟨envelope_kept.step h.envelope e, step_pushed h e, step_wires h e⟩

end Step

theorem initHardware_pushed {W : Type} {board : Board} {bus : Bus W} {world : W}
    {s : ControlState ℚ} (h : initHardware board bus world = some s) (w : WheelId) :
    PushedBy (s.accel w) Stuck.none ∧ DutyOnWires (s.accel w) (s.lines w) := by
  rw [initHardware_eq h]
  have hfilter := Filtered.inv_init (wheelMotor w minDuty (UInt16.ofNat maxSpeed))
    (zephyrEncoderInit true (board.encoderUptime w)).1 (board.accelUptime w)
  have hzero : Exact.toInt16 (0 : ℚ) = 0 := by decide +kernel
  refine ⟨PushedBy.none (hfilter.congr rfl rfl rfl), ⟨?_, ?_⟩⟩
  · show (0 : Int8).toInt = (Exact.toInt16 (0 : ℚ)).toInt.sign
    rw [hzero]
    rfl
  · show Lines.reset.drive = some ((0 : Int8).toInt * _)
    rw [Int8.toInt_zero, zero_mul]
    rfl

end BlockWatch
end Mecanum.Robot
