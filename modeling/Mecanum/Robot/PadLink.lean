import Mecanum.Gamepad.Blocking
import Mecanum.Gamepad.Recovery
import Mecanum.Robot.Pilot

/-! # The robot on its pad link

What `init_hardware` leaves in the reader bounds the waits of every later read. Nothing the two threads do
changes it, so a lost pad stops the wheels within the time of one pass, and the reader never
busy-waits for longer than one frame without sleeping. `PadLoop` closes the loop over the wires: a pad
that left its mode between two passes is recovered by the next one, which drives on its answer.
-/

namespace Mecanum.Robot
open Motor Mecanum.Wheel Gamepad FloatArith Trace
set_option autoImplicit false

section Pass
variable {F : Type} [FloatArith F]

/-- A pass of the loop of `ps2_thread`: the read, its critical section and the sleep. -/
def padPass {W : Type} (bus : Bus W) (s : ControlState F) (w : W) : ControlState F × W :=
  (ps2ThreadIteration bus s w, bus.sleep 50 (ps2ReadGamepad bus s.ps2 false 0 w).2.2)

theorem padPass_recording {W : Type} (bus : Bus W) (s : ControlState F) (w : W) :
    padPass (recording bus) s (w, []) =
      ((padPass bus s w).1, (padPass bus s w).2,
        actionsOf (readSegments bus s.ps2 false 0 w ++ [.sleep 50])) := by
  simp only [padPass, ps2ThreadIteration, ps2ReadGamepad_recording, logged, recording_sleep]
  simp [actionsOf, Segment.actions]

end Pass

/-! ## The reader after `init_hardware` -/

/-- A reader that polls without rumble and pressures, with a delay of at most 11 ms. -/
structure Configured (ps2 : Ps2) : Prop where
  readDelay : ps2.readDelay.toNat ≤ 11
  rumble : ps2.enRumble = false
  pressures : ps2.enPressures = false

theorem Configured.latch {ps2 : Ps2} (h : Configured ps2) (frame : Vector UInt8 21)
    (lastRead : UInt64) : Configured (ps2.latch frame lastRead) :=
  ⟨h.readDelay, h.rumble, h.pressures⟩

theorem Configured.reconfigMicros_eq {ps2 : Ps2} (h : Configured ps2) :
    reconfigMicros ps2 = 2308 + 3000 * ps2.readDelay.toNat := by
  unfold reconfigMicros
  rw [h.rumble, h.pressures]
  rfl

section Init
variable {W : Type} (bus : Bus W)

theorem ps2ReadGamepad_latch (ps2 : Ps2) (w : W) : ∃ frame lastRead,
    (ps2ReadGamepad bus ps2 false 0 w).1 = ps2.latch frame lastRead := by
  obtain ⟨lastRead, hlatch, -⟩ := ps2ReadGamepad_eq_latch bus ps2 false 0 w
  exact ⟨_, lastRead, hlatch⟩

/-- Each failed pass makes the reader wait 1 ms longer. -/
theorem configure_configured {passes : ℕ} {ps2 : Ps2} {w : W} (hdelay : ps2.readDelay.toNat + passes ≤ 12)
    (hrumble : ps2.enRumble = false) (hpressures : ps2.enPressures = false)
    (hdone : (configure bus false false passes ps2 w).2.1 = true) :
    Configured (configure bus false false passes ps2 w).1 := by
  induction passes generalizing ps2 w with
  | zero => cases hdone
  | succ passes ih =>
      obtain ⟨frame, lastRead, hread⟩ := ps2ReadGamepad_latch bus (typed bus false false ps2 w)
        (configRound bus false false ps2.readDelay w)
      have htyped : (typed bus false false ps2 w).enRumble = false ∧
          (typed bus false false ps2 w).enPressures = false := by
        unfold typed
        simp [hrumble, hpressures]
      have hplain : ∀ p : Prop, ¬ (false = true ∧ p) := fun _ h => by cases h.1
      rw [configure_succ_typed] at hdone ⊢
      simp only [if_neg (hplain _)] at hdone ⊢
      split at hdone
      · next hmode =>
          rw [if_pos hmode, hread]
          have hle : ps2.readDelay.toNat ≤ 11 := by omega
          exact ⟨hle, htyped.1, htyped.2⟩
      · next hmode =>
          rw [if_neg hmode]
          rw [hread] at hdone ⊢
          refine ih ?_ htyped.1 htyped.2 hdone
          show (ps2.readDelay + 1).toNat + passes ≤ 12
          rw [UInt8.toNat_add]
          simp
          omega

theorem ps2Init_configured {data : Vector UInt8 21} {w : W}
    (hdone : (ps2Init bus data false false w).2.1 = true) :
    Configured (ps2Init bus data false false w).1 := by
  unfold ps2Init at hdone ⊢
  split at hdone
  · next hready =>
      rw [if_pos hready]
      dsimp only at hdone ⊢
      split at hdone
      · cases hdone
      · next hmode =>
          rw [if_neg hmode]
          obtain ⟨frame, lastRead, hfirst⟩ := ps2ReadGamepad_latch bus _ _
          obtain ⟨frame', lastRead', hsecond⟩ := ps2ReadGamepad_latch bus _ _
          refine configure_configured bus le_rfl ?_ ?_ hdone
          · rw [hsecond, hfirst]
            rfl
          · rw [hsecond, hfirst]
            rfl
  · cases hdone

end Init

/-! ## Runs -/

section Runs
variable {F : Type} [FloatArith F]

theorem step_configured {s : ControlState F} (h : Configured s.ps2) (e : RobotEvent) :
    Configured (s.step e).ps2 := by
  cases e with
  | motor count uptime =>
      have hps2 : (motorThreadStep s count uptime).ps2 = s.ps2 := by
        unfold motorThreadStep
        dsimp only
        split <;> rfl
      simp only [ControlState.step, hps2]
      exact h
  | pad frame lastRead =>
      have hps2 : (s.step (.pad frame lastRead)).ps2 = s.ps2.latch frame lastRead := by
        simp only [ControlState.step, ps2ThreadStep]
        split
        · exact (applySticks_keeps (dpadMoves (s.latch frame lastRead)) .fl).2.trans
            (dpadMoves_targetSpeed (s.latch frame lastRead) .fl).2
        · rfl
      rw [hps2]
      exact h.latch frame lastRead

theorem initHardware_configured {W : Type} {board : Board} {bus : Bus W} {world : W}
    {s : ControlState F} (hinit : initHardware board bus world = some s) : Configured s.ps2 := by
  unfold initHardware at hinit
  split at hinit
  · dsimp only at hinit
    split at hinit
    · split at hinit
      · next hdone =>
          obtain rfl := Option.some.inj hinit
          exact ps2Init_configured _ hdone
      · cases hinit
    · cases hinit
  · cases hinit

/-- From `init_hardware` on, after any critical sections of the two threads and whatever the pad then
answers, a pass of `ps2_thread` waits 322 ms at most, of which never more than 2.1 ms without sleep
in between. -/
theorem pad_pass_bounded {W V : Type} (board : Board) (bus : Bus W) (world : W) (robot : ControlState F)
    (hinit : initHardware board bus world = some robot) (events : List RobotEvent) (bus' : Bus V)
    (v : V) :
    let s := run ControlState.step robot events
    let recorded := padPass (recording bus') s (v, [])
    (recorded.1, recorded.2.1) = padPass bus' s v ∧ elapsed recorded.2.2 ≤ 321348 ∧
      Always busyStep (fun _ _ busy => busy ≤ 2076) 0 recorded.2.2 ∧
      run busyStep 0 recorded.2.2 = 0 := by
  intro s recorded
  have hconfigured : Configured s.ps2 := run_invariant
    (I := fun s : ControlState F => Configured s.ps2) (fun s e h => step_configured h e) events
    (initHardware_configured hinit)
  have hrecorded : recorded = _ := padPass_recording bus' s v
  have hstays : Stays 0 (readSegments bus' s.ps2 false 0 v ++ [.sleep 50]) 0 :=
    (read_stays bus' s.ps2 false 0 v).append (Stays.sleep 50)
  have hread := elapsed_read_le bus' s.ps2 false 0 v
  have hdelay := hconfigured.readDelay
  obtain ⟨halways, hend⟩ := hstays 0 le_rfl
  rw [hrecorded]
  refine ⟨rfl, ?_, halways, Nat.le_zero.mp hend⟩
  rw [hconfigured.reconfigMicros_eq] at hread
  simp only [actionsOf_append, elapsed_append, elapsed_cons, elapsed_sleep, elapsed_nil]
  omega

end Runs

/-- The shipped robot after one lost frame, with a pad that answers nothing. -/
theorem pad_pass_bounded_lost :
    let lost := run ControlState.step shippedRobot [.pad (paddedFrame []) 0]
    elapsed (padPass (recording replay) lost (([], 0), [])).2.2 ≤ 321348 :=
  (pad_pass_bounded readyBoard replay (restFrame 0xFF, 0) shippedRobot initHardware_shipped
    [.pad (paddedFrame []) 0] replay ([], 0)).2.1

/-! ## The loop over the wires -/

/-- The robot and the pad on its wires. -/
structure PadLoop (F : Type) where
  robot : ControlState F
  device : Device

/-- A critical section of `motor_control_thread`, a change of the pad's mode by its user or a reset, or a
pass of `ps2_thread`. -/
inductive LoopEvent
  | motor (count : WheelId → Int32) (uptime : WheelId → Int64)
  | disturb (config : Bool)
  | pass

namespace PadLoop
variable {F : Type} [FloatArith F] (world : World)

def step (s : PadLoop F) : LoopEvent → PadLoop F
  | .motor count uptime => { s with robot := motorThreadStep s.robot count uptime }
  | .disturb config =>
      { s with device :=
          { s.device with controller := { s.device.controller with config := config } } }
  | .pass =>
      { robot := ps2ThreadIteration (Device.bus world) s.robot s.device
        device := (ps2ReadGamepad (Device.bus world) s.robot.ps2 false 0 s.device).2.2 }

theorem step_pass_device (s : PadLoop F) : (s.step world .pass).device =
    (ps2ReadGamepad (Device.bus world) s.robot.ps2 false 0 s.device).2.2 := rfl

/-- A pass drives on the pad's last answer, and comes by it in two polls at most. -/
structure Drives (s t : PadLoop F) (new : List Exchange) (frame : Vector UInt8 21) : Prop where
  good : frameOk frame = true
  polls : polls new ≤ 2
  outside : t.device.controller.config = false
  data : ∀ j (hj : j < 21), j < 9 →
    frame[j] = world.respond (s.device.controller.log.length + new.length - 1) j

/-- If the pad obeys in a pass, the pass drives on its answer. -/
def PassLaw (s : PadLoop F) (e : LoopEvent) (t : PadLoop F) : Prop :=
  e = .pass → ∃ new frame lastRead, t.device.controller.log = s.device.controller.log ++ new ∧
    t.robot = s.robot.step (.pad frame lastRead) ∧
    (Obeys world s.device.controller.log.length new → Drives world s t new frame)

theorem pass_law (s : PadLoop F) (h : s.device.Idle) :
    (s.step world .pass).device.Idle ∧ PassLaw world s .pass (s.step world .pass) := by
  obtain ⟨new, hreceives, hrecovers⟩ := Device.receive_recovers world h s.robot.ps2 false 0
  obtain ⟨lastRead, hlatch, hok⟩ := ps2ReadGamepad_eq_latch (Device.bus world) s.robot.ps2 false 0
    s.device
  have hstep : (s.step world .pass).robot =
      s.robot.step (.pad (receive (Device.bus world) s.robot.ps2 false 0 s.device).1 lastRead) := by
    simp only [step, ps2ThreadIteration, ControlState.step, ControlState.latch, hlatch, hok]
  have hdevice : (s.step world .pass).device =
      (receive (Device.bus world) s.robot.ps2 false 0 s.device).2.2.clocked := rfl
  have hgood := attempts_success (Device.bus world) s.robot.ps2 (readCommand false 0) 4
    s.robot.ps2.data (settle (Device.bus world) s.robot.ps2 s.device)
  refine ⟨hreceives.idle, fun _ => ⟨new, _, lastRead, ?_, hstep, fun hobeys => ?_⟩⟩
  · rw [hdevice]
    exact hreceives.log
  · obtain ⟨hsuccess, hpolls, houtside, hdata⟩ := hrecovers hobeys
    rw [hreceives.log, List.length_append] at hdata
    refine ⟨?_, hpolls, ?_, hdata⟩
    · rw [← hsuccess]
      exact hgood.symm
    · rw [hdevice]
      exact houtside

/-- Over any interleaving of the two threads, and however the pad's mode changes between two passes, a pass
in which the pad obeys drives on its answer: the robot does not stop. -/
theorem fallen_pad_recovers (robot : ControlState F) (device : Device) (h : device.Idle)
    (events : List LoopEvent) :
    Always (step world) (PassLaw world) ⟨robot, device⟩ events := by
  refine Always.of_invariant (I := fun s : PadLoop F => s.device.Idle) ?_ ?_ events h
  · intro s e hidle
    cases e with
    | motor count uptime => exact fun hpass => by cases hpass
    | disturb config => exact fun hpass => by cases hpass
    | pass => exact (pass_law world s hidle).2
  · intro s e hidle
    cases e with
    | motor count uptime => exact hidle
    | disturb config => exact hidle
    | pass => exact (pass_law world s hidle).1

end PadLoop

/-- A pad in digital mode until it is configured. -/
def digitalPad : World where
  respond frame byte := if byte = 1 then (if frame = 0 then 0x41 else if frame < 4 then 0xF3 else 0x73) else 0
  times _ := 0

def recoveryFrames : List Exchange :=
  [⟨readCommand false 0, false⟩, ⟨enterConfig, false⟩, ⟨setMode, true⟩, ⟨exitConfig, true⟩,
    ⟨readCommand false 0, false⟩]

theorem digitalPad_log : (ps2ReadGamepad (Device.bus digitalPad) (unread zeroed) false 0
    (Device.powered true true true true)).2.2.controller.log = recoveryFrames := by
  decide +kernel

/-- The first poll finds the pad in digital mode, the second one drives. -/
theorem fallen_pad_recovers_digital :
    let s : PadLoop ℚ := ⟨{ shippedRobot with ps2 := unread zeroed }, Device.powered true true true true⟩
    ∃ new frame, PadLoop.Drives digitalPad s (s.step digitalPad .pass) new frame := by
  intro s
  have hlaw := PadLoop.fallen_pad_recovers digitalPad s.robot s.device ⟨rfl, rfl⟩ [.pass]
  obtain ⟨new, frame, lastRead, hlog, -, hdrives⟩ := hlaw.1 rfl
  refine ⟨new, frame, hdrives ?_⟩
  have hps2 : s.robot.ps2 = unread zeroed := rfl
  have hdevice : s.device = Device.powered true true true true := rfl
  have hempty : s.device.controller.log = [] := rfl
  rw [PadLoop.step_pass_device, hps2, hempty, hdevice, digitalPad_log, List.nil_append] at hlog
  rw [hempty, ← hlog]
  constructor
  · decide
  · decide

end Mecanum.Robot
