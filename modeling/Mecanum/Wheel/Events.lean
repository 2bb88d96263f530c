import Mecanum.Motor.Bridge
import Mecanum.Wheel.Accelmotor

/-! # The runs of one wheel

A wheel sees encoder edges, which may interrupt anything, and the calls of the control threads,
which the mutex keeps apart. A call of `zephyr_accelmotor_tick` is two events: `tickStart` up to and
including the copied direction, `tickFinish` for the rest. Only edges come between them; the
rest of the tick neither reads nor writes the encoder. A thread event that is out of place changes
nothing.
-/

namespace Mecanum.Wheel
open Motor FloatArith
set_option autoImplicit false

inductive WheelEvent
  /-- A rising edge, served by `encoder_isr`. -/
  | edge
  | getCount
  /-- `zephyr_accelmotor_tick` with the count read last, up to the copied direction. -/
  | tickStart (uptime : Int64)
  | tickFinish
  | setRunMode (mode : AccelRunMode)
  | setTargetPos (pos : Int32)
  | setTargetSpeed (speed : Int16)
  deriving DecidableEq

inductive Phase
  | outside
  /-- Inside a tick whose gate is open or closed. -/
  | inside (gate : Bool)
  deriving DecidableEq

/-- A wheel with the thread's copy of its count and the wires of its motor. -/
structure WheelRun (F : Type) where
  accel : ZephyrAccelmotor F
  count : Int32
  phase : Phase
  lines : Lines

/-- What an event lets the caller see: the commands to the motor and the tick's return value. -/
structure Seen where
  commands : List Command
  returned : Option Bool

variable {F : Type} [FloatArith F]

def startTick (accel : ZephyrAccelmotor F) (pos : Int32) (uptime : Int64) :
    ZephyrAccelmotor F × Bool :=
  let accel := { accel with currentPos := pos }
  (if gateOpen accel uptime then sample accel else accel, decide (gateOpen accel uptime))

def finishTick (accel : ZephyrAccelmotor F) (gate : Bool) : ZephyrAccelmotor F × List Command :=
  if gate then regulate accel else (accel, [])

/-- The two halves are `zephyr_accelmotor_tick`. -/
theorem startTick_finishTick (accel : ZephyrAccelmotor F) (pos : Int32) (uptime : Int64) :
    let started := startTick accel pos uptime
    let finished := finishTick started.1 started.2
    zephyrAccelmotorTick accel pos uptime = (finished.1, finished.2, moving finished.1) := by
  unfold zephyrAccelmotorTick controlStep startTick finishTick
  by_cases h : gateOpen { accel with currentPos := pos } uptime <;> simp [h]

namespace WheelRun

def react (s : WheelRun F) (e : WheelEvent) : WheelRun F × Seen :=
  match e, s.phase with
  | .edge, _ => ({ s with accel := { s.accel with encoder := encoderIsr s.accel.encoder } }, ⟨[], none⟩)
  | .getCount, .outside => ({ s with count := zephyrEncoderGetCount s.accel.encoder }, ⟨[], none⟩)
  | .tickStart uptime, .outside =>
      let started := startTick s.accel s.count uptime
      ({ s with accel := started.1, phase := .inside started.2 }, ⟨[], none⟩)
  | .tickFinish, .inside gate =>
      let finished := finishTick s.accel gate
      ({ s with
          accel := finished.1
          phase := .outside
          lines := s.lines.applyAll (finished.2.flatMap Command.outputs) },
        ⟨finished.2, some (moving finished.1)⟩)
  | .setRunMode mode, .outside =>
      ({ s with accel := zephyrAccelmotorSetRunMode s.accel mode }, ⟨[], none⟩)
  | .setTargetPos pos, .outside =>
      ({ s with accel := zephyrAccelmotorSetTargetPos s.accel pos }, ⟨[], none⟩)
  | .setTargetSpeed speed, .outside =>
      ({ s with accel := zephyrAccelmotorSetTargetSpeed s.accel speed }, ⟨[], none⟩)
  | _, _ => (s, ⟨[], none⟩)

def step (s : WheelRun F) (e : WheelEvent) : WheelRun F := (s.react e).1

/-- A wheel whose motor and encoder are as their init functions leave them; the controller's other
fields and the motor's duty range and dead time are those of `accel`. -/
def start (accel : ZephyrAccelmotor F) (reverse : Bool) (uptime : Int64) : WheelRun F where
  accel := { accel with
    motor := { accel.motor with reversed := reverse, lastMode := .stop, state := 0 }
    encoder := (zephyrEncoderInit true uptime).1 }
  count := 0
  phase := .outside
  lines := Lines.reset

/-- What an event does to the motor, the encoder and the phase: an edge is served, a control step
starts and copies the direction, a control step finishes and sets the motor, or neither the motor
nor the encoder moves and no control step starts. -/
theorem step_cases (s : WheelRun F) (e : WheelEvent) :
    (e = .edge ∧ s.step e = { s with accel := { s.accel with encoder := encoderIsr s.accel.encoder } }) ∨
    (e ≠ .edge ∧ s.phase = .outside ∧ (s.step e).phase = .inside true ∧
      (s.step e).accel.motor = s.accel.motor ∧
      (s.step e).accel.encoder = (copyDirection s.accel).encoder) ∨
    (e ≠ .edge ∧ s.phase = .inside true ∧ (s.step e).phase = .outside ∧
      (s.step e).accel.motor = (regulate s.accel).1.motor ∧
      (s.step e).accel.encoder = s.accel.encoder) ∨
    (e ≠ .edge ∧ ((s.step e).phase = .inside true → s.phase = .inside true) ∧
      (s.step e).accel.motor = s.accel.motor ∧ (s.step e).accel.encoder = s.accel.encoder) := by
  obtain ⟨accel, count, phase, lines⟩ := s
  cases e with
  | edge => exact .inl ⟨rfl, rfl⟩
  | getCount =>
      refine .inr (.inr (.inr ⟨by simp, ?_⟩))
      cases phase <;> exact ⟨id, rfl, rfl⟩
  | tickStart uptime =>
      cases phase with
      | outside =>
          by_cases hgate : gateOpen { accel with currentPos := count } uptime
          · refine .inr (.inl ⟨by simp, rfl, ?_⟩)
            have hstart : step ⟨accel, count, .outside, lines⟩ (.tickStart uptime) =
                ⟨sample { accel with currentPos := count }, count, .inside true, lines⟩ := by
              simp [step, react, startTick, hgate]
            rw [hstart]
            exact ⟨rfl, rfl, rfl⟩
          · refine .inr (.inr (.inr ⟨by simp, ?_⟩))
            simp [step, react, startTick, hgate]
      | inside gate => exact .inr (.inr (.inr ⟨by simp, id, rfl, rfl⟩))
  | tickFinish =>
      cases phase with
      | outside => exact .inr (.inr (.inr ⟨by simp, id, rfl, rfl⟩))
      | inside gate =>
          cases gate
          · exact .inr (.inr (.inr ⟨by simp, by simp [step, react], rfl, rfl⟩))
          · exact .inr (.inr (.inl ⟨by simp, rfl, rfl, rfl, regulate_encoder accel⟩))
  | setRunMode mode =>
      refine .inr (.inr (.inr ⟨by simp, ?_⟩))
      cases phase <;> cases mode <;> exact ⟨id, rfl, rfl⟩
  | setTargetPos pos =>
      refine .inr (.inr (.inr ⟨by simp, ?_⟩))
      cases phase <;> exact ⟨id, rfl, rfl⟩
  | setTargetSpeed speed =>
      refine .inr (.inr (.inr ⟨by simp, ?_⟩))
      cases phase <;> exact ⟨id, rfl, rfl⟩

end WheelRun

end Mecanum.Wheel
