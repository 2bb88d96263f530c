import Mecanum.Wheel.Events

/-! # Call sequences of one controller

The calls that `main.c` makes of a controller once it is set up, in any order. The position of a
tick is an argument here; `Mecanum.Wheel.Events` is the level at which it comes from the encoder.
-/

namespace Mecanum.Wheel
open Motor FloatArith
set_option autoImplicit false

inductive AccelCall
  | setRunMode (mode : AccelRunMode)
  | setTargetPos (pos : Int32)
  | setTargetSpeed (speed : Int16)
  | tick (pos : Int32) (uptime : Int64)

/-- A call of `zephyr_accelmotor_tick`. -/
structure Tick where
  pos : Int32
  uptime : Int64

def Tick.call (t : Tick) : AccelCall := .tick t.pos t.uptime

namespace ZephyrAccelmotor
variable {F : Type} [FloatArith F]

def call (accel : ZephyrAccelmotor F) : AccelCall → ZephyrAccelmotor F × Seen
  | .setRunMode mode => (zephyrAccelmotorSetRunMode accel mode, ⟨[], none⟩)
  | .setTargetPos pos => (zephyrAccelmotorSetTargetPos accel pos, ⟨[], none⟩)
  | .setTargetSpeed speed => (zephyrAccelmotorSetTargetSpeed accel speed, ⟨[], none⟩)
  | .tick pos uptime =>
      let ticked := zephyrAccelmotorTick accel pos uptime
      (ticked.1, ⟨ticked.2.1, some ticked.2.2⟩)

def step (accel : ZephyrAccelmotor F) (c : AccelCall) : ZephyrAccelmotor F := (accel.call c).1

/-- The controller as the run mode switch of a tick finds it, if the call is a tick that runs a
control step. -/
def atControlStep (accel : ZephyrAccelmotor F) : AccelCall → Option (ZephyrAccelmotor F)
  | .tick pos uptime =>
      if gateOpen accel uptime then some (sample { accel with currentPos := pos }) else none
  | _ => none

variable {accel a : ZephyrAccelmotor F} {c : AccelCall}

theorem atControlStep_cases (h : accel.atControlStep c = some a) :
    ∃ pos uptime, c = .tick pos uptime ∧ gateOpen accel uptime ∧
      a = sample { accel with currentPos := pos } := by
  cases c with
  | tick pos uptime =>
      simp only [atControlStep] at h
      split at h
      · next hgate => exact ⟨pos, uptime, rfl, hgate, (Option.some.inj h).symm⟩
      · cases h
  | _ => cases h

theorem call_of_controlStep (h : accel.atControlStep c = some a) :
    accel.call c = ((regulate a).1, ⟨(regulate a).2, some (moving (regulate a).1)⟩) := by
  obtain ⟨pos, uptime, rfl, hgate, rfl⟩ := atControlStep_cases h
  simp only [call, tick_of_open hgate]

theorem step_of_controlStep (h : accel.atControlStep c = some a) : accel.step c = (regulate a).1 :=
  congrArg Prod.fst (call_of_controlStep h)

theorem call_of_open {pos : Int32} {uptime : Int64} (h : gateOpen accel uptime) :
    accel.call (.tick pos uptime) =
      let a := sample { accel with currentPos := pos }
      ((regulate a).1, ⟨(regulate a).2, some (moving (regulate a).1)⟩) := by
  simp only [call, tick_of_open h]

theorem call_of_closed {pos : Int32} {uptime : Int64} (h : ¬ gateOpen accel uptime) :
    accel.call (.tick pos uptime) =
      ({ accel with currentPos := pos }, ⟨[], some (moving { accel with currentPos := pos })⟩) := by
  simp only [call, tick_of_closed h]

theorem step_of_closed {pos : Int32} {uptime : Int64} (h : ¬ gateOpen accel uptime) :
    accel.step (.tick pos uptime) = { accel with currentPos := pos } :=
  congrArg Prod.fst (call_of_closed h)

theorem step_tick (t : Tick) :
    accel.step t.call =
      if gateOpen accel t.uptime then (regulate (sample { accel with currentPos := t.pos })).1
      else { accel with currentPos := t.pos } := by
  split
  · next hgate => exact step_of_controlStep (if_pos hgate)
  · next hgate => exact step_of_closed hgate

/-- Any other call sets a position, a target or the run mode. -/
theorem step_of_none (h : accel.atControlStep c = none) :
    (∃ pos, accel.step c = { accel with currentPos := pos }) ∨
    (∃ pos, accel.step c = zephyrAccelmotorSetTargetPos accel pos) ∨
    (∃ speed, accel.step c = zephyrAccelmotorSetTargetSpeed accel speed) ∨
    (∃ mode, c = .setRunMode mode) := by
  cases c with
  | setRunMode mode => exact .inr (.inr (.inr ⟨mode, rfl⟩))
  | setTargetPos pos => exact .inr (.inl ⟨pos, rfl⟩)
  | setTargetSpeed speed => exact .inr (.inr (.inl ⟨speed, rfl⟩))
  | tick pos uptime =>
      simp only [atControlStep] at h
      split at h
      · cases h
      · next hgate => exact .inl ⟨pos, step_of_closed hgate⟩

end ZephyrAccelmotor
end Mecanum.Wheel
