import Mathlib.Data.Nat.Notation

/-! # `zephyr_encoder.c`: the edge counter

The GPIO device, the pin and the callback record only connect the interrupt and are left out. -/

namespace Mecanum.Wheel
set_option autoImplicit false

structure ZephyrEncoder where
  counter : Int32
  lastCount : Int32
  lastTime : Int64
  direction : Int8
  deriving DecidableEq

/-- `encoder_isr`: one rising edge. An undefined direction counts up. -/
def encoderIsr (enc : ZephyrEncoder) : ZephyrEncoder :=
  if enc.direction > 0 then { enc with counter := enc.counter + 1 }
  else if enc.direction < 0 then { enc with counter := enc.counter - 1 }
  else { enc with counter := enc.counter + 1 }

/-- The record is filled in whether or not the device is ready; `uptime` is `k_uptime_get()`. -/
def zephyrEncoderInit (ready : Bool) (uptime : Int64) : ZephyrEncoder × Bool :=
  ({ counter := 0, lastCount := 0, lastTime := uptime, direction := 1 }, ready)

def zephyrEncoderGetCount (enc : ZephyrEncoder) : Int32 := enc.counter

/-- `delta * 1000` is an `int32_t` product; the division is in `int64_t`. -/
def zephyrEncoderGetSpeed (enc : ZephyrEncoder) (uptime : Int64) : ZephyrEncoder × Int32 :=
  let current := enc.counter
  let delta := current - enc.lastCount
  let dt := uptime - enc.lastTime
  if dt > 0 then
    ({ enc with lastCount := current, lastTime := uptime }, ((delta * 1000).toInt64 / dt).toInt32)
  else (enc, 0)

def zephyrEncoderReset (enc : ZephyrEncoder) (uptime : Int64) : ZephyrEncoder :=
  { enc with counter := 0, lastCount := 0, lastTime := uptime }

def zephyrEncoderSetDirection (enc : ZephyrEncoder) (dir : Int8) : ZephyrEncoder :=
  { enc with direction := dir }

theorem encoderIsr_counter (enc : ZephyrEncoder) :
    (encoderIsr enc).counter = if enc.direction < 0 then enc.counter - 1 else enc.counter + 1 := by
  unfold encoderIsr
  by_cases hpos : enc.direction > 0
  · have hneg : ¬ enc.direction < 0 := Int8.not_lt.mpr (Int8.le_of_lt hpos)
    rw [if_pos hpos, if_neg hneg]
  · rw [if_neg hpos]
    split <;> rfl

@[simp] theorem encoderIsr_direction (enc : ZephyrEncoder) :
    (encoderIsr enc).direction = enc.direction := by
  unfold encoderIsr
  split
  · rfl
  · split <;> rfl

end Mecanum.Wheel
