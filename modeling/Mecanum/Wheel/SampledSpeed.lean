import Mecanum.Foundations.CInt
import Mecanum.Foundations.Trace
import Mecanum.Wheel.Calls

/-! # The speed sample

A control step divides the counts since the last one by `dt_ms`. `Sampled` carries the uptime of the last
control step, so that the sample can be compared with the counts over the time that really passed.
-/

namespace Mecanum.Wheel
open Motor FloatArith Trace CInt
set_option autoImplicit false

/-- A controller with the uptime of its last control step. -/
structure Sampled (F : Type) where
  accel : ZephyrAccelmotor F
  previous : Option Int64

namespace Sampled
variable {F : Type} [FloatArith F]

def step (s : Sampled F) (t : Tick) : Sampled F where
  accel := s.accel.step t.call
  previous := if gateOpen s.accel t.uptime then some t.uptime else s.previous

/-- The counts since the last control step. -/
def counts (s : Sampled F) (t : Tick) : ℤ := t.pos.toInt - s.accel.lastPos.toInt

def elapsed (previous : Int64) (t : Tick) : ℤ := t.uptime.toInt - previous.toInt

/-- At every control step but the first the sample is the counts over the time since the last
one. -/
def SamplesRealSpeed (s : Sampled F) (t : Tick) (_ : Sampled F) : Prop :=
  gateOpen s.accel t.uptime → ∀ previous ∈ s.previous, 0 < elapsed previous t ∧
    (rawSpeed { s.accel with currentPos := t.pos }).toInt =
      (1000 * s.counts t).tdiv (elapsed previous t)

/-- The time since the last control step gives the counts the same whole speed as `dt_ms` does. -/
def KeepsPace (s : Sampled F) (t : Tick) (_ : Sampled F) : Prop :=
  gateOpen s.accel t.uptime → ∀ previous ∈ s.previous, 0 < elapsed previous t ∧
    |1000 * s.counts t| / s.accel.dtMs.toNat * elapsed previous t ≤ |1000 * s.counts t| ∧
    |1000 * s.counts t| < (|1000 * s.counts t| / s.accel.dtMs.toNat + 1) * elapsed previous t

/-- The `int32_t` expressions of the sample and its `int16_t` value do not overflow. -/
structure NoOverflow (s : Sampled F) (t : Tick) (_ : Sampled F) : Prop where
  counts : -2147483648 ≤ s.counts t ∧ s.counts t < 2147483648
  scaled : -2147483648 ≤ 1000 * s.counts t ∧ 1000 * s.counts t < 2147483648
  sample : -32768 ≤ (1000 * s.counts t).tdiv s.accel.dtMs.toNat ∧
    (1000 * s.counts t).tdiv s.accel.dtMs.toNat < 32768

/-- The period is a positive `int32_t`. -/
def PeriodFits (s : Sampled F) : Prop := 0 < s.accel.dtMs.toNat ∧ s.accel.dtMs.toNat < 2147483648

variable {s : Sampled F} {t : Tick}

theorem toInt_rawSpeed (hperiod : s.PeriodFits) (h : NoOverflow s t (s.step t)) :
    (rawSpeed { s.accel with currentPos := t.pos }).toInt =
      (1000 * s.counts t).tdiv s.accel.dtMs.toNat := by
  have hdt : s.accel.dtMs.toInt32.toInt = s.accel.dtMs.toNat := toInt_toInt32_uint32 hperiod.2
  have h1000 : (1000 : Int32).toInt = 1000 := rfl
  have hdelta : (t.pos - s.accel.lastPos).toInt = s.counts t :=
    toInt_sub_int32 h.counts.1 h.counts.2
  have hproduct : (t.pos - s.accel.lastPos).toInt * (1000 : Int32).toInt = 1000 * s.counts t := by
    rw [hdelta, h1000, Int.mul_comm]
  have hquot := toInt_mul_div_int32 (hproduct ▸ h.scaled.1) (hproduct ▸ h.scaled.2)
    (d := s.accel.dtMs.toInt32) (by rw [hdt]; exact_mod_cast hperiod.1)
  unfold rawSpeed
  rw [Int32.toInt_toInt16, hquot, hproduct, hdt]
  exact Int.bmod_eq_of_le (by simpa using h.sample.1) (by simpa using h.sample.2)

theorem dtMs_step (s : Sampled F) (t : Tick) : (s.step t).accel.dtMs = s.accel.dtMs := by
  unfold step
  rw [ZephyrAccelmotor.step_tick]
  split
  · rw [regulate_eq]
    rfl
  · rfl

theorem samplesRealSpeed_iff (hperiod : s.PeriodFits) (h : NoOverflow s t (s.step t)) :
    SamplesRealSpeed s t (s.step t) ↔ KeepsPace s t (s.step t) := by
  unfold SamplesRealSpeed KeepsPace
  rw [toInt_rawSpeed hperiod h]
  refine forall_congr' fun _ => forall₂_congr fun previous _ => and_congr_right fun helapsed => ?_
  exact tdiv_eq_tdiv_iff helapsed

end Sampled

/-- A sequence of ticks samples the real speed throughout exactly when every control step keeps the
pace of `dt_ms`. -/
theorem sampled_speed_iff {F : Type} [FloatArith F] (accel : ZephyrAccelmotor F)
    (hperiod : 0 < accel.dtMs.toNat ∧ accel.dtMs.toNat < 2147483648) (ticks : List Tick)
    (hfits : Always Sampled.step Sampled.NoOverflow ⟨accel, none⟩ ticks) :
    Always Sampled.step Sampled.SamplesRealSpeed ⟨accel, none⟩ ticks ↔
      Always Sampled.step Sampled.KeepsPace ⟨accel, none⟩ ticks :=
  Always.iff_of_invariant_of_always (I := Sampled.PeriodFits)
    (fun _ _ h hfit => Sampled.samplesRealSpeed_iff h hfit)
    (fun s t h _ _ => by
      unfold Sampled.PeriodFits
      rw [Sampled.dtMs_step]
      exact h) ticks hperiod hfits

/-! ## A late call -/

/-- A controller right after `zephyr_accelmotor_init`. -/
def freshWheel : ZephyrAccelmotor ℚ :=
  zephyrAccelmotorInit (zephyrMotorInit .pwm1 true true false).1 (zephyrEncoderInit true 0).1 0

/-- One call on time, then one at twice the period. -/
def lateTicks : List Tick := [⟨0, 20⟩, ⟨40, 60⟩]

theorem lateTicks_noOverflow : Always Sampled.step Sampled.NoOverflow ⟨freshWheel, none⟩ lateTicks :=
  ⟨⟨by decide, by decide, by decide⟩, ⟨by decide, by decide, by decide⟩, trivial⟩

theorem sampled_speed_lateTicks :
    Always Sampled.step Sampled.SamplesRealSpeed ⟨freshWheel, none⟩ lateTicks ↔
      Always Sampled.step Sampled.KeepsPace ⟨freshWheel, none⟩ lateTicks :=
  sampled_speed_iff freshWheel (by decide) lateTicks lateTicks_noOverflow

/-- 40 counts in 40 milliseconds are sampled as 2000 counts per second, not 1000. -/
theorem late_call_doubles_speed :
    Always Sampled.step Sampled.NoOverflow ⟨freshWheel, none⟩ lateTicks ∧
      ¬ Always Sampled.step Sampled.SamplesRealSpeed ⟨freshWheel, none⟩ lateTicks := by
  refine ⟨lateTicks_noOverflow, fun h => ?_⟩
  have hlate := h.2.1 (by decide) 20 rfl
  revert hlate
  decide

end Mecanum.Wheel
