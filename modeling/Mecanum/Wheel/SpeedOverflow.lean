import Mecanum.Wheel.SampledSpeed

/-! # The range of the two speed estimators

Both estimators multiply the counts by 1000 in `int32_t` before they divide, and the controller narrows the
quotient to `int16_t`. `zephyr_encoder_get_speed` divides in `int64_t`, but the product has wrapped by then.
-/

namespace Mecanum.Wheel
open Motor FloatArith CInt
set_option autoImplicit false

/-- An estimate is `trunc(1000 * delta / dt)`: the product does not wrap, the quotient is in the range
of the result type, and the estimate is it. -/
structure ExactSpeed (delta dt least greatest estimate : ℤ) : Prop where
  no_wrap : -2147483648 ≤ 1000 * delta ∧ 1000 * delta ≤ 2147483647
  no_loss : least ≤ (1000 * delta).tdiv dt ∧ (1000 * delta).tdiv dt ≤ greatest
  exact : estimate = (1000 * delta).tdiv dt
  direction : (0 ≤ delta → 0 ≤ estimate) ∧ (delta ≤ 0 → estimate ≤ 0)

/-- Counts that can be multiplied by 1000 in `int32_t`. -/
def CountsFit (delta : ℤ) : Prop := -2147483 ≤ delta ∧ delta ≤ 2147483

/-- Speeds that `int16_t` can hold. -/
def SpeedFits (delta dt : ℤ) : Prop := -(32769 * dt) < 1000 * delta ∧ 1000 * delta < 32768 * dt

section Estimate
variable {delta dt least greatest estimate : ℤ}

theorem noWrap_iff :
    (-2147483648 ≤ 1000 * delta ∧ 1000 * delta ≤ 2147483647) ↔ CountsFit delta := by
  unfold CountsFit
  omega

/-- An exact estimate that fits its type has no sign of its own. -/
theorem ExactSpeed.of_fits (hdt : 0 < dt) (hfit : CountsFit delta)
    (hloss : least ≤ (1000 * delta).tdiv dt ∧ (1000 * delta).tdiv dt ≤ greatest)
    (hexact : estimate = (1000 * delta).tdiv dt) : ExactSpeed delta dt least greatest estimate := by
  have hsign := tdiv_sign (x := 1000 * delta) hdt
  refine ⟨noWrap_iff.mpr hfit, hloss, hexact, ?_⟩
  rw [hexact]
  exact ⟨fun h => hsign.1 (by omega), fun h => hsign.2 (by omega)⟩

end Estimate

section Controller
variable {F : Type} [FloatArith F] (accel : ZephyrAccelmotor F) (pos : Int32)

/-- The counts that a tick finds since the last control step. -/
def tickCounts : ℤ := pos.toInt - accel.lastPos.toInt

/-- The sample of a tick, before the filter. -/
def TickExact : Prop :=
  ExactSpeed (tickCounts accel pos) accel.dtMs.toNat (-32768) 32767
    (rawSpeed { accel with currentPos := pos }).toInt

variable {accel pos}

theorem tickExact_iff (hperiod : 0 < accel.dtMs.toNat ∧ accel.dtMs.toNat < 2147483648)
    (hcounts : -2147483648 ≤ tickCounts accel pos ∧ tickCounts accel pos < 2147483648) :
    TickExact accel pos ↔
      CountsFit (tickCounts accel pos) ∧ SpeedFits (tickCounts accel pos) accel.dtMs.toNat := by
  have hdt : (0 : ℤ) < accel.dtMs.toNat := Int.natCast_pos.mpr hperiod.1
  have hlow := le_tdiv_iff (x := 1000 * tickCounts accel pos) (n := 32768) hdt (by decide)
  have hhigh := tdiv_le_iff (x := 1000 * tickCounts accel pos) (n := 32767) hdt (by decide)
  constructor
  · intro h
    exact ⟨noWrap_iff.mp h.no_wrap, hlow.mp h.no_loss.1, hhigh.mp h.no_loss.2⟩
  · rintro ⟨hfit, hslow, hfast⟩
    have hquot : -32768 ≤ (1000 * tickCounts accel pos).tdiv accel.dtMs.toNat ∧
        (1000 * tickCounts accel pos).tdiv accel.dtMs.toNat ≤ 32767 := ⟨hlow.mpr hslow, hhigh.mpr hfast⟩
    obtain ⟨h0, h1⟩ := noWrap_iff.mpr hfit
    have hexact : (rawSpeed { accel with currentPos := pos }).toInt =
        (1000 * tickCounts accel pos).tdiv accel.dtMs.toNat :=
      Sampled.toInt_rawSpeed (s := ⟨accel, none⟩) (t := ⟨pos, 0⟩) hperiod
        ⟨hcounts, ⟨h0, Int.lt_add_one_of_le h1⟩, ⟨hquot.1, Int.lt_add_one_of_le hquot.2⟩⟩
    exact .of_fits hdt hfit hquot hexact

end Controller

section Encoder
variable (enc : ZephyrEncoder) (uptime : Int64)

/-- The counts since the last call. -/
def encoderCounts : ℤ := enc.counter.toInt - enc.lastCount.toInt

def EncoderExact : Prop :=
  ExactSpeed (encoderCounts enc) (uptime - enc.lastTime).toInt (-2147483648) 2147483647
    (zephyrEncoderGetSpeed enc uptime).2.toInt

variable {enc uptime}

theorem toInt_getSpeed (hdt : 0 < (uptime - enc.lastTime).toInt)
    (hcounts : -2147483648 ≤ encoderCounts enc ∧ encoderCounts enc < 2147483648)
    (hfit : CountsFit (encoderCounts enc)) : (zephyrEncoderGetSpeed enc uptime).2.toInt =
      (1000 * encoderCounts enc).tdiv (uptime - enc.lastTime).toInt := by
  obtain ⟨hlow, hhigh⟩ := noWrap_iff.mpr hfit
  have hpos : uptime - enc.lastTime > 0 := Int64.lt_iff_toInt_lt.mpr hdt
  have hne : uptime - enc.lastTime ≠ -1 := fun h => by
    rw [h] at hdt
    exact absurd hdt (by decide)
  have h1000 : (1000 : Int32).toInt = 1000 := rfl
  have hdelta : (enc.counter - enc.lastCount).toInt = encoderCounts enc :=
    toInt_sub_int32 hcounts.1 hcounts.2
  have hproduct : ((enc.counter - enc.lastCount) * 1000).toInt = 1000 * encoderCounts enc := by
    rw [Int32.toInt_mul, hdelta, h1000, Int.mul_comm]
    exact Int.bmod_eq_of_le (by simp; omega) (by simp; omega)
  have hquot := Int.natAbs_tdiv_le_natAbs (1000 * encoderCounts enc) (uptime - enc.lastTime).toInt
  unfold zephyrEncoderGetSpeed
  simp only [hpos, if_true]
  rw [Int64.toInt_toInt32, Int64.toInt_div_of_ne_right _ _ hne, Int32.toInt_toInt64, hproduct]
  generalize (1000 * encoderCounts enc).tdiv (uptime - enc.lastTime).toInt = speed at hquot ⊢
  exact Int.bmod_eq_of_le (by simp; omega) (by simp; omega)

theorem encoderExact_iff (hdt : 0 < (uptime - enc.lastTime).toInt)
    (hcounts : -2147483648 ≤ encoderCounts enc ∧ encoderCounts enc < 2147483648) :
    EncoderExact enc uptime ↔ CountsFit (encoderCounts enc) := by
  constructor
  · intro h
    exact noWrap_iff.mp h.no_wrap
  · intro hfit
    have hquot := Int.natAbs_tdiv_le_natAbs (1000 * encoderCounts enc) (uptime - enc.lastTime).toInt
    obtain ⟨h0, h1⟩ := noWrap_iff.mpr hfit
    exact .of_fits hdt hfit ⟨by omega, by omega⟩ (toInt_getSpeed hdt hcounts hfit)

end Encoder

/-- The sample of a tick is exact when counts and speed fit, and the speed of the encoder when the counts
do, and not otherwise. -/
theorem exact_speed_iff {F : Type} [FloatArith F] (accel : ZephyrAccelmotor F) (pos : Int32)
    (enc : ZephyrEncoder) (uptime : Int64)
    (hperiod : 0 < accel.dtMs.toNat ∧ accel.dtMs.toNat < 2147483648)
    (hticks : -2147483648 ≤ tickCounts accel pos ∧ tickCounts accel pos < 2147483648)
    (hdt : 0 < (uptime - enc.lastTime).toInt)
    (hcounts : -2147483648 ≤ encoderCounts enc ∧ encoderCounts enc < 2147483648) :
    (TickExact accel pos ↔
        CountsFit (tickCounts accel pos) ∧ SpeedFits (tickCounts accel pos) accel.dtMs.toNat) ∧
      (EncoderExact enc uptime ↔ CountsFit (encoderCounts enc)) :=
  ⟨tickExact_iff hperiod hticks, encoderExact_iff hdt hcounts⟩

/-! ## Fast wheels -/

/-- An encoder that has counted since time 0. -/
def countedTo (counts : Int32) : ZephyrEncoder :=
  { (zephyrEncoderInit true 0).1 with counter := counts }

theorem exact_speed_slow :
    (TickExact freshWheel 20 ↔
        CountsFit (tickCounts freshWheel 20) ∧ SpeedFits (tickCounts freshWheel 20) 20) ∧
      (EncoderExact (countedTo 20) 20 ↔ CountsFit (encoderCounts (countedTo 20))) :=
  exact_speed_iff freshWheel 20 (countedTo 20) 20 (by decide) (by decide) (by decide) (by decide)

/-- 1000 counts in 20 milliseconds are sampled as -15536 counts per second, and 3000000 counts in a second are
reported as -1294967. -/
theorem fast_speed_reversed :
    ((rawSpeed { freshWheel with currentPos := 1000 }).toInt = -15536 ∧ ¬ TickExact freshWheel 1000) ∧
      ((zephyrEncoderGetSpeed (countedTo 3000000) 1000).2.toInt = -1294967 ∧
        ¬ EncoderExact (countedTo 3000000) 1000) := by
  refine ⟨⟨by decide +kernel, fun h => ?_⟩, by decide +kernel, fun h => ?_⟩
  · have hsign := h.direction.1 (by decide)
    revert hsign
    decide +kernel
  · have hsign := h.direction.1 (by decide)
    revert hsign
    decide +kernel

end Mecanum.Wheel
