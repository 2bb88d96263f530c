import Mecanum.Wheel.Calls
import Mecanum.Wheel.SpeedFilter
import Mecanum.Wheel.StopZone

/-! # A wheel that is told to stop

In the speed loop at target 0, a control step that finds the wheel where the last one left it takes a
sample of 0. By the tenth in a row the filter reports 0 and the integral is cleared, and from the
eleventh on the motor is off.
-/

namespace Mecanum.Wheel
open Motor FloatArith Exact CInt Signal
set_option autoImplicit false

theorem Filtered.Inv.congr {a b : ZephyrAccelmotor ℚ} {samples : List Int16}
    (h : Filtered.Inv ⟨a, samples⟩) (hindex : b.speedBufIdx = a.speedBufIdx)
    (hbuffer : b.speedBuf = a.speedBuf) (hfiltered : b.filteredSpeed = a.filteredSpeed) :
    Filtered.Inv ⟨b, samples⟩ := by
  refine ⟨?_, ?_, fun lo hi h0 h1 hall => ?_⟩
  · rw [hindex]
    exact h.index
  · rw [hindex, hbuffer]
    exact h.buffer
  · unfold Filtered.FilteredWithin
    rw [hfiltered]
    exact h.range lo hi h0 h1 hall

namespace ZephyrAccelmotor
variable {accel : ZephyrAccelmotor ℚ} {n : ℕ} {pos : Int32} {uptime : Int64}

/-- What `n` control steps in a row that were told to stop and found the wheel standing leave. -/
structure Standing (accel : ZephyrAccelmotor ℚ) (n : ℕ) : Prop where
  filter : ∃ samples, Filtered.Inv ⟨accel, samples⟩ ∧
    ∀ k, n = k + 1 → samples.head? = some 0 ∧ |accel.filteredSpeed| ≤ 0.3 ^ k * 32768
  cleared : 10 ≤ n → accel.integral = 0 ∧ accel.prevInput = 0
  off : 11 ≤ n → accel.motor.state = 0

/-- The wheel is told to stop, and is where the last control step left it. -/
def FoundStanding (accel : ZephyrAccelmotor ℚ) (pos : Int32) : Prop :=
  accel.runMode = .pidSpeed ∧ accel.targetSpeed = 0 ∧ pos = accel.lastPos

instance (accel : ZephyrAccelmotor ℚ) (pos : Int32) : Decidable (FoundStanding accel pos) :=
  inferInstanceAs (Decidable (_ ∧ _))

def standsAfter (accel : ZephyrAccelmotor ℚ) (n : ℕ) (pos : Int32) (uptime : Int64) : ℕ :=
  if gateOpen accel uptime then if FoundStanding accel pos then n + 1 else 0 else n

/-- The sample of a control step, and the buffer it leaves. -/
theorem filter_step {samples : List Int16} (h : Filtered.Inv ⟨accel, samples⟩) (pos : Int32) :
    let raw := rawSpeed { accel with currentPos := pos }
    let a := sample { accel with currentPos := pos }
    Filtered.Inv ⟨a, raw :: samples⟩ ∧
      a.filteredSpeed = smooth 0.7 accel.filteredSpeed (chosenSpeed accel raw).toInt ∧
      a.currentSpeed = Exact.toInt16 a.filteredSpeed := by
  let raw := rawSpeed { accel with currentPos := pos }
  have hnext := Filtered.inv_step h raw
  refine ⟨hnext.congr rfl rfl rfl, Filtered.filteredSpeed_step ⟨accel, samples⟩ raw, rfl⟩

/-- The sample of a wheel that stands is 0. -/
theorem rawSpeed_of_standing (h : pos = accel.lastPos) :
    rawSpeed { accel with currentPos := pos } = 0 := by
  unfold rawSpeed
  simp only [h, Int32.sub_self, Int32.zero_mul, Int32.zero_div]
  rfl

theorem filter_of_standing {samples : List Int16} (h : Filtered.Inv ⟨accel, samples⟩)
    (hbound : ∀ k, n = k + 1 → samples.head? = some 0 ∧ |accel.filteredSpeed| ≤ 0.3 ^ k * 32768)
    (hpos : pos = accel.lastPos) :
    |(sample { accel with currentPos := pos }).filteredSpeed| ≤ 0.3 ^ n * 32768 := by
  obtain ⟨hnext, hsmooth, -⟩ := filter_step h pos
  cases n with
  | zero =>
      obtain ⟨hlow, hhigh⟩ := Filtered.filteredWithin_int16 hnext
      rw [pow_zero, one_mul]
      refine abs_le.mpr ⟨hlow, hhigh.trans (by norm_num)⟩
  | succ k =>
      obtain ⟨hhead, hle⟩ := hbound k rfl
      have hchosen := Filtered.chosen_eq (v := 0) h hhead
      have hshrink := abs_smooth_sub (k := (0.7 : ℚ)) (by norm_num) accel.filteredSpeed 0
      rw [sub_zero, sub_zero] at hshrink
      rw [rawSpeed_of_standing hpos, hchosen, Int16.toInt_zero, Int.cast_zero] at hsmooth
      rw [hsmooth, hshrink, pow_succ]
      linarith

theorem limitDuty_zero (maxSpeed : UInt16) : limitDuty maxSpeed (0 : ℚ) = 0 := by
  have hneg := limitDuty_neg maxSpeed 0
  rw [neg_zero] at hneg
  linarith

/-- With a target and a reported speed of 0 the integral is cleared, and with nothing left of it and of
the derivative there is no duty. -/
theorem regulate_of_stop {a : ZephyrAccelmotor ℚ} (hmode : a.runMode = .pidSpeed)
    (htarget : a.targetSpeed = 0) (hcurrent : a.currentSpeed = 0) :
    (regulate a).1.integral = 0 ∧ (regulate a).1.prevInput = 0 ∧
      (a.integral = 0 → a.prevInput = 0 → (regulate a).1.motor.state = 0) := by
  have hregulate : regulate a = pidControl a 0 0 false := by
    rw [regulate_pidSpeed hmode, htarget, hcurrent]
    rfl
  have hclears : ClearsIntegral a 0 0 false := ⟨rfl, rfl⟩
  rw [hregulate]
  refine ⟨?_, rfl, fun hintegral hprev => ?_⟩
  · show (pidUpdate a 0 0 false).integral = 0
    rw [pidUpdate_integral, if_pos hclears]
  · have hduty : (pidUpdate a 0 0 false).dutyF = 0 := by
      rw [pidUpdate_dutyF, hintegral, hprev, Int32.sub_self, Int32.toInt_zero, Int.cast_zero]
      simp only [zero_mul, zero_div, add_zero]
      exact limitDuty_zero _
    refine (state_zephyrMotorSetSpeed_eq_zero_iff _ _).mpr ?_
    rw [hduty]
    exact (toInt16_eq_zero_iff_of_lt (by norm_num)).mpr (by norm_num)

/-- From the tenth standing step on the reported speed is 0. -/
theorem reported_of_standing {speed : ℚ} (hn : 9 ≤ n) (h : |speed| ≤ 0.3 ^ n * 32768) :
    Exact.toInt16 speed = 0 := by
  have hpow : (0.3 : ℚ) ^ n ≤ 0.3 ^ 9 := pow_le_pow_of_le_one (by norm_num) (by norm_num) hn
  have hlt : |speed| < 1 :=
    calc |speed| ≤ 0.3 ^ n * 32768 := h
      _ ≤ 0.3 ^ 9 * 32768 := mul_le_mul_of_nonneg_right hpow (by norm_num)
      _ < 1 := by norm_num
  exact (toInt16_eq_zero_iff_of_lt (hlt.trans (by norm_num))).mpr hlt

/-- What a control step makes of a wheel, in the words of the controller as its regulator finds it. -/
theorem Standing.controlStep {a : ZephyrAccelmotor ℚ} {samples : List Int16}
    (hfilter : Filtered.Inv ⟨a, 0 :: samples⟩) (hsmall : |a.filteredSpeed| ≤ 0.3 ^ n * 32768)
    (hreported : a.currentSpeed = Exact.toInt16 a.filteredSpeed) (hmode : a.runMode = .pidSpeed)
    (htarget : a.targetSpeed = 0) (hcleared : 10 ≤ n → a.integral = 0 ∧ a.prevInput = 0) :
    Standing (regulate a).1 (n + 1) := by
  have hstop : 9 ≤ n → a.currentSpeed = 0 := fun hn =>
    hreported.trans (reported_of_standing hn hsmall)
  have hfields := regulate_eq a
  refine ⟨⟨0 :: samples, ?_, fun k hk => ⟨rfl, ?_⟩⟩, fun hn => ?_, fun hn => ?_⟩
  · rw [hfields]
    exact hfilter.congr rfl rfl rfl
  · obtain rfl : n = k := by omega
    rw [hfields]
    exact hsmall
  · obtain ⟨hintegral, hprev, -⟩ := regulate_of_stop hmode htarget (hstop (by omega))
    exact ⟨hintegral, hprev⟩
  · obtain ⟨-, -, hoff⟩ := regulate_of_stop hmode htarget (hstop (by omega))
    exact hoff (hcleared (by omega)).1 (hcleared (by omega)).2

theorem Standing.zero {a : ZephyrAccelmotor ℚ} {samples : List Int16}
    (hfilter : Filtered.Inv ⟨a, samples⟩) : Standing (regulate a).1 0 := by
  refine ⟨⟨samples, ?_, fun k hk => by omega⟩, fun hn => by omega, fun hn => by omega⟩
  rw [regulate_eq a]
  exact hfilter.congr rfl rfl rfl

theorem Standing.tick (h : Standing accel n) (pos : Int32) (uptime : Int64) :
    Standing (zephyrAccelmotorTick accel pos uptime).1 (standsAfter accel n pos uptime) := by
  obtain ⟨samples, hinv, hbound⟩ := h.filter
  unfold standsAfter
  by_cases hgate : gateOpen accel uptime
  · obtain ⟨hnext, -, hreported⟩ := filter_step hinv pos
    rw [tick_of_open hgate, if_pos hgate]
    by_cases hfound : FoundStanding accel pos
    · obtain ⟨hmode, htarget, hpos⟩ := hfound
      have hsmall := filter_of_standing hinv hbound hpos
      rw [rawSpeed_of_standing hpos] at hnext
      rw [if_pos ⟨hmode, htarget, hpos⟩]
      exact Standing.controlStep hnext hsmall hreported hmode htarget h.cleared
    · rw [if_neg hfound]
      exact Standing.zero hnext
  · rw [tick_of_closed hgate, if_neg hgate]
    exact ⟨⟨samples, hinv.congr rfl rfl rfl, hbound⟩, h.cleared, h.off⟩

theorem Standing.withCounter (h : Standing accel n) (encoder : ZephyrEncoder) :
    Standing { accel with encoder := encoder } n := by
  obtain ⟨samples, hinv, hbound⟩ := h.filter
  exact ⟨⟨samples, hinv.congr rfl rfl rfl, hbound⟩, h.cleared, h.off⟩

/-- Setting a target or a run mode disturbs nothing that is standing. -/
theorem Standing.setRunMode (h : Standing accel n) (mode : AccelRunMode) :
    Standing (zephyrAccelmotorSetRunMode accel mode) n := by
  obtain ⟨samples, hinv, hbound⟩ := h.filter
  have hcleared : 10 ≤ n → (0 : ℚ) = 0 ∧ accel.prevInput = 0 := fun hn => ⟨rfl, (h.cleared hn).2⟩
  cases mode <;> exact ⟨⟨samples, hinv.congr rfl rfl rfl, hbound⟩, hcleared, h.off⟩

theorem Standing.setTargetPos (h : Standing accel n) (pos : Int32) :
    Standing (zephyrAccelmotorSetTargetPos accel pos) n := by
  obtain ⟨samples, hinv, hbound⟩ := h.filter
  exact ⟨⟨samples, hinv.congr rfl rfl rfl, hbound⟩, h.cleared, h.off⟩

theorem Standing.setTargetSpeed (h : Standing accel n) (speed : Int16) :
    Standing (zephyrAccelmotorSetTargetSpeed accel speed) n := by
  obtain ⟨samples, hinv, hbound⟩ := h.filter
  exact ⟨⟨samples, hinv.congr rfl rfl rfl, hbound⟩, h.cleared, h.off⟩

end ZephyrAccelmotor
end Mecanum.Wheel
