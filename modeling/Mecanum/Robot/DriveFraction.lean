import Mathlib.Tactic.Ring
import Mathlib.Tactic.Linarith
import Mathlib.Tactic.IntervalCases
import Mathlib.Algebra.Order.Field.Rat
import Mathlib.Algebra.Order.Field.Basic
import Mecanum.Motor.OutputStage
import Mecanum.Robot.Wheels

/-! # The drive fraction each wheel delivers

Zephyr's PWM driver turns the requested nanoseconds into timer cycles. TIM1 and TIM17 run with
prescaler 10000 and count 7 cycles per PWM period, TIM2 runs with prescaler 0 and counts 80000, so
the same request becomes a multiple of one seventh on three wheels and is exact on the fourth.
-/

namespace Mecanum.Robot
open Motor Scaling
set_option autoImplicit false

/-- `st,prescaler`, from the overlay and the generated device tree. -/
def prescaler : PwmDev → ℕ
  | .pwm1 => 0x2710
  | .pwm2 => 0
  | .pwm17 => 10000

def timerClock (dev : PwmDev) : ℕ := 80000000 / (prescaler dev + 1)

def timerCycles (dev : PwmDev) (ns : ℕ) : ℕ := ns * timerClock dev / 1000000000

/-- The fraction of the period for which a wheel drives its motor after duty `d`. -/
def driveFraction (minDuty maxDuty : UInt16) (d : Int16) (w : WheelId) : ℚ :=
  let lines := speedLines (wheelMotor w minDuty maxDuty) d Lines.reset
  timerCycles w.pwmDev lines.pulse / timerCycles w.pwmDev lines.period

/-- Any two wheels differ by at most one duty step. -/
def WheelsAlike (minDuty maxDuty : UInt16) (d : Int16) : Prop :=
  ∀ w w', |driveFraction minDuty maxDuty d w - driveFraction minDuty maxDuty d w'| ≤
    1 / maxDuty.toNat

def requestedUs (lo hi d : ℕ) : ℕ := share 1000 hi (interpolate lo hi (min d hi))

/-- The cycles that TIM1 and TIM17 make of a pulse of `k` microseconds. -/
def sevenths (k : ℕ) : ℕ := k * 7999 / 1000000

/-- The pulse of `k` microseconds lies within `1000 / hi` microseconds of the multiple of one
seventh of the period that it is cut down to. -/
def NearSeventh (hi k : ℕ) : Prop := |1000 * (sevenths k : ℤ) - 7 * k| * hi ≤ 7000

section Fractions
variable (minDuty maxDuty : UInt16) (d : Int16)

theorem timerClock_slow : timerClock .pwm1 = 7999 ∧ timerClock .pwm17 = 7999 := by decide

theorem timerClock_fast : timerClock .pwm2 = 80000000 := by decide

theorem timerCycles_slow (k : ℕ) :
    timerCycles .pwm1 (k * 1000) = sevenths k ∧ timerCycles .pwm17 (k * 1000) = sevenths k := by
  unfold timerCycles sevenths
  rw [timerClock_slow.1, timerClock_slow.2]
  omega

theorem timerCycles_fast (k : ℕ) : timerCycles .pwm2 (k * 1000) = k * 80 := by
  unfold timerCycles
  rw [timerClock_fast]
  omega

theorem pulse_wheel (hle : minDuty ≤ maxDuty) (w : WheelId) :
    (speedLines (wheelMotor w minDuty maxDuty) d Lines.reset).pulse =
      requestedUs minDuty.toNat maxDuty.toNat d.toInt.natAbs * 1000 :=
  pulse_speedLines (wheelMotor w minDuty maxDuty) d hle Lines.reset

theorem driveFraction_eq (hle : minDuty ≤ maxDuty) (w : WheelId) :
    driveFraction minDuty maxDuty d w =
      match w with
      | .bl => (requestedUs minDuty.toNat maxDuty.toNat d.toInt.natAbs : ℚ) / 1000
      | _ => (sevenths (requestedUs minDuty.toNat maxDuty.toNat d.toInt.natAbs) : ℚ) / 7 := by
  have hp := pulse_wheel minDuty maxDuty d hle w
  have hperiod := period_speedLines (wheelMotor w minDuty maxDuty) d Lines.reset
  unfold driveFraction
  simp only [hp, hperiod]
  generalize requestedUs minDuty.toNat maxDuty.toNat d.toInt.natAbs = k
  have hslow := timerCycles_slow k
  have hseven : timerCycles .pwm1 1000000 = 7 ∧ timerCycles .pwm17 1000000 = 7 := by decide
  have hfast : timerCycles .pwm2 1000000 = 80000 := by decide
  cases w with
  | fl => simp [WheelId.pwmDev, hslow.1, hseven.1]
  | fr => simp [WheelId.pwmDev, hslow.1, hseven.1]
  | bl =>
      simp only [WheelId.pwmDev, timerCycles_fast, hfast]
      push_cast
      ring
  | br => simp [WheelId.pwmDev, hslow.2, hseven.2]

/-- Three wheels share one fraction, so only the pair slow and fast timer matters. -/
theorem wheelsAlike_iff (hle : minDuty ≤ maxDuty) (hpos : 0 < maxDuty) :
    WheelsAlike minDuty maxDuty d ↔
      NearSeventh maxDuty.toNat (requestedUs minDuty.toNat maxDuty.toNat d.toInt.natAbs) := by
  have hmax : (0 : ℚ) < maxDuty.toNat := by exact_mod_cast UInt16.lt_iff_toNat_lt.mp hpos
  unfold WheelsAlike
  simp only [driveFraction_eq minDuty maxDuty d hle]
  generalize requestedUs minDuty.toNat maxDuty.toNat d.toInt.natAbs = k
  have hcross : |(sevenths k : ℚ) / 7 - (k : ℚ) / 1000| ≤ 1 / maxDuty.toNat ↔
      NearSeventh maxDuty.toNat k := by
    have hscale : (sevenths k : ℚ) / 7 - (k : ℚ) / 1000 = (1000 * sevenths k - 7 * k) / 7000 := by
      ring
    rw [hscale, abs_div, abs_of_pos (by norm_num : (0 : ℚ) < 7000), div_le_div_iff₀ (by norm_num) hmax,
      one_mul]
    unfold NearSeventh
    exact_mod_cast Iff.rfl
  rw [← hcross]
  constructor
  · intro h
    exact h .fl .bl
  · intro h w w'
    have hself : (0 : ℚ) ≤ 1 / maxDuty.toNat := by positivity
    cases w <;> cases w' <;> simp only [sub_self, abs_zero, hself] <;>
      first | exact h | (rw [abs_sub_comm]; exact h)

end Fractions

/-! ## Which duty ranges have four alike wheels -/

/-- From 876 microseconds on the slow timers count the whole period, so a pulse that falls short of
it by `c` microseconds is near exactly when `c` is at most one duty step. -/
theorem nearSeventh_high {hi c : ℕ} (hc : c ≤ 124) :
    NearSeventh hi (1000 - c) ↔ c * hi ≤ 1000 := by
  have hs : sevenths (1000 - c) = 7 := by
    unfold sevenths
    omega
  have hdiff : 1000 * ((7 : ℕ) : ℤ) - 7 * ((1000 - c : ℕ) : ℤ) = 7 * c := by omega
  unfold NearSeventh
  rw [hs, hdiff, abs_of_nonneg (by omega)]
  have hassoc : (7 * (c : ℤ)) * hi = 7 * ((c * hi : ℕ) : ℤ) := by push_cast; ring
  rw [hassoc]
  omega

theorem nearSeventh_coarse {hi k : ℕ} (hk : k ≤ 1000) (hhi : hi ≤ 8) : NearSeventh hi k := by
  have hoff : |1000 * (sevenths k : ℤ) - 7 * k| ≤ 875 := by
    have hs : sevenths k ≤ 7 := by
      unfold sevenths
      omega
    have hdef : sevenths k = k * 7999 / 1000000 := rfl
    rw [abs_le]
    -- within each of the eight steps the bound is linear
    interval_cases sevenths k <;> omega
  have hhi' : (hi : ℤ) ≤ 8 := by exact_mod_cast hhi
  unfold NearSeventh
  calc |1000 * (sevenths k : ℤ) - 7 * k| * hi ≤ 875 * 8 :=
        mul_le_mul hoff hhi' (Int.natCast_nonneg hi) (by norm_num)
    _ = 7000 := by norm_num

theorem requestedUs_le {lo hi : ℕ} (hle : lo ≤ hi) (d : ℕ) : requestedUs lo hi d ≤ 1000 :=
  share_le (interpolate_le hle (Nat.min_le_right d hi))

/-- The ranges on which every duty is alike: at most 8 levels, 10 levels, one pulse width, or the two
widths "full" and "one duty step short of full" with a step of whole microseconds. -/
def AlikeRange (lo hi : ℕ) : Prop := hi ≤ 8 ∨ hi = 10 ∨ lo = hi ∨ (lo + 1 = hi ∧ 1000 % hi = 0)

theorem nearSeventh_zero (hi : ℕ) : NearSeventh hi 0 := by
  unfold NearSeventh sevenths
  norm_num

theorem nearSeventh_of_alikeRange {lo hi : ℕ} (hlo : 0 < lo) (hle : lo ≤ hi) (h : AlikeRange lo hi)
    (d : ℕ) : NearSeventh hi (requestedUs lo hi d) := by
  obtain h8 | rfl | rfl | ⟨hpred, hdvd⟩ := h
  · exact nearSeventh_coarse (requestedUs_le hle d) h8
  · have hp := interpolate_le hle (Nat.min_le_right d 10)
    unfold requestedUs
    generalize interpolate lo 10 (min d 10) = p at hp
    unfold NearSeventh sevenths share
    interval_cases p <;> norm_num
  · unfold requestedUs
    rcases Nat.eq_zero_or_pos (min d lo) with h0 | hpos
    · rw [h0, interpolate_zero, share_zero]
      exact nearSeventh_zero lo
    · have hfull : interpolate lo lo (min d lo) = lo :=
        le_antisymm (interpolate_le le_rfl (Nat.min_le_right d lo)) (le_interpolate hpos)
      rw [hfull, share_full hlo]
      exact (nearSeventh_high (c := 0) (by norm_num)).mpr (by omega)
  · by_cases h8 : hi ≤ 8
    · exact nearSeventh_coarse (requestedUs_le hle d) h8
    have hbound := interpolate_le hle (Nat.min_le_right d hi)
    unfold requestedUs
    rcases Nat.eq_zero_or_pos (min d hi) with h0 | hpos
    · rw [h0, interpolate_zero, share_zero]
      exact nearSeventh_zero hi
    · have hlow := @le_interpolate lo hi _ hpos
      -- one duty step is `c` whole microseconds
      obtain ⟨c, hc⟩ := Nat.dvd_of_mod_eq_zero hdvd
      have hcomm : c * hi = 1000 := by rw [Nat.mul_comm, ← hc]
      have hc124 : c ≤ 124 := by
        have hnine : c * 9 ≤ c * hi := Nat.mul_le_mul_left c (by omega)
        omega
      rcases (by omega : interpolate lo hi (min d hi) = hi ∨ interpolate lo hi (min d hi) = hi - 1)
        with heq | heq
      · rw [heq, share_full (by omega)]
        exact (nearSeventh_high (c := 0) (by norm_num)).mpr (by omega)
      · have hone : hi - (hi - 1) = 1 := by omega
        have hshare : share 1000 hi (hi - 1) = 1000 - c :=
          share_of_shortfall (by omega) (by rw [hone]; omega) (by rw [hone]; omega)
        rw [heq, hshare]
        exact (nearSeventh_high hc124).mpr hcomm.le

/-- A shortfall of `e` levels that is not a whole number of microseconds, or is more than one duty
step, is not alike. -/
theorem not_nearSeventh_shortfall {hi e : ℕ} (he : 0 < e) (hehi : e ≤ hi) (hsmall : e * 1000 ≤ 123 * hi)
    (h : 2 ≤ e ∨ ¬ 1000 % hi = 0) : ¬ NearSeventh hi (share 1000 hi (hi - e)) := by
  have hhi : 0 < hi := by omega
  have hsub : hi - (hi - e) = e := by omega
  -- the shortfall rounded up to whole microseconds
  have hdiv := Nat.div_add_mod (e * 1000 + (hi - 1)) hi
  have hmod := Nat.mod_lt (e * 1000 + (hi - 1)) hhi
  generalize hcdef : (e * 1000 + (hi - 1)) / hi = c at hdiv
  rw [Nat.mul_comm] at hdiv
  have h0 : e * 1000 ≤ c * hi := by omega
  have h1 : c * hi < e * 1000 + hi := by omega
  have hc124 : c ≤ 124 := by
    have hlt : c * hi < 124 * hi := by omega
    exact (Nat.lt_of_mul_lt_mul_right hlt).le
  have hshare : share 1000 hi (hi - e) = 1000 - c :=
    share_of_shortfall (by omega) (by rwa [hsub]) (by rwa [hsub])
  rw [hshare, nearSeventh_high hc124]
  intro hle
  rcases h with h2 | hdvd
  · omega
  · have he1 : e = 1 := by omega
    subst he1
    have hexact : c * hi = 1000 := by omega
    exact hdvd (by rw [← hexact]; exact Nat.mul_mod_left c hi)

theorem exists_not_nearSeventh {lo hi : ℕ} (hlo : 0 < lo) (hle : lo ≤ hi) (h : ¬ AlikeRange lo hi) :
    ∃ d ≤ hi, ¬ NearSeventh hi (requestedUs lo hi d) := by
  unfold AlikeRange at h
  push Not at h
  obtain ⟨h8, h10, hne, hpred⟩ := h
  -- one level short of full, or two when one level is a whole number of microseconds
  obtain ⟨e, he, hehi, hloe, hsmall, hcond⟩ : ∃ e, 0 < e ∧ e ≤ hi ∧ lo ≤ hi - e ∧
      e * 1000 ≤ 123 * hi ∧ (2 ≤ e ∨ ¬ 1000 % hi = 0) := by
    by_cases hdvd : 1000 % hi = 0
    · have hlo2 : lo + 1 ≠ hi := fun heq => hpred heq hdvd
      have h17 : 17 ≤ hi := by
        by_contra hlt
        have h16 : hi ≤ 16 := by omega
        interval_cases hi <;> omega
      exact ⟨2, by omega, by omega, by omega, by omega, .inl le_rfl⟩
    · exact ⟨1, by omega, by omega, by omega, by omega, .inr hdvd⟩
  have hlt : hi - e ≤ hi := Nat.sub_le hi e
  obtain ⟨p, _, hp, heq⟩ := exists_interpolate_eq hlo (by omega) hloe hlt
  refine ⟨p, hp, ?_⟩
  unfold requestedUs
  rw [Nat.min_eq_left hp, heq]
  exact not_nearSeventh_shortfall he hehi hsmall hcond

/-- Which duties, and which duty ranges as a whole, the four wheels answer alike. -/
theorem four_wheels_alike_iff (minDuty maxDuty : UInt16) (hmin : 0 < minDuty) (hle : minDuty ≤ maxDuty)
    (hmax : maxDuty ≤ 255) :
    (∀ d, WheelsAlike minDuty maxDuty d ↔
      NearSeventh maxDuty.toNat (requestedUs minDuty.toNat maxDuty.toNat d.toInt.natAbs)) ∧
    ((∀ d, WheelsAlike minDuty maxDuty d) ↔ AlikeRange minDuty.toNat maxDuty.toNat) := by
  have hlo : 0 < minDuty.toNat := UInt16.lt_iff_toNat_lt.mp hmin
  have hlohi : minDuty.toNat ≤ maxDuty.toNat := UInt16.le_iff_toNat_le.mp hle
  have h255 : maxDuty.toNat ≤ 255 := UInt16.le_iff_toNat_le.mp hmax
  have hpos : 0 < maxDuty := UInt16.lt_iff_toNat_lt.mpr (lt_of_lt_of_le hlo hlohi)
  have heach := fun d => wheelsAlike_iff minDuty maxDuty d hle hpos
  refine ⟨heach, ?_⟩
  constructor
  · intro h
    by_contra hrange
    obtain ⟨d, hd, hbad⟩ := exists_not_nearSeventh hlo hlohi hrange
    have habs : (Int16.ofInt d).toInt.natAbs = d := by
      rw [CInt.toInt_int16 (by omega) (by omega)]
      exact Int.natAbs_natCast d
    have hgood := (heach (Int16.ofInt d)).mp (h _)
    rw [habs] at hgood
    exact hbad hgood
  · intro hrange d
    exact (heach d).mpr (nearSeventh_of_alikeRange hlo hlohi hrange _)

theorem four_wheels_alike_shipped :
    (∀ d, WheelsAlike 50 70 d ↔ NearSeventh 70 (requestedUs 50 70 d.toInt.natAbs)) ∧
    ((∀ d, WheelsAlike 50 70 d) ↔ AlikeRange 50 70) :=
  four_wheels_alike_iff 50 70 (by decide) (by decide) (by decide)

/-- The autotest's duty 45 in the robot's range: 885 microseconds, the whole period on FL, FR and BR
and 885 thousandths of it on BL. -/
theorem wheels_not_alike_autotest : ¬ WheelsAlike 50 70 45 := by
  intro h
  have hfl : driveFraction 50 70 45 .fl = 1 := by decide +kernel
  have hbl : driveFraction 50 70 45 .bl = 885 / 1000 := by decide +kernel
  have h70 : (70 : UInt16).toNat = 70 := rfl
  have hpair := h .fl .bl
  rw [hfl, hbl, h70] at hpair
  norm_num at hpair

end Mecanum.Robot
