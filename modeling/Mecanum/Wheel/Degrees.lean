import Mecanum.Foundations.Conversion
import Mecanum.Foundations.Single
import Mecanum.Wheel.Accelmotor

/-! # Angles

The controller's settings and readings in degrees, `ratio` counts to a turn. The `float` expressions
divide only at the end, so for a whole `ratio` single precision gives what integer division gives.
-/

namespace Mecanum.Wheel
open Motor FloatArith Conversion
set_option autoImplicit false

section Degrees
variable {F : Type} [FloatArith F]

def zephyrAccelmotorSetRatio (accel : ZephyrAccelmotor F) (ratio : F) : ZephyrAccelmotor F :=
  { accel with ratio := ratio }

/-- `(float)deg * accel->ratio / 360.0f`. -/
def countsOfDeg (accel : ZephyrAccelmotor F) (deg : ℤ) : F := ofInt deg * accel.ratio / lit 360

/-- `(float)counts * 360.0f / accel->ratio`. -/
def degOfCounts (accel : ZephyrAccelmotor F) (counts : ℤ) : F := ofInt counts * lit 360 / accel.ratio

def zephyrAccelmotorSetTargetPosDeg (accel : ZephyrAccelmotor F) (deg : Int32) : ZephyrAccelmotor F :=
  { accel with targetPos := toInt32 (countsOfDeg accel deg.toInt) }

def zephyrAccelmotorGetTargetPosDeg (accel : ZephyrAccelmotor F) : Int32 :=
  toInt32 (degOfCounts accel accel.targetPos.toInt)

def zephyrAccelmotorSetTargetSpeedDeg (accel : ZephyrAccelmotor F) (speed : Int16) :
    ZephyrAccelmotor F :=
  { accel with targetSpeed := toInt16 (countsOfDeg accel speed.toInt) }

def zephyrAccelmotorGetTargetSpeedDeg (accel : ZephyrAccelmotor F) : Int16 :=
  toInt16 (degOfCounts accel accel.targetSpeed.toInt)

/-- What the target reads in degrees after it has been set and then `n` times set to its reading. -/
def targetPosReading (accel : ZephyrAccelmotor F) (deg : Int32) (n : ℕ) : ℤ :=
  (zephyrAccelmotorGetTargetPosDeg
    ((fun a => zephyrAccelmotorSetTargetPosDeg a (zephyrAccelmotorGetTargetPosDeg a))^[n]
      (zephyrAccelmotorSetTargetPosDeg accel deg))).toInt

def targetSpeedReading (accel : ZephyrAccelmotor F) (speed : Int16) (n : ℕ) : ℤ :=
  (zephyrAccelmotorGetTargetSpeedDeg
    ((fun a => zephyrAccelmotorSetTargetSpeedDeg a (zephyrAccelmotorGetTargetSpeedDeg a))^[n]
      (zephyrAccelmotorSetTargetSpeedDeg accel speed))).toInt

end Degrees

/-! ## Single precision -/

section Single
variable {accel : ZephyrAccelmotor Single} {k : ℤ} (hk : 0 < k) (hratio : accel.ratio.val = k)
include hk hratio

theorem trunc_countsOfDeg {d : ℤ} (hd : |d * k| < 16777216) :
    Exact.trunc (countsOfDeg accel d).val = there k 360 d := by
  have hd' : |d| < 16777216 := (abs_le_abs_mul hk d).trans_lt hd
  have hval : (countsOfDeg accel d).val = Exact.single ((d * k : ℤ) / (360 : ℤ)) := by
    have hproduct := Exact.single_intCast hd
    have hturn := Exact.single_intCast (n := 360) (by norm_num)
    push_cast at hproduct hturn
    simp [countsOfDeg, Exact.single_intCast hd', hratio, hproduct, hturn]
  rw [hval]
  exact Exact.trunc_single_div (by norm_num) hd

theorem trunc_degOfCounts {t : ℤ} (ht : |t * 360| < 16777216) :
    Exact.trunc (degOfCounts accel t).val = (t * 360).tdiv k := by
  have ht' : |t| < 16777216 := (abs_le_abs_mul (by norm_num) t).trans_lt ht
  have hval : (degOfCounts accel t).val = Exact.single ((t * 360 : ℤ) / (k : ℤ)) := by
    have hproduct := Exact.single_intCast ht
    have hturn := Exact.single_intCast (n := 360) (by norm_num)
    push_cast at hproduct hturn
    simp [degOfCounts, Exact.single_intCast ht', hratio, hproduct, hturn]
  rw [hval]
  exact Exact.trunc_single_div hk ht

theorem toInt32_countsOfDeg {d : ℤ} (hd : |d * k| < 16777216) :
    (toInt32 (countsOfDeg accel d)).toInt = there k 360 d := by
  have hsize := (abs_there_mul_le (b := 360) (by norm_num) k d).trans_lt hd
  have hbounds := abs_lt.mp ((abs_le_abs_mul (by norm_num) _).trans_lt hsize)
  have htrunc := trunc_countsOfDeg hk hratio hd
  rw [Single.toInt32_eq, Exact.toInt_toInt32 (by omega) (by omega), htrunc]

theorem toInt16_countsOfDeg {d : ℤ} (hd : |d * k| < 11796480) :
    (toInt16 (countsOfDeg accel d)).toInt = there k 360 d := by
  have hsize := (abs_there_mul_le (b := 360) (by norm_num) k d).trans_lt hd
  have hbounds := abs_lt.mp hsize
  have htrunc := trunc_countsOfDeg hk hratio (hd.trans (by norm_num))
  rw [Single.toInt16_eq, Exact.toInt_toInt16 (by omega) (by omega), htrunc]

theorem toInt32_degOfCounts {t : ℤ} (ht : |t * 360| < 16777216) :
    (toInt32 (degOfCounts accel t)).toInt = (t * 360).tdiv k := by
  have hsize := (between_onGrid hk (t * 360)).abs_le.trans_lt ht
  have hbounds := abs_lt.mp ((abs_le_abs_mul hk _).trans_lt hsize)
  have htrunc := trunc_degOfCounts hk hratio ht
  rw [Single.toInt32_eq, Exact.toInt_toInt32 (by omega) (by omega), htrunc]

theorem toInt16_degOfCounts {t : ℤ} (ht : |t * 360| < 16777216) {x : Int16}
    (hx : Between ((t * 360).tdiv k) x.toInt) :
    (toInt16 (degOfCounts accel t)).toInt = (t * 360).tdiv k := by
  have hbounds := CInt.int16_bounds x
  have htrunc := trunc_degOfCounts hk hratio ht
  unfold Between at hx
  rw [Single.toInt16_eq, Exact.toInt_toInt16 (by omega) (by omega), htrunc]

theorem targetPosDeg_back {x : Int32} (hx : |x.toInt * k| < 16777216) :
    (zephyrAccelmotorGetTargetPosDeg (zephyrAccelmotorSetTargetPosDeg accel x)).toInt =
      back k 360 x.toInt := by
  have hsize := (abs_there_mul_le (b := 360) (by norm_num) k x.toInt).trans_lt hx
  have htarget := toInt32_countsOfDeg hk hratio hx
  rw [← htarget] at hsize
  rw [back, ← htarget]
  exact toInt32_degOfCounts hk (hratio : (zephyrAccelmotorSetTargetPosDeg accel x).ratio.val = k) hsize

theorem targetSpeedDeg_back {x : Int16} (hx : |x.toInt * k| < 11796480) :
    (zephyrAccelmotorGetTargetSpeedDeg (zephyrAccelmotorSetTargetSpeedDeg accel x)).toInt =
      back k 360 x.toInt := by
  have hsize := (abs_there_mul_le (b := 360) (by norm_num) k x.toInt).trans_lt hx
  have htarget := toInt16_countsOfDeg hk hratio hx
  have hback := between_back hk (b := 360) (by norm_num) x.toInt
  rw [← htarget] at hsize
  rw [back, ← htarget] at hback
  rw [back, ← htarget]
  exact toInt16_degOfCounts hk (hratio : (zephyrAccelmotorSetTargetSpeedDeg accel x).ratio.val = k)
    (hsize.trans (by norm_num)) hback

/-- In single precision and for a whole number of counts to a turn. -/
theorem degrees_settle :
    (∀ deg : Int32, |deg.toInt * k| < 16777216 →
      Readings k 360 deg.toInt (targetPosReading accel deg)) ∧
    ∀ speed : Int16, |speed.toInt * k| < 11796480 →
      Readings k 360 speed.toInt (targetSpeedReading accel speed) := by
  have hfits : ∀ bound d, |d * k| < bound → |back k 360 d * k| < bound := fun bound d hd =>
    (abs_back_mul_le hk (by norm_num) d).trans_lt hd
  constructor
  · intro deg hdeg
    apply readings_of_iterate hk (by norm_num)
    exact value_iterate (fun x y => rfl) (fun x hx => targetPosDeg_back hk hratio hx)
      (hfits 16777216) hdeg
  · intro speed hspeed
    apply readings_of_iterate hk (by norm_num)
    exact value_iterate (fun x y => rfl) (fun x hx => targetSpeedDeg_back hk hratio hx)
      (hfits 11796480) hspeed

end Single

/-- At 700 counts to a turn every reading of 100 degrees, set again, loses a degree down to 90. -/
theorem degrees_settle_700 :
    let wheel : ZephyrAccelmotor Single := zephyrAccelmotorSetRatio
      (zephyrAccelmotorInit (zephyrMotorInit .pwm1 true true false).1 (zephyrEncoderInit true 0).1 0)
      (ofInt 700)
    targetPosReading wheel 100 99 = 90 ∧ targetSpeedReading wheel (-100) 99 = -90 := by
  intro wheel
  have hratio : wheel.ratio.val = (700 : ℤ) := Exact.single_intCast (by norm_num)
  have h := degrees_settle (by norm_num) hratio
  constructor
  · exact (h.1 100 (by decide)).settled 99 (by decide)
  · exact (h.2 (-100) (by decide)).settled 99 (by decide)

end Mecanum.Wheel
