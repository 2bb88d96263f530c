import Mathlib.Algebra.Order.Field.Rat
import Mathlib.Tactic.FieldSimp
import Mecanum.Robot.DpadMoves

/-! # The stick mix against the D-pad

The mix is bounded and odd in the stick positions, and its left and right agree with the D-pad.
Its up and down do not: 0 is up, and `ps2_thread` does not negate the axis, so the stick pushed up turns the
wheels the way DOWN does.
-/

namespace Mecanum.Robot
open Motor Mecanum.Wheel Gamepad FloatArith CInt
set_option autoImplicit false

section Parts
variable (ps2 : Ps2)

/-- The part of the mix that the left stick gives. -/
def translation : WheelId → ℤ
  | .fr => stickValue ps2 pssLy + stickValue ps2 pssLx
  | .fl => stickValue ps2 pssLy - stickValue ps2 pssLx
  | .br => stickValue ps2 pssLy - stickValue ps2 pssLx
  | .bl => stickValue ps2 pssLy + stickValue ps2 pssLx

/-- The two parts of the right stick. -/
def forwardBackward : ℤ := stickValue ps2 pssRy

def rotation : WheelId → ℤ
  | .fr => -stickValue ps2 pssRx
  | .fl => stickValue ps2 pssRx
  | .br => -stickValue ps2 pssRx
  | .bl => stickValue ps2 pssRx

/-- The directions the left stick is deflected to; 0 is left and up. -/
def Deflected : DpadButton → Prop
  | .left => ps2Analog ps2 pssLx < 128
  | .right => 128 < ps2Analog ps2 pssLx
  | .up => ps2Analog ps2 pssLy < 128
  | .down => 128 < ps2Analog ps2 pssLy

/-- The translation is a non-negative combination of the displacements of the directions the stick is
deflected to. -/
def AgreesWithDpad : Prop :=
  ∃ share : DpadButton → ℚ, (∀ b, 0 ≤ share b) ∧ (∀ b, ¬ Deflected ps2 b → share b = 0) ∧
    ∀ w, (translation ps2 w : ℚ) = ∑ b, share b * b.displacement w

/-- Every stick byte `b` of one frame is `256 - b` in the other. -/
def Reflects (ps2' : Ps2) : Prop :=
  ∀ channel ∈ [pssLx, pssLy, pssRx, pssRy],
    (ps2Analog ps2 channel).toNat + (ps2Analog ps2' channel).toNat = 256

/-- The left stick is at most one step off the middle of its vertical axis. -/
def CentredVertically : Prop := 127 ≤ ps2Analog ps2 pssLy ∧ ps2Analog ps2 pssLy ≤ 129

end Parts

def targetSpeedOf {F : Type} (s : ControlState F) (w : WheelId) : ℤ :=
  ((applySticks s).accel w).targetSpeed.toInt

/-- The stick branch saturates at 70, agrees with the D-pad, and turns the wheels the other way for reflected
sticks. -/
structure SymmetricMix {F : Type} (s : ControlState F) : Prop where
  saturated : ∀ w, targetSpeedOf s w = max (-70) (min 70
    (translation s.ps2 w + forwardBackward s.ps2 + rotation s.ps2 w))
  agrees : AgreesWithDpad s.ps2
  odd : ∀ s' : ControlState F, s'.positionMode = false → Reflects s.ps2 s'.ps2 →
    ∀ w, targetSpeedOf s' w = -targetSpeedOf s w

section Mix
variable {ps2 ps2' : Ps2}

theorem stickMix_eq (ps2 : Ps2) (w : WheelId) : stickMix ps2 w =
    max (-70) (min 70 (translation ps2 w + forwardBackward ps2 + rotation ps2 w)) := by
  have hsum : stickDuty ps2 w = translation ps2 w + forwardBackward ps2 + rotation ps2 w := by
    unfold stickDuty translation forwardBackward rotation
    cases w <;> simp only <;> omega
  unfold stickMix maxSpeed
  rw [hsum]
  simp only
  split <;> split <;> omega

theorem stickValue_neg {channel : UInt8}
    (h : (ps2Analog ps2 channel).toNat + (ps2Analog ps2' channel).toNat = 256) :
    stickValue ps2' channel = -stickValue ps2 channel := by
  have hneg : ((ps2Analog ps2' channel).toNat - 128 : ℤ) * maxSpeed =
      -(((ps2Analog ps2 channel).toNat - 128 : ℤ) * maxSpeed) := by
    rw [← neg_mul]
    congr 1
    omega
  unfold stickValue
  rw [hneg, Int.neg_tdiv]

theorem stickMix_neg (h : Reflects ps2 ps2') (w : WheelId) :
    stickMix ps2' w = -stickMix ps2 w := by
  have hlx := stickValue_neg (h pssLx (by decide))
  have hly := stickValue_neg (h pssLy (by decide))
  have hrx := stickValue_neg (h pssRx (by decide))
  have hry := stickValue_neg (h pssRy (by decide))
  rw [stickMix_eq, stickMix_eq]
  unfold translation forwardBackward rotation
  rw [hlx, hly, hrx, hry]
  cases w <;> simp only <;> omega

/-- The scaled axis has the sign of the deflection, and is 0 only within one step of the middle. -/
theorem stickValue_cases (ps2 : Ps2) (channel : UInt8) :
    ((ps2Analog ps2 channel).toNat < 127 ∧ stickValue ps2 channel < 0) ∨
    (127 ≤ (ps2Analog ps2 channel).toNat ∧ (ps2Analog ps2 channel).toNat ≤ 129 ∧
      stickValue ps2 channel = 0) ∨
    (129 < (ps2Analog ps2 channel).toNat ∧ 0 < stickValue ps2 channel) := by
  have hsize : (maxSpeed : ℤ) = 70 := rfl
  unfold stickValue
  rw [hsize]
  generalize (ps2Analog ps2 channel).toNat = byte
  rcases le_total (128 : ℤ) byte with h | h
  · have hquot : ((byte - 128 : ℤ) * 70).tdiv 128 = (byte - 128 : ℤ) * 70 / 128 :=
      Int.tdiv_eq_ediv_of_nonneg (by omega)
    rw [hquot]
    omega
  · have hquot : ((byte - 128 : ℤ) * 70).tdiv 128 = -((128 - byte : ℤ) * 70 / 128) := by
      have hflip : (byte - 128 : ℤ) * 70 = -((128 - byte : ℤ) * 70) := by omega
      rw [hflip, Int.neg_tdiv, Int.tdiv_eq_ediv_of_nonneg (by omega)]
    rw [hquot]
    omega

theorem centredVertically_iff : CentredVertically ps2 ↔
    127 ≤ (ps2Analog ps2 pssLy).toNat ∧ (ps2Analog ps2 pssLy).toNat ≤ 129 := by
  unfold CentredVertically
  rw [UInt8.le_iff_toNat_le, UInt8.le_iff_toNat_le]
  rfl

theorem sum_dpad (f : DpadButton → ℚ) : ∑ b, f b = f .left + f .right + f .up + f .down := by
  show f .left + (f .right + (f .up + (f .down + 0))) = _
  ring

/-- The front wheels together turn with the vertical axis, and with UP and against DOWN. -/
theorem vertical_eq {share : DpadButton → ℚ}
    (h : ∀ w, (translation ps2 w : ℚ) = ∑ b, share b * b.displacement w) :
    (stickValue ps2 pssLy : ℚ) = 50 * (share .up - share .down) := by
  have hfl := h .fl
  have hfr := h .fr
  have hsize : stepSize.toInt = 50 := rfl
  rw [sum_dpad] at hfl hfr
  unfold translation DpadButton.displacement DpadButton.heading at hfl hfr
  simp only [hsize] at hfl hfr
  push_cast at hfl hfr
  linarith

theorem centred_of_agrees (h : AgreesWithDpad ps2) : CentredVertically ps2 := by
  obtain ⟨share, hnonneg, hzero, hsum⟩ := h
  have hvertical := vertical_eq hsum
  have hup := hnonneg .up
  have hdown := hnonneg .down
  rw [centredVertically_iff]
  rcases stickValue_cases ps2 pssLy with ⟨hbyte, hneg⟩ | ⟨hlow, hhigh, -⟩ | ⟨hbyte, hpos⟩
  · -- up: DOWN has no share, and the axis is negative
    have hnot : ¬ Deflected ps2 .down := fun hlt =>
      absurd (UInt8.lt_iff_toNat_lt.mp hlt) (by simp; omega)
    have hcast : (stickValue ps2 pssLy : ℚ) < 0 := Int.cast_lt_zero.mpr hneg
    rw [hzero .down hnot] at hvertical
    linarith
  · exact ⟨hlow, hhigh⟩
  · have hnot : ¬ Deflected ps2 .up := fun hlt =>
      absurd (UInt8.lt_iff_toNat_lt.mp hlt) (by simp; omega)
    have hcast : (0 : ℚ) < stickValue ps2 pssLy := Int.cast_pos.mpr hpos
    rw [hzero .up hnot] at hvertical
    linarith

/-- With the vertical axis at 0 the horizontal one is a share of LEFT or of RIGHT. -/
theorem agrees_of_centred (h : CentredVertically ps2) : AgreesWithDpad ps2 := by
  have hly : stickValue ps2 pssLy = 0 := by
    obtain ⟨hlow, hhigh⟩ := centredVertically_iff.mp h
    rcases stickValue_cases ps2 pssLy with ⟨hbyte, -⟩ | ⟨-, -, hzero⟩ | ⟨hbyte, -⟩
    · omega
    · exact hzero
    · omega
  have hsize : stepSize.toInt = 50 := rfl
  have hcases := stickValue_cases ps2 pssLx
  refine ⟨fun
    | .left => max 0 (-stickValue ps2 pssLx / 50)
    | .right => max 0 (stickValue ps2 pssLx / 50)
    | _ => 0, ?_, ?_, ?_⟩
  · intro b
    cases b
    all_goals first | exact le_max_left _ _ | exact le_rfl
  · intro b hb
    cases b with
    | left =>
        have hle : 0 ≤ stickValue ps2 pssLx := by
          have hbyte : ¬ (ps2Analog ps2 pssLx).toNat < 128 := fun hlt =>
            hb (UInt8.lt_iff_toNat_lt.mpr hlt)
          omega
        have hcast : (0 : ℚ) ≤ stickValue ps2 pssLx := Int.cast_nonneg hle
        exact max_eq_left (by linarith)
    | right =>
        have hle : stickValue ps2 pssLx ≤ 0 := by
          have hbyte : ¬ 128 < (ps2Analog ps2 pssLx).toNat := fun hlt =>
            hb (UInt8.lt_iff_toNat_lt.mpr hlt)
          omega
        have hcast : (stickValue ps2 pssLx : ℚ) ≤ 0 := Int.cast_nonpos.mpr hle
        exact max_eq_left (by linarith)
    | up => rfl
    | down => rfl
  · intro w
    have hdiff : max 0 ((stickValue ps2 pssLx : ℚ) / 50) - max 0 (-(stickValue ps2 pssLx : ℚ) / 50) =
        stickValue ps2 pssLx / 50 := by
      rcases le_total 0 (stickValue ps2 pssLx : ℚ) with hx | hx
      · rw [max_eq_right (by linarith), max_eq_left (by linarith), sub_zero]
      · rw [max_eq_left (by linarith), max_eq_right (by linarith)]
        ring
    rw [sum_dpad]
    unfold translation DpadButton.displacement DpadButton.heading
    rw [hly]
    cases w <;> simp only [hsize] <;> push_cast <;> linarith

end Mix

theorem targetSpeedOf_eq {F : Type} {s : ControlState F} (hmode : s.positionMode = false)
    (w : WheelId) : targetSpeedOf s w = stickMix s.ps2 w := by
  unfold targetSpeedOf
  rw [applySticks_targetSpeed, hmode]
  exact toInt_stickMix s.ps2 w

/-- Outside position mode the stick branch is a symmetric mix that agrees with the D-pad exactly when
the left stick is vertically centred. -/
theorem symmetric_mix_iff {F : Type} (s : ControlState F) (hmode : s.positionMode = false) :
    SymmetricMix s ↔ CentredVertically s.ps2 := by
  constructor
  · intro h
    exact centred_of_agrees h.agrees
  · intro h
    refine ⟨fun w => ?_, agrees_of_centred h, fun s' hmode' hreflects w => ?_⟩
    · rw [targetSpeedOf_eq hmode]
      exact stickMix_eq s.ps2 w
    · rw [targetSpeedOf_eq hmode, targetSpeedOf_eq hmode']
      exact stickMix_neg hreflects w

theorem symmetric_mix_shipped : SymmetricMix shippedRobot ↔ CentredVertically shippedRobot.ps2 :=
  symmetric_mix_iff shippedRobot (by decide +kernel)

/-- The robot with the left stick pushed up in the frame read last. -/
def pushedUp : ControlState ℚ := shippedRobot.latch StickWatch.stickUpFrame 0

/-- The stick pushed up turns every wheel against UP. -/
theorem stick_up_against_dpad : pushedUp.positionMode = false ∧
    (∀ w, targetSpeedOf pushedUp w = -70 ∧ 0 < DpadButton.up.displacement w) ∧
    ¬ SymmetricMix pushedUp := by
  refine ⟨by decide +kernel, by decide +kernel, fun h => ?_⟩
  have hcentred := centred_of_agrees h.agrees
  revert hcentred
  unfold CentredVertically
  decide +kernel

end Mecanum.Robot
