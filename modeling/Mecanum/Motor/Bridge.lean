import Mecanum.Motor.Driver

/-! # The wires and the L9110S bridge

`Lines` is what the driver's writes leave on the wires. `Lines.ia` and `Lines.ib` are the two
bridge inputs at a time within the PWM period, as the comment in `zephyr_motor_run` wires them:
the PWM pin drives IA and `pin_in1` drives IB. `Lines.drive` is the reading of that comment for
the combinations it names, as a signed pulse width; `drivenAt_of_drive` is its meaning on the
two inputs.
-/

namespace Mecanum.Motor
set_option autoImplicit false

structure Pwm where
  period : UInt32
  pulse : UInt32
  inverted : Bool
  deriving DecidableEq

/-- The levels on the wires. Before the first `pwm_set` the channel is off and its pin is low. -/
structure Lines where
  in1 : Bool
  in2 : Bool
  pwm : Option Pwm
  deriving DecidableEq

namespace Lines

def reset : Lines := ⟨false, false, none⟩

def apply (l : Lines) : Output → Lines
  | .pinIn1 level => { l with in1 := level }
  | .pinIn2 level => { l with in2 := level }
  | .pwmSet period pulse inverted => { l with pwm := some ⟨period, pulse, inverted⟩ }
  | .kBusyWait _ => l

def applyAll (l : Lines) (outs : List Output) : Lines := outs.foldl apply l

def pulse (l : Lines) : ℕ := (l.pwm.map fun p => p.pulse.toNat).getD 0

def period (l : Lines) : ℕ := (l.pwm.map fun p => p.period.toNat).getD 0

def inverted (l : Lines) : Bool := (l.pwm.map Pwm.inverted).getD false

/-- IA at time `t` of the PWM period. -/
def ia (l : Lines) (t : ℕ) : Bool := decide (t < l.pulse) ^^ l.inverted

def ib (l : Lines) : Bool := l.in1

/-- The comment's reading, as a signed pulse: `pin_in1` low with normal polarity is forward by the
pulse, `pin_in1` high with inverted polarity is backward by the pulse. The comment reads no other
combination as a drive. -/
def drive (l : Lines) : Option ℤ :=
  match l.in1, l.inverted with
  | false, false => some l.pulse
  | true, true => some (-(l.pulse : ℤ))
  | _, _ => none

def DrivenAt (l : Lines) (t : ℕ) : Prop := l.ia t ≠ l.ib

instance (l : Lines) (t : ℕ) : Decidable (l.DrivenAt t) := inferInstanceAs (Decidable (_ ≠ _))

/-- The bridge is off at every point of the PWM period. -/
def Off (l : Lines) : Prop := ∀ t, (∀ p ∈ l.pwm, t < p.period.toNat) → ¬ l.DrivenAt t

/-- The PWM setting keeps its pin low over the whole period: no request yet, no pulse at normal
polarity, or a pulse of the whole period at inverted polarity. -/
def PwmLow (l : Lines) : Prop :=
  ∀ p ∈ l.pwm, if p.inverted then p.period ≤ p.pulse else p.pulse = 0

@[simp] theorem applyAll_nil (l : Lines) : l.applyAll [] = l := rfl

@[simp] theorem applyAll_cons (l : Lines) (o : Output) (outs : List Output) :
    l.applyAll (o :: outs) = (l.apply o).applyAll outs := rfl

theorem applyAll_append (l : Lines) (outs outs' : List Output) :
    l.applyAll (outs ++ outs') = (l.applyAll outs).applyAll outs' := List.foldl_append

@[simp] theorem applyAll_setPins (l : Lines) (v w : Bool) :
    l.applyAll (setPins v w) = { l with in1 := v, in2 := w } := rfl

/-- A signed pulse `s` drives the motor exactly for the first `|s|` of the period, forward (IA high)
when `s` is positive and backward (IB high) when it is negative. -/
theorem drivenAt_of_drive {l : Lines} {s : ℤ} (h : l.drive = some s) (t : ℕ) :
    (l.DrivenAt t ↔ t < s.natAbs) ∧
      (0 < s → l.ib = false) ∧ (s < 0 → l.ib = true) := by
  unfold drive at h
  unfold DrivenAt ia ib
  cases h1 : l.in1 <;> cases hi : l.inverted <;> simp only [h1, hi] at h
  · obtain rfl := Option.some.inj h
    simp
  · cases h
  · cases h
  · obtain rfl := Option.some.inj h
    simp

/-- With `pin_in1` low the bridge is off exactly when the PWM pin stays low. -/
theorem off_iff_pwmLow {l : Lines} (h1 : l.in1 = false) (hperiod : ∀ p ∈ l.pwm, 0 < p.period) :
    l.Off ↔ l.PwmLow := by
  unfold Off PwmLow DrivenAt ia ib pulse inverted
  cases hp : l.pwm with
  | none => simp [h1]
  | some p =>
      have hpos : 0 < p.period.toNat := UInt32.lt_iff_toNat_lt.mp (hperiod p hp)
      cases hi : p.inverted
      · simp only [hi, h1, Option.map_some, Option.getD_some, Bool.xor_false, Option.mem_def,
          Option.some.injEq, forall_eq', Bool.false_eq_true, if_false, ne_eq, not_not,
          decide_eq_false_iff_not, not_lt]
        constructor
        · intro h
          have h0 := h 0 hpos
          exact UInt32.toNat_inj.mp (Nat.le_zero.mp h0)
        · rintro h t -
          rw [h]
          exact Nat.zero_le t
      · simp only [hi, h1, Option.map_some, Option.getD_some, Bool.xor_true, Option.mem_def,
          Option.some.injEq, forall_eq', if_true, ne_eq, not_not, Bool.not_eq_false',
          decide_eq_true_eq, UInt32.le_iff_toNat_le]
        constructor
        · intro h
          by_contra hlt
          exact absurd (h p.pulse.toNat (by omega)) (lt_irrefl _)
        · intro h t ht
          omega

end Lines

/-! ## What a run leaves on the wires -/

section RunLines
variable (motor : ZephyrMotor) (mode : MotorMode) (duty : Int16) (l : Lines)

def runPwm : Pwm where
  period := pwmUsec motorPwmPeriodUs
  pulse := pwmUsec ((match mode with
    | .forward | .backward => pwmDuty motor duty
    | .brake => motor.maxDuty
    | .stop => 0).toUInt32 * motorPwmPeriodUs / motor.maxDuty.toUInt32)
  inverted := decide (actualMode motor mode = .backward)

def runIn1 : Bool := decide (actualMode motor mode = .backward ∨ actualMode motor mode = .brake)

/-- A run ends in its output switch: the wires it leaves behind do not depend on the wires before,
nor on whether a dead time came first. -/
theorem applyAll_zephyrMotorRun :
    l.applyAll (zephyrMotorRun motor mode duty).2 =
      ⟨runIn1 motor mode, false, some (runPwm motor mode duty)⟩ := by
  unfold zephyrMotorRun deadTime runPwm runIn1
  split <;> cases mode <;> cases hr : motor.reversed <;>
    simp [Lines.applyAll_append, actualMode, drive, hr, setPwm, pwmDuty, absDuty, clampDuty,
      rescale, rescaleProduct, Lines.apply]

end RunLines

end Mecanum.Motor
