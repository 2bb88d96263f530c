import Mecanum.Foundations.Cadence
import Mecanum.Foundations.CInt
import Mecanum.Foundations.Trace
import Mecanum.Wheel.SampledSpeed

/-! # The control period

The time gate compares 32-bit times and moves `last_tick_time` on by `dt_ms`. As long as the controller is
less than `2 ^ 32` milliseconds behind, it decides as a job of that period does in unbounded time.
-/

namespace Mecanum.Wheel
open Motor FloatArith Trace CInt Cadence
set_option autoImplicit false

/-- A controller with the number of its control steps and the uptime of the last call. -/
structure Paced (F : Type) where
  accel : ZephyrAccelmotor F
  steps : ℕ
  now : ℤ

namespace Paced
variable {F : Type} [FloatArith F]

def step (s : Paced F) (t : Tick) : Paced F where
  accel := s.accel.step t.call
  steps := if gateOpen s.accel t.uptime then s.steps + 1 else s.steps
  now := t.uptime.toInt

/-- Before the first call, `last_tick_time` as `zephyr_accelmotor_init` sets it at `start`. -/
def startAt (accel : ZephyrAccelmotor F) (start : Int64) : Paced F where
  accel := { accel with lastTickTime := uptime32 start }
  steps := 0
  now := start.toInt

example (motor : ZephyrMotor) (encoder : ZephyrEncoder) (start : Int64) :
    (startAt (F := F) (zephyrAccelmotorInit motor encoder start) start).accel =
      zephyrAccelmotorInit motor encoder start := rfl

section Law
variable (start : Int64) (dt : UInt32)

/-- The time since the control step that was due last. -/
def behind (s : Paced F) (uptime : ℤ) : ℤ := backlog start.toInt dt.toNat s.steps uptime

/-- Uptimes do not fall, and the backlog stays below the wrap of the clock. -/
def Timely (s : Paced F) (t : Tick) (_ : Paced F) : Prop :=
  s.now ≤ t.uptime.toInt ∧ s.behind start dt t.uptime.toInt < 4294967296

/-- The call comes at most a period after the one before it. -/
def Prompt (s : Paced F) (t : Tick) (_ : Paced F) : Prop := t.uptime.toInt - s.now ≤ dt.toNat

instance (s s' : Paced F) (t : Tick) : Decidable (Timely start dt s t s') :=
  inferInstanceAs (Decidable (_ ∧ _))

instance (s s' : Paced F) (t : Tick) : Decidable (Prompt dt s t s') :=
  inferInstanceAs (Decidable (_ ≤ _))

/-- The gate decides as in unbounded time, and the control steps never get ahead of the clock. -/
structure PeriodLaw (s : Paced F) (t : Tick) (s' : Paced F) : Prop where
  decides : gateOpen s.accel t.uptime ↔ (dt.toNat : ℤ) ≤ s.behind start dt t.uptime.toInt
  not_ahead : (s'.steps : ℤ) ≤ (t.uptime.toInt - start.toInt) / dt.toNat

/-- A control step for every period that has passed. -/
def KeepsLevel (_ : Paced F) (t : Tick) (s' : Paced F) : Prop :=
  (s'.steps : ℤ) = (t.uptime.toInt - start.toInt) / dt.toNat

structure Inv (s : Paced F) : Prop where
  period : s.accel.dtMs = dt
  clock : (s.accel.lastTickTime.toNat : ℤ) =
    (start.toInt + dt.toNat * s.steps) % 4294967296
  not_negative : 0 ≤ s.behind start dt s.now

/-- The invariant of runs whose calls are prompt. -/
structure LevelInv (s : Paced F) : Prop extends Inv start dt s where
  level : s.behind start dt s.now < dt.toNat

variable {start dt} {s : Paced F} {t : Tick}

omit [FloatArith F] in
theorem behind_at (h : Inv start dt s) (hnow : s.now ≤ t.uptime.toInt) :
    0 ≤ s.behind start dt t.uptime.toInt := by
  have hlater := backlog_add start.toInt dt.toNat s.steps s.now (t.uptime.toInt - s.now)
  rw [add_sub_cancel] at hlater
  have hneg := h.not_negative
  unfold behind at *
  omega

theorem gateOpen_iff (h : Inv start dt s) (ht : Timely start dt s t (s.step t)) :
    gateOpen s.accel t.uptime ↔ (dt.toNat : ℤ) ≤ s.behind start dt t.uptime.toInt := by
  have hnow : ((uptime32 t.uptime).toNat : ℤ) = t.uptime.toInt % 4294967296 :=
    toNat_toUInt32_int64 t.uptime
  have hsub := toNat_sub_of_emod hnow h.clock (behind_at h ht.1) ht.2
  unfold gateOpen
  rw [ge_iff_le, UInt32.le_iff_toNat_le, h.period, ← Nat.cast_le (α := ℤ), hsub]
  rfl

/-- The count of the control steps follows the periodic job. -/
theorem steps_step (h : Inv start dt s) (ht : Timely start dt s t (s.step t)) :
    (s.step t).steps = visit start.toInt dt.toNat s.steps t.uptime.toInt := by
  unfold step visit
  simp only [gateOpen_iff h ht]
  rfl

theorem lastTickTime_step (s : Paced F) (t : Tick) : (s.step t).accel.lastTickTime =
    if gateOpen s.accel t.uptime then s.accel.lastTickTime + s.accel.dtMs
    else s.accel.lastTickTime := by
  unfold step
  rw [ZephyrAccelmotor.step_tick]
  split
  · rw [regulate_eq]
    rfl
  · rfl

theorem inv_step (h : Inv start dt s) (ht : Timely start dt s t (s.step t)) :
    Inv start dt (s.step t) where
  period := (Sampled.dtMs_step ⟨s.accel, none⟩ t).trans h.period
  clock := by
    rw [lastTickTime_step]
    unfold step
    split
    · rw [toNat_add_of_emod h.clock, h.period, Nat.cast_succ, Int.mul_add, Int.mul_one,
        Int.add_assoc]
    · exact h.clock
  not_negative := by
    unfold behind
    rw [steps_step h ht]
    exact backlog_visit_nonneg (behind_at h ht.1)

theorem levelInv_step (h : LevelInv start dt s) (ht : Timely start dt s t (s.step t))
    (hprompt : Prompt dt s t (s.step t)) : LevelInv start dt (s.step t) where
  toInv := inv_step h.toInv ht
  level := by
    have hlater := backlog_add start.toInt dt.toNat s.steps s.now (t.uptime.toInt - s.now)
    rw [add_sub_cancel] at hlater
    have hlevel := h.level
    unfold behind Prompt at *
    rw [steps_step h.toInv ht]
    exact backlog_visit_lt (by omega)

variable (hdt : 1 ≤ dt)
include hdt

theorem period_pos : (0 : ℤ) < dt.toNat := Int.natCast_pos.mpr (UInt32.le_iff_toNat_le.mp hdt)

theorem periodLaw_step (h : Inv start dt s) (ht : Timely start dt s t (s.step t)) :
    PeriodLaw start dt s t (s.step t) where
  decides := gateOpen_iff h ht
  not_ahead := (le_periods_iff (period_pos hdt)).mpr (inv_step h ht).not_negative

theorem keepsLevel_step (h : LevelInv start dt s) (ht : Timely start dt s t (s.step t))
    (hprompt : Prompt dt s t (s.step t)) : KeepsLevel start dt s t (s.step t) := by
  have hnext := levelInv_step h ht hprompt
  exact (eq_periods_iff (period_pos hdt)).mpr ⟨hnext.not_negative, hnext.level⟩

end Law

omit [FloatArith F] in
theorem inv_startAt (accel : ZephyrAccelmotor F) (start : Int64) :
    Inv start accel.dtMs (startAt accel start) where
  period := rfl
  clock := by
    have hclock := toNat_toUInt32_int64 start
    simpa [startAt, uptime32] using hclock
  not_negative := by
    show 0 ≤ backlog _ _ 0 _
    unfold backlog
    simp [startAt]

omit [FloatArith F] in
theorem levelInv_startAt (accel : ZephyrAccelmotor F) (start : Int64) (hdt : 1 ≤ accel.dtMs) :
    LevelInv start accel.dtMs (startAt accel start) where
  toInv := inv_startAt accel start
  level := by
    have hpos := period_pos hdt
    show backlog _ _ 0 _ < _
    unfold backlog
    simpa [startAt] using hpos

/-- Every timely run obeys the period law, and a prompt one keeps level with the clock. -/
theorem control_period (accel : ZephyrAccelmotor F) (start : Int64) (hdt : 1 ≤ accel.dtMs)
    (ticks : List Tick) (htimely : Always step (Timely start accel.dtMs) (startAt accel start) ticks) :
    Always step (PeriodLaw start accel.dtMs) (startAt accel start) ticks ∧
      (Always step (Prompt accel.dtMs) (startAt accel start) ticks →
        Always step (KeepsLevel start accel.dtMs) (startAt accel start) ticks) := by
  constructor
  · exact Always.of_invariant_of_always (I := Inv start accel.dtMs)
      (fun _ _ h ht => periodLaw_step hdt h ht) (fun _ _ h ht => inv_step h ht) ticks
      (inv_startAt accel start) htimely
  · intro hprompt
    exact Always.of_invariant_of_always (I := LevelInv start accel.dtMs)
      (fun _ _ h ht => keepsLevel_step hdt h ht.1 ht.2)
      (fun _ _ h ht => levelInv_step h ht.1 ht.2) ticks
      (levelInv_startAt accel start hdt) (Always.and ticks htimely hprompt)

/-! ## Across the wrap -/

/-- 10 milliseconds before the clock wraps, as `zephyr_accelmotor_init` leaves the controller. -/
def beforeWrap : Paced ℚ :=
  ⟨zephyrAccelmotorInit (zephyrMotorInit .pwm1 true true false).1 (zephyrEncoderInit true 0).1
    4294967286, 0, 4294967286⟩

/-- Calls 15 milliseconds apart at a period of 20. -/
def wrapTicks : List Tick := [⟨0, 4294967301⟩, ⟨0, 4294967316⟩, ⟨0, 4294967331⟩]

theorem control_period_wrap :
    Always step (PeriodLaw 4294967286 20) beforeWrap wrapTicks ∧
      Always step (KeepsLevel 4294967286 20) beforeWrap wrapTicks := by
  have hlaw := control_period beforeWrap.accel 4294967286 (by decide) wrapTicks (by decide +kernel)
  exact ⟨hlaw.1, hlaw.2 (by decide +kernel)⟩

end Paced
end Mecanum.Wheel
