import Mathlib.Algebra.Order.Ring.Int
import Mathlib.Data.Int.Basic
import Mathlib.Data.Nat.Notation

/-! # A periodic job

A job of period `dt` starts at time `t0`. A visit at time `t` runs it once if a full period has
passed since the run before was due, and the due time then moves on by the period, not to `t`. The
backlog is the time since the last due run. Runs never get ahead of the periods that have passed,
and visits at most a period apart keep level with them.
-/

namespace Mecanum.Cadence
set_option autoImplicit false

variable {t0 dt t : ℤ} {n : ℕ}

def backlog (t0 dt : ℤ) (n : ℕ) (t : ℤ) : ℤ := t - (t0 + dt * n)

/-- The number of runs after a visit. -/
def visit (t0 dt : ℤ) (n : ℕ) (t : ℤ) : ℕ := if dt ≤ backlog t0 dt n t then n + 1 else n

theorem backlog_visit : backlog t0 dt (visit t0 dt n t) t =
    if dt ≤ backlog t0 dt n t then backlog t0 dt n t - dt else backlog t0 dt n t := by
  unfold visit
  split
  · unfold backlog
    rw [Nat.cast_succ, Int.mul_add, Int.mul_one]
    omega
  · rfl

theorem backlog_visit_nonneg (h : 0 ≤ backlog t0 dt n t) :
    0 ≤ backlog t0 dt (visit t0 dt n t) t := by
  rw [backlog_visit]
  split <;> omega

theorem backlog_visit_lt (h : backlog t0 dt n t < 2 * dt) :
    backlog t0 dt (visit t0 dt n t) t < dt := by
  rw [backlog_visit]
  split <;> omega

theorem backlog_add (t0 dt : ℤ) (n : ℕ) (t d : ℤ) :
    backlog t0 dt n (t + d) = backlog t0 dt n t + d := by
  unfold backlog
  omega

/-- There is no negative backlog as long as no more runs were made than periods have passed. -/
theorem le_periods_iff (hdt : 0 < dt) : (n : ℤ) ≤ (t - t0) / dt ↔ 0 ≤ backlog t0 dt n t := by
  rw [Int.le_ediv_iff_mul_le hdt, Int.mul_comm]
  unfold backlog
  omega

theorem eq_periods_iff (hdt : 0 < dt) :
    (n : ℤ) = (t - t0) / dt ↔ 0 ≤ backlog t0 dt n t ∧ backlog t0 dt n t < dt := by
  have hbehind : (t - t0) / dt < n + 1 ↔ backlog t0 dt n t < dt := by
    rw [Int.ediv_lt_iff_lt_mul hdt, Int.add_mul, Int.one_mul, Int.mul_comm]
    unfold backlog
    omega
  rw [← le_periods_iff hdt, ← hbehind]
  omega

end Mecanum.Cadence
