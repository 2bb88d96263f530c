import Mathlib.Algebra.BigOperators.Group.List.Basic
import Mathlib.Algebra.Order.Ring.Int
import Mathlib.Data.Nat.Notation
import Mathlib.Tactic.Linarith
import Mathlib.Tactic.Ring

/-! # Truncated rates

A counter is sampled at intervals, and each sample reports its counts over its time as a whole number of
counts per unit of time, truncated toward zero. What a listener gets back by adding up rate times time
differs from what was counted by less than the time of each sample: the truncations cannot add up to more
than one count per unit of time.
-/

namespace Mecanum.Rates
set_option autoImplicit false

structure Sample where
  counts : ℤ
  time : ℤ
  deriving DecidableEq

section Sample
variable (unit : ℤ) (s : Sample)

def Sample.rate : ℤ := (unit * s.counts).tdiv s.time

variable {s}

theorem Sample.rate_mul_time : s.rate unit * s.time = unit * s.counts - (unit * s.counts).tmod s.time := by
  have hsplit := Int.tdiv_mul_add_tmod (unit * s.counts) s.time
  unfold rate
  omega

/-- One sample is short by less than its time. -/
theorem Sample.abs_short_lt (h : 0 < s.time) : |unit * s.counts - s.rate unit * s.time| < s.time := by
  have hrest := Int.natAbs_tmod (unit * s.counts) s.time
  have hlt : (unit * s.counts).natAbs % s.time.natAbs < s.time.natAbs := Nat.mod_lt _ (by omega)
  rw [Sample.rate_mul_time, sub_sub_cancel, Int.abs_eq_natAbs]
  omega

end Sample

/-! ## Series of samples -/

def counted (l : List Sample) : ℤ := (l.map Sample.counts).sum

def span (l : List Sample) : ℤ := (l.map Sample.time).sum

/-- What the rates add up to. -/
def covered (unit : ℤ) (l : List Sample) : ℤ := (l.map fun s => s.rate unit * s.time).sum

section Series
variable (unit : ℤ) (s : Sample) (l : List Sample)

@[simp] theorem counted_nil : counted [] = 0 := rfl

@[simp] theorem span_nil : span [] = 0 := rfl

@[simp] theorem covered_nil : covered unit [] = 0 := rfl

@[simp] theorem counted_cons : counted (s :: l) = s.counts + counted l := by simp [counted]

@[simp] theorem span_cons : span (s :: l) = s.time + span l := by simp [span]

@[simp] theorem covered_cons : covered unit (s :: l) = s.rate unit * s.time + covered unit l := by
  simp [covered]

variable {l}

/-- The truncations of a series add up to less than one unit of rate over its span. -/
theorem abs_counted_sub_covered_le (h : ∀ s ∈ l, 0 < s.time) :
    |unit * counted l - covered unit l| ≤ span l - l.length := by
  induction l with
  | nil => simp
  | cons s l ih =>
      have hfirst := Sample.abs_short_lt unit (h s List.mem_cons_self)
      have hrest := ih fun t ht => h t (List.mem_cons_of_mem s ht)
      have hsplit : unit * counted (s :: l) - covered unit (s :: l) =
          (unit * s.counts - s.rate unit * s.time) + (unit * counted l - covered unit l) := by
        rw [counted_cons, covered_cons]
        ring
      have hadd := abs_add_le (unit * s.counts - s.rate unit * s.time)
        (unit * counted l - covered unit l)
      rw [hsplit, span_cons, List.length_cons]
      push_cast
      omega

end Series

end Mecanum.Rates
