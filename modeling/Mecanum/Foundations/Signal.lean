import Mathlib.Algebra.Order.Field.Basic
import Mathlib.Data.List.Rotate
import Mathlib.Tactic.Linarith
import Mathlib.Tactic.Ring

/-! # Filters of a sampled signal

Three parts of a digital filter. A ring buffer, read from its next slot on, contains the latest values in
order. The median of an odd number of values lies wherever more than half of them do. A first-order
smoother never leaves an interval that contains its value and its inputs, and under a constant input
its error shrinks by a constant factor.
-/

namespace Mecanum.Signal
set_option autoImplicit false

/-! ## Ring buffer -/

section Ring
variable {α : Type*}

/-- Writing at the next slot drops the oldest value and appends the new one. -/
theorem set_rotate {l : List α} {i : ℕ} (hi : i < l.length) (x : α) :
    (l.set i x).rotate (i + 1) = (l.rotate i).tail ++ [x] := by
  have hset : i + 1 ≤ (l.set i x).length := by
    rw [List.length_set]
    exact hi
  rw [List.rotate_eq_drop_append_take hset, List.rotate_eq_drop_append_take hi.le,
    List.drop_set_of_lt (Nat.lt_succ_self i), List.take_add_one, List.take_set_of_le le_rfl,
    List.getElem?_set_self hi, Option.toList_some, ← List.append_assoc,
    List.drop_eq_getElem_cons hi, List.cons_append, List.tail_cons]

end Ring

/-! ## Median -/

section Median
variable {α β : Type*} [LinearOrder α] [LinearOrder β] {l l' : List α} {m lo hi : α}

/-- As many of the other values are at most `m` as are at least `m`. -/
def IsMedian (l : List α) (m : α) : Prop :=
  ∃ below above : List α, below.length = above.length ∧ (∀ x ∈ below, x ≤ m) ∧
    (∀ x ∈ above, m ≤ x) ∧ (below ++ m :: above).Perm l

theorem IsMedian.of_three {x y : α} (hx : x ≤ m) (hy : m ≤ y) (hperm : [x, m, y].Perm l) :
    IsMedian l m :=
  ⟨[x], [y], rfl, by simpa using hx, by simpa using hy, hperm⟩

theorem IsMedian.perm (h : IsMedian l m) (hperm : l.Perm l') : IsMedian l' m := by
  obtain ⟨below, above, hlength, hbelow, habove, hl⟩ := h
  exact ⟨below, above, hlength, hbelow, habove, hl.trans hperm⟩

theorem IsMedian.map {f : α → β} (hf : Monotone f) (h : IsMedian l m) :
    IsMedian (l.map f) (f m) := by
  obtain ⟨below, above, hlength, hbelow, habove, hl⟩ := h
  refine ⟨below.map f, above.map f, by simpa using hlength, ?_, ?_, by simpa using hl.map f⟩
  · rintro _ hx
    obtain ⟨x, hmem, rfl⟩ := List.mem_map.mp hx
    exact hf (hbelow x hmem)
  · rintro _ hx
    obtain ⟨x, hmem, rfl⟩ := List.mem_map.mp hx
    exact hf (habove x hmem)

/-- At most half of the values fail to reach the median. -/
theorem IsMedian.countP_below_le {p : α → Bool} (h : IsMedian l m) (hp : ∀ x, m ≤ x → ¬ p x) :
    2 * l.countP p ≤ l.length := by
  obtain ⟨below, above, hlength, -, habove, hl⟩ := h
  have hnone : above.countP p = 0 := List.countP_eq_zero.mpr fun x hx => hp x (habove x hx)
  have hbelow := List.countP_le_length (p := p) (l := below)
  rw [← hl.countP_eq, ← hl.length_eq, List.countP_append, List.length_append, List.length_cons,
    List.countP_cons_of_neg (hp m le_rfl), hnone]
  omega

theorem IsMedian.countP_above_le {p : α → Bool} (h : IsMedian l m) (hp : ∀ x, x ≤ m → ¬ p x) :
    2 * l.countP p ≤ l.length := by
  obtain ⟨below, above, hlength, hbelow, -, hl⟩ := h
  have hnone : below.countP p = 0 := List.countP_eq_zero.mpr fun x hx => hp x (hbelow x hx)
  have habove := List.countP_le_length (p := p) (l := above)
  rw [← hl.countP_eq, ← hl.length_eq, List.countP_append, List.length_append, List.length_cons,
    List.countP_cons_of_neg (hp m le_rfl), hnone]
  omega

/-- The median lies in every interval that contains more than half of the values. -/
theorem IsMedian.mem_of_majority (h : IsMedian l m)
    (hmajority : l.length < 2 * l.countP fun x => decide (lo ≤ x ∧ x ≤ hi)) :
    lo ≤ m ∧ m ≤ hi := by
  constructor
  · refine le_of_not_gt fun hlt => absurd hmajority (not_lt.mpr (h.countP_above_le fun x hx hin => ?_))
    exact absurd ((of_decide_eq_true hin).1.trans hx) (not_le.mpr hlt)
  · refine le_of_not_gt fun hlt => absurd hmajority (not_lt.mpr (h.countP_below_le fun x hx hin => ?_))
    exact absurd (hx.trans (of_decide_eq_true hin).2) (not_le.mpr hlt)

end Median

/-! ## Smoother -/

section Smoother
variable {K : Type*} [Field K] [LinearOrder K] [IsStrictOrderedRing K] {k x y lo hi : K}

def smooth (k y x : K) : K := y + (x - y) * k

theorem smooth_mem (h0 : 0 ≤ k) (h1 : k ≤ 1) (hy : lo ≤ y ∧ y ≤ hi) (hx : lo ≤ x ∧ x ≤ hi) :
    lo ≤ smooth k y x ∧ smooth k y x ≤ hi := by
  have hmix : smooth k y x = (1 - k) * y + k * x := by
    unfold smooth
    ring
  have hrest : 0 ≤ 1 - k := by linarith
  rw [hmix]
  constructor
  · have h := add_le_add (mul_le_mul_of_nonneg_left hy.1 hrest) (mul_le_mul_of_nonneg_left hx.1 h0)
    linarith
  · have h := add_le_add (mul_le_mul_of_nonneg_left hy.2 hrest) (mul_le_mul_of_nonneg_left hx.2 h0)
    linarith

omit [IsStrictOrderedRing K] [LinearOrder K] in
theorem smooth_sub (k y x : K) : smooth k y x - x = (1 - k) * (y - x) := by
  unfold smooth
  ring

theorem abs_smooth_sub (h1 : k ≤ 1) (y x : K) : |smooth k y x - x| = (1 - k) * |y - x| := by
  rw [smooth_sub, abs_mul, abs_of_nonneg (by linarith)]

end Smoother

end Mecanum.Signal
