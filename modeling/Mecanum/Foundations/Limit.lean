import Mathlib.Algebra.Order.Field.Basic
import Mathlib.Algebra.Order.Group.MinMax
import Mathlib.Tactic.Linarith

/-! # A symmetric limiter

`limit m x` keeps `x` within `±m`. The question is what it hides: two different inputs give the same
output only when it holds both at the same end, and what only grows or only falls is hidden on an interval
when its two ends are.
-/

namespace Mecanum.Limit
set_option autoImplicit false

variable {K : Type*} [Field K] [LinearOrder K] [IsStrictOrderedRing K] {m x y b k : K}

def limit (m x : K) : K := max (-m) (min m x)

theorem limit_of_le (hm : 0 ≤ m) (h : m ≤ x) : limit m x = m := by
  unfold limit
  rw [min_eq_left h]
  exact max_eq_right (by linarith)

omit [IsStrictOrderedRing K] in
theorem limit_of_le_neg (h : x ≤ -m) : limit m x = -m := by
  unfold limit
  exact max_eq_left ((min_le_right m x).trans h)

theorem limit_of_abs_le (h : |x| ≤ m) : limit m x = x := by
  obtain ⟨hlow, hhigh⟩ := abs_le.mp h
  unfold limit
  rw [min_eq_right hhigh, max_eq_right hlow]

theorem limit_of_nonneg (hm : 0 ≤ m) (hx : 0 ≤ x) : limit m x = min m x := by
  unfold limit
  exact max_eq_right (le_min (by linarith) (by linarith))

/-- The limiter as two comparisons, the upper bound first. -/
theorem clamp_eq_limit (hm : 0 ≤ m) (x : K) :
    (if (if m < x then m else x) < -m then -m else if m < x then m else x) = limit m x := by
  by_cases hhigh : m < x
  · rw [if_pos hhigh, if_neg (by linarith), limit_of_le hm hhigh.le]
  · rw [if_neg hhigh]
    by_cases hlow : x < -m
    · rw [if_pos hlow, limit_of_le_neg hlow.le]
    · rw [if_neg hlow, limit_of_abs_le (abs_le.mpr ⟨not_lt.mp hlow, not_lt.mp hhigh⟩)]

theorem abs_limit_le (hm : 0 ≤ m) (x : K) : |limit m x| ≤ m := by
  unfold limit
  rw [abs_le]
  exact ⟨le_max_left _ _, max_le (by linarith) (min_le_left _ _)⟩

theorem limit_neg (hm : 0 ≤ m) (x : K) : limit m (-x) = -limit m x := by
  have hsplit : -max (-m) (min m x) = min m (max (-m) (-x)) := by
    rw [← min_neg_neg, neg_neg, ← max_neg_neg]
  unfold limit
  rw [hsplit, max_min_distrib_left, max_eq_right (by linarith)]

omit [IsStrictOrderedRing K] in
theorem limit_lt_iff (h : -m < k) : limit m x < k ↔ m < k ∨ x < k := by
  unfold limit
  rw [max_lt_iff, min_lt_iff, and_iff_right h]

omit [IsStrictOrderedRing K] in
theorem lt_limit_iff (h : k < m) : k < limit m x ↔ k < -m ∨ k < x := by
  unfold limit
  rw [lt_max_iff, lt_min_iff, and_iff_right h]

/-- Below the limit the limiter is not seen. -/
theorem abs_limit_lt_iff (hk : k ≤ m) : |limit m x| < k ↔ |x| < k := by
  constructor
  · intro h
    obtain ⟨hlow, hhigh⟩ := abs_lt.mp h
    unfold limit at hlow hhigh
    refine abs_lt.mpr ⟨?_, ?_⟩
    · rcases lt_max_iff.mp hlow with hm | hx
      · linarith
      · exact hx.trans_le (min_le_right _ _)
    · rcases min_lt_iff.mp ((le_max_right _ _).trans_lt hhigh) with hm | hx
      · linarith
      · exact hx
  · intro h
    rw [limit_of_abs_le (h.le.trans hk)]
    exact h

/-- The limiter brings no two values further apart. -/
theorem abs_limit_sub_limit_le (m x y : K) : |limit m x - limit m y| ≤ |x - y| := by
  have hmin := abs_min_sub_min_le_max m x m y
  rw [sub_self, abs_zero, max_eq_right (abs_nonneg _)] at hmin
  unfold limit
  rw [max_comm (-m) (min m x), max_comm (-m) (min m y)]
  exact (abs_max_sub_max_le_abs _ _ _).trans hmin

/-- How far a value within the limits falls when `x` is taken from it. -/
theorem sub_limit_sub (hb : b ≤ m) (hx : 0 ≤ x) : b - limit m (b - x) = min x (b + m) := by
  unfold limit
  rw [min_eq_right (by linarith)]
  rcases le_total x (b + m) with h | h
  · rw [min_eq_left h, max_eq_right (by linarith), sub_sub_cancel]
  · rw [min_eq_right h, max_eq_left (by linarith), sub_neg_eq_add]

theorem limit_eq_iff_of_lt (hm : 0 < m) (h : x < y) :
    limit m x = limit m y ↔ m ≤ x ∨ y ≤ -m := by
  constructor
  · intro heq
    by_contra hout
    push Not at hout
    obtain ⟨hx, hy⟩ := hout
    have hleft : limit m x = max (-m) x := by
      unfold limit
      rw [min_eq_right hx.le]
    have hlt : max (-m) x < min m y :=
      lt_min (max_lt (by linarith) hx) (max_lt hy h)
    have hright : limit m y = min m y := by
      unfold limit
      exact max_eq_right ((le_max_left _ _).trans hlt.le)
    rw [hleft, hright] at heq
    exact absurd heq hlt.ne
  · rintro (hx | hy)
    · rw [limit_of_le hm.le hx, limit_of_le hm.le (hx.trans h.le)]
    · rw [limit_of_le_neg hy, limit_of_le_neg (h.le.trans hy)]

/-- Two values that the limiter does not tell apart. -/
theorem limit_eq_limit_iff (hm : 0 < m) :
    limit m x = limit m y ↔ x = y ∨ (m ≤ x ∧ m ≤ y) ∨ (x ≤ -m ∧ y ≤ -m) := by
  constructor
  · intro heq
    rcases lt_trichotomy x y with h | h | h
    · rcases (limit_eq_iff_of_lt hm h).mp heq with hx | hy
      · exact .inr (.inl ⟨hx, hx.trans h.le⟩)
      · exact .inr (.inr ⟨h.le.trans hy, hy⟩)
    · exact .inl h
    · rcases (limit_eq_iff_of_lt hm h).mp heq.symm with hy | hx
      · exact .inr (.inl ⟨hy.trans h.le, hy⟩)
      · exact .inr (.inr ⟨hx, h.le.trans hx⟩)
  · rintro (rfl | ⟨hx, hy⟩ | ⟨hx, hy⟩)
    · rfl
    · rw [limit_of_le hm.le hx, limit_of_le hm.le hy]
    · rw [limit_of_le_neg hx, limit_of_le_neg hy]

omit [IsStrictOrderedRing K] in
theorem limit_le_limit (h : x ≤ y) : limit m x ≤ limit m y := by
  unfold limit
  exact max_le_max le_rfl (min_le_min le_rfl h)

section OneWay
variable {lo hi : ℤ} {f : ℤ → K}

/-- `f` only grows or only falls. -/
def OneWay (f : ℤ → K) : Prop :=
  (∀ d e, d ≤ e → f d ≤ f e) ∨ ∀ d e, d ≤ e → f e ≤ f d

omit [Field K] [IsStrictOrderedRing K] in
theorem OneWay.comp {g : K → K} (h : OneWay f) (hg : ∀ a b, a ≤ b → g a ≤ g b) :
    OneWay fun d => g (f d) := by
  obtain h | h := h
  · exact .inl fun d e hle => hg _ _ (h d e hle)
  · exact .inr fun d e hle => hg _ _ (h d e hle)

theorem OneWay.mul_const (h : OneWay f) (k : K) : OneWay fun d => f d * k := by
  obtain h | h := h <;> rcases le_total 0 k with hk | hk
  · exact .inl fun d e hle => mul_le_mul_of_nonneg_right (h d e hle) hk
  · exact .inr fun d e hle => mul_le_mul_of_nonpos_right (h d e hle) hk
  · exact .inr fun d e hle => mul_le_mul_of_nonneg_right (h d e hle) hk
  · exact .inl fun d e hle => mul_le_mul_of_nonpos_right (h d e hle) hk

theorem OneWay.div_const (h : OneWay f) (k : K) : OneWay fun d => f d / k := by
  simp only [div_eq_mul_inv]
  exact h.mul_const k⁻¹

omit [Field K] [IsStrictOrderedRing K] in
/-- It is constant on an interval when the ends agree. -/
theorem OneWay.const_iff (h : OneWay f) (hle : lo ≤ hi) :
    (∀ d e, lo ≤ d → d ≤ hi → lo ≤ e → e ≤ hi → f d = f e) ↔ f lo = f hi := by
  constructor
  · intro hconst
    exact hconst lo hi le_rfl hle hle le_rfl
  · intro hends
    have hsame : ∀ d, lo ≤ d → d ≤ hi → f d = f lo := by
      intro d hlow hhigh
      obtain h | h := h
      · exact le_antisymm (hends ▸ h d hi hhigh) (h lo d hlow)
      · exact le_antisymm (h lo d hlow) (hends ▸ h d hi hhigh)
    intro d e hd hd' he he'
    rw [hsame d hd hd', hsame e he he']

end OneWay
end Mecanum.Limit
