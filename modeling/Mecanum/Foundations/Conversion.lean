import Mathlib.Algebra.Order.Group.Unbundled.Int
import Mathlib.Algebra.Order.Ring.Abs
import Mathlib.Algebra.Order.Ring.Int
import Mathlib.Data.Int.Order.Basic
import Mathlib.Logic.Function.Iterate
import Mathlib.Tactic.Convert
import Mathlib.Tactic.WLOG

/-! # Converting between two units

A whole number of one unit is converted to a whole number of another, truncated toward zero, and back. The
way there and back never moves a value away from zero or past it, gives the value itself exactly when both
units have it, and otherwise falls short by less than one of each unit. Repeated, it ends at the last value
on the way to zero that both units have.
-/

namespace Mecanum.Conversion
set_option autoImplicit false

/-! ## Maps toward zero -/

/-- `y` lies between 0 and `x`. -/
def Between (y x : ℤ) : Prop := (0 ≤ y ∧ y ≤ x) ∨ (x ≤ y ∧ y ≤ 0)

instance (y x : ℤ) : Decidable (Between y x) := inferInstanceAs (Decidable (_ ∨ _))

theorem Between.refl (x : ℤ) : Between x x := by
  unfold Between
  omega

theorem Between.trans {x y z : ℤ} (h : Between z y) (h' : Between y x) : Between z x := by
  unfold Between at *
  omega

theorem Between.antisymm {x y : ℤ} (h : Between y x) (h' : Between x y) : y = x := by
  unfold Between at *
  omega

theorem Between.abs_le {x y : ℤ} (h : Between y x) : |y| ≤ |x| := by
  unfold Between at h
  rw [Int.abs_eq_natAbs, Int.abs_eq_natAbs]
  omega

theorem Between.natAbs_lt {x y : ℤ} (h : Between y x) (hne : y ≠ x) : y.natAbs < x.natAbs := by
  unfold Between at h
  omega

theorem abs_le_abs_mul {k : ℤ} (hk : 0 < k) (d : ℤ) : |d| ≤ |d * k| := by
  rw [abs_mul, abs_of_pos hk]
  exact le_mul_of_one_le_right (abs_nonneg d) hk

/-- The map keeps the order of the values and moves none away from zero or past it. -/
structure Contracts (f : ℤ → ℤ) : Prop where
  between : ∀ x, Between (f x) x
  mono : ∀ {x y}, x ≤ y → f x ≤ f y

section Contracts
variable {f : ℤ → ℤ}

/-- No value moves past a fixed one. -/
theorem Contracts.between_of_fixed (h : Contracts f) {x y : ℤ} (hfixed : f y = y)
    (hy : Between y x) : Between y (f x) := by
  have hx := h.between x
  rcases hy with ⟨hlow, hhigh⟩ | ⟨hlow, hhigh⟩
  · have hmono := h.mono hhigh
    unfold Between at *
    omega
  · have hmono := h.mono hlow
    unfold Between at *
    omega

/-- Repeated, the map ends at the nearest fixed value on the way to zero. -/
theorem Contracts.settles (h : Contracts f) (x : ℤ) :
    ∃ e, f e = e ∧ Between e x ∧ (∀ y, f y = y → Between y x → Between y e) ∧
      ∀ n, x.natAbs ≤ n → f^[n] x = e := by
  induction hsize : x.natAbs using Nat.strong_induction_on generalizing x with
  | _ size ih =>
      by_cases hfixed : f x = x
      · exact ⟨x, hfixed, Between.refl x, fun y _ hy => hy, fun n _ => Function.iterate_fixed hfixed n⟩
      · have hcloser := (h.between x).natAbs_lt hfixed
        obtain ⟨e, he, hbetween, hnearest, hends⟩ := ih (f x).natAbs (hsize ▸ hcloser) (f x) rfl
        refine ⟨e, he, hbetween.trans (h.between x), fun y hy hyx => ?_, fun n hn => ?_⟩
        · exact hnearest y hy (h.between_of_fixed hy hyx)
        · obtain ⟨m, rfl⟩ : ∃ m, n = m + 1 := ⟨n - 1, by omega⟩
          rw [Function.iterate_succ_apply]
          exact hends m (by omega)

end Contracts

/-! ## There and back -/

/-- `d` in the other unit, `a` of which are as long as `b` of this one. -/
def there (a b d : ℤ) : ℤ := (d * a).tdiv b

def back (a b d : ℤ) : ℤ := (there a b d * b).tdiv a

/-- The last step of the grid on the way from zero to `d`. -/
def onGrid (m d : ℤ) : ℤ := d.tdiv m * m

theorem back_neg (a b d : ℤ) : back a b (-d) = -back a b d := by
  simp only [back, there, neg_mul, Int.neg_tdiv]

theorem onGrid_neg (m d : ℤ) : onGrid m (-d) = -onGrid m d := by
  simp only [onGrid, neg_mul, Int.neg_tdiv]

section Grid
variable {m d : ℤ} (hm : 0 < m)
include hm

theorem onGrid_bounds (hd : 0 ≤ d) : 0 ≤ onGrid m d ∧ onGrid m d ≤ d := by
  rw [onGrid, Int.tdiv_eq_ediv_of_nonneg hd]
  exact ⟨mul_nonneg (Int.ediv_nonneg hd hm.le) hm.le, Int.ediv_mul_le d hm.ne'⟩

theorem between_onGrid (d : ℤ) : Between (onGrid m d) d := by
  rcases le_total 0 d with h | h
  · exact .inl (onGrid_bounds hm h)
  · have hbounds := onGrid_bounds hm (neg_nonneg.mpr h)
    rw [onGrid_neg] at hbounds
    exact .inr ⟨by omega, by omega⟩

/-- No step of the grid lies further on the way to `d`. -/
theorem between_onGrid_of_dvd {e : ℤ} (he : m ∣ e) (h : Between e d) : Between e (onGrid m d) := by
  obtain ⟨k, rfl⟩ := he
  rw [mul_comm] at *
  have hk : (k * m).tdiv m = k := Int.mul_tdiv_cancel k hm.ne'
  rcases h with ⟨hlow, hhigh⟩ | ⟨hlow, hhigh⟩
  · refine .inl ⟨hlow, mul_le_mul_of_nonneg_right ?_ hm.le⟩
    rw [← hk]
    exact Int.tdiv_le_tdiv hm hhigh
  · refine .inr ⟨mul_le_mul_of_nonneg_right ?_ hm.le, hhigh⟩
    rw [← hk]
    exact Int.tdiv_le_tdiv hm hlow

end Grid

theorem abs_there_mul_le {b : ℤ} (hb : 0 < b) (a d : ℤ) : |there a b d * b| ≤ |d * a| :=
  (between_onGrid hb (d * a)).abs_le

section Back
variable {a b d : ℤ} (ha : 0 < a) (hb : 0 < b)
include ha hb

/-- The two truncations of a nonnegative value. -/
theorem back_spec (hd : 0 ≤ d) :
    0 ≤ back a b d ∧ (there a b d * b ≤ d * a ∧ d * a < there a b d * b + b) ∧
      back a b d * a ≤ there a b d * b ∧ there a b d * b < back a b d * a + a := by
  have hthere : there a b d = d * a / b := Int.tdiv_eq_ediv_of_nonneg (mul_nonneg hd ha.le)
  have hnonneg : 0 ≤ there a b d * b := by
    rw [hthere]
    exact mul_nonneg (Int.ediv_nonneg (mul_nonneg hd ha.le) hb.le) hb.le
  have hback : back a b d = there a b d * b / a := Int.tdiv_eq_ediv_of_nonneg hnonneg
  have hhigh := Int.lt_ediv_add_one_mul_self (d * a) hb
  have hhigh' := Int.lt_ediv_add_one_mul_self (there a b d * b) ha
  rw [← hthere, add_mul, one_mul] at hhigh
  rw [← hback, add_mul, one_mul] at hhigh'
  refine ⟨?_, ⟨?_, hhigh⟩, ?_, hhigh'⟩
  · rw [hback]
    exact Int.ediv_nonneg hnonneg ha.le
  · rw [hthere]
    exact Int.ediv_mul_le (d * a) hb.ne'
  · rw [hback]
    exact Int.ediv_mul_le (there a b d * b) ha.ne'

theorem back_bounds (hd : 0 ≤ d) :
    0 ≤ back a b d ∧ back a b d ≤ d ∧ (d - back a b d) * a < a + b := by
  obtain ⟨hnonneg, ⟨hlow, hhigh⟩, hlow', hhigh'⟩ := back_spec ha hb hd
  refine ⟨hnonneg, le_of_mul_le_mul_right (hlow'.trans hlow) ha, ?_⟩
  rw [sub_mul]
  omega

theorem between_back (d : ℤ) : Between (back a b d) d := by
  rcases le_total 0 d with h | h
  · obtain ⟨hlow, hhigh, -⟩ := back_bounds ha hb h
    exact .inl ⟨hlow, hhigh⟩
  · obtain ⟨hlow, hhigh, -⟩ := back_bounds ha hb (neg_nonneg.mpr h)
    rw [back_neg] at hlow hhigh
    exact .inr ⟨by omega, by omega⟩

theorem abs_back_mul_le (d : ℤ) : |back a b d * a| ≤ |d * a| := by
  rw [abs_mul, abs_mul]
  exact mul_le_mul_of_nonneg_right (between_back ha hb d).abs_le (abs_nonneg a)

/-- There and back loses less than one of each unit. -/
theorem back_loss (d : ℤ) : |d - back a b d| * a < a + b := by
  rcases le_total 0 d with h | h
  · obtain ⟨-, hhigh, hloss⟩ := back_bounds ha hb h
    rwa [abs_of_nonneg (by omega)]
  · obtain ⟨-, hhigh, hloss⟩ := back_bounds ha hb (neg_nonneg.mpr h)
    rw [back_neg] at hhigh hloss
    rw [abs_of_nonpos (by omega), neg_sub]
    convert hloss using 2
    omega

theorem contracts_back : Contracts (back a b) where
  between := between_back ha hb
  mono := by
    intro _ _ hxy
    apply Int.tdiv_le_tdiv ha
    apply mul_le_mul_of_nonneg_right _ hb.le
    apply Int.tdiv_le_tdiv hb
    exact mul_le_mul_of_nonneg_right hxy ha.le

/-- A value comes back unchanged when both units have it. -/
theorem back_eq_iff : back a b d = d ↔ b ∣ d * a := by
  constructor
  · intro hback
    wlog h : 0 ≤ d generalizing d
    · have hneg := this (d := -d) (by rw [back_neg, hback]) (by omega)
      rwa [neg_mul, Int.dvd_neg] at hneg
    obtain ⟨-, ⟨hlow, -⟩, hlow', -⟩ := back_spec ha hb h
    rw [hback] at hlow'
    exact ⟨there a b d, by rw [mul_comm b]; exact le_antisymm hlow' hlow⟩
  · intro hdvd
    rw [back, there, Int.tdiv_mul_cancel hdvd, Int.mul_tdiv_cancel d ha.ne']

theorem back_eq_iff_grid : back a b d = d ↔ b / Int.gcd b a ∣ d := by
  have hgcd : (0 : ℤ) < Int.gcd b a := Int.natCast_pos.mpr (Int.gcd_pos_of_ne_zero_left a hb.ne')
  have hgrid : b / Int.gcd b a * Int.gcd b a = b := Int.ediv_mul_cancel (Int.gcd_dvd_left b a)
  rw [back_eq_iff ha hb, ← Int.dvd_mul_gcd_iff_dvd_mul]
  nth_rewrite 1 [← hgrid]
  exact Int.mul_dvd_mul_iff_right hgcd.ne'

/-- Read back and set again, a value ends at the last one on its way to zero that both units have. -/
theorem back_iterate {n : ℕ} (hn : d.natAbs ≤ n) : (back a b)^[n] d = onGrid (b / Int.gcd b a) d := by
  have hgrid : 0 < b / Int.gcd b a := by
    refine Int.ediv_pos_of_pos_of_dvd hb (Int.natCast_nonneg _) (Int.gcd_dvd_left b a)
  have honGrid : back a b (onGrid (b / Int.gcd b a) d) = onGrid (b / Int.gcd b a) d :=
    (back_eq_iff_grid ha hb).mpr (Int.dvd_mul_left _ _)
  obtain ⟨e, he, hbetween, hnearest, hends⟩ := (contracts_back ha hb).settles d
  have hfar := hnearest _ honGrid (between_onGrid hgrid d)
  have hnear := between_onGrid_of_dvd hgrid ((back_eq_iff_grid ha hb).mp he) hbetween
  rw [hends n hn]
  exact hnear.antisymm hfar

/-- One reading `y` of a value set to `x`. -/
structure Reading (a b x y : ℤ) : Prop where
  between : Between y x
  loss : |x - y| * a < a + b
  exact_iff : y = x ↔ b ∣ x * a

/-- The readings of a value set to `d` and then set to each reading. -/
structure Readings (a b d : ℤ) (reading : ℕ → ℤ) : Prop where
  first : Reading a b d (reading 0)
  next : ∀ n, Reading a b (reading n) (reading (n + 1))
  settled : ∀ n, d.natAbs ≤ n + 1 → reading n = onGrid (b / Int.gcd b a) d

theorem reading_back (d : ℤ) : Reading a b d (back a b d) :=
  ⟨between_back ha hb d, back_loss ha hb d, back_eq_iff ha hb⟩

theorem readings_of_iterate {reading : ℕ → ℤ} (h : ∀ n, reading n = (back a b)^[n + 1] d) :
    Readings a b d reading where
  first := by
    rw [h 0]
    exact reading_back ha hb d
  next n := by
    rw [h (n + 1), Function.iterate_succ_apply', ← h n]
    exact reading_back ha hb (reading n)
  settled n hn := by
    rw [h n]
    exact back_iterate ha hb hn

end Back

/-! ## A setting in the other unit -/

section Setting
variable {A T : Type} {set : A → T → A} {get : A → T} {value : T → ℤ} {f : ℤ → ℤ}
  {Fits : ℤ → Prop}

/-- Set to what it reads, again and again, a setting whose last write counts reads the iterates. -/
theorem value_iterate {s : A} (hset : ∀ x y, set (set s x) y = set s y)
    (hget : ∀ x, Fits (value x) → value (get (set s x)) = f (value x))
    (hfits : ∀ d, Fits d → Fits (f d)) {x : T} (hx : Fits (value x)) (n : ℕ) :
    value (get ((fun t => set t (get t))^[n] (set s x))) = f^[n + 1] (value x) := by
  induction n generalizing x with
  | zero => exact hget x hx
  | succ n ih =>
      have hvalue := hget x hx
      rw [Function.iterate_succ_apply, hset, Function.iterate_succ_apply, ← hvalue]
      exact ih (hvalue ▸ hfits _ hx)

end Setting

end Mecanum.Conversion
