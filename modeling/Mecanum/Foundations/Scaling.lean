import Mathlib.Data.Nat.Init
import Mathlib.Data.Nat.Notation

/-! # Truncating interpolation on `ℕ`

`interpolate lo hi p` maps the levels `1 .. hi` onto `lo .. hi` with truncating division and keeps
level `0`; `share unit hi p` is the part of `unit` that level `p` of `hi` stands for. Both are the
integer forms of linear maps: monotone, within range and exact at the upper end.
-/

namespace Mecanum.Scaling
set_option autoImplicit false

def interpolate (lo hi p : ℕ) : ℕ := if 0 < lo ∧ 0 < p then p * (hi - lo) / hi + lo else p

def share (unit hi p : ℕ) : ℕ := p * unit / hi

theorem scaled_le {hi p k : ℕ} (hp : p ≤ hi) : p * k / hi ≤ k :=
  Nat.div_le_of_le_mul (Nat.mul_le_mul_right k hp)

theorem scaled_mono {p q : ℕ} (hi k : ℕ) (hpq : p ≤ q) : p * k / hi ≤ q * k / hi :=
  Nat.div_le_div_right (Nat.mul_le_mul_right k hpq)

theorem scaled_full {hi : ℕ} (k : ℕ) (hpos : 0 < hi) : hi * k / hi = k :=
  Nat.mul_div_cancel_left k hpos

section Interpolate
variable {lo hi p q : ℕ}

@[simp] theorem interpolate_zero : interpolate lo hi 0 = 0 := by simp [interpolate]

theorem interpolate_le (hlo : lo ≤ hi) (hp : p ≤ hi) : interpolate lo hi p ≤ hi := by
  unfold interpolate
  split
  · have h := scaled_le (k := hi - lo) hp
    omega
  · exact hp

theorem le_interpolate (hp : 0 < p) : lo ≤ interpolate lo hi p := by
  unfold interpolate
  split
  · exact Nat.le_add_left lo _
  · omega

theorem interpolate_pos (hp : 0 < p) : 0 < interpolate lo hi p := by
  unfold interpolate
  split
  · next hcond => exact Nat.add_pos_right _ hcond.1
  · exact hp

theorem interpolate_mono (hpq : p ≤ q) : interpolate lo hi p ≤ interpolate lo hi q := by
  unfold interpolate
  by_cases hp : 0 < lo ∧ 0 < p
  · have hq : 0 < lo ∧ 0 < q := ⟨hp.1, by omega⟩
    have h := scaled_mono hi (hi - lo) hpq
    rw [if_pos hp, if_pos hq]
    omega
  · rw [if_neg hp]
    split
    · have hp0 : p = 0 := by omega
      rw [hp0]
      exact Nat.zero_le _
    · exact hpq

theorem interpolate_full (hlo : lo ≤ hi) (hpos : 0 < hi) : interpolate lo hi hi = hi := by
  unfold interpolate
  split
  · rw [scaled_full _ hpos]
    omega
  · rfl

theorem interpolate_eq_full_iff (hlo : lo ≤ hi) (hp : p ≤ hi) (hpos : 0 < hi) :
    interpolate lo hi p = hi ↔ p = hi ∨ (0 < p ∧ lo = hi) := by
  constructor
  · intro h
    by_cases hpe : p = hi
    · exact .inl hpe
    unfold interpolate at h
    split at h
    · next hcond =>
        by_cases hlt : lo < hi
        · have hdiv : p * (hi - lo) / hi < hi - lo := by
            apply Nat.div_lt_of_lt_mul
            exact Nat.mul_lt_mul_of_pos_right (by omega) (by omega)
          omega
        · exact .inr ⟨hcond.2, by omega⟩
    · exact .inl h
  · rintro (rfl | ⟨hp0, rfl⟩)
    · exact interpolate_full hlo hpos
    · unfold interpolate
      rw [if_pos ⟨hpos, hp0⟩, Nat.sub_self, Nat.mul_zero, Nat.zero_div, Nat.zero_add]

/-- A scaling by at most one takes every value up to its last. -/
theorem exists_scaled_eq {k u : ℕ} (hk : 0 < k) (hkhi : k ≤ hi) (hu : u ≤ k) :
    ∃ p ≤ hi, p * k / hi = u := by
  -- the least level whose product with `k` reaches `u * hi`
  refine ⟨(u * hi + (k - 1)) / k, ?_, ?_⟩
  · have hmul : u * hi ≤ hi * k := by
      rw [Nat.mul_comm hi k]
      exact Nat.mul_le_mul_right hi hu
    rw [Nat.div_le_iff_le_mul_add_pred hk, Nat.mul_comm k hi]
    omega
  · have hhi : 0 < hi := by omega
    have hdiv := Nat.div_add_mod (u * hi + (k - 1)) k
    have hmod := Nat.mod_lt (u * hi + (k - 1)) hk
    rw [Nat.mul_comm k] at hdiv
    have hsucc : (u + 1) * hi = u * hi + hi := Nat.succ_mul u hi
    exact Nat.div_eq_of_lt_le (by omega) (by omega)

/-- The interpolation takes every value of `lo .. hi` at a positive level. -/
theorem exists_interpolate_eq {v : ℕ} (hlo : 0 < lo) (hlohi : lo < hi) (h0 : lo ≤ v) (h1 : v ≤ hi) :
    ∃ p, 0 < p ∧ p ≤ hi ∧ interpolate lo hi p = v := by
  by_cases hv : v = lo
  · refine ⟨1, Nat.one_pos, by omega, ?_⟩
    unfold interpolate
    rw [if_pos ⟨hlo, Nat.one_pos⟩, Nat.one_mul, Nat.div_eq_of_lt (by omega)]
    omega
  · obtain ⟨p, hp, heq⟩ := @exists_scaled_eq hi (hi - lo) (v - lo) (by omega)
      (by omega) (by omega)
    have hpos : 0 < p := by
      rcases Nat.eq_zero_or_pos p with rfl | hp0
      · rw [Nat.zero_mul, Nat.zero_div] at heq
        omega
      · exact hp0
    refine ⟨p, hpos, hp, ?_⟩
    unfold interpolate
    rw [if_pos ⟨hlo, hpos⟩, heq]
    omega

end Interpolate

section Share
variable {unit hi p q : ℕ}

theorem share_le (hp : p ≤ hi) : share unit hi p ≤ unit := scaled_le hp

theorem share_mono (hpq : p ≤ q) : share unit hi p ≤ share unit hi q := scaled_mono hi unit hpq

theorem share_full (hpos : 0 < hi) : share unit hi hi = unit := scaled_full unit hpos

theorem share_eq_full_iff (hpos : 0 < hi) (hunit : 0 < unit) (hp : p ≤ hi) :
    share unit hi p = unit ↔ p = hi := by
  constructor
  · intro h
    have hge : ¬ p < hi := by
      intro hlt
      have hmul : p * unit < hi * unit := Nat.mul_lt_mul_of_pos_right hlt hunit
      have hdiv : share unit hi p < unit := Nat.div_lt_of_lt_mul hmul
      omega
    omega
  · rintro rfl
    exact share_full hpos

/-- The share of a level falls short of the unit by the share of the missing levels, rounded up. -/
theorem share_of_shortfall {v c : ℕ} (hv : v ≤ hi) (h0 : (hi - v) * unit ≤ c * hi)
    (h1 : c * hi < (hi - v) * unit + hi) : share unit hi v = unit - c := by
  have hsplit : v * unit + (hi - v) * unit = unit * hi := by
    rw [← Nat.add_mul, Nat.add_sub_cancel' hv, Nat.mul_comm]
  have hc : c ≤ unit := by
    have hlt : c * hi < (unit + 1) * hi := by
      rw [Nat.succ_mul]
      omega
    have := Nat.lt_of_mul_lt_mul_right hlt
    omega
  have hsub : (unit - c) * hi = unit * hi - c * hi := Nat.sub_mul unit c hi
  have hle : c * hi ≤ unit * hi := Nat.mul_le_mul_right hi hc
  unfold share
  exact Nat.div_eq_of_lt_le (by omega) (by rw [Nat.succ_mul]; omega)

@[simp] theorem share_zero : share unit hi 0 = 0 := by simp [share]

/-- A level has a share when there are no more levels than units. -/
theorem share_pos (hpos : 0 < hi) (hfine : hi ≤ unit) (hp : 0 < p) : 0 < share unit hi p :=
  Nat.div_pos (Nat.le_trans hfine (Nat.le_mul_of_pos_left unit hp)) hpos

end Share

end Mecanum.Scaling
