import Mathlib.Algebra.Order.Field.Basic
import Mathlib.Algebra.Order.Field.Power
import Mathlib.Data.Int.Log
import Mathlib.Tactic.FieldSimp
import Mathlib.Tactic.Positivity
import Mecanum.Foundations.RoundedArith
import Mecanum.Foundations.Trunc

/-! # Single precision

Rounding to a significand of 24 bits, to nearest with ties to even. Exponents are unbounded, so a value
stands for the `float` it is as long as that neither overflows nor is subnormal. The rounding keeps whole
numbers below `2 ^ 24`, and no rounded quotient of them reaches a whole number that the quotient does not.
-/

namespace Mecanum
set_option autoImplicit false

namespace Exact

/-! ## Rounding to a whole number -/

section RoundEven
variable {x y : ℚ}

def roundEven (x : ℚ) : ℤ :=
  if Int.fract x < 1 / 2 ∨ (Int.fract x = 1 / 2 ∧ Even ⌊x⌋) then ⌊x⌋ else ⌊x⌋ + 1

theorem le_roundEven {n : ℤ} (h : n ≤ x) : n ≤ roundEven x := by
  have hfloor := Int.le_floor.mpr h
  unfold roundEven
  split <;> omega

theorem roundEven_le {n : ℤ} (h : x ≤ n) : roundEven x ≤ n := by
  rcases h.eq_or_lt with rfl | hlt
  · simp [roundEven]
  · have hfloor := Int.floor_lt.mpr hlt
    unfold roundEven
    split <;> omega

theorem abs_roundEven_sub_le (x : ℚ) : |roundEven x - x| ≤ 1 / 2 := by
  have hfract := Int.self_sub_floor x
  have hnonneg := Int.fract_nonneg x
  have hlt := Int.fract_lt_one x
  unfold roundEven
  split
  case isTrue hdown =>
    have hle : Int.fract x ≤ 1 / 2 := hdown.elim le_of_lt fun h => h.1.le
    exact abs_le.mpr ⟨by linarith, by linarith⟩
  case isFalse hup =>
    have hge : 1 / 2 ≤ Int.fract x := not_lt.mp fun h => hup (.inl h)
    push_cast
    exact abs_le.mpr ⟨by linarith, by linarith⟩

theorem roundEven_intCast (n : ℤ) : roundEven n = n :=
  le_antisymm (roundEven_le le_rfl) (le_roundEven le_rfl)

theorem roundEven_le_roundEven (h : x ≤ y) : roundEven x ≤ roundEven y := by
  rcases (Int.floor_le_floor h).lt_or_eq with hlt | heq
  · have hlow := le_roundEven (Int.floor_le y)
    have hhigh : roundEven x ≤ ⌊x⌋ + 1 := by
      unfold roundEven
      split <;> omega
    omega
  · have hfract : Int.fract x ≤ Int.fract y := by
      unfold Int.fract
      rw [heq]
      linarith
    unfold roundEven
    rw [heq]
    split_ifs with hx hy hy
    · exact le_rfl
    · omega
    · -- what goes down at `y` goes down at `x`
      refine absurd ?_ hx
      obtain hlt | ⟨hhalf, heven⟩ := hy
      · exact .inl (hfract.trans_lt hlt)
      · rcases hfract.lt_or_eq with hlt | hsame
        · exact .inl (hhalf ▸ hlt)
        · exact .inr ⟨hsame.trans hhalf, heven⟩
    · exact le_rfl

end RoundEven

/-! ## Rounding to 24 bits -/

section Single
variable {x y : ℚ}

/-- The distance between neighbouring values at the size of `x`. -/
def ulp (x : ℚ) : ℚ := 2 ^ (Int.log 2 |x| - 23)

def single (x : ℚ) : ℚ := roundEven (x / ulp x) * ulp x

def Representable (x : ℚ) : Prop := ∃ m e : ℤ, |m| ≤ 16777216 ∧ x = m * 2 ^ e

theorem ulp_pos (x : ℚ) : 0 < ulp x := by
  unfold ulp
  positivity

theorem two_zpow_log (x : ℚ) : (2 : ℚ) ^ Int.log 2 |x| = 8388608 * ulp x := by
  have hexp : Int.log 2 |x| = 23 + (Int.log 2 |x| - 23) := by omega
  rw [ulp, hexp, zpow_add₀ two_ne_zero, ← hexp]
  norm_num

theorem abs_lt_ulp (x : ℚ) : |x| < 16777216 * ulp x := by
  have hlog := Int.lt_zpow_succ_log_self one_lt_two |x|
  rw [Nat.cast_ofNat, zpow_add_one₀ two_ne_zero, two_zpow_log] at hlog
  linarith

theorem ulp_le_abs (hx : x ≠ 0) : 8388608 * ulp x ≤ |x| := by
  have hlog := Int.zpow_log_le_self one_lt_two (abs_pos.mpr hx)
  rwa [Nat.cast_ofNat, two_zpow_log] at hlog

theorem representable_single (x : ℚ) : Representable (single x) := by
  refine ⟨roundEven (x / ulp x), Int.log 2 |x| - 23, ?_, rfl⟩
  have hquotient : |x / ulp x| ≤ (16777216 : ℤ) := by
    rw [abs_div, abs_of_pos (ulp_pos x), div_le_iff₀ (ulp_pos x)]
    exact_mod_cast (abs_lt_ulp x).le
  obtain ⟨hlow, hhigh⟩ := abs_le.mp hquotient
  refine abs_le.mpr ⟨le_roundEven ?_, roundEven_le hhigh⟩
  push_cast at hlow ⊢
  exact hlow

theorem single_le_steps {n : ℤ} (h : x ≤ n * ulp x) : single x ≤ n * ulp x := by
  refine mul_le_mul_of_nonneg_right ?_ (ulp_pos x).le
  exact_mod_cast roundEven_le ((div_le_iff₀ (ulp_pos x)).mpr h)

theorem steps_le_single {n : ℤ} (h : n * ulp x ≤ x) : n * ulp x ≤ single x := by
  refine mul_le_mul_of_nonneg_right ?_ (ulp_pos x).le
  exact_mod_cast le_roundEven ((le_div_iff₀ (ulp_pos x)).mpr h)

theorem Representable.neg (h : Representable x) : Representable (-x) := by
  obtain ⟨m, e, hm, rfl⟩ := h
  refine ⟨-m, e, by rwa [abs_neg], ?_⟩
  push_cast
  exact (neg_mul _ _).symm

@[simp] theorem single_zero : single 0 = 0 := by
  simp [single, roundEven]

theorem abs_single_sub_le_ulp (x : ℚ) : |single x - x| ≤ 1 / 2 * ulp x := by
  have hpos := ulp_pos x
  have heq : single x - x = (roundEven (x / ulp x) - x / ulp x) * ulp x := by
    rw [sub_mul, div_mul_cancel₀ x hpos.ne', single]
  rw [heq, abs_mul, abs_of_pos hpos]
  exact mul_le_mul_of_nonneg_right (abs_roundEven_sub_le (x / ulp x)) hpos.le

/-- A whole number of steps that is less than half a step away. -/
theorem single_eq_of_near {m : ℤ} (h : |x - m * ulp x| < 1 / 2 * ulp x) : single x = m * ulp x := by
  have hpos := ulp_pos x
  have hnear : |x / ulp x - m| < 1 / 2 := by
    rw [← mul_lt_mul_iff_left₀ hpos, ← abs_of_pos hpos, ← abs_mul, abs_of_pos hpos, sub_mul,
      div_mul_cancel₀ x hpos.ne']
    exact h
  have hround := abs_roundEven_sub_le (x / ulp x)
  have hsame : roundEven (x / ulp x) = m := by
    rw [abs_lt] at hnear
    rw [abs_le] at hround
    have hlow : (m : ℚ) < roundEven (x / ulp x) + 1 := by linarith
    have hhigh : (roundEven (x / ulp x) : ℚ) < m + 1 := by linarith
    have hlow' : m < roundEven (x / ulp x) + 1 := by exact_mod_cast hlow
    have hhigh' : roundEven (x / ulp x) < m + 1 := by exact_mod_cast hhigh
    omega
  rw [single, hsame]

theorem ulp_eq {k : ℤ} (hlow : 2 ^ k ≤ |x|) (hhigh : |x| < 2 ^ (k + 1)) : ulp x = 2 ^ (k - 23) := by
  have hpos : 0 < |x| := (zpow_pos two_pos k).trans_le hlow
  have hle : k ≤ Int.log 2 |x| :=
    (Int.zpow_le_iff_le_log one_lt_two hpos).mp (by exact_mod_cast hlow)
  have hlt : Int.log 2 |x| < k + 1 :=
    (Int.lt_zpow_iff_log_lt one_lt_two hpos).mp (by exact_mod_cast hhigh)
  have hlog : Int.log 2 |x| = k := by omega
  rw [ulp, hlog]

/-- The largest significand at one size is the least one at any greater size. -/
theorem ulp_of_log_lt (h : Int.log 2 |x| < Int.log 2 |y|) :
    16777216 * ulp x ≤ 8388608 * ulp y := by
  have hle : (2 : ℚ) ^ (Int.log 2 |x| + 1) ≤ 2 ^ Int.log 2 |y| :=
    zpow_le_zpow_right₀ one_le_two (by omega)
  rw [zpow_add_one₀ two_ne_zero, two_zpow_log, two_zpow_log] at hle
  linarith

theorem single_le_single (h : x ≤ y) : single x ≤ single y := by
  by_cases hlog : Int.log 2 |x| = Int.log 2 |y|
  · have hulp : ulp x = ulp y := by rw [ulp, hlog, ulp]
    unfold single
    rw [hulp]
    refine mul_le_mul_of_nonneg_right ?_ (ulp_pos y).le
    exact_mod_cast roundEven_le_roundEven (div_le_div_of_nonneg_right h (ulp_pos y).le)
  · rcases lt_or_ge 0 x with hx | hx
    · have hy : 0 < y := hx.trans_le h
      have hlt : Int.log 2 |x| < Int.log 2 |y| := by
        refine lt_of_le_of_ne (Int.log_mono_right (abs_pos.mpr hx.ne') ?_) hlog
        rwa [abs_of_pos hx, abs_of_pos hy]
      have hxy := ulp_of_log_lt hlt
      have hxs := abs_lt_ulp x
      have hys := ulp_le_abs hy.ne'
      rw [abs_of_pos hx] at hxs
      rw [abs_of_pos hy] at hys
      have hlow := steps_le_single (n := 8388608) (x := y) (by exact_mod_cast hys)
      have hhigh := single_le_steps (n := 16777216) (x := x) (by exact_mod_cast hxs.le)
      push_cast at hlow hhigh
      linarith
    · rcases lt_or_ge y 0 with hy | hy
      · have hx' : x < 0 := h.trans_lt hy
        have hlt : Int.log 2 |y| < Int.log 2 |x| := by
          refine lt_of_le_of_ne (Int.log_mono_right (abs_pos.mpr hy.ne) ?_) fun heq => hlog heq.symm
          rw [abs_of_neg hx', abs_of_neg hy]
          linarith
        have hxy := ulp_of_log_lt hlt
        have hxs := ulp_le_abs hx'.ne
        have hys := abs_lt_ulp y
        rw [abs_of_neg hx'] at hxs
        rw [abs_of_neg hy] at hys
        have hlow := steps_le_single (n := -16777216) (x := y) (by push_cast; linarith)
        have hhigh := single_le_steps (n := -8388608) (x := x) (by push_cast; linarith)
        push_cast at hlow hhigh
        linarith
      · have hlow := steps_le_single (n := 0) (x := y) (by simpa using hy)
        have hhigh := single_le_steps (n := 0) (x := x) (by simpa using hx)
        simp only [Int.cast_zero, zero_mul] at hlow hhigh
        exact hhigh.trans hlow

theorem Representable.exists_significand (h : Representable x) :
    ∃ m e : ℤ, |m| < 16777216 ∧ x = m * 2 ^ e := by
  obtain ⟨m, e, hm, rfl⟩ := h
  rcases hm.lt_or_eq with hlt | heq
  · exact ⟨m, e, hlt, rfl⟩
  · have hpow : (2 : ℚ) ^ (e + 1) = 2 ^ e * 2 := zpow_add_one₀ two_ne_zero e
    obtain rfl | rfl := (abs_eq (by decide)).mp heq
    · refine ⟨8388608, e + 1, by decide, ?_⟩
      rw [hpow]
      push_cast
      ring
    · refine ⟨-8388608, e + 1, by decide, ?_⟩
      rw [hpow]
      push_cast
      ring

/-- A value of 24 bits is a whole number of steps. -/
theorem Representable.exists_steps (h : Representable x) : ∃ k : ℤ, x = k * ulp x := by
  obtain ⟨m, e, hm, hx⟩ := h.exists_significand
  by_cases hzero : x = 0
  · exact ⟨0, by rw [hzero]; simp⟩
  have hpos : (0 : ℚ) < 2 ^ e := zpow_pos two_pos e
  have hm' : |(m : ℚ)| < 16777216 := by exact_mod_cast hm
  have hsize : |x| < ((2 : ℕ) : ℚ) ^ (24 + e) := by
    rw [hx, abs_mul, abs_of_pos hpos, Nat.cast_ofNat, zpow_add₀ two_ne_zero]
    exact mul_lt_mul_of_pos_right (by norm_num; exact hm') hpos
  have hlog := (Int.lt_zpow_iff_log_lt one_lt_two (abs_pos.mpr hzero)).mp hsize
  obtain ⟨s, hs⟩ := Int.le.dest (show Int.log 2 |x| - 23 ≤ e by omega)
  refine ⟨m * 2 ^ s, ?_⟩
  rw [ulp]
  push_cast
  rw [mul_assoc, ← zpow_natCast, ← zpow_add₀ two_ne_zero, add_comm, hs]
  exact hx

theorem Representable.single_eq (h : Representable x) : single x = x := by
  obtain ⟨k, hk⟩ := h.exists_steps
  have hquotient : x / ulp x = k := (div_eq_iff (ulp_pos x).ne').mpr hk
  rw [single, hquotient, roundEven_intCast, ← hk]

/-- Rounding is off by at most one part in `2 ^ 24`. -/
theorem abs_single_sub_le (x : ℚ) : |single x - x| ≤ |x| / 16777216 := by
  by_cases hx : x = 0
  · simp [hx]
  · have hround := abs_single_sub_le_ulp x
    have hsize := ulp_le_abs hx
    linarith

example : single (1 / 10) = 13421773 / 134217728 := by decide +kernel

theorem log_le (hx : |x| < 16777216) : Int.log 2 |x| ≤ 23 := by
  by_cases hzero : x = 0
  · simp [hzero]
  · have hlt : |x| < ((2 : ℕ) : ℚ) ^ (24 : ℤ) := by
      norm_num
      exact hx
    have hlog := (Int.lt_zpow_iff_log_lt one_lt_two (abs_pos.mpr hzero)).mp hlt
    omega

/-- Below `2 ^ 24` whole numbers are a whole number of steps apart. -/
theorem exists_steps (hx : |x| < 16777216) (n : ℤ) : ∃ k : ℤ, (n : ℚ) = k * ulp x := by
  obtain ⟨s, hs⟩ := Int.le.dest (log_le hx)
  refine ⟨n * 2 ^ s, ?_⟩
  have hexp : Int.log 2 |x| - 23 = -(s : ℤ) := by omega
  rw [ulp, hexp, zpow_neg, zpow_natCast]
  push_cast
  field_simp

theorem abs_single_sub_le_half (hx : |x| < 16777216) : |single x - x| ≤ 1 / 2 := by
  have hulp : ulp x ≤ 1 := by
    unfold ulp
    exact zpow_le_one_of_nonpos₀ one_le_two (sub_nonpos.mpr (log_le hx))
  have hround := abs_single_sub_le_ulp x
  linarith

theorem le_single (hx : |x| < 16777216) {n : ℤ} (h : n ≤ x) : n ≤ single x := by
  obtain ⟨k, hk⟩ := exists_steps hx n
  rw [hk] at h ⊢
  exact steps_le_single h

theorem single_le (hx : |x| < 16777216) {n : ℤ} (h : x ≤ n) : single x ≤ n := by
  obtain ⟨k, hk⟩ := exists_steps hx n
  rw [hk] at h ⊢
  exact single_le_steps h

theorem single_intCast {n : ℤ} (hn : |n| < 16777216) : single n = n := by
  have hcast : |(n : ℚ)| < 16777216 := by exact_mod_cast hn
  exact le_antisymm (single_le hcast le_rfl) (le_single hcast le_rfl)

section Quotient
variable {a b : ℤ} (hb : 0 < b) (ha : |a| < 16777216)
include hb ha

theorem abs_single_div_sub_lt : |single (a / b) - a / b| < 1 / b := by
  have hb' : (0 : ℚ) < b := Int.cast_pos.mpr hb
  have ha' : |(a : ℚ)| < 16777216 := by exact_mod_cast ha
  calc |single (a / b) - a / b| ≤ |(a : ℚ) / b| / 16777216 := abs_single_sub_le _
    _ = |(a : ℚ)| / 16777216 / b := by rw [abs_div, abs_of_pos hb', div_right_comm]
    _ < 1 / b := by
      apply div_lt_div_of_pos_right _ hb'
      linarith

theorem single_div_lt {n : ℤ} (h : a < n * b) : single (a / b) < n := by
  have hb' : (0 : ℚ) < b := Int.cast_pos.mpr hb
  have hstep : (a : ℚ) / b + 1 / b ≤ n := by
    rw [← add_div, div_le_iff₀ hb']
    exact_mod_cast h
  have herror := abs_lt.mp (abs_single_div_sub_lt hb ha)
  linarith [herror.2]

theorem lt_single_div {n : ℤ} (h : n * b < a) : n < single (a / b) := by
  have hb' : (0 : ℚ) < b := Int.cast_pos.mpr hb
  have hstep : (n : ℚ) ≤ a / b - 1 / b := by
    rw [← sub_div, le_div_iff₀ hb']
    exact_mod_cast Int.le_sub_one_of_lt h
  have herror := abs_lt.mp (abs_single_div_sub_lt hb ha)
  linarith [herror.1]

theorem abs_div_lt : |(a : ℚ) / b| < 16777216 := by
  have hb' : (1 : ℚ) ≤ b := by exact_mod_cast hb
  have ha' : |(a : ℚ)| < 16777216 := by exact_mod_cast ha
  rw [abs_div, abs_of_pos (zero_lt_one.trans_le hb')]
  exact (div_le_self (abs_nonneg _) hb').trans_lt ha'

/-- The truncation of a rounded quotient is the quotient without its remainder. -/
theorem trunc_single_div : trunc (single (a / b)) = a.tdiv b := by
  have hb' : (0 : ℚ) < b := Int.cast_pos.mpr hb
  have hsize := abs_div_lt hb ha
  rcases le_total 0 a with h | h
  · rw [Int.tdiv_eq_ediv_of_nonneg h]
    apply trunc_eq_of_nonneg (Int.ediv_nonneg h hb.le)
    · apply le_single hsize
      rw [le_div_iff₀ hb']
      exact_mod_cast Int.ediv_mul_le a hb.ne'
    · exact_mod_cast single_div_lt hb ha (Int.lt_ediv_add_one_mul_self a hb)
  · have hneg : 0 ≤ -a := neg_nonneg.mpr h
    have hlow := Int.ediv_mul_le (-a) hb.ne'
    have hhigh := Int.lt_ediv_add_one_mul_self (-a) hb
    rw [← neg_neg a, Int.neg_tdiv, Int.tdiv_eq_ediv_of_nonneg hneg, neg_neg, ← neg_eq_iff_eq_neg,
      ← trunc_neg]
    apply trunc_eq_of_nonneg (Int.ediv_nonneg hneg hb.le)
    · have hle : single (a / b) ≤ (-(-a / b) : ℤ) := by
        apply single_le hsize
        rw [div_le_iff₀ hb']
        exact_mod_cast (by rw [neg_mul]; omega : a ≤ -(-a / b) * b)
      push_cast at hle
      linarith
    · have hlt := lt_single_div hb ha (by rw [neg_mul]; omega : -(-a / b + 1) * b < a)
      push_cast at hlt
      linarith

end Quotient

end Single
end Exact

/-! ## The arithmetic -/

/-- A value of 24 significant bits. -/
@[ext] structure Single where
  val : ℚ
  representable : Exact.Representable val
  deriving DecidableEq

namespace Single

def round (x : ℚ) : Single := ⟨Exact.single x, Exact.representable_single x⟩

instance : FloatArith Single where
  add x y := round (x.val + y.val)
  sub x y := round (x.val - y.val)
  mul x y := round (x.val * y.val)
  div x y := round (x.val / y.val)
  neg x := ⟨-x.val, x.representable.neg⟩
  ofInt n := round n
  lit q := round q
  lt x y := decide (x.val < y.val)
  toInt32 x := Exact.toInt32 x.val
  toInt16 x := Exact.toInt16 x.val

@[simp] theorem val_ofInt (n : ℤ) : (FloatArith.ofInt n : Single).val = Exact.single n := rfl
@[simp] theorem val_lit (q : ℚ) : (FloatArith.lit q : Single).val = Exact.single q := rfl
@[simp] theorem val_add (x y : Single) : (x + y).val = Exact.single (x.val + y.val) := rfl
@[simp] theorem val_sub (x y : Single) : (x - y).val = Exact.single (x.val - y.val) := rfl
@[simp] theorem val_neg (x : Single) : (-x).val = -x.val := rfl
@[simp] theorem lt_eq (x y : Single) : FloatArith.lt x y = decide (x.val < y.val) := rfl
@[simp] theorem val_mul (x y : Single) : (x * y).val = Exact.single (x.val * y.val) := rfl
@[simp] theorem val_div (x y : Single) : (x / y).val = Exact.single (x.val / y.val) := rfl
@[simp] theorem toInt32_eq (x : Single) : FloatArith.toInt32 x = Exact.toInt32 x.val := rfl
@[simp] theorem toInt16_eq (x : Single) : FloatArith.toInt16 x = Exact.toInt16 x.val := rfl

instance : RoundedArith Single where
  val := val
  rnd := Exact.single
  val_inj h := Single.ext h
  rnd_le h := Exact.single_le_single h
  rnd_val x := x.representable.single_eq
  rnd_int h := Exact.single_intCast h
  val_ofInt _ := rfl
  val_lit _ := rfl
  val_add _ _ := rfl
  val_sub _ _ := rfl
  val_mul _ _ := rfl
  val_div _ _ := rfl
  val_neg _ := rfl
  lt_eq _ _ := rfl
  toInt32_eq _ := rfl
  toInt16_eq _ := rfl

end Single
end Mecanum
