import Mecanum.Foundations.Signal
import Mecanum.Foundations.Trace
import Mecanum.Wheel.Exact

/-! # The speed filter

`filter_speed` takes the median of the last three samples and smooths it. In exact arithmetic the filtered
speed stays between the extremes of 0 and the samples, a single outlier does not move it out of an
interval that its neighbours lie in, and a constant speed is reported to within 1 from the eleventh
sample on.
-/

namespace Mecanum.Wheel
open Motor FloatArith Exact Trace CInt Signal
set_option autoImplicit false

/-- A controller with the samples its filter was given, the last one first. -/
structure Filtered where
  accel : ZephyrAccelmotor ℚ
  samples : List Int16

namespace Filtered

def init (motor : ZephyrMotor) (encoder : ZephyrEncoder) (uptime : Int64) : Filtered :=
  ⟨zephyrAccelmotorInit motor encoder uptime, []⟩

def step (s : Filtered) (x : Int16) : Filtered := ⟨(filterSpeed s.accel x).1, x :: s.samples⟩

def returned (s : Filtered) (x : Int16) : Int16 := (filterSpeed s.accel x).2

/-- The last three samples, the last one first, with zeros before the start. -/
def recent (samples : List Int16) : List Int16 := (samples ++ [0, 0, 0]).take 3

def Within (lo hi : ℚ) (x : Int16) : Prop := lo ≤ x.toInt ∧ (x.toInt : ℚ) ≤ hi

instance (lo hi : ℚ) (x : Int16) : Decidable (Within lo hi x) := inferInstanceAs (Decidable (_ ∧ _))

def FilteredWithin (lo hi : ℚ) (s : Filtered) : Prop :=
  lo ≤ s.accel.filteredSpeed ∧ s.accel.filteredSpeed ≤ hi

/-- One call: the sample it chooses, the index, the range and the cast. -/
structure SampleLaw (s : Filtered) (x : Int16) (t : Filtered) : Prop where
  middle : IsMedian ((recent t.samples).map Int16.toInt) (chosenSpeed s.accel x).toInt
  smoothed : t.accel.filteredSpeed =
    smooth 0.7 s.accel.filteredSpeed (chosenSpeed s.accel x).toInt
  index : s.accel.speedBufIdx.toNat < 3 ∧ t.accel.speedBufIdx.toNat < 3
  range : ∀ lo hi, lo ≤ 0 → 0 ≤ hi → (∀ y ∈ t.samples, Within lo hi y) → FilteredWithin lo hi t
  cast : -32768 ≤ trunc t.accel.filteredSpeed ∧ trunc t.accel.filteredSpeed ≤ 32767 ∧
    (s.returned x).toInt = trunc t.accel.filteredSpeed

/-- An outlier between two pairs of samples of an interval does not move the filter out of it. -/
def RejectsOutlier (s : Filtered) : Prop :=
  ∀ (lo hi : ℚ) (outlier y z : Int16), FilteredWithin lo hi s →
    (∀ x ∈ (recent s.samples).take 2, Within lo hi x) → Within lo hi y → Within lo hi z →
      Always step (fun _ _ t => FilteredWithin lo hi t) s [outlier, y, z]

/-- After ten samples of one speed, the next reports it to within 1. -/
def Settles (s : Filtered) : Prop :=
  ∀ (v : Int16) (n : ℕ), 10 ≤ n →
    |((run step s (List.replicate n v)).returned v).toInt - v.toInt| ≤ 1

structure Inv (s : Filtered) : Prop where
  index : s.accel.speedBufIdx.toNat < 3
  buffer : s.accel.speedBuf.toList.rotate s.accel.speedBufIdx.toNat = (recent s.samples).reverse
  range : ∀ lo hi, lo ≤ 0 → 0 ≤ hi → (∀ y ∈ s.samples, Within lo hi y) → FilteredWithin lo hi s

/-! ## The chosen sample -/

theorem median_isMedian (a b c : Int16) :
    IsMedian [a.toInt, b.toInt, c.toInt] (median a b c).toInt := by
  unfold median
  simp only [Int16.le_iff_toInt_le]
  by_cases hleft : a.toInt ≤ b.toInt ∧ a.toInt ≤ c.toInt
  · rw [if_pos hleft]
    by_cases hrest : b.toInt ≤ c.toInt
    · rw [if_pos hrest]
      exact .of_three hleft.1 hrest (.refl _)
    · rw [if_neg hrest]
      exact .of_three hleft.2 (not_le.mp hrest).le ((List.Perm.swap _ _ _).cons _)
  · rw [if_neg hleft]
    by_cases hmiddle : b.toInt ≤ a.toInt ∧ b.toInt ≤ c.toInt
    · rw [if_pos hmiddle]
      by_cases hrest : a.toInt ≤ c.toInt
      · rw [if_pos hrest]
        exact .of_three hmiddle.1 hrest (.swap _ _ _)
      · rw [if_neg hrest]
        have hswap : ([b.toInt, c.toInt] ++ [a.toInt]).Perm [a.toInt, b.toInt, c.toInt] :=
          List.perm_append_comm
        exact .of_three hmiddle.2 (not_le.mp hrest).le hswap
    · -- the third sample is the least
      rw [if_neg hmiddle]
      by_cases hrest : a.toInt ≤ b.toInt
      · rw [if_pos hrest]
        have hswap : ([c.toInt] ++ [a.toInt, b.toInt]).Perm [a.toInt, b.toInt, c.toInt] :=
          List.perm_append_comm
        exact .of_three (by omega) hrest hswap
      · rw [if_neg hrest]
        exact .of_three (by omega) (not_le.mp hrest).le (List.reverse_perm [_, _, _])

section Step
variable {s : Filtered} {x : Int16}

theorem recent_cons (x : Int16) (samples : List Int16) :
    recent (x :: samples) = x :: (recent samples).take 2 := by
  unfold recent
  rw [List.take_take]
  rfl

theorem length_recent (samples : List Int16) : (recent samples).length = 3 := by
  simp [recent]

theorem mem_recent {y : Int16} {samples : List Int16} (h : y ∈ recent samples) :
    y ∈ samples ∨ y = 0 := by
  have hmem := List.mem_of_mem_take h
  simpa using hmem

/-- The buffer after a call, read from its next slot on. -/
theorem buffer_step (h : Inv s) (x : Int16) :
    (s.accel.speedBuf.toList.set s.accel.speedBufIdx.toNat x).rotate
      (s.accel.speedBufIdx.toNat + 1) = (recent (x :: s.samples)).reverse := by
  have hindex : s.accel.speedBufIdx.toNat < s.accel.speedBuf.toList.length := by
    simpa using h.index
  rw [set_rotate hindex, h.buffer, recent_cons, List.reverse_cons, List.tail_reverse,
    List.dropLast_eq_take, length_recent]

theorem chosen_isMedian (h : Inv s) (x : Int16) :
    IsMedian ((recent (x :: s.samples)).map Int16.toInt) (chosenSpeed s.accel x).toInt := by
  obtain ⟨a, b, c, hbuf, hchosen⟩ := chosenSpeed_eq s.accel x
  have hbuffer := buffer_step h x
  rw [hbuf] at hbuffer
  have hperm : [a, b, c].Perm (recent (x :: s.samples)) :=
    (List.rotate_perm [a, b, c] _).symm.trans (hbuffer ▸ List.reverse_perm _)
  rw [hchosen]
  exact (median_isMedian a b c).perm (hperm.map Int16.toInt)

/-- Where two of the last three samples lie, the chosen one lies. -/
theorem chosen_within (h : Inv s) {lo hi : ℚ}
    (hmajority : 2 ≤ (recent (x :: s.samples)).countP
      fun y => decide (Within lo hi y)) :
    Within lo hi (chosenSpeed s.accel x) := by
  have hmap := (chosen_isMedian h x).map (f := fun n : ℤ => (n : ℚ)) Int.cast_mono
  rw [List.map_map] at hmap
  refine hmap.mem_of_majority ?_
  rw [List.countP_map, List.length_map, length_recent]
  exact lt_of_lt_of_le (by decide) (Nat.mul_le_mul_left 2 hmajority)

theorem filteredSpeed_step (s : Filtered) (x : Int16) : (s.step x).accel.filteredSpeed =
    smooth 0.7 s.accel.filteredSpeed (chosenSpeed s.accel x).toInt := by
  unfold step
  rw [filterSpeed_eq]
  rfl

theorem filteredWithin_step {lo hi : ℚ} (hs : FilteredWithin lo hi s)
    (hchosen : Within lo hi (chosenSpeed s.accel x)) : FilteredWithin lo hi (s.step x) := by
  unfold FilteredWithin
  rw [filteredSpeed_step]
  exact smooth_mem (by norm_num) (by norm_num) hs hchosen

theorem index_step (s : Filtered) (x : Int16) :
    (s.step x).accel.speedBufIdx.toNat = (s.accel.speedBufIdx.toNat + 1) % 3 := by
  have hlt : (s.accel.speedBufIdx.toNat + 1) % 3 < 2 ^ 8 := by omega
  exact UInt8.toNat_ofNat_of_lt' hlt

theorem inv_step (h : Inv s) (x : Int16) : Inv (s.step x) where
  index := by
    rw [index_step]
    exact Nat.mod_lt _ (by decide)
  buffer := by
    have hlength : (s.accel.speedBuf.toList.set s.accel.speedBufIdx.toNat x).length = 3 := by simp
    have hrotate := List.rotate_mod (s.accel.speedBuf.toList.set s.accel.speedBufIdx.toNat x)
      (s.accel.speedBufIdx.toNat + 1)
    rw [hlength, buffer_step h] at hrotate
    rw [index_step]
    unfold step
    rw [filterSpeed_eq, Vector.toList_setIfInBounds]
    exact hrotate
  range lo hi h0 h1 hall := by
    have hrecent : ∀ y ∈ recent (x :: s.samples), Within lo hi y := by
      intro y hy
      obtain hmem | rfl := mem_recent hy
      · exact hall y hmem
      · exact ⟨by simpa using h0, by simpa using h1⟩
    have hcount := List.countP_eq_length.mpr fun y hy => decide_eq_true (hrecent y hy)
    refine filteredWithin_step (h.range lo hi h0 h1 fun y hy => hall y (List.mem_cons_of_mem x hy)) ?_
    refine chosen_within h ?_
    rw [hcount, length_recent]
    decide

theorem within_int16 (x : Int16) : Within (-32768) 32767 x := by
  have hx := int16_bounds x
  constructor
  · exact_mod_cast hx.1
  · exact_mod_cast Int.le_of_lt_add_one hx.2

theorem filteredWithin_int16 (h : Inv s) : FilteredWithin (-32768) 32767 s :=
  h.range _ _ (by norm_num) (by norm_num) fun y _ => within_int16 y

theorem trunc_range (h : Inv s) :
    -32768 ≤ trunc s.accel.filteredSpeed ∧ trunc s.accel.filteredSpeed ≤ 32767 := by
  obtain ⟨h0, h1⟩ := filteredWithin_int16 h
  have hlow := le_trunc_iff (x := s.accel.filteredSpeed) (n := 32768) (by decide)
  have hhigh := trunc_le_iff (x := s.accel.filteredSpeed) (n := 32767) (by decide)
  rw [hlow, hhigh]
  constructor
  · push_cast
    linarith
  · push_cast
    linarith

theorem toInt_returned (h : Inv s) (x : Int16) :
    (s.returned x).toInt = trunc (s.step x).accel.filteredSpeed := by
  have hrange := trunc_range (inv_step h x)
  exact toInt_toInt16 hrange.1 (Int.lt_of_le_of_lt hrange.2 (by decide))

theorem sampleLaw_step (h : Inv s) (x : Int16) : SampleLaw s x (s.step x) where
  middle := chosen_isMedian h x
  smoothed := filteredSpeed_step s x
  index := ⟨h.index, (inv_step h x).index⟩
  range := (inv_step h x).range
  cast := ⟨(trunc_range (inv_step h x)).1, (trunc_range (inv_step h x)).2, toInt_returned h x⟩

end Step

/-! ## An outlier -/

theorem rejectsOutlier {s : Filtered} (h : Inv s) : RejectsOutlier s := by
  intro lo hi outlier y z hs hbefore hy hz
  obtain ⟨a, b, c, hrecent⟩ := List.length_eq_three.mp (length_recent s.samples)
  rw [hrecent] at hbefore
  have ha : Within lo hi a := hbefore a (by simp)
  have hb : Within lo hi b := hbefore b (by simp)
  have hfirst : recent (outlier :: s.samples) = [outlier, a, b] := by
    rw [recent_cons, hrecent]
    rfl
  have hsecond : recent (y :: outlier :: s.samples) = [y, outlier, a] := by
    rw [recent_cons, hfirst]
    rfl
  have hthird : recent (z :: y :: outlier :: s.samples) = [z, y, outlier] := by
    rw [recent_cons, hsecond]
    rfl
  have hone := filteredWithin_step (x := outlier) hs (chosen_within h (by
    rw [hfirst]
    simp [List.countP_cons, ha, hb]))
  have htwo := filteredWithin_step (x := y) hone (chosen_within (inv_step h outlier) (by
    show 2 ≤ (recent (y :: outlier :: s.samples)).countP _
    rw [hsecond]
    simp [List.countP_cons, hy, ha]))
  have hthree := filteredWithin_step (x := z) htwo
    (chosen_within (inv_step (inv_step h outlier) y) (by
      show 2 ≤ (recent (z :: y :: outlier :: s.samples)).countP _
      rw [hthird]
      simp [List.countP_cons, hz, hy]))
  exact ⟨hone, htwo, hthree, trivial⟩

/-! ## A constant speed -/

section Constant
variable {s : Filtered} {v : Int16}

/-- From the second sample of one speed on, the filter chooses it. -/
theorem chosen_eq (h : Inv s) (hlast : s.samples.head? = some v) :
    ((chosenSpeed s.accel v).toInt : ℚ) = v.toInt := by
  obtain ⟨rest, hrest⟩ := List.head?_eq_some_iff.mp hlast
  have hself : Within v.toInt v.toInt v := ⟨le_rfl, le_rfl⟩
  have hwithin : Within v.toInt v.toInt (chosenSpeed s.accel v) := chosen_within h (by
    rw [hrest, recent_cons, recent_cons, List.take_succ_cons]
    simp [hself])
  exact le_antisymm hwithin.2 hwithin.1

/-- Each further sample of one speed leaves three tenths of the error. -/
theorem abs_error_run (h : Inv s) (hlast : s.samples.head? = some v) (n : ℕ) :
    |(run step s (List.replicate n v)).accel.filteredSpeed - v.toInt| =
      0.3 ^ n * |s.accel.filteredSpeed - v.toInt| := by
  induction n generalizing s with
  | zero => rw [pow_zero, one_mul, List.replicate_zero, run, List.foldl_nil]
  | succ n ih =>
      rw [List.replicate_succ, run_cons, ih (inv_step h v) rfl, filteredSpeed_step, chosen_eq h hlast,
        abs_smooth_sub (by norm_num), pow_succ, mul_assoc]
      norm_num

theorem settles (h : Inv s) : Settles s := by
  intro v n hn
  have hinv : ∀ l, Inv (run step s l) := fun l =>
    run_invariant (I := Inv) (fun _ x hs => inv_step hs x) l h
  have hswap : (run step s (List.replicate n v)).step v = run step (s.step v) (List.replicate n v) := by
    rw [← run_cons, ← List.replicate_succ, List.replicate_succ', run, run, List.foldl_append]
    rfl
  have herror := abs_error_run (inv_step h v) (v := v) rfl n
  have hfirst : |(s.step v).accel.filteredSpeed - v.toInt| ≤ 65535 := by
    obtain ⟨h0, h1⟩ := filteredWithin_int16 (inv_step h v)
    obtain ⟨h2, h3⟩ := within_int16 v
    exact abs_le.mpr ⟨by linarith, by linarith⟩
  have hpow : (0.3 : ℚ) ^ n ≤ 0.3 ^ 10 := pow_le_pow_of_le_one (by norm_num) (by norm_num) hn
  rw [toInt_returned (hinv _), hswap]
  refine abs_trunc_sub_le ?_
  rw [herror]
  calc (0.3 : ℚ) ^ n * |(s.step v).accel.filteredSpeed - v.toInt| ≤ 0.3 ^ 10 * 65535 :=
        mul_le_mul hpow hfirst (abs_nonneg _) (by norm_num)
    _ < 1 := by norm_num

end Constant

theorem inv_init (motor : ZephyrMotor) (encoder : ZephyrEncoder) (uptime : Int64) :
    Inv (init motor encoder uptime) where
  index := by
    show (0 : UInt8).toNat < 3
    decide
  buffer := rfl
  range lo hi h0 h1 _ := ⟨h0, h1⟩

/-- Every call obeys the law of a sample, and after every sequence of samples the filter rejects an
outlier and settles on a constant speed. -/
theorem speed_filter_law (motor : ZephyrMotor) (encoder : ZephyrEncoder) (uptime : Int64)
    (samples : List Int16) :
    Always step SampleLaw (init motor encoder uptime) samples ∧
      RejectsOutlier (run step (init motor encoder uptime) samples) ∧
      Settles (run step (init motor encoder uptime) samples) := by
  have hinit := inv_init motor encoder uptime
  have hrun := run_invariant (I := Inv) (fun _ x hs => inv_step hs x) samples hinit
  refine ⟨?_, rejectsOutlier hrun, settles hrun⟩
  exact Always.of_invariant (I := Inv) (fun _ x hs => sampleLaw_step hs x)
    (fun _ x hs => inv_step hs x) samples hinit

end Filtered
end Mecanum.Wheel
