import Mathlib.Data.List.Basic
import Mathlib.Data.Nat.Notation

/-! # Bytes on a wire

A byte goes over a wire as eight bits, least significant first. Gathering the bits of a byte one by one
gives the byte back, and so does cutting a stream of bits into bytes.
-/

namespace Mecanum.Bits
set_option autoImplicit false

def bitsOf (byte : UInt8) : List Bool := (List.range 8).map byte.toNat.testBit

/-- The first `k` bits, each set when it is seen. -/
def gather (bit : ℕ → Bool) (k : ℕ) : UInt8 :=
  (List.range k).foldl (fun byte i => if bit i then byte ||| UInt8.ofNat (1 <<< i) else byte) 0

/-- The whole bytes at the start of a stream of bits. -/
def bytesOf : List Bool → List UInt8
  | b0 :: b1 :: b2 :: b3 :: b4 :: b5 :: b6 :: b7 :: rest =>
      gather (fun i => [b0, b1, b2, b3, b4, b5, b6, b7].getD i false) 8 :: bytesOf rest
  | _ => []

section Gather
variable {bit : ℕ → Bool} {k : ℕ}

theorem gather_succ : gather bit (k + 1) =
    if bit k then gather bit k ||| UInt8.ofNat (1 <<< k) else gather bit k := by
  unfold gather
  rw [List.range_succ, List.foldl_append]
  rfl

theorem getLsbD_gather (hk : k ≤ 8) (j : ℕ) :
    (gather bit k).toBitVec.getLsbD j = (decide (j < k) && bit j) := by
  induction k with
  | zero => simp [gather]
  | succ k ih =>
      have h := ih (by omega)
      have hset : (UInt8.ofNat (1 <<< k)).toBitVec.getLsbD j = decide (j = k) := by
        rw [UInt8.toBitVec_ofNat', BitVec.getLsbD_ofNat, Nat.one_shiftLeft, Nat.testBit_two_pow]
        by_cases hj : j = k
        · have hlt : k < 8 := by omega
          simp [hj, hlt]
        · simp [hj, Ne.symm hj]
      rw [gather_succ]
      by_cases hbit : bit k
      · rw [if_pos hbit, UInt8.toBitVec_or, BitVec.getLsbD_or, h, hset]
        by_cases hj : j = k
        · simp [hj, hbit]
        · have hiff : j < k + 1 ↔ j < k := by omega
          simp [hj, hiff]
      · rw [if_neg hbit, h]
        by_cases hj : j = k
        · simp [hj, hbit]
        · have hiff : j < k + 1 ↔ j < k := by omega
          simp [hiff]

theorem gather_testBit (byte : UInt8) : gather byte.toNat.testBit 8 = byte := by
  rw [← UInt8.toBitVec_inj]
  refine BitVec.eq_of_getLsbD_eq fun j hj => ?_
  rw [getLsbD_gather (Nat.le_refl 8), decide_eq_true hj, Bool.true_and]
  rfl

end Gather

theorem gather_congr {f g : ℕ → Bool} {k : ℕ} (h : ∀ i < k, f i = g i) : gather f k = gather g k := by
  induction k with
  | zero => rfl
  | succ k ih =>
      rw [gather_succ, gather_succ, h k (Nat.lt_succ_self k), ih fun i hi => h i (by omega)]

theorem bytesOf_bitsOf_append (byte : UInt8) (rest : List Bool) :
    bytesOf (bitsOf byte ++ rest) = byte :: bytesOf rest := by
  have hbyte : gather (fun i => (bitsOf byte).getD i false) 8 = byte := by
    rw [← gather_testBit byte]
    refine gather_congr fun i hi => ?_
    rw [gather_testBit]
    simp [bitsOf, List.getD_eq_getElem?_getD, hi]
  have hstep : bytesOf (bitsOf byte ++ rest) =
      gather (fun i => (bitsOf byte).getD i false) 8 :: bytesOf rest := rfl
  rw [hstep, hbyte]

theorem length_flatMap_bitsOf (bytes : List UInt8) :
    (bytes.flatMap bitsOf).length = 8 * bytes.length := by
  induction bytes with
  | nil => rfl
  | cons byte bytes ih =>
      have hbyte : (bitsOf byte).length = 8 := rfl
      rw [List.flatMap_cons, List.length_append, ih, hbyte, List.length_cons]
      omega

/-- Sending bytes bit by bit and cutting the stream into bytes again. -/
theorem bytesOf_flatMap_bitsOf (bytes : List UInt8) : bytesOf (bytes.flatMap bitsOf) = bytes := by
  induction bytes with
  | nil => rfl
  | cons byte bytes ih => rw [List.flatMap_cons, bytesOf_bitsOf_append, ih]

/-! ## Masks -/

/-- Two words have a common bit. -/
theorem and_ne_zero_iff (word mask : UInt16) : (word &&& mask != 0) = true ↔
    ∃ i < 16, mask.toBitVec.getLsbD i = true ∧ word.toBitVec.getLsbD i = true := by
  have hzero : word &&& mask = 0 ↔ ∀ i < 16, (word &&& mask).toBitVec.getLsbD i = false := by
    constructor
    · intro h i _
      rw [h, UInt16.toBitVec_zero, BitVec.getLsbD_zero]
    · intro h
      rw [← UInt16.toBitVec_inj]
      refine BitVec.eq_of_getLsbD_eq fun i hi => ?_
      rw [h i hi, UInt16.toBitVec_zero, BitVec.getLsbD_zero]
  rw [bne_iff_ne, ne_eq, hzero]
  push Not
  refine exists_congr fun i => and_congr_right fun _ => ?_
  rw [UInt16.toBitVec_and, BitVec.getLsbD_and, ne_eq, Bool.not_eq_false, Bool.and_eq_true, and_comm]

end Mecanum.Bits
