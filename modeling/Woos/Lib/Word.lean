import Mathlib.Data.Nat.Bitwise

/-!
# Masks and single bits of machine words

Lemmas about the word operations that C code uses for alignment and for bitmaps:
`toNat_and_not_mask` and `toNat_and_mask` are rounding down to a power of two and the
remainder, and `testBit_byte_set`, `testBit_byte_clear` and `byte_test` are the bits of a byte
after setting and clearing one, and the test of one.
-/

namespace Word

/-- Masking out the `k` low bits of a number below `2 ^ n` rounds it down to a multiple of `2 ^ k`. -/
theorem and_not_mask {v m n k : Nat} (hv : v < 2 ^ n) (hm : m < 2 ^ n) (hmask : m = 2 ^ k - 1) :
  v &&& (2 ^ n - (m + 1)) = v / 2 ^ k * 2 ^ k
  := by
  rw [← Nat.shiftRight_eq_div_pow, ← Nat.shiftLeft_eq]
  apply Nat.eq_of_testBit_eq
  intro i
  rw [Nat.testBit_and, Nat.testBit_two_pow_sub_succ hm, Nat.testBit_shiftLeft,
    Nat.testBit_shiftRight, hmask, Nat.testBit_two_pow_sub_one]
  by_cases hk : i < k
  · simp [hk]
  · have hback : k + (i - k) = i := by omega
    by_cases hi : i < n
    · simp [hi, hk, hback, Nat.not_lt.mp hk]
    · have hzero : v.testBit i = false := by
        apply Nat.testBit_lt_two_pow
        apply hv.trans_le
        apply Nat.pow_le_pow_right
        · decide
        · omega
      simp [hback, hzero]

theorem toNat_and_not_mask (v m : UInt64) {k : Nat} (hm : m.toNat = 2 ^ k - 1) :
  (v &&& ~~~m).toNat = v.toNat / 2 ^ k * 2 ^ k
  := by
  have hmlt := m.toNat_lt
  have hnot : (~~~m).toNat = 2 ^ 64 - (m.toNat + 1) := by
    have hsize : UInt64.size = 2 ^ 64 := rfl
    rw [UInt64.toNat_not, hsize]
    omega
  rw [UInt64.toNat_and, hnot, and_not_mask v.toNat_lt hmlt hm]

theorem toNat_and_not_mask_32 (v m : UInt32) {k : Nat} (hm : m.toNat = 2 ^ k - 1) :
  (v &&& ~~~m).toNat = v.toNat / 2 ^ k * 2 ^ k
  := by
  have hmlt := m.toNat_lt
  have hnot : (~~~m).toNat = 2 ^ 32 - (m.toNat + 1) := by
    have hsize : UInt32.size = 2 ^ 32 := rfl
    rw [UInt32.toNat_not, hsize]
    omega
  rw [UInt32.toNat_and, hnot, and_not_mask v.toNat_lt hmlt hm]

/-- Keeping the `k` low bits is the remainder modulo `2 ^ k`. -/
theorem toNat_and_mask (v m : UInt64) {k : Nat} (hm : m.toNat = 2 ^ k - 1) :
  (v &&& m).toNat = v.toNat % 2 ^ k
  := by
  rw [UInt64.toNat_and, hm, Nat.and_two_pow_sub_one_eq_mod]

/-- A multiple of `2 ^ k` has none of the `k` low bits. -/
theorem and_not_mask_eq_self {v m : UInt64} {k : Nat} (hm : m.toNat = 2 ^ k - 1)
    (hv : v.toNat % 2 ^ k = 0) :
  v &&& ~~~m = v
  := by
  rw [← UInt64.toNat_inj, toNat_and_not_mask v m hm]
  apply Nat.div_mul_cancel (Nat.dvd_of_mod_eq_zero hv)

/-- A number below `2 ^ k` has no other bits. -/
theorem and_mask_eq_self {v m : UInt64} {k : Nat} (hm : m.toNat = 2 ^ k - 1) (hv : v.toNat < 2 ^ k) :
  v &&& m = v
  := by
  rw [← UInt64.toNat_inj, toNat_and_mask v m hm, Nat.mod_eq_of_lt hv]

theorem and_not_mask_eq_zero {v m : UInt64} {k : Nat} (hm : m.toNat = 2 ^ k - 1)
    (hv : v.toNat < 2 ^ k) :
  v &&& ~~~m = 0
  := by
  rw [← UInt64.toNat_inj, toNat_and_not_mask v m hm, Nat.div_eq_of_lt hv]
  apply Nat.zero_mul

theorem or_and (a b c : UInt64) :
  (a ||| b) &&& c = (a &&& c) ||| (b &&& c)
  := by
  apply UInt64.toBitVec_inj.mp
  apply BitVec.eq_of_getLsbD_eq
  intro i _
  simp [Bool.and_or_distrib_right]

theorem or_and_32 (a b c : UInt32) :
  (a ||| b) &&& c = (a &&& c) ||| (b &&& c)
  := UInt32.toBitVec_inj.mp BitVec.and_or_distrib_right

/-! ### Bits of a byte -/

theorem toNat_one_shiftLeft {k : Nat} (hk : k < 8) :
  ((1 : UInt8) <<< UInt8.ofNat k).toNat = 2 ^ k
  := by
  have hall : ∀ i : Fin 8, ((1 : UInt8) <<< UInt8.ofNat i.val).toNat = 2 ^ i.val := by decide
  apply hall ⟨k, hk⟩

/-- The test of a bit of a byte. -/
theorem byte_test (x : UInt8) {k : Nat} (hk : k < 8) :
  ((x &&& ((1 : UInt8) <<< UInt8.ofNat k)) != 0) = x.toNat.testBit k
  := by
  have hvalue : (x &&& ((1 : UInt8) <<< UInt8.ofNat k)).toNat = (x.toNat.testBit k).toNat * 2 ^ k := by
    rw [UInt8.toNat_and, toNat_one_shiftLeft hk, Nat.and_two_pow]
  rw [Bool.eq_iff_iff, bne_iff_ne, ne_eq, ← UInt8.toNat_inj, hvalue]
  cases x.toNat.testBit k
  · simp
  · simp

theorem testBit_byte_set (x : UInt8) {j k : Nat} (hk : k < 8) :
  (x ||| ((1 : UInt8) <<< UInt8.ofNat k)).toNat.testBit j = (decide (j = k) || x.toNat.testBit j)
  := by
  rw [UInt8.toNat_or, toNat_one_shiftLeft hk, Nat.testBit_or, Nat.testBit_two_pow, Bool.or_comm]
  simp [eq_comm]

theorem testBit_byte_clear (x : UInt8) {j k : Nat} (hj : j < 8) (hk : k < 8) :
  (x &&& ~~~((1 : UInt8) <<< UInt8.ofNat k)).toNat.testBit j
    = (!decide (j = k) && x.toNat.testBit j)
  := by
  have hlt : ((1 : UInt8) <<< UInt8.ofNat k).toNat < 2 ^ 8 := UInt8.toNat_lt _
  have hnot : (~~~((1 : UInt8) <<< UInt8.ofNat k)).toNat
      = 2 ^ 8 - (((1 : UInt8) <<< UInt8.ofNat k).toNat + 1) := by
    have hsize : UInt8.size = 2 ^ 8 := rfl
    rw [UInt8.toNat_not, hsize]
    omega
  rw [UInt8.toNat_and, hnot, Nat.testBit_and, Nat.testBit_two_pow_sub_succ hlt,
    toNat_one_shiftLeft hk, Nat.testBit_two_pow, Bool.and_comm]
  simp [hj, eq_comm]

end Word
