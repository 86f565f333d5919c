import Mathlib.Tactic.Use
import Mathlib.Algebra.Group.Nat.Defs
import Mathlib.Algebra.Group.Int.Defs

/-!
# Signed words

The value of a signed 32-bit word is the value of the unsigned word with the same bits, brought into
the range from `-2 ^ 31` on.  The lemmas here give the values of sums, differences and negatives that
stay in that range.
-/

namespace Signed

/-- The value of a signed word, from that of the unsigned one. -/
theorem toInt_eq_bmod (a : Int32) :
  a.toInt = (a.toUInt32.toNat : Int).bmod (2 ^ 32)
  := by
  rw [← Int32.toNat_toBitVec]
  apply BitVec.toInt_eq_toNat_bmod

theorem toInt_toInt32 (a : UInt32) :
  a.toInt32.toInt = (a.toNat : Int).bmod (2 ^ 32)
  := by
  rw [toInt_eq_bmod, UInt32.toUInt32_toInt32]

theorem toInt_toInt32_of_lt {a : UInt32} (h : a.toNat < 2 ^ 31) :
  a.toInt32.toInt = a.toNat
  := by
  rw [toInt_toInt32, Int.bmod_def]
  omega

/-- The unsigned word with the bits of a signed one that is not negative. -/
theorem toNat_toUInt32 {a : Int32} (h : 0 ≤ a.toInt) :
  (a.toUInt32.toNat : Int) = a.toInt
  := by
  have hlt := a.toUInt32.toNat_lt
  rw [toInt_eq_bmod, Int.bmod_def] at h ⊢
  omega

theorem toInt_add {a b : Int32} (hle : -2 ^ 31 ≤ a.toInt + b.toInt)
    (hlt : a.toInt + b.toInt < 2 ^ 31) :
  (a + b).toInt = a.toInt + b.toInt
  := by
  rw [Int32.toInt_add, Int.bmod_def]
  omega

theorem toInt_sub {a b : Int32} (hle : -2 ^ 31 ≤ a.toInt - b.toInt)
    (hlt : a.toInt - b.toInt < 2 ^ 31) :
  (a - b).toInt = a.toInt - b.toInt
  := by
  rw [Int32.toInt_sub, Int.bmod_def]
  omega

theorem toInt_neg {a : Int32} (h : a ≠ Int32.minValue) :
  (-a).toInt = -a.toInt
  := by
  have hle := a.le_toInt
  have hlt := a.toInt_lt
  have hne : a.toInt ≠ -2 ^ 31 := by
    intro hcon
    apply h
    apply Int32.toInt_inj.mp
    rw [hcon]
    rfl
  rw [Int32.toInt_neg, Int.bmod_def]
  omega

theorem toInt_mul {a b : Int32} (hle : -2 ^ 31 ≤ a.toInt * b.toInt)
    (hlt : a.toInt * b.toInt < 2 ^ 31) :
  (a * b).toInt = a.toInt * b.toInt
  := by
  rw [Int32.toInt_mul, Int.bmod_def]
  omega

/-- The quotient of numbers that are not negative. -/
theorem toInt_div {a b : Int32} (ha : 0 ≤ a.toInt) (hb : 0 < b.toInt) :
  (a / b).toInt = a.toInt / b.toInt
  := by
  have hne : b ≠ -1 := by
    rintro rfl
    exact absurd hb (by decide)
  rw [Int32.toInt_div_of_ne_right a b hne, Int.tdiv_eq_ediv_of_nonneg ha]

end Signed
