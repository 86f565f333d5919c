import Woos.Pmm.Basic
import Woos.Lib.Word
import Mathlib.Tactic.Use

/-!
# The bitmap and the searches of the page allocator

What the operations on the bitmap do to the bit of a page, and what the loops that look for
free pages find.
-/

namespace Pmm

/-! ### Bits -/

theorem bitmapTest_eq (bitmap : Nat → UInt8) (i : Nat) :
  bitmapTest bitmap i = (bitmap (i / 8)).toNat.testBit (i % 8)
  := Word.byte_test _ (Nat.mod_lt _ (by decide))

@[simp]
theorem bitmapTest_bitmapSet (bitmap : Nat → UInt8) (i j : Nat) :
  bitmapTest (bitmapSet bitmap i) j = (decide (j = i) || bitmapTest bitmap j)
  := by
  rw [bitmapTest_eq, bitmapTest_eq, bitmapSet]
  by_cases hbyte : j / 8 = i / 8
  · rw [hbyte, Function.update_self, Word.testBit_byte_set _ (Nat.mod_lt _ (by decide))]
    have hbit : j % 8 = i % 8 ↔ j = i := by omega
    simp [hbit]
  · have hne : j ≠ i := by
      rintro rfl
      exact hbyte rfl
    rw [Function.update_of_ne hbyte]
    simp [hne]

@[simp]
theorem bitmapTest_bitmapClear (bitmap : Nat → UInt8) (i j : Nat) :
  bitmapTest (bitmapClear bitmap i) j = (!decide (j = i) && bitmapTest bitmap j)
  := by
  rw [bitmapTest_eq, bitmapTest_eq, bitmapClear]
  by_cases hbyte : j / 8 = i / 8
  · rw [hbyte, Function.update_self,
      Word.testBit_byte_clear _ (Nat.mod_lt _ (by decide)) (Nat.mod_lt _ (by decide))]
    have hbit : j % 8 = i % 8 ↔ j = i := by omega
    simp [hbit]
  · have hne : j ≠ i := by
      rintro rfl
      exact hbyte rfl
    rw [Function.update_of_ne hbyte]
    simp [hne]

/-- Setting a row of bits. -/
theorem bitmapTest_setRun (bitmap : Nat → UInt8) (n i j : Nat) :
  bitmapTest (setRun bitmap n i) j = (decide (i ≤ j ∧ j < i + n) || bitmapTest bitmap j)
  := by
  induction n generalizing bitmap i with
  | zero =>
      simp [setRun]
  | succ n ih =>
      rw [setRun, ih, bitmapTest_bitmapSet, ← Bool.or_assoc, ← Bool.decide_or]
      congr 2
      rw [eq_iff_iff]
      omega

/-- The pages that clearing a row frees are those of the row. -/
theorem bitmapTest_clearRun {n i j : Nat} {pmm : Pmm}
    (h : bitmapTest (clearRun n i pmm).bitmap j = false) :
  bitmapTest pmm.bitmap j = false ∨ (i ≤ j ∧ j < i + n)
  := by
  induction n generalizing i pmm with
  | zero => exact Or.inl h
  | succ n ih =>
      rcases ih h with hfree | hrow
      · split at hfree
        case isTrue =>
          rw [bitmapTest_bitmapClear, Bool.and_eq_false_iff] at hfree
          rcases hfree with hself | hother
          · have hji : j = i := by simpa using hself
            right
            omega
          · exact Or.inl hother
        case isFalse => exact Or.inl hfree
      · right
        omega

/-! ### Searches -/

/-- The search for a page finds a free one. -/
theorem findFree_spec {bitmap : Nat → UInt8} {n i p : Nat} (h : findFree bitmap n i = some p) :
  i ≤ p ∧ p < i + n ∧ bitmapTest bitmap p = false
  := by
  induction n generalizing i with
  | zero => cases h
  | succ n ih =>
      rw [findFree] at h
      split at h
      case isTrue hfree =>
        cases h
        use le_refl _, by omega
      case isFalse =>
        obtain ⟨hle, hlt, hfree⟩ := ih h
        use by omega, by omega

/-- The search for a row finds free pages, as many as asked for. -/
theorem findRun_spec
    {bitmap : Nat → UInt8} {count found : UInt32} {n i start first last : Nat}
    (hn : i + n ≤ maxPages) (hstart : found ≠ 0 → start + found.toNat = i)
    (hfound : found.toNat < count.toNat)
    (hfree : found ≠ 0 → ∀ j, start ≤ j → j < i → bitmapTest bitmap j = false)
    (h : findRun bitmap count n i found start = some (first, last)) :
  last < maxPages ∧ last + 1 = first + count.toNat
    ∧ ∀ j, first ≤ j → j ≤ last → bitmapTest bitmap j = false
  := by
  induction n generalizing i found start with
  | zero => cases h
  | succ n ih =>
      rw [findRun] at h
      by_cases hthis : bitmapTest bitmap i = false
      · rw [if_pos hthis] at h
        have hsucc : (found + 1).toNat = found.toNat + 1 := by
          have hlt := count.toNat_lt
          have hone : (1 : UInt32).toNat = 1 := rfl
          rw [UInt32.toNat_add, hone]
          omega
        have hstart' : (if found = 0 then i else start) + found.toNat = i := by
          split
          case isTrue hzero => rw [hzero, UInt32.toNat_zero, Nat.add_zero]
          case isFalse hne => exact hstart hne
        have hfree' : ∀ j, (if found = 0 then i else start) ≤ j → j < i + 1
            → bitmapTest bitmap j = false := by
          intro j hle hlt
          by_cases hlast : j = i
          · rw [hlast]
            exact hthis
          · split at hle
            case isTrue => omega
            case isFalse hne => exact hfree hne j hle (by omega)
        by_cases hcount : found + 1 = count
        · simp only [if_pos hcount, Option.some_inj, Prod.mk.injEq] at h
          obtain ⟨rfl, rfl⟩ := h
          rw [← hcount, hsucc]
          use by omega, by omega
          intro j hle hlt
          exact hfree' j hle (by omega)
        · have hne : (found + 1).toNat ≠ count.toNat := by
            rw [ne_eq, UInt32.toNat_inj]
            exact hcount
          simp only [if_neg hcount] at h
          apply ih _ _ _ _ h
          · omega
          · intro _
            omega
          · omega
          · intro _
            exact hfree'
      · rw [if_neg hthis] at h
        have hzero : (0 : UInt32).toNat = 0 := rfl
        apply ih _ _ _ _ h
        · omega
        · intro hne
          exact (hne rfl).elim
        · omega
        · intro hne
          exact (hne rfl).elim

end Pmm
