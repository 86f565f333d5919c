import Woos.Pmm.Counting
import Mathlib.Order.Bounds.Basic

/-!
# Completeness of the page allocator

The searches find what there is.  `findFree_eq_none_iff` and `findRun_least` say this of the
loops; `Ample` says that the counter is not below the number of free pages, so that the guards
in front of the loops do not turn away a request that can be met.  `Session.pages_complete` puts
them together for every run.
-/

namespace Pmm

open Session (InRow)

/-! ### The searches -/

/-- The `n` pages from `i` on are managed and free. -/
def FreeRow (bitmap : Nat → UInt8) (n i : Nat) : Prop :=
  i + n ≤ maxPages ∧ ∀ j, InRow i n j → bitmapTest bitmap j = false

theorem findFree_eq_none_iff {bitmap : Nat → UInt8} {n i : Nat} :
  findFree bitmap n i = none ↔ ∀ j, InRow i n j → bitmapTest bitmap j = true
  := by
  induction n generalizing i with
  | zero =>
      simp only [findFree, true_iff]
      intro j hj
      rw [InRow] at hj
      omega
  | succ n ih =>
      rw [findFree]
      split
      case isTrue hfree =>
        simp only [reduceCtorEq, false_iff, not_forall]
        use i, ⟨le_rfl, by omega⟩
        rw [hfree]
        exact Bool.false_ne_true
      case isFalse hused =>
        rw [ih]
        constructor
        · rintro hrest j ⟨hle, hlt⟩
          rcases hle.eq_or_lt with rfl | hgt
          · exact Bool.not_eq_false _ ▸ hused
          · exact hrest j ⟨hgt, by omega⟩
        · rintro hall j ⟨hle, hlt⟩
          exact hall j ⟨by omega, by omega⟩

/-- No row of free pages begins before the one that the search finds, and there is none when the
search fails.  During the search no row begins before the `found` free pages last seen. -/
theorem findRun_least {bitmap : Nat → UInt8} {count found : UInt32} {n i start : Nat}
    (hn : i + n = maxPages) (hfound : found.toNat < count.toNat) (hle : found.toNat ≤ i)
    (hstart : found ≠ 0 → start + found.toNat = i)
    (hleast : ∀ r, FreeRow bitmap count.toNat r → i - found.toNat ≤ r) :
  match findRun bitmap count n i found start with
    | some (first, _) => ∀ r, FreeRow bitmap count.toNat r → first ≤ r
    | none => ∀ r, ¬ FreeRow bitmap count.toNat r
  := by
  induction n generalizing i found start with
  | zero =>
      intro r hr
      have hfirst := hleast r hr
      have hend := hr.1
      omega
  | succ n ih =>
      rw [findRun]
      by_cases hthis : bitmapTest bitmap i = false
      · have hsucc : (found + 1).toNat = found.toNat + 1 := by
          have hlt := count.toNat_lt
          have hone : (1 : UInt32).toNat = 1 := rfl
          rw [UInt32.toNat_add, hone]
          omega
        have hstart' : (if found = 0 then i else start) + found.toNat = i := by
          split
          case isTrue hzero => rw [hzero, UInt32.toNat_zero, Nat.add_zero]
          case isFalse hne => exact hstart hne
        rw [if_pos hthis]
        by_cases hcount : found + 1 = count
        · simp only [if_pos hcount]
          intro r hr
          have hfirst := hleast r hr
          omega
        · have hne : (found + 1).toNat ≠ count.toNat := by
            rw [ne_eq, UInt32.toNat_inj]
            exact hcount
          simp only [if_neg hcount]
          apply ih
          · omega
          · omega
          · omega
          · intro _
            omega
          · intro r hr
            have hfirst := hleast r hr
            omega
      · rw [if_neg hthis]
        have hzero : (0 : UInt32).toNat = 0 := rfl
        apply ih
        · omega
        · omega
        · omega
        · exact fun hne => (hne rfl).elim
        · -- a row that begins at `i` or before would contain the page `i`
          intro r hr
          have hfirst := hleast r hr
          by_contra hcon
          apply hthis
          exact hr.2 i ⟨by omega, by omega⟩

/-! ### The bits of a row -/

theorem bitmap_ext {bitmap bitmap' : Nat → UInt8}
    (h : ∀ j, bitmapTest bitmap j = bitmapTest bitmap' j) :
  bitmap = bitmap'
  := by
  funext k
  rw [← UInt8.toNat_inj]
  apply Nat.eq_of_testBit_eq
  intro b
  by_cases hb : b < 8
  · have hbit := h (8 * k + b)
    have hbyte : (8 * k + b) / 8 = k := by omega
    have hrest : (8 * k + b) % 8 = b := by omega
    rwa [bitmapTest_eq, bitmapTest_eq, hbyte, hrest] at hbit
  · have hlt : ∀ x : UInt8, x.toNat < 2 ^ b := by
      intro x
      apply x.toNat_lt.trans_le
      exact Nat.pow_le_pow_right (by decide) (by omega)
    rw [Nat.testBit_lt_two_pow (hlt _), Nat.testBit_lt_two_pow (hlt _)]

/-- Clearing a row clears the bits of its managed pages. -/
theorem bitmapTest_clearRun_eq (n i j : Nat) (pmm : Pmm) :
  bitmapTest (clearRun n i pmm).bitmap j
    = (bitmapTest pmm.bitmap j && !decide (InRow i n j ∧ j < maxPages))
  := by
  induction n generalizing i pmm with
  | zero =>
      have hnone : ¬ (InRow i 0 j ∧ j < maxPages) := by
        rw [InRow]
        omega
      rw [clearRun, decide_eq_false hnone, Bool.not_false, Bool.and_true]
  | succ n ih =>
      have hrow : (InRow i (n + 1) j ∧ j < maxPages)
          ↔ (j = i ∧ i < maxPages) ∨ (InRow (i + 1) n j ∧ j < maxPages) := by
        rw [InRow, InRow]
        omega
      rw [clearRun, ih, decide_eq_decide.mpr hrow, Bool.decide_or, Bool.not_or, ← Bool.and_assoc]
      congr 1
      split
      case isTrue hused =>
        rw [bitmapTest_bitmapClear, Bool.and_comm]
        simp [hused.1]
      case isFalse hused =>
        rcases eq_or_ne j i with rfl | hne
        · by_cases hj : j < maxPages
          · have hfree : bitmapTest pmm.bitmap j = false := by
              rw [← Bool.not_eq_true]
              exact fun htrue => hused ⟨hj, htrue⟩
            rw [hfree, Bool.false_and]
          · simp [hj]
        · simp [hne]

/-- Clearing a row of managed pages that are in use counts each of them. -/
theorem clearRun_freePages {n i : Nat} {pmm : Pmm}
    (h : ∀ j, InRow i n j → j < maxPages ∧ bitmapTest pmm.bitmap j = true) :
  (clearRun n i pmm).freePages = pmm.freePages + UInt64.ofNat n
  := by
  induction n generalizing i pmm with
  | zero => exact (UInt64.add_zero _).symm
  | succ n ih =>
      rw [clearRun, if_pos (h i ⟨le_rfl, by omega⟩), ih]
      · rw [UInt64.ofNat_add, UInt64.add_assoc, UInt64.add_comm (UInt64.ofNat n)]
        rfl
      · rintro j ⟨hle, hlt⟩
        obtain ⟨hj, hused⟩ := h j ⟨by omega, by omega⟩
        have hne : j ≠ i := by omega
        use hj
        rw [bitmapTest_bitmapClear, hused]
        simp [hne]

/-! ### The counter -/

/-- The counter is not below the number of free pages, and above it by less than any overflow;
an allocator that is not ready has no free pages. -/
structure Ample (pmm : Pmm) : Prop where
  count : ∃ e ≤ 2 ^ 40, pmm.freePages.toNat = (freeSet pmm.bitmap).card + e
  ready : pmm.ready = false → freeSet pmm.bitmap = ∅
  search : pmm.lastSearchIdx ≤ maxPages
  null : bitmapTest pmm.bitmap 0 = true

section

variable {pmm pmm' : Pmm}

/-- Free pages in a row are taken. -/
theorem Ample.setRun (h : Ample pmm) {n i : Nat} {k : UInt64} (hk : k.toNat = n)
    (hrow : Finset.Ico i (i + n) ⊆ freeSet pmm.bitmap)
    (hbitmap : pmm'.bitmap = Pmm.setRun pmm.bitmap n i)
    (hcount : pmm'.freePages = pmm.freePages - k) (hready : pmm'.ready = pmm.ready)
    (hsearch : pmm'.lastSearchIdx ≤ maxPages) :
  Ample pmm'
  := by
  obtain ⟨e, he, heq⟩ := h.count
  have hcard : (Finset.Ico i (i + n)).card = n := by
    rw [Nat.card_Ico, Nat.add_sub_cancel_left]
  have hle : n ≤ (freeSet pmm.bitmap).card := by
    rw [← hcard]
    exact Finset.card_le_card hrow
  have hk' : k ≤ pmm.freePages := by
    rw [UInt64.le_iff_toNat_le, hk, heq]
    omega
  constructor
  · use e, he
    rw [hcount, hbitmap, freeSet_setRun, Finset.card_sdiff_of_subset hrow,
      UInt64.toNat_sub_of_le _ _ hk', hk, heq, hcard]
    omega
  · intro hnot
    rw [hready] at hnot
    rw [hbitmap, freeSet_setRun, h.ready hnot, Finset.empty_sdiff]
  · exact hsearch
  · rw [hbitmap, bitmapTest_setRun, h.null, Bool.or_true]

/-- A page that is not free becomes free. -/
theorem Ample.clear (h : Ample pmm) {i : Nat} (hi : i < maxPages) (hne : i ≠ 0)
    (hused : bitmapTest pmm.bitmap i = true) (hnot : pmm.ready = true)
    (hbitmap : pmm'.bitmap = bitmapClear pmm.bitmap i)
    (hcount : pmm'.freePages = pmm.freePages + 1) (hready : pmm'.ready = pmm.ready)
    (hsearch : pmm'.lastSearchIdx ≤ maxPages) :
  Ample pmm'
  := by
  obtain ⟨e, he, heq⟩ := h.count
  have hmax : maxPages = 1048576 := rfl
  have hone : (1 : UInt64).toNat = 1 := rfl
  have hcard := card_freeSet_le pmm.bitmap
  have hnew : i ∉ freeSet pmm.bitmap := by
    rw [mem_freeSet, hused]
    simp
  constructor
  · use e, he
    rw [hcount, hbitmap, freeSet_bitmapClear _ hi, Finset.card_insert_of_notMem hnew,
      UInt64.toNat_add, heq, hone]
    omega
  · intro hfalse
    rw [hready, hnot] at hfalse
    cases hfalse
  · exact hsearch
  · rw [hbitmap, bitmapTest_bitmapClear, h.null]
    simp [hne.symm]

/-! ### Initialization -/

/-- The counter follows the pages that are freed, which are at most those that are counted. -/
theorem foldl_countPage_free (image : KernelImage) (pages : List Nat) (bound : Nat)
    (hpages : ∀ i ∈ pages, i < maxPages) (hbound : bound + pages.length < 2 ^ 64)
    (hcard : (freeSet pmm.bitmap).card ≤ pmm.freePages.toNat)
    (hfree : pmm.freePages.toNat ≤ bound) :
  (freeSet (pages.foldl (countPage image) pmm).bitmap).card
      ≤ (pages.foldl (countPage image) pmm).freePages.toNat
    ∧ (pages.foldl (countPage image) pmm).freePages.toNat ≤ bound + pages.length
  := by
  induction pages generalizing pmm bound with
  | nil => exact ⟨hcard, hfree⟩
  | cons i pages ih =>
      have hone : (1 : UInt64).toNat = 1 := rfl
      rw [List.length_cons] at hbound ⊢
      rw [List.foldl_cons, Nat.add_comm pages.length, ← Nat.add_assoc]
      apply ih _ (fun j hj => hpages j (List.mem_cons_of_mem i hj)) (by omega)
      · rw [countPage]
        dsimp only
        split
        · exact hcard
        · rw [freeSet_bitmapClear _ (hpages i List.mem_cons_self), UInt64.toNat_add, hone]
          have hinsert := Finset.card_insert_le i (freeSet pmm.bitmap)
          omega
      · rw [countPage]
        dsimp only
        split
        · show pmm.freePages.toNat ≤ bound + 1
          omega
        · rw [UInt64.toNat_add, hone]
          omega

/-- The page at the null address is reserved, and is not freed. -/
theorem foldl_countPage_null (image : KernelImage) (pmm : Pmm) (pages : List Nat) :
  bitmapTest (pages.foldl (countPage image) pmm).bitmap 0 = bitmapTest pmm.bitmap 0
  := by
  induction pages generalizing pmm with
  | nil => rfl
  | cons i pages ih =>
      rw [List.foldl_cons, ih, countPage]
      dsimp only
      split
      case isTrue => rfl
      case isFalse hres =>
        rw [bitmapTest_bitmapClear]
        rcases eq_or_ne i 0 with rfl | hne
        · exact (hres rfl).elim
        · simp [hne.symm]

theorem length_countedPages_le (info : VideoInfo) :
  (countedPages info).length ≤ 2 ^ 40
  := by
  have hmax : maxPages = 1048576 := rfl
  have hregion : ∀ r, (regionPages r).length ≤ maxPages := by
    intro r
    rw [regionPages]
    split
    · exact Nat.zero_le _
    · rw [List.length_range']
      omega
  have hcount : (regions info).length ≤ 65535 := by
    rw [regions, List.length_map, List.length_range]
    have hlt := (regionCount info).toNat_lt
    omega
  have hsum : ∀ rs : List BootMemoryRegion,
      (rs.flatMap regionPages).length ≤ rs.length * maxPages := by
    intro rs
    induction rs with
    | nil => exact Nat.zero_le _
    | cons r rs ih =>
        have hr := hregion r
        rw [List.flatMap_cons, List.length_append, List.length_cons, Nat.add_mul, Nat.one_mul]
        omega
  have hle := hsum (regions info)
  have hmul := Nat.mul_le_mul_right maxPages hcount
  rw [countedPages]
  omega

/-- `pmm_init` leaves an allocator whose counter is ample, for every memory map. -/
theorem pmmInit_ample (image : KernelImage) (info : VideoInfo) :
  Ample (pmmInit image (some info))
  := by
  have hnull : bitmapTest blank.bitmap 0 = true := by decide
  have hidx := pmmInit_lastSearchIdx image info
  have hlen := length_countedPages_le info
  have hempty : (freeSet blank.bitmap).card ≤ blank.freePages.toNat := by
    rw [freeSet_blank]
    rfl
  obtain ⟨hcard, hle⟩ := foldl_countPage_free image (countedPages info) 0
    (fun i hi => lt_maxPages_of_counted hi) (by omega) hempty le_rfl
  have hzero := foldl_countPage_null image blank (countedPages info)
  rw [← foldl_initRegion_eq] at hcard hle hzero
  rw [pmmInit]
  split
  case isTrue =>
    constructor
    · use 0, Nat.zero_le _
      rw [freeSet_blank]
      rfl
    · exact fun _ => freeSet_blank
    · exact Nat.zero_le _
    · exact hnull
  case isFalse hnot =>
    rw [pmmInit, if_neg hnot] at hidx
    constructor
    · use ((regions info).foldl (initRegion image) blank).freePages.toNat
        - (freeSet ((regions info).foldl (initRegion image) blank).bitmap).card
      constructor
      · omega
      · dsimp only
        omega
    · intro hnot
      have hno : ((regions info).foldl (initRegion image) blank).freePages = 0 := by
        simpa using hnot
      rw [hno] at hcard
      exact Finset.card_eq_zero.mp (Nat.le_zero.mp hcard)
    · exact hidx.le.trans (Nat.zero_le _)
    · exact hzero.trans hnull

/-! ### Calls -/

theorem takePage_ample (h : Ample pmm) {i : Nat} (hi : i < maxPages)
    (hfree : bitmapTest pmm.bitmap i = false) :
  Ample (takePage pmm i).1
  := by
  have hrow : Finset.Ico i (i + 1) ⊆ freeSet pmm.bitmap := by
    intro j hj
    rw [Finset.mem_Ico] at hj
    obtain rfl : j = i := by omega
    exact mem_freeSet.mpr ⟨hi, hfree⟩
  exact h.setRun (k := 1) rfl hrow rfl rfl rfl hi.le

/-- `pmm_alloc_page` takes a free page if there is one. -/
theorem pmmAllocPage_cases (h : Ample pmm) :
  (freeSet pmm.bitmap = ∅ ∧ pmmAllocPage pmm = (pmm, 0))
    ∨ ∃ i < maxPages, bitmapTest pmm.bitmap i = false ∧ pmmAllocPage pmm = takePage pmm i
  := by
  have hsearch := h.search
  have hzero : (0 : UInt64).toNat = 0 := rfl
  rw [pmmAllocPage]
  split
  case isTrue hguard =>
    left
    refine ⟨?_, rfl⟩
    rcases hguard with hnot | hnone
    · exact h.ready hnot
    · obtain ⟨e, -, heq⟩ := h.count
      rw [hnone, hzero] at heq
      rw [← Finset.card_eq_zero]
      omega
  case isFalse =>
    split
    case h_1 i hfind =>
      obtain ⟨-, hlt, hfree⟩ := findFree_spec hfind
      right
      exact ⟨i, by omega, hfree, rfl⟩
    case h_2 hupper =>
      split
      case h_1 i hfind =>
        obtain ⟨-, hlt, hfree⟩ := findFree_spec hfind
        right
        exact ⟨i, by omega, hfree, rfl⟩
      case h_2 hlower =>
        left
        refine ⟨?_, rfl⟩
        rw [findFree_eq_none_iff] at hupper hlower
        ext i
        rw [mem_freeSet]
        simp only [Finset.notMem_empty, iff_false, not_and, Bool.not_eq_false]
        intro hi
        by_cases hle : pmm.lastSearchIdx ≤ i
        · exact hupper i ⟨hle, by omega⟩
        · exact hlower i ⟨Nat.zero_le _, by omega⟩

theorem pmmAllocPage_ample (h : Ample pmm) :
  Ample (pmmAllocPage pmm).1
  := by
  rcases pmmAllocPage_cases h with ⟨-, heq⟩ | ⟨i, hi, hfree, heq⟩
  · rw [heq]
    exact h
  · rw [heq]
    exact takePage_ample h hi hfree

/-- The state after `count` pages from `i` on have been taken. -/
def takeRow (pmm : Pmm) (count : UInt32) (i : Nat) : Pmm :=
  { pmm with
    bitmap := Pmm.setRun pmm.bitmap count.toNat i
    freePages := pmm.freePages - count.toUInt64 }

theorem FreeRow.subset {bitmap : Nat → UInt8} {n i : Nat} (hrow : FreeRow bitmap n i) :
  Finset.Ico i (i + n) ⊆ freeSet bitmap
  := by
  intro j hj
  rw [Finset.mem_Ico] at hj
  exact mem_freeSet.mpr ⟨by have := hrow.1; omega, hrow.2 j hj⟩

/-- `pmm_alloc_pages_multi` takes the first row of free pages if there is one. -/
theorem pmmAllocPagesMulti_cases (h : Ample pmm) {count : UInt32} (hcount : count ≠ 0) :
  ((∀ i, ¬ FreeRow pmm.bitmap count.toNat i) ∧ pmmAllocPagesMulti pmm count = (pmm, 0))
    ∨ ∃ i, IsLeast {r | FreeRow pmm.bitmap count.toNat r} i
      ∧ pmmAllocPagesMulti pmm count = (takeRow pmm count i, UInt64.ofNat i * pageSize)
  := by
  have hzero : (0 : UInt32).toNat = 0 := rfl
  have hpos : (0 : UInt32).toNat < count.toNat := by
    rw [ne_eq, ← UInt32.toNat_inj, hzero] at hcount
    omega
  have hleast := @findRun_least pmm.bitmap count 0 maxPages 0 0 (Nat.zero_add maxPages) hpos
    le_rfl (fun hne => (hne rfl).elim) (fun _ _ => Nat.zero_le _)
  rw [pmmAllocPagesMulti]
  split
  case isTrue hguard =>
    left
    refine ⟨?_, rfl⟩
    intro i hrow
    have hsubset := hrow.subset
    have hle := Finset.card_le_card hsubset
    rw [Nat.card_Ico, Nat.add_sub_cancel_left] at hle
    rcases hguard with hnot | hfew | hnull
    · rw [h.ready hnot, Finset.card_empty] at hle
      omega
    · obtain ⟨e, -, heq⟩ := h.count
      rw [UInt64.lt_iff_toNat_lt, UInt32.toNat_toUInt64] at hfew
      omega
    · exact hcount hnull
  case isFalse =>
    split
    case h_1 first last hfind =>
      obtain ⟨hlast, hlen, hfree⟩ := findRun_spec (by omega) (fun hne => (hne rfl).elim) hpos
        (fun hne => (hne rfl).elim) hfind
      rw [hfind] at hleast
      right
      use first
      constructor
      · constructor
        · constructor
          · omega
          · rintro j ⟨hle, hlt⟩
            exact hfree j hle (by omega)
        · exact hleast
      · have hrounds : last + 1 - first = count.toNat := by omega
        rw [hrounds]
        rfl
    case h_2 hfind =>
      rw [hfind] at hleast
      left
      exact ⟨hleast, rfl⟩

theorem pmmAllocPagesMulti_ample (h : Ample pmm) (count : UInt32) :
  Ample (pmmAllocPagesMulti pmm count).1
  := by
  by_cases hcount : count = 0
  · rw [pmmAllocPagesMulti, if_pos (Or.inr (Or.inr hcount))]
    exact h
  · rcases pmmAllocPagesMulti_cases h hcount with ⟨-, heq⟩ | ⟨i, hleast, heq⟩
    · rw [heq]
      exact h
    · rw [heq]
      exact h.setRun (UInt32.toNat_toUInt64 _) hleast.1.subset rfl rfl rfl h.search

theorem pmmFreePage_ample (image : KernelImage) (h : Ample pmm) {page : UInt64}
    (hne : page.toNat / 4096 = 0 → page = 0) :
  Ample (pmmFreePage image pmm page)
  := by
  have hidx : (page / pageSize).toNat = page.toNat / 4096 := UInt64.toNat_div _ _
  rw [pmmFreePage]
  split
  case isTrue => exact h
  case isFalse hready =>
    rw [not_or, Bool.not_eq_false] at hready
    split
    case isTrue => exact h
    case isFalse =>
      rw [hidx]
      dsimp only
      split
      case isTrue => exact h
      case isFalse hmanaged =>
        split
        case isTrue hused =>
          refine h.clear (not_le.mp hmanaged) (mt hne hready.2) hused hready.1 rfl rfl rfl ?_
          show (if _ then _ else _) ≤ maxPages
          split
          case isTrue hlt => exact hlt.le.trans h.search
          case isFalse => exact h.search
        case isFalse => exact h

theorem clearRun_ample {n i : Nat} (h : Ample pmm) (hready : pmm.ready = true)
    (hne : ¬ InRow i n 0) :
  Ample (clearRun n i pmm)
  := by
  induction n generalizing i pmm with
  | zero => exact h
  | succ n ih =>
      have hnext : ¬ InRow (i + 1) n 0 := by
        rw [InRow]
        omega
      have hi : i ≠ 0 := by
        rintro rfl
        exact hne ⟨le_rfl, by omega⟩
      rw [clearRun]
      split
      case isTrue hused =>
        exact ih (h.clear hused.1 hi hused.2 hready rfl rfl rfl h.search) hready hnext
      case isFalse => exact ih h hready hnext

theorem pmmFreePagesMulti_ample (h : Ample pmm) {pages : UInt64} {count : UInt32}
    (hne : pages = 0 ∨ ¬ InRow (pages.toNat / 4096) count.toNat 0) :
  Ample (pmmFreePagesMulti pmm pages count)
  := by
  have hidx : (pages / pageSize).toNat = pages.toNat / 4096 := UInt64.toNat_div _ _
  rw [pmmFreePagesMulti]
  split
  case isTrue => exact h
  case isFalse hguard =>
    rw [not_or, Bool.not_eq_false, not_or] at hguard
    rw [hidx]
    exact clearRun_ample h hguard.1 (hne.resolve_left hguard.2.1)

/-! ### Complete answers -/

/-- Every call finds what there is, and what `pmm_alloc_pages_multi` takes can be given back. -/
structure Complete (pmm : Pmm) : Prop where
  page : (pmmAllocPage pmm).2 ≠ 0 ↔ ∃ i < maxPages, bitmapTest pmm.bitmap i = false
  grants : (pmmAllocPage pmm).2 ≠ 0 → Session.Grants pmm (pmmAllocPage pmm) 1
  row : ∀ count ≠ 0,
    (pmmAllocPagesMulti pmm count).2 ≠ 0 ↔ ∃ i, FreeRow pmm.bitmap count.toNat i
  least : ∀ count ≠ 0, ∀ i, IsLeast {r | FreeRow pmm.bitmap count.toNat r} i →
    (pmmAllocPagesMulti pmm count).2.toNat = 4096 * i
      ∧ ∀ j, bitmapTest (pmmAllocPagesMulti pmm count).1.bitmap j
          = (decide (InRow i count.toNat j) || bitmapTest pmm.bitmap j)
  restored : ∀ count ≠ 0, (pmmAllocPagesMulti pmm count).2 ≠ 0 →
    let r := pmmAllocPagesMulti pmm count
    (pmmFreePagesMulti r.1 r.2 count).bitmap = pmm.bitmap
      ∧ (pmmFreePagesMulti r.1 r.2 count).freePages = pmm.freePages

/-- The first page of a free row is not at the null address. -/
theorem FreeRow.addr (h : Ample pmm) {count : UInt32} (hcount : count ≠ 0) {i : Nat}
    (hrow : FreeRow pmm.bitmap count.toNat i) :
  (UInt64.ofNat i * pageSize).toNat = 4096 * i ∧ UInt64.ofNat i * pageSize ≠ 0
  := by
  have hpos : 0 < count.toNat := by
    rw [Nat.pos_iff_ne_zero, ne_eq, ← UInt32.toNat_zero, UInt32.toNat_inj]
    exact hcount
  have haddr : (UInt64.ofNat i * pageSize).toNat = 4096 * i := by
    apply pageAddr_toNat
    have hend := hrow.1
    omega
  use haddr
  intro hnull
  have hzero : i = 0 := by
    rw [hnull, UInt64.toNat_zero] at haddr
    omega
  have hfree := hrow.2 i ⟨le_rfl, by omega⟩
  rw [hzero, h.null] at hfree
  cases hfree

/-- Taking a row and giving it back changes neither the bitmap nor the counter. -/
theorem takeRow_restored (h : Ample pmm) {count : UInt32} (hcount : count ≠ 0) {i : Nat}
    (hrow : FreeRow pmm.bitmap count.toNat i) :
  (pmmFreePagesMulti (takeRow pmm count i) (UInt64.ofNat i * pageSize) count).bitmap = pmm.bitmap
    ∧ (pmmFreePagesMulti (takeRow pmm count i) (UInt64.ofNat i * pageSize) count).freePages
        = pmm.freePages
  := by
  obtain ⟨haddr, hnull⟩ := hrow.addr h hcount
  have hidx : (UInt64.ofNat i * pageSize / pageSize).toNat = i := by
    have hsize : pageSize.toNat = 4096 := rfl
    rw [UInt64.toNat_div, haddr, hsize]
    omega
  have hready : (takeRow pmm count i).ready = true := by
    rw [← Bool.not_eq_false]
    intro hnot
    have hempty := h.ready hnot
    have hle := Finset.card_le_card hrow.subset
    have hne : count.toNat ≠ 0 := by
      rw [← UInt32.toNat_zero, ne_eq, UInt32.toNat_inj]
      exact hcount
    rw [hempty, Nat.card_Ico, Finset.card_empty] at hle
    omega
  have hguard : ¬ ((takeRow pmm count i).ready = false ∨ UInt64.ofNat i * pageSize = 0 ∨ count = 0) := by
    rw [hready]
    simp [hnull, hcount]
  rw [pmmFreePagesMulti, if_neg hguard, hidx]
  constructor
  · apply bitmap_ext
    intro j
    rw [bitmapTest_clearRun_eq, takeRow, bitmapTest_setRun]
    change ((decide (InRow i count.toNat j) || _) && _) = _
    by_cases hj : InRow i count.toNat j
    · have hmanaged : j < maxPages := by
        have hend := hrow.1
        have hlt := hj.2
        omega
      simp [hj, hmanaged, hrow.2 j hj]
    · simp [hj]
  · rw [clearRun_freePages, takeRow]
    · have hback : UInt64.ofNat count.toNat = count.toUInt64 := by
        have hlt : count.toNat < UInt64.size := count.toNat_lt.trans (by decide)
        rw [← UInt64.toNat_inj, UInt64.toNat_ofNat_of_lt' hlt, UInt32.toNat_toUInt64]
      rw [hback, UInt64.sub_add_cancel]
    · intro j hj
      have hend := hrow.1
      have hlt := hj.2
      use by omega
      rw [takeRow, bitmapTest_setRun, decide_eq_true (show i ≤ j ∧ j < i + count.toNat from hj), Bool.true_or]

theorem Ample.complete (h : Ample pmm) :
  Complete pmm
  := by
  have hpage : (pmmAllocPage pmm).2 ≠ 0 → ∃ i < maxPages, bitmapTest pmm.bitmap i = false := by
    intro hne
    rcases pmmAllocPage_cases h with ⟨-, heq⟩ | ⟨i, hi, hfree, -⟩
    · rw [heq] at hne
      exact (hne rfl).elim
    · exact ⟨i, hi, hfree⟩
  constructor
  · use hpage
    rintro ⟨i, hi, hfree⟩
    rcases pmmAllocPage_cases h with ⟨hempty, -⟩ | ⟨i', hi', hfree', heq⟩
    · have hmem := mem_freeSet.mpr ⟨hi, hfree⟩
      rw [hempty] at hmem
      cases hmem
    · have hrow : FreeRow pmm.bitmap (1 : UInt32).toNat i' := by
        use hi'
        rintro j ⟨hle, hlt⟩
        have hone : (1 : UInt32).toNat = 1 := rfl
        obtain rfl : j = i' := by omega
        exact hfree'
      rw [heq]
      exact (hrow.addr h (by decide)).2
  · intro hne
    rcases Session.pmmAllocPage_grants h.search with heq | hgrants
    · rw [heq] at hne
      exact (hne rfl).elim
    · exact hgrants
  · intro count hcount
    rcases pmmAllocPagesMulti_cases h hcount with ⟨hnone, heq⟩ | ⟨i, hleast, heq⟩
    · rw [heq]
      constructor
      · exact fun hne => (hne rfl).elim
      · rintro ⟨i, hrow⟩
        exact (hnone i hrow).elim
    · rw [heq]
      constructor
      · exact fun _ => ⟨i, hleast.1⟩
      · exact fun _ => (hleast.1.addr h hcount).2
  · intro count hcount i hi
    rcases pmmAllocPagesMulti_cases h hcount with ⟨hnone, -⟩ | ⟨i', hleast, heq⟩
    · exact (hnone i hi.1).elim
    · obtain rfl := hleast.unique hi
      rw [heq]
      use (hi.1.addr h hcount).1
      intro j
      rw [takeRow, bitmapTest_setRun]
      rfl
  · intro count hcount hne
    rcases pmmAllocPagesMulti_cases h hcount with ⟨-, heq⟩ | ⟨i, hleast, heq⟩
    · rw [heq] at hne
      exact (hne rfl).elim
    · rw [heq]
      apply takeRow_restored h hcount hleast.1

end

/-! ### Runs -/

namespace Session

/-- The allocator has an ample counter, and nobody was given the page at the null address. -/
structure Searchable (s : Session) : Prop where
  ample : Ample s.pmm
  given : s.given 0 = false
  owner : ∀ caller, s.owner 0 ≠ some caller

theorem init_searchable (image : KernelImage) (info : VideoInfo) :
  (init image info).Searchable
  := by
  constructor
  · apply pmmInit_ample
  · rfl
  · nofun

theorem handOut_searchable {s : Session} (hs : s.Searchable) (caller : Nat) {n : Nat}
    {r : Pmm × UInt64} (hample : Ample r.1) (hrow : r.2 ≠ 0 → ¬ InRow (r.2.toNat / 4096) n 0) :
  (s.handOut caller n r).Searchable
  := by
  rw [handOut]
  split
  case isTrue => exact ⟨hample, hs.given, hs.owner⟩
  case isFalse hne =>
    constructor
    · exact hample
    · simp only [hrow hne, decide_false, Bool.false_or]
      exact hs.given
    · simp only [hrow hne, if_false]
      exact hs.owner

theorem takeBack_searchable {s : Session} (hs : s.Searchable) (n : Nat) (page : UInt64) {pmm : Pmm}
    (hample : Ample pmm) :
  (s.takeBack n page pmm).Searchable
  := by
  rw [takeBack]
  split
  case isTrue => exact ⟨hample, hs.given, hs.owner⟩
  case isFalse =>
    constructor
    · exact hample
    · exact hs.given
    · intro caller
      dsimp only
      split
      · intro hcon
        cases hcon
      · exact hs.owner caller

/-- Nobody may free the page at the null address. -/
theorem Searchable.not_inRow {s : Session} (hs : s.Searchable) {caller n : Nat} {page : UInt64}
    (h : s.MayFree caller n page) :
  ¬ InRow (page.toNat / 4096) n 0
  := by
  intro hrow
  rcases h.2 0 hrow with howner | ⟨-, hgiven⟩
  · exact hs.owner caller howner
  · rw [hs.given] at hgiven
    cases hgiven

theorem call_searchable {image : KernelImage} {s : Session} {c : Call} (hs : s.Searchable)
    (hc : s.Permitted c) :
  ∃ s', s.call image c = some s' ∧ s'.Searchable
  := by
  have hnull := hs.ample.null
  cases c with
  | allocPage caller =>
      refine ⟨_, rfl, handOut_searchable hs caller (pmmAllocPage_ample hs.ample) ?_⟩
      intro hne hrow
      rcases pmmAllocPage_grants hs.ample.search with heq | ⟨i, haddr, hfree, -⟩
      · rw [heq] at hne
        exact hne rfl
      · have hidx : (pmmAllocPage s.pmm).2.toNat / 4096 = i := by omega
        rw [hidx] at hrow
        rw [(hfree 0 hrow).2] at hnull
        cases hnull
  | freePage caller page =>
      refine ⟨_, rfl, takeBack_searchable hs 1 page (pmmFreePage_ample image hs.ample ?_)⟩
      intro hidx
      rcases hc with hzero | hmay
      · exact hzero
      · exact (hs.not_inRow hmay ⟨hidx.le, by omega⟩).elim
  | allocPagesMulti caller count =>
      refine ⟨_, rfl, handOut_searchable hs caller (pmmAllocPagesMulti_ample hs.ample count) ?_⟩
      intro hne hrow
      rcases pmmAllocPagesMulti_grants hs.ample.search count with heq | ⟨i, haddr, hfree, -⟩
      · rw [heq] at hne
        exact hne rfl
      · have hidx : (pmmAllocPagesMulti s.pmm count).2.toNat / 4096 = i := by omega
        rw [hidx] at hrow
        rw [(hfree 0 hrow).2] at hnull
        cases hnull
  | freePagesMulti caller pages count =>
      refine ⟨_, rfl, takeBack_searchable hs count.toNat pages (pmmFreePagesMulti_ample hs.ample ?_)⟩
      exact hc.imp id hs.not_inRow

/-- In every state of a run in which callers free only pages that they were given, for every memory
map, the calls find what there is. -/
theorem pages_complete (image : KernelImage) (info : VideoInfo) (calls : List Call)
    (h : Run.Guarded (call image) Permitted (init image info) calls) :
  ∃ s, Run.exec (call image) (init image info) calls = some s ∧ Complete s.pmm
  := by
  have hstep : ∀ (s : Session) c, s.Searchable → s.Permitted c
      → ∃ s', s.call image c = some s' ∧ s'.Searchable :=
    fun _ _ hs hc => call_searchable hs hc
  obtain ⟨s, hrun, hs⟩ := Run.exec_invariant hstep (init_searchable image info) h
  exact ⟨s, hrun, hs.ample.complete⟩

/-- The case of a page that is allocated when there is one. -/
theorem pages_complete_alloc :
  ∃ s, Run.exec (call smallImage) (init smallImage (twoRegions 4096))
      [.allocPage 1, .freePage 1 0] = some s
    ∧ Complete s.pmm
  := by
  apply pages_complete
  exact ⟨trivial, fun _ _ => ⟨Or.inl rfl, fun _ _ => trivial⟩⟩

end Session

end Pmm
