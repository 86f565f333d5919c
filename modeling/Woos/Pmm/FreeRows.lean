import Woos.Pmm.Completeness

/-!
# Freeing a row and freeing its pages

`pmm_free_pages_multi` against repeated calls of `pmm_free_page`.  Both clear bits and count them,
but behind different guards: the first takes every page that is managed, the second none that is
reserved.  `freePages_agree_iff` says when they leave the same bitmap and the same counter.
-/

namespace Pmm

open Session (InRow)

/-- Calls of `pmm_free_page` on `n` pages from `page` on, in turn. -/
def freeEach (image : KernelImage) : Nat → UInt64 → Pmm → Pmm
  | 0, _, pmm => pmm
  | n + 1, page, pmm => freeEach image n (page + pageSize) (pmmFreePage image pmm page)

/-- The page `k` of the range that begins at `page`. -/
def rangePage (page : UInt64) (k : Nat) : UInt64 := page + UInt64.ofNat k * pageSize

/-- `pmm_free_page` takes the page if it is in use. -/
def Freeable (image : KernelImage) (page : UInt64) : Prop :=
  page ≠ 0 ∧ page &&& (pageSize - 1) = 0 ∧ pageIsReserved image page = false
    ∧ page.toNat / 4096 < maxPages
  deriving Decidable

/-- The two functions leave the same bitmap and counter, and neither frees a reserved page. -/
structure Agree (image : KernelImage) (pmm : Pmm) (pages : UInt64) (count : UInt32) : Prop where
  bitmap : (pmmFreePagesMulti pmm pages count).bitmap
    = (freeEach image count.toNat pages pmm).bitmap
  freePages : (pmmFreePagesMulti pmm pages count).freePages
    = (freeEach image count.toNat pages pmm).freePages
  reserved : ∀ j < maxPages, Reserved image j → bitmapTest pmm.bitmap j = true →
    bitmapTest (pmmFreePagesMulti pmm pages count).bitmap j = true
      ∧ bitmapTest (freeEach image count.toNat pages pmm).bitmap j = true

/-- Of the pages of the range that are in use, both functions take the same: none is managed and
reserved, and none is one that `pmm_free_page` takes after the addresses have wrapped. -/
def GuardsAgree (image : KernelImage) (pmm : Pmm) (pages : UInt64) (count : UInt32) : Prop :=
  ∀ k < count.toNat, bitmapTest pmm.bitmap ((rangePage pages k).toNat / 4096) = true →
    (pages.toNat / 4096 + k < maxPages ↔ Freeable image (rangePage pages k))

section

variable {image : KernelImage} {pmm pmm' : Pmm} {page : UInt64}

/-! ### The pages of a range -/

theorem rangePage_zero (page : UInt64) :
  rangePage page 0 = page
  := by
  rw [rangePage]
  simp

theorem rangePage_succ (page : UInt64) (k : Nat) :
  rangePage (page + pageSize) k = rangePage page (k + 1)
  := by
  rw [rangePage, rangePage, UInt64.ofNat_add, UInt64.add_mul, UInt64.add_assoc,
    UInt64.add_comm pageSize]
  congr 2

theorem rangePage_toNat (page : UInt64) {k : Nat} (hk : k < 2 ^ 32) :
  (rangePage page k).toNat = (page.toNat + 4096 * k) % 2 ^ 64
  := by
  have hsize : pageSize.toNat = 4096 := rfl
  have hlt : k < UInt64.size := hk.trans (by decide)
  rw [rangePage, UInt64.toNat_add, UInt64.toNat_mul, UInt64.toNat_ofNat_of_lt' hlt, hsize]
  omega

/-! ### What the calls clear -/

/-- `pmm_free_page` clears the bit of a page that it takes, and no other. -/
theorem bitmapTest_pmmFreePage (hready : pmm.ready = true) (j : Nat) :
  bitmapTest (pmmFreePage image pmm page).bitmap j = true
    ↔ bitmapTest pmm.bitmap j = true ∧ ¬ (page.toNat / 4096 = j ∧ Freeable image page)
  := by
  have hidx : (page / pageSize).toNat = page.toNat / 4096 := UInt64.toNat_div _ _
  rw [pmmFreePage]
  split
  case isTrue hguard =>
    rw [hready] at hguard
    have hnot : ¬ Freeable image page := fun hfree => hfree.1 (hguard.resolve_left (by decide))
    simp [hnot]
  case isFalse hguard =>
    rw [not_or] at hguard
    split
    case isTrue hreject =>
      have hnot : ¬ Freeable image page := by
        rintro ⟨-, halign, hres, -⟩
        rcases hreject with hmis | hreserved
        · exact hmis halign
        · rw [hres] at hreserved
          cases hreserved
      simp [hnot]
    case isFalse haccept =>
      rw [not_or, not_not, Bool.not_eq_true] at haccept
      rw [hidx]
      dsimp only
      split
      case isTrue hmanaged =>
        have hnot : ¬ Freeable image page := fun hfree => not_lt.mpr hmanaged hfree.2.2.2
        simp [hnot]
      case isFalse hmanaged =>
        have hfree : Freeable image page := ⟨hguard.2, haccept.1, haccept.2, not_le.mp hmanaged⟩
        split
        case isTrue =>
          rw [bitmapTest_bitmapClear, Bool.and_eq_true, Bool.not_eq_true', decide_eq_false_iff_not,
            and_iff_left hfree, and_comm, @eq_comm _ j]
        case isFalse hused =>
          constructor
          · intro hj
            refine ⟨hj, ?_⟩
            rintro ⟨rfl, -⟩
            exact hused hj
          · exact And.left

/-- Repeated calls clear the bits of the pages that they take. -/
theorem bitmapTest_freeEach (hready : pmm.ready = true) (n j : Nat) :
  bitmapTest (freeEach image n page pmm).bitmap j = true
    ↔ bitmapTest pmm.bitmap j = true
      ∧ ¬ ∃ k < n, (rangePage page k).toNat / 4096 = j ∧ Freeable image (rangePage page k)
  := by
  induction n generalizing page pmm with
  | zero => simp [freeEach]
  | succ n ih =>
      have hnext : (pmmFreePage image pmm page).ready = true := by
        rw [pmmFreePage_ready, hready]
      rw [freeEach, ih hnext, bitmapTest_pmmFreePage hready, and_assoc, ← not_or]
      have hsplit : (∃ k < n + 1,
            (rangePage page k).toNat / 4096 = j ∧ Freeable image (rangePage page k))
          ↔ (page.toNat / 4096 = j ∧ Freeable image page) ∨ ∃ k < n,
            (rangePage (page + pageSize) k).toNat / 4096 = j
              ∧ Freeable image (rangePage (page + pageSize) k) := by
        rw [Nat.exists_lt_succ_left, rangePage_zero]
        simp only [rangePage_succ]
      rw [hsplit]

/-! ### What the calls count -/

/-- The counter changes by as much as the number of free pages. -/
def Balanced (pmm pmm' : Pmm) : Prop :=
  pmm'.freePages + UInt64.ofNat (freeSet pmm.bitmap).card
    = pmm.freePages + UInt64.ofNat (freeSet pmm'.bitmap).card

theorem Balanced.trans {pmm'' : Pmm} (h : Balanced pmm pmm') (h' : Balanced pmm' pmm'') :
  Balanced pmm pmm''
  := by
  rw [Balanced] at *
  grind

theorem balanced_clear {i : Nat} (hi : i < maxPages) (hused : bitmapTest pmm.bitmap i = true)
    (hbitmap : pmm'.bitmap = bitmapClear pmm.bitmap i) (hcount : pmm'.freePages = pmm.freePages + 1) :
  Balanced pmm pmm'
  := by
  have hnew : i ∉ freeSet pmm.bitmap := by
    rw [mem_freeSet, hused]
    simp
  rw [Balanced, hbitmap, hcount, freeSet_bitmapClear _ hi, Finset.card_insert_of_notMem hnew,
    UInt64.ofNat_add, UInt64.add_assoc, UInt64.add_comm 1]
  rfl

theorem clearRun_balanced (n i : Nat) (pmm : Pmm) :
  Balanced pmm (clearRun n i pmm)
  := by
  induction n generalizing i pmm with
  | zero => rfl
  | succ n ih =>
      rw [clearRun]
      apply Balanced.trans _ (ih _ _)
      split
      case isTrue hused => exact balanced_clear hused.1 hused.2 rfl rfl
      case isFalse => rfl

theorem pmmFreePage_balanced (image : KernelImage) (pmm : Pmm) (page : UInt64) :
  Balanced pmm (pmmFreePage image pmm page)
  := by
  rw [pmmFreePage]
  split
  · rfl
  · split
    · rfl
    · dsimp only
      split
      · rfl
      · next hmanaged =>
          split
          case isTrue hused => exact balanced_clear (not_le.mp hmanaged) hused rfl rfl
          case isFalse => rfl

theorem freeEach_balanced (n : Nat) (page : UInt64) (pmm : Pmm) :
  Balanced pmm (freeEach image n page pmm)
  := by
  induction n generalizing page pmm with
  | zero => rfl
  | succ n ih => exact (pmmFreePage_balanced image pmm page).trans (ih _ _)

/-- Calls that leave the same bitmap leave the same counter. -/
theorem Balanced.freePages_eq {pmm'' : Pmm} (h : Balanced pmm pmm') (h' : Balanced pmm pmm'')
    (hbitmap : pmm'.bitmap = pmm''.bitmap) :
  pmm'.freePages = pmm''.freePages
  := by
  rw [Balanced] at *
  rw [hbitmap] at h
  exact (UInt64.add_left_inj _).mp (h.trans h'.symm)

/-! ### Agreement -/

theorem freeEach_not_ready (hnot : pmm.ready = false) (n : Nat) (page : UInt64) :
  freeEach image n page pmm = pmm
  := by
  induction n generalizing page with
  | zero => rfl
  | succ n ih => rw [freeEach, pmmFreePage, if_pos (Or.inl hnot), ih]

theorem bitmapTest_pmmFreePagesMulti {pages : UInt64} (hready : pmm.ready = true) (hne : pages ≠ 0)
    (count : UInt32) (j : Nat) :
  bitmapTest (pmmFreePagesMulti pmm pages count).bitmap j = true
    ↔ bitmapTest pmm.bitmap j = true
      ∧ ¬ (InRow (pages.toNat / 4096) count.toNat j ∧ j < maxPages)
  := by
  have hidx : (pages / pageSize).toNat = pages.toNat / 4096 := UInt64.toNat_div _ _
  rw [pmmFreePagesMulti]
  split
  case isTrue hguard =>
    rw [hready] at hguard
    have hzero : count = 0 := (hguard.resolve_left (by decide)).resolve_left hne
    have hnone : ¬ InRow (pages.toNat / 4096) count.toNat j := by
      rw [InRow, hzero, UInt32.toNat_zero]
      omega
    simp [hnone]
  case isFalse =>
    rw [hidx, bitmapTest_clearRun_eq, Bool.and_eq_true, Bool.not_eq_true', decide_eq_false_iff_not]

/-- A page of the range that does not wrap has the index one expects, and one that wraps a
smaller index than the first. -/
theorem rangePage_idx {pages : UInt64} (halign : pages.toNat % 4096 = 0) {k : Nat}
    (hk : k < 2 ^ 32) :
  (rangePage pages k).toNat = 4096 * ((rangePage pages k).toNat / 4096)
    ∧ ((rangePage pages k).toNat / 4096 = pages.toNat / 4096 + k
      ∨ (2 ^ 52 ≤ pages.toNat / 4096 + k
        ∧ (rangePage pages k).toNat / 4096 + 2 ^ 52 = pages.toNat / 4096 + k))
  := by
  have hlt := pages.toNat_lt
  rw [rangePage_toNat pages hk]
  omega

/-- The pages that are cleared are the same exactly when the guards agree. -/
theorem same_bits_iff {pages : UInt64} (halign : pages.toNat % 4096 = 0) (hready : pmm.ready = true)
    (hne : pages ≠ 0) (count : UInt32) :
  (∀ j, bitmapTest (pmmFreePagesMulti pmm pages count).bitmap j = true
      ↔ bitmapTest (freeEach image count.toNat pages pmm).bitmap j = true)
    ↔ GuardsAgree image pmm pages count
  := by
  have hcount := count.toNat_lt
  have hmax : maxPages = 1048576 := rfl
  simp only [bitmapTest_pmmFreePagesMulti hready hne, bitmapTest_freeEach hready]
  constructor
  · intro hsame k hk hused
    obtain ⟨haddr, hidx⟩ := rangePage_idx halign (hk.trans hcount)
    have hiff := (and_congr_right_iff.mp (hsame ((rangePage pages k).toNat / 4096)) hused).not
    rw [not_not, not_not] at hiff
    constructor
    · intro hmanaged
      have hrow : InRow (pages.toNat / 4096) count.toNat ((rangePage pages k).toNat / 4096)
          ∧ (rangePage pages k).toNat / 4096 < maxPages := by
        clear hiff hsame
        rw [InRow]
        omega
      obtain ⟨k', hk', heq, hfree⟩ := hiff.mp hrow
      obtain ⟨haddr', -⟩ := rangePage_idx halign (hk'.trans hcount)
      have hpage : rangePage pages k' = rangePage pages k := by
        rw [← UInt64.toNat_inj, haddr, haddr', heq]
      rwa [hpage] at hfree
    · intro hfree
      have hrow := hiff.mpr ⟨k, hk, rfl, hfree⟩
      rw [InRow] at hrow
      omega
  · intro hagree j
    apply and_congr_right
    intro hused
    apply not_congr
    constructor
    · rintro ⟨⟨hle, hlt⟩, hj⟩
      have hk : j - pages.toNat / 4096 < count.toNat := by omega
      have hsum : pages.toNat / 4096 + (j - pages.toNat / 4096) = j := by omega
      obtain ⟨-, hidx⟩ := rangePage_idx halign (hk.trans hcount)
      have heq : (rangePage pages (j - pages.toNat / 4096)).toNat / 4096 = j := by omega
      use j - pages.toNat / 4096, hk, heq
      apply (hagree _ hk (by rw [heq]; exact hused)).mp
      omega
    · rintro ⟨k, hk, heq, hfree⟩
      obtain ⟨-, hidx⟩ := rangePage_idx halign (hk.trans hcount)
      have hmanaged := (hagree k hk (by rw [heq]; exact hused)).mpr hfree
      rw [InRow]
      omega

/-- In every state of the allocator, for every address that is not null and aligned and every
count, freeing a row agrees with freeing its pages exactly when the guards agree. -/
theorem freePages_agree_iff (image : KernelImage) (pmm : Pmm) {pages : UInt64} (hne : pages ≠ 0)
    (halign : pages.toNat % 4096 = 0) (count : UInt32) :
  Agree image pmm pages count ↔ pmm.ready = false ∨ GuardsAgree image pmm pages count
  := by
  cases hready : pmm.ready with
  | false =>
      have hmulti : pmmFreePagesMulti pmm pages count = pmm := by
        rw [pmmFreePagesMulti, if_pos (Or.inl hready)]
      simp only [true_or, iff_true]
      constructor
      · rw [hmulti, freeEach_not_ready hready]
      · rw [hmulti, freeEach_not_ready hready]
      · intro j _ _ hused
        rw [hmulti, freeEach_not_ready hready]
        exact ⟨hused, hused⟩
  | true =>
      simp only [Bool.true_eq_false, false_or]
      rw [← same_bits_iff halign hready hne count]
      constructor
      · intro hagree j
        rw [hagree.bitmap]
      · intro hsame
        have hbitmap : (pmmFreePagesMulti pmm pages count).bitmap
            = (freeEach image count.toNat pages pmm).bitmap := by
          apply bitmap_ext
          intro j
          rw [Bool.eq_iff_iff]
          exact hsame j
        have hbalanced : Balanced pmm (pmmFreePagesMulti pmm pages count) := by
          rw [pmmFreePagesMulti]
          split
          · rfl
          · apply clearRun_balanced
        constructor
        · exact hbitmap
        · exact hbalanced.freePages_eq (freeEach_balanced _ _ _) hbitmap
        · intro j hj hres hused
          rw [hbitmap, and_self, bitmapTest_freeEach hready]
          use hused
          rintro ⟨k, hk, rfl, hfree⟩
          obtain ⟨haddr, -⟩ := rangePage_idx halign (hk.trans count.toNat_lt)
          rw [← pageIsReserved_iff image hj haddr, hfree.2.2.1] at hres
          cases hres

end

namespace Session

/-- The case of a page that has been handed out. -/
theorem freePages_agree_iff_one :
  let pmm := (pmmAllocPage (init smallImage (twoRegions 4096)).pmm).1
  Agree smallImage pmm 0x100000 1 ↔ pmm.ready = false ∨ GuardsAgree smallImage pmm 0x100000 1
  := freePages_agree_iff smallImage _ (by decide) (by decide) 1

/-- Freeing a row of one page makes the first page of the kernel heap free. -/
theorem not_freePages_agree :
  ¬ ∀ (image : KernelImage) (info : VideoInfo) (calls : List Call) (s : Session),
    Run.exec (call image) (init image info) calls = some s →
      ∀ (pages : UInt64) (count : UInt32), pages ≠ 0 → pages.toNat % 4096 = 0 →
        Agree image s.pmm pages count
  := by
  intro hagree
  have hbits : bitmapTest (init smallImage (twoRegions 4096)).pmm.bitmap 0x2000 = true
      ∧ bitmapTest (pmmFreePagesMulti (init smallImage (twoRegions 4096)).pmm 0x2000000 1).bitmap
          0x2000 = false := by
    decide +kernel
  have hres : Reserved smallImage 0x2000 := by
    use (0x02000000, 0x0A000000)
    decide +kernel
  have hkept := (hagree smallImage (twoRegions 4096) [] _ rfl 0x2000000 1 (by decide)
    (by decide)).reserved 0x2000 (by decide) hres hbits.1
  rw [hbits.2] at hkept
  cases hkept.1

end Session

end Pmm
