import Mathlib.Data.Finset.Card
import Mathlib.Data.Finset.Range
import Mathlib.Data.List.Nodup
import Mathlib.Order.Interval.Finset.Nat
import Woos.Pmm.Ownership

/-!
# Counting physical pages

The counters of the page allocator against its bitmap and the memory map.
`Session.pages_accounted` says that they agree in every run, when no page is counted twice by
`pmm_init` and only pages that were counted are freed.
-/

namespace Pmm

/-! ### Sets of pages -/

/-- The managed pages whose bit is clear. -/
def freeSet (bitmap : Nat → UInt8) : Finset Nat :=
  (Finset.range maxPages).filter (fun i => bitmapTest bitmap i = false)

theorem mem_freeSet {bitmap : Nat → UInt8} {i : Nat} :
  i ∈ freeSet bitmap ↔ i < maxPages ∧ bitmapTest bitmap i = false
  := by
  rw [freeSet, Finset.mem_filter, Finset.mem_range]

theorem freeSet_bitmapClear (bitmap : Nat → UInt8) {i : Nat} (hi : i < maxPages) :
  freeSet (bitmapClear bitmap i) = insert i (freeSet bitmap)
  := by
  ext j
  rw [Finset.mem_insert, mem_freeSet, mem_freeSet, bitmapTest_bitmapClear, Bool.and_eq_false_iff,
    Bool.not_eq_false', decide_eq_true_iff]
  constructor
  · rintro ⟨hj, rfl | hfree⟩
    · exact Or.inl rfl
    · exact Or.inr ⟨hj, hfree⟩
  · rintro (rfl | ⟨hj, hfree⟩)
    · exact ⟨hi, Or.inl rfl⟩
    · exact ⟨hj, Or.inr hfree⟩

theorem freeSet_setRun (bitmap : Nat → UInt8) (n i : Nat) :
  freeSet (setRun bitmap n i) = freeSet bitmap \ Finset.Ico i (i + n)
  := by
  ext j
  rw [Finset.mem_sdiff, mem_freeSet, mem_freeSet, bitmapTest_setRun, Bool.or_eq_false_iff,
    decide_eq_false_iff_not, Finset.mem_Ico]
  tauto

theorem card_freeSet_le (bitmap : Nat → UInt8) :
  (freeSet bitmap).card ≤ maxPages
  := by
  have hle := Finset.card_filter_le (Finset.range maxPages) (fun i => bitmapTest bitmap i = false)
  rwa [Finset.card_range] at hle

instance (info : VideoInfo) (i : Nat) : Decidable (InsideUsable info i) :=
  inferInstanceAs (Decidable (∃ r ∈ regions info, _))

/-- The managed pages that lie inside a usable region. -/
def usableSet (info : VideoInfo) : Finset Nat := (Finset.range maxPages).filter (InsideUsable info)

/-- The count of free pages is the number of clear bits, and at most that of the pages that were
counted, which is at most that of the usable pages. -/
structure Accounted (info : VideoInfo) (pmm : Pmm) : Prop where
  free : pmm.freePages.toNat = (freeSet pmm.bitmap).card
  le_total : pmm.freePages ≤ pmm.totalPages
  total : pmm.totalPages.toNat ≤ (usableSet info).card

/-! ### The pages that are counted -/

/-- The pages that the loop of `pmm_init` counts for a region. -/
def regionPages (r : BootMemoryRegion) : List Nat :=
  if r.type ≠ e820TypeUsable ∨ r.length < pageSize then
    []
  else
    let start := (alignUp r.base pageSize / pageSize).toNat
    let stop := (alignDown (r.base + r.length) pageSize / pageSize).toNat
    List.range' start (min stop maxPages - start)

/-- The pages that `pmm_init` counts, in this order. -/
def countedPages (info : VideoInfo) : List Nat := (regions info).flatMap regionPages

/-- No page is counted twice, and every page that is counted is usable. -/
structure Regular (info : VideoInfo) : Prop where
  nodup : (countedPages info).Nodup
  usable : ∀ i ∈ countedPages info, InsideUsable info i

/-- The body of the loop of `pmm_init` for the page `i`. -/
def countPage (image : KernelImage) (pmm : Pmm) (i : Nat) : Pmm :=
  let pmm := { pmm with totalPages := pmm.totalPages + 1 }
  if pageIsReserved image (UInt64.ofNat i * pageSize) then pmm
  else { pmm with bitmap := bitmapClear pmm.bitmap i, freePages := pmm.freePages + 1 }

theorem initPages_eq (image : KernelImage) {n i : Nat} {page : UInt64} (pmm : Pmm)
    (hpage : page.toNat = 4096 * i) :
  initPages image n page pmm = (List.range' i (min (i + n) maxPages - i)).foldl (countPage image) pmm
  := by
  have hmax : maxPages = 1048576 := rfl
  have hsize : pageSize.toNat = 4096 := rfl
  induction n generalizing i page pmm with
  | zero =>
      have hnone : min (i + 0) maxPages - i = 0 := by omega
      rw [hnone]
      rfl
  | succ n ih =>
      have hidx : (page / pageSize).toNat = i := by
        rw [UInt64.toNat_div, hpage, hsize]
        omega
      rw [initPages, hidx]
      by_cases hi : maxPages ≤ i
      · have hnone : min (i + (n + 1)) maxPages - i = 0 := by omega
        rw [if_pos hi, hnone]
        rfl
      · have hnext : (page + pageSize).toNat = 4096 * (i + 1) := by
          rw [UInt64.toNat_add, hpage, hsize]
          omega
        have hsome : ∀ limit, i < limit
            → min (i + (n + 1)) limit - i = min (i + 1 + n) limit - (i + 1) + 1 := by
          intro limit hlimit
          omega
        have haddr : UInt64.ofNat i * pageSize = page := by
          rw [← UInt64.toNat_inj, pageAddr_toNat (by omega), hpage]
        rw [if_neg hi, hsome maxPages (by omega), List.range'_succ, List.foldl_cons, countPage, haddr]
        exact ih _ hnext

theorem initRegion_eq (image : KernelImage) (pmm : Pmm) (r : BootMemoryRegion) :
  initRegion image pmm r = (regionPages r).foldl (countPage image) pmm
  := by
  have hsize : pageSize.toNat = 4096 := rfl
  have hmask : (pageSize - 1).toNat = 2 ^ 12 - 1 := rfl
  rw [initRegion, regionPages]
  split
  case isTrue => rfl
  case isFalse =>
    have hstart : (alignUp r.base pageSize).toNat % 4096 = 0 := by
      rw [alignUp, Word.toNat_and_not_mask _ _ hmask]
      omega
    have hstop : (alignDown (r.base + r.length) pageSize).toNat % 4096 = 0 := by
      rw [alignDown, Word.toNat_and_not_mask _ _ hmask]
      omega
    simp only [UInt64.toNat_div, hsize]
    split
    case isTrue hempty =>
      rw [UInt64.le_iff_toNat_le] at hempty
      have hnone : min ((alignDown (r.base + r.length) pageSize).toNat / 4096) maxPages
          - (alignUp r.base pageSize).toNat / 4096 = 0 := by omega
      rw [hnone]
      rfl
    case isFalse hsome =>
      rw [UInt64.not_le] at hsome
      have hlt := UInt64.lt_iff_toNat_lt.mp hsome
      rw [UInt64.toNat_sub_of_le _ _ (UInt64.le_of_lt hsome),
        initPages_eq image pmm (i := (alignUp r.base pageSize).toNat / 4096) (by omega)]
      congr 3
      omega

theorem foldl_initRegion_eq (image : KernelImage) (info : VideoInfo) :
  (regions info).foldl (initRegion image) blank = (countedPages info).foldl (countPage image) blank
  := by
  rw [countedPages, List.foldl_flatMap]
  congr 1
  funext pmm r
  apply initRegion_eq

/-! ### The invariant -/

/-- The pages of `U` were counted, and only pages of `U` are free. -/
structure Counts (U : Finset Nat) (pmm : Pmm) : Prop where
  managed : U ⊆ Finset.range maxPages
  free : pmm.freePages.toNat = (freeSet pmm.bitmap).card
  within : freeSet pmm.bitmap ⊆ U
  total : pmm.totalPages.toNat = U.card
  search : pmm.lastSearchIdx ≤ maxPages

variable {U : Finset Nat} {pmm : Pmm}

theorem toNat_succ {x : UInt64} {n : Nat} (hx : x.toNat = n) (hn : n ≤ maxPages) :
  (x + 1).toNat = n + 1
  := by
  have hmax : maxPages = 1048576 := rfl
  have hone : (1 : UInt64).toNat = 1 := rfl
  rw [UInt64.toNat_add, hx, hone]
  omega

theorem Counts.card_le (h : Counts U pmm) :
  U.card ≤ maxPages
  := by
  have hle := Finset.card_le_card h.managed
  rwa [Finset.card_range] at hle

/-- A page that is not free becomes free. -/
theorem Counts.clear (h : Counts U pmm) {i : Nat} (hi : i ∈ U) (hused : i ∉ freeSet pmm.bitmap)
    {pmm' : Pmm} (hbitmap : pmm'.bitmap = bitmapClear pmm.bitmap i)
    (hcount : pmm'.freePages = pmm.freePages + 1) (htotal : pmm'.totalPages = pmm.totalPages)
    (hsearch : pmm'.lastSearchIdx ≤ maxPages) :
  Counts U pmm'
  := by
  have hlt := Finset.mem_range.mp (h.managed hi)
  constructor
  · exact h.managed
  · rw [hcount, hbitmap, freeSet_bitmapClear _ hlt, Finset.card_insert_of_notMem hused,
      toNat_succ h.free (card_freeSet_le _)]
  · rw [hbitmap, freeSet_bitmapClear _ hlt]
    exact Finset.insert_subset hi h.within
  · rw [htotal, h.total]
  · exact hsearch

/-! ### Initialization -/

/-- A page that was not counted is counted. -/
theorem Counts.countPage (image : KernelImage) (h : Counts U pmm) {i : Nat} (hi : i < maxPages)
    (hnew : i ∉ U) :
  Counts (insert i U) (countPage image pmm i)
  := by
  have hcounted : Counts (insert i U) { pmm with totalPages := pmm.totalPages + 1 } := by
    constructor
    · exact Finset.insert_subset (Finset.mem_range.mpr hi) h.managed
    · exact h.free
    · exact h.within.trans (Finset.subset_insert i U)
    · rw [Finset.card_insert_of_notMem hnew]
      exact toNat_succ h.total h.card_le
    · exact h.search
  rw [Pmm.countPage]
  simp only
  split
  · exact hcounted
  · exact hcounted.clear (Finset.mem_insert_self i U) (fun hfree => hnew (h.within hfree)) rfl rfl rfl h.search

theorem foldl_countPage (image : KernelImage) (h : Counts U pmm) {pages : List Nat}
    (hpages : ∀ i ∈ pages, i < maxPages) (hnew : ∀ i ∈ pages, i ∉ U) (hnodup : pages.Nodup) :
  ∃ U', Counts U' (pages.foldl (countPage image) pmm) ∧ ∀ i, i ∈ U' ↔ i ∈ U ∨ i ∈ pages
  := by
  induction pages generalizing U pmm with
  | nil => exact ⟨U, h, by simp⟩
  | cons i pages ih =>
      obtain ⟨hnot, hrest⟩ := List.nodup_cons.mp hnodup
      have hi := h.countPage image (hpages i List.mem_cons_self) (hnew i List.mem_cons_self)
      have hnew' : ∀ j ∈ pages, j ∉ insert i U := by
        intro j hj hmem
        rcases Finset.mem_insert.mp hmem with rfl | hmem
        · exact hnot hj
        · exact hnew j (List.mem_cons_of_mem i hj) hmem
      obtain ⟨U', hU', hiff⟩ := ih hi (fun j hj => hpages j (List.mem_cons_of_mem i hj)) hnew' hrest
      use U', hU'
      intro j
      rw [hiff, Finset.mem_insert, List.mem_cons]
      tauto

theorem lt_maxPages_of_counted {info : VideoInfo} {i : Nat} (hi : i ∈ countedPages info) :
  i < maxPages
  := by
  obtain ⟨r, -, hr⟩ := List.mem_flatMap.mp hi
  rw [regionPages] at hr
  split at hr
  · cases hr
  · rw [List.mem_range'_1] at hr
    omega

theorem freeSet_blank :
  freeSet blank.bitmap = ∅
  := by
  have hall : ∀ k : Fin 8, (0xff : UInt8).toNat.testBit k.val = true := by decide
  ext i
  rw [mem_freeSet, bitmapTest_eq]
  simp only [Finset.notMem_empty, iff_false]
  rintro ⟨-, hfree⟩
  rw [show blank.bitmap (i / 8) = 0xff from rfl, hall ⟨i % 8, Nat.mod_lt _ (by decide)⟩] at hfree
  cases hfree

theorem blank_counts :
  Counts ∅ blank
  := by
  constructor
  · exact Finset.empty_subset _
  · rw [freeSet_blank]
    rfl
  · rw [freeSet_blank]
  · rfl
  · exact Nat.zero_le _

/-- After `pmm_init` the counters agree with the bitmap, and when the allocator is ready the
pages of the invariant are those that were counted. -/
theorem pmmInit_counts (image : KernelImage) {info : VideoInfo} (hnodup : (countedPages info).Nodup) :
  ∃ U, Counts U (pmmInit image (some info)) ∧ (∀ i ∈ U, i ∈ countedPages info)
    ∧ ((pmmInit image (some info)).ready = true → ∀ i ∈ countedPages info, i ∈ U)
  := by
  rw [pmmInit]
  split
  · use ∅, blank_counts
    simp [blank]
  · obtain ⟨U, hU, hiff⟩ := foldl_countPage image blank_counts (fun i hi => lt_maxPages_of_counted hi)
      (fun i _ => Finset.notMem_empty i) hnodup
    rw [← foldl_initRegion_eq] at hU
    use U
    constructor
    · exact ⟨hU.managed, hU.free, hU.within, hU.total, hU.search⟩
    · constructor
      · intro i hi
        exact ((hiff i).mp hi).resolve_left (Finset.notMem_empty i)
      · intro _ i hi
        exact (hiff i).mpr (Or.inr hi)

/-! ### Calls -/

/-- Free pages in a row are taken. -/
theorem Counts.setRun (h : Counts U pmm) {n i : Nat} {k : UInt64} (hk : k.toNat = n)
    (hrow : Finset.Ico i (i + n) ⊆ freeSet pmm.bitmap) {pmm' : Pmm}
    (hbitmap : pmm'.bitmap = Pmm.setRun pmm.bitmap n i)
    (hcount : pmm'.freePages = pmm.freePages - k) (htotal : pmm'.totalPages = pmm.totalPages)
    (hsearch : pmm'.lastSearchIdx ≤ maxPages) :
  Counts U pmm'
  := by
  have hcard : (Finset.Ico i (i + n)).card = n := by
    rw [Nat.card_Ico, Nat.add_sub_cancel_left]
  have hle : n ≤ (freeSet pmm.bitmap).card := by
    rw [← hcard]
    exact Finset.card_le_card hrow
  have hk' : k ≤ pmm.freePages := by
    rw [UInt64.le_iff_toNat_le, hk, h.free]
    exact hle
  constructor
  · exact h.managed
  · rw [hcount, hbitmap, freeSet_setRun, Finset.card_sdiff_of_subset hrow,
      UInt64.toNat_sub_of_le _ _ hk', hk, h.free, hcard]
  · rw [hbitmap, freeSet_setRun]
    exact Finset.sdiff_subset.trans h.within
  · rw [htotal, h.total]
  · exact hsearch

theorem takePage_counts (h : Counts U pmm) {i : Nat} (hi : i < maxPages)
    (hfree : bitmapTest pmm.bitmap i = false) :
  Counts U (takePage pmm i).1
  := by
  have hrow : Finset.Ico i (i + 1) ⊆ freeSet pmm.bitmap := by
    intro j hj
    rw [Finset.mem_Ico] at hj
    obtain rfl : j = i := by omega
    exact mem_freeSet.mpr ⟨hi, hfree⟩
  exact h.setRun (k := 1) rfl hrow rfl rfl rfl hi.le

theorem pmmAllocPage_counts (h : Counts U pmm) :
  Counts U (pmmAllocPage pmm).1
  := by
  have hsearch := h.search
  rw [pmmAllocPage]
  split
  · exact h
  · split
    case h_1 i hfind =>
        obtain ⟨-, hlt, hfree⟩ := findFree_spec hfind
        exact takePage_counts h (by omega) hfree
    case h_2 =>
        split
        case h_1 i hfind =>
            obtain ⟨-, hlt, hfree⟩ := findFree_spec hfind
            exact takePage_counts h (by omega) hfree
        case h_2 => exact h

theorem pmmAllocPagesMulti_counts (h : Counts U pmm) (count : UInt32) :
  Counts U (pmmAllocPagesMulti pmm count).1
  := by
  rw [pmmAllocPagesMulti]
  split
  case isTrue => exact h
  case isFalse hguard =>
    split
    case h_1 first last hfind =>
        have hzero : (0 : UInt32).toNat = 0 := rfl
        have hcount : (0 : UInt32).toNat < count.toNat := by
          have hne : count ≠ 0 := fun hnull => hguard (Or.inr (Or.inr hnull))
          rw [ne_eq, ← UInt32.toNat_inj, hzero] at hne
          omega
        obtain ⟨hlast, hlen, hfree⟩ := findRun_spec (by omega) (fun hne => (hne rfl).elim) hcount
          (fun hne => (hne rfl).elim) hfind
        have hn : count.toUInt64.toNat = last + 1 - first := by
          rw [UInt32.toNat_toUInt64]
          omega
        have hrow : Finset.Ico first (first + (last + 1 - first)) ⊆ freeSet pmm.bitmap := by
          intro j hj
          rw [Finset.mem_Ico] at hj
          exact mem_freeSet.mpr ⟨by omega, hfree j hj.1 (by omega)⟩
        exact h.setRun hn hrow rfl rfl rfl h.search
    case h_2 => exact h

/-- Freeing a page keeps the counters, when a page that it frees was counted. -/
theorem pmmFreePage_counts (image : KernelImage) (h : Counts U pmm) {page : UInt64}
    (hcounted : page.toNat / 4096 < maxPages → page.toNat % 4096 = 0 →
      ¬ Reserved image (page.toNat / 4096) → bitmapTest pmm.bitmap (page.toNat / 4096) = true →
      pmm.ready = true → page.toNat / 4096 ∈ U) :
  Counts U (pmmFreePage image pmm page)
  := by
  have hidx : (page / pageSize).toNat = page.toNat / 4096 := UInt64.toNat_div _ _
  have hmask : (pageSize - 1).toNat = 2 ^ 12 - 1 := rfl
  rw [pmmFreePage]
  split
  case isTrue => exact h
  case isFalse hready =>
    split
    case isTrue => exact h
    case isFalse haccept =>
      rw [hidx]
      simp only
      split
      case isTrue => exact h
      case isFalse hmanaged =>
        split
        case isTrue hused =>
          rw [not_or, not_not, Bool.not_eq_true] at haccept
          obtain ⟨halign, hres⟩ := haccept
          have haligned : page.toNat % 4096 = 0 := by
            rw [← UInt64.toNat_inj, Word.toNat_and_mask _ _ hmask] at halign
            exact halign
          have haddr : page.toNat = 4096 * (page.toNat / 4096) := by omega
          have hreserved : ¬ Reserved image (page.toNat / 4096) := by
            rw [← pageIsReserved_iff image (not_le.mp hmanaged) haddr, hres]
            exact Bool.false_ne_true
          rw [not_or, Bool.not_eq_false] at hready
          have hin := hcounted (not_le.mp hmanaged) haligned hreserved hused hready.1
          have hnot : page.toNat / 4096 ∉ freeSet pmm.bitmap := by
            rw [mem_freeSet, hused]
            simp
          refine h.clear hin hnot rfl rfl rfl ?_
          show (if _ then _ else _) ≤ maxPages
          split
          case isTrue hlt => exact hlt.le.trans h.search
          case isFalse => exact h.search
        case isFalse => exact h

/-- Freeing a row keeps the counters, when the pages that it frees were counted. -/
theorem clearRun_counts {n i : Nat} (h : Counts U pmm)
    (hcounted : ∀ j, i ≤ j → j < i + n → j < maxPages → bitmapTest pmm.bitmap j = true → j ∈ U) :
  Counts U (clearRun n i pmm)
  := by
  induction n generalizing i pmm with
  | zero => exact h
  | succ n ih =>
      rw [clearRun]
      by_cases hused : i < maxPages ∧ bitmapTest pmm.bitmap i = true
      · have hin := hcounted i le_rfl (by omega) hused.1 hused.2
        have hnot : i ∉ freeSet pmm.bitmap := by
          rw [mem_freeSet, hused.2]
          simp
        have hclear : Counts U { pmm with
            bitmap := bitmapClear pmm.bitmap i
            freePages := pmm.freePages + 1 } :=
          h.clear hin hnot rfl rfl rfl h.search
        rw [if_pos hused]
        apply ih hclear
        intro j hle hlt hj hused'
        rw [bitmapTest_bitmapClear, Bool.and_eq_true] at hused'
        exact hcounted j (by omega) (by omega) hj hused'.2
      · rw [if_neg hused]
        apply ih h
        intro j hle hlt hj hused'
        exact hcounted j (by omega) (by omega) hj hused'

/-! ### Runs -/

theorem pmmAllocPage_ready (pmm : Pmm) :
  (pmmAllocPage pmm).1.ready = pmm.ready
  := by
  rw [pmmAllocPage]
  split
  · rfl
  · split
    · rfl
    · split
      · rfl
      · rfl

theorem pmmAllocPagesMulti_ready (pmm : Pmm) (count : UInt32) :
  (pmmAllocPagesMulti pmm count).1.ready = pmm.ready
  := by
  rw [pmmAllocPagesMulti]
  split
  · rfl
  · split
    · rfl
    · rfl

theorem pmmFreePage_ready (image : KernelImage) (pmm : Pmm) (page : UInt64) :
  (pmmFreePage image pmm page).ready = pmm.ready
  := by
  rw [pmmFreePage]
  split
  · rfl
  · split
    · rfl
    · simp only
      split
      · rfl
      · split
        · rfl
        · rfl

theorem clearRun_ready (n i : Nat) (pmm : Pmm) :
  (clearRun n i pmm).ready = pmm.ready
  := by
  induction n generalizing i pmm with
  | zero => rfl
  | succ n ih =>
      rw [clearRun, ih]
      split
      · rfl
      · rfl

theorem pmmFreePagesMulti_ready (pmm : Pmm) (pages : UInt64) (count : UInt32) :
  (pmmFreePagesMulti pmm pages count).ready = pmm.ready
  := by
  rw [pmmFreePagesMulti]
  split
  · rfl
  · apply clearRun_ready

namespace Session

/-- The pages that a call frees are pages that `pmm_init` counted. -/
def FreesCounted (image : KernelImage) (info : VideoInfo) (s : Session) : Call → Prop
  | .freePage _ page =>
      page.toNat / 4096 < maxPages → page.toNat % 4096 = 0 → ¬ Reserved image (page.toNat / 4096)
        → bitmapTest s.pmm.bitmap (page.toNat / 4096) = true → page.toNat / 4096 ∈ countedPages info
  | .freePagesMulti _ pages count =>
      pages ≠ 0 → ∀ j, InRow (pages.toNat / 4096) count.toNat j → j < maxPages
        → bitmapTest s.pmm.bitmap j = true → j ∈ countedPages info
  | _ => True

/-- What is known of the allocator in every state of a run. -/
structure Counted (info : VideoInfo) (U : Finset Nat) (s : Session) : Prop where
  counts : Counts U s.pmm
  only : ∀ i ∈ U, i ∈ countedPages info
  all : s.pmm.ready = true → ∀ i ∈ countedPages info, i ∈ U

theorem handOut_pmm (s : Session) (caller n : Nat) (r : Pmm × UInt64) :
  (s.handOut caller n r).pmm = r.1
  := by
  rw [handOut]
  split
  · rfl
  · rfl

theorem takeBack_pmm (s : Session) (n : Nat) (page : UInt64) (pmm : Pmm) :
  (s.takeBack n page pmm).pmm = pmm
  := by
  rw [takeBack]
  split
  · rfl
  · rfl

/-- A call that frees only counted pages keeps the counters. -/
theorem call_counted {image : KernelImage} {info : VideoInfo} {s : Session} {c : Call}
    (hs : Counted info U s) (hc : FreesCounted image info s c) :
  ∃ s', s.call image c = some s' ∧ Counted info U s'
  := by
  obtain ⟨hcounts, honly, hall⟩ := hs
  cases c with
  | allocPage caller =>
      refine ⟨_, rfl, ?_, honly, ?_⟩
      · rw [handOut_pmm]
        exact pmmAllocPage_counts hcounts
      · rw [handOut_pmm, pmmAllocPage_ready]
        exact hall
  | freePage caller page =>
      refine ⟨_, rfl, ?_, honly, ?_⟩
      · rw [takeBack_pmm]
        apply pmmFreePage_counts image hcounts
        intro hlt halign hres hused hready
        exact hall hready _ (hc hlt halign hres hused)
      · rw [takeBack_pmm, pmmFreePage_ready]
        exact hall
  | allocPagesMulti caller count =>
      refine ⟨_, rfl, ?_, honly, ?_⟩
      · rw [handOut_pmm]
        exact pmmAllocPagesMulti_counts hcounts count
      · rw [handOut_pmm, pmmAllocPagesMulti_ready]
        exact hall
  | freePagesMulti caller pages count =>
      have hidx : (pages / pageSize).toNat = pages.toNat / 4096 := UInt64.toNat_div _ _
      refine ⟨_, rfl, ?_, honly, ?_⟩
      · rw [takeBack_pmm, pmmFreePagesMulti]
        split
        case isTrue => exact hcounts
        case isFalse hnot =>
          rw [not_or, Bool.not_eq_false, not_or] at hnot
          rw [hidx]
          apply clearRun_counts hcounts
          intro j hle hlt hj hused
          exact hall hnot.1 j (hc hnot.2.1 j ⟨hle, hlt⟩ hj hused)
      · rw [takeBack_pmm, pmmFreePagesMulti_ready]
        exact hall

theorem Counted.accounted {info : VideoInfo} {s : Session} (hs : Counted info U s)
    (husable : ∀ i ∈ countedPages info, InsideUsable info i) :
  Accounted info s.pmm
  := by
  obtain ⟨hcounts, honly, -⟩ := hs
  constructor
  · exact hcounts.free
  · rw [UInt64.le_iff_toNat_le, hcounts.free, hcounts.total]
    exact Finset.card_le_card hcounts.within
  · rw [hcounts.total]
    apply Finset.card_le_card
    intro i hi
    exact Finset.mem_filter.mpr ⟨hcounts.managed hi, husable i (honly i hi)⟩

/-- In every run in which only counted pages are freed, over a memory map of which no page is
counted twice, the counters agree with the bitmap and with the memory map. -/
theorem pages_accounted (image : KernelImage) (info : VideoInfo) (hregular : Regular info)
    (calls : List Call)
    (h : Run.Guarded (call image) (FreesCounted image info) (init image info) calls) :
  ∃ s, Run.exec (call image) (init image info) calls = some s ∧ Accounted info s.pmm
  := by
  obtain ⟨U, hcounts, honly, hall⟩ := pmmInit_counts image hregular.nodup
  have hinit : Counted info U (init image info) := ⟨hcounts, honly, hall⟩
  obtain ⟨s, hrun, hs⟩ := Run.exec_invariant (fun _ _ hs hc => call_counted hs hc) hinit h
  exact ⟨s, hrun, hs.accounted hregular.usable⟩

/-- The case of a page that is allocated and freed twice. -/
theorem pages_accounted_twice :
  ∃ s, Run.exec (call smallImage) (init smallImage (twoRegions 4096))
      [.allocPage 1, .freePage 1 0x100000, .freePage 1 0x100000] = some s
    ∧ Accounted (twoRegions 4096) s.pmm
  := by
  have hcounted : countedPages (twoRegions 4096) = [256] := by decide +kernel
  apply pages_accounted
  · constructor
    · rw [hcounted]
      simp
    · rw [hcounted]
      intro i hi
      rw [List.mem_singleton.mp hi]
      decide +kernel
  · have hfree : ∀ s, FreesCounted smallImage (twoRegions 4096) s (.freePage 1 0x100000) := by
      intro s _ _ _ _
      rw [hcounted]
      decide
    constructor
    · trivial
    · intro s _
      constructor
      · apply hfree
      · intro s _
        constructor
        · apply hfree
        · intro _ _
          trivial

/-- A memory map that lists a usable page twice. -/
def overlapping : VideoInfo where
  version := 2
  memoryRegionCount := 2
  memoryRegionCapacity := 32
  memoryRegions := fun _ => ⟨0x100000, 4096, 1⟩

/-- The page is counted twice: there are two free pages of which one exists. -/
theorem not_accounted_overlapping :
  (init smallImage overlapping).pmm.freePages = 2
    ∧ (init smallImage overlapping).pmm.totalPages = 2
    ∧ (freeSet (init smallImage overlapping).pmm.bitmap).card ≤ 1
    ∧ (usableSet overlapping).card ≤ 1
    ∧ ¬ Accounted overlapping (init smallImage overlapping).pmm
  := by
  have hregions : regions overlapping = [⟨0x100000, 4096, 1⟩, ⟨0x100000, 4096, 1⟩] := rfl
  have hwrap : NoWrap overlapping := by
    rw [NoWrap, hregions]
    decide
  have hinside : ∀ i, InsideUsable overlapping i → i = 256 := by
    rintro i ⟨r, hr, -, hle, hlt⟩
    simp only [hregions, List.mem_cons, List.not_mem_nil, or_false, or_self] at hr
    subst hr
    simp at hle hlt
    omega
  have hfree : (freeSet (init smallImage overlapping).pmm.bitmap).card ≤ 1 := by
    rw [Finset.card_le_one_iff_subset_singleton]
    use 256
    intro i hi
    rw [Finset.mem_singleton]
    exact hinside i (pmmInit_free smallImage hwrap (mem_freeSet.mp hi).2).1
  have husable : (usableSet overlapping).card ≤ 1 := by
    rw [Finset.card_le_one_iff_subset_singleton]
    use 256
    intro i hi
    rw [Finset.mem_singleton]
    exact hinside i (Finset.mem_filter.mp hi).2
  have htwo : (init smallImage overlapping).pmm.freePages = 2 := by decide +kernel
  refine ⟨htwo, by decide +kernel, hfree, husable, ?_⟩
  intro haccounted
  have hcount := haccounted.free
  rw [htwo, show (2 : UInt64).toNat = 2 from rfl] at hcount
  omega

end Session

end Pmm
