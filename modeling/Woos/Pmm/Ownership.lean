import Woos.Pmm.Search
import Woos.Lib.Run

/-!
# Ownership of physical pages

A `Session` is the page allocator together with a record of who holds which page.  Its steps
are the four calls.  `pages_owned` says what is known of a page that a call hands out, after
every run in which callers free only pages that were handed out to them: it lies inside a
usable region, is not reserved, is managed, and nobody holds it.  That it meets no region of
another type depends on the memory map, which is the assumption `NoConflict`.
-/

namespace Pmm

/-! ### What a page may be -/

/-- The page lies inside a usable region of the memory map. -/
def InsideUsable (info : VideoInfo) (i : Nat) : Prop :=
  ∃ r ∈ regions info, r.type = e820TypeUsable
    ∧ r.base.toNat ≤ 4096 * i ∧ 4096 * i + 4096 ≤ r.base.toNat + r.length.toNat

/-- The page and a region of another type have an address in common. -/
def MeetsNonUsable (info : VideoInfo) (i : Nat) : Prop :=
  ∃ r ∈ regions info, r.type ≠ e820TypeUsable
    ∧ max (4096 * i) r.base.toNat < min (4096 * i + 4096) (r.base.toNat + r.length.toNat)

/-- The ranges of reserved addresses: low memory, the pages of the kernel image, the
backbuffer, the draw surface and the kernel heap. -/
def reservedRanges (image : KernelImage) : List (Nat × Nat) :=
  [(0, 0x00100000), (image.start.toNat / 4096 * 4096, (image.stop.toNat + 4095) / 4096 * 4096),
    (0x01000000, 0x01800000), (0x01800000, 0x02000000), (0x02000000, 0x0A000000)]

/-- The page meets a reserved range. -/
def Reserved (image : KernelImage) (i : Nat) : Prop :=
  ∃ r ∈ reservedRanges image, r.1 < 4096 * i + 4096 ∧ 4096 * i < r.2

/-- No page that `pmm_init` frees meets a region that is not usable. -/
def NoConflict (image : KernelImage) (info : VideoInfo) : Prop :=
  ∀ i < maxPages, InsideUsable info i → ¬ Reserved image i → ¬ MeetsNonUsable info i

/-- No region of the memory map goes beyond the end of the address space. -/
def NoWrap (info : VideoInfo) : Prop :=
  ∀ r ∈ regions info, r.base.toNat + r.length.toNat < 2 ^ 64

/-! ### Addresses -/

/-- The address of a managed page. -/
theorem pageAddr_toNat {i : Nat} (hi : i < maxPages) :
  (UInt64.ofNat i * pageSize).toNat = 4096 * i
  := by
  have hmax : maxPages = 1048576 := rfl
  have hsize : pageSize.toNat = 4096 := rfl
  have hlt : i < 2 ^ 64 := by omega
  rw [UInt64.toNat_mul, UInt64.toNat_ofNat_of_lt' hlt, hsize]
  omega

theorem rangeOverlaps_iff (startA endA startB endB : UInt64) :
  rangeOverlaps startA endA startB endB = true
    ↔ startB.toNat < endA.toNat ∧ startA.toNat < endB.toNat
  := by
  simp [rangeOverlaps, UInt64.le_iff_toNat_le]

/-- `page_is_reserved` on the address of a managed page. -/
theorem pageIsReserved_iff (image : KernelImage) {i : Nat} {page : UInt64} (hi : i < maxPages)
    (hpage : page.toNat = 4096 * i) :
  pageIsReserved image page = true ↔ Reserved image i
  := by
  have hmax : maxPages = 1048576 := rfl
  have hsize : pageSize.toNat = 4096 := rfl
  have hmask : (pageSize - 1).toNat = 2 ^ 12 - 1 := rfl
  have hcut : lowMemoryCutoff.toNat = 0x00100000 := rfl
  have hend : (page + pageSize).toNat = 4096 * i + 4096 := by
    rw [UInt64.toNat_add, hpage, hsize]
    omega
  have hstart : (alignDown image.start pageSize).toNat = image.start.toNat / 4096 * 4096 :=
    Word.toNat_and_not_mask _ _ hmask
  have hstop : (alignUp image.stop pageSize).toNat = (image.stop.toNat + 4095) / 4096 * 4096 := by
    have hlt := image.stop_lt
    rw [alignUp, Word.toNat_and_not_mask _ _ hmask, UInt64.toNat_add, hmask]
    omega
  simp only [pageIsReserved, Reserved, reservedRanges, UInt64.lt_iff_toNat_lt, rangeOverlaps_iff,
    hpage, hend, hstart, hstop, hcut, List.mem_cons, List.not_mem_nil, or_false,
    exists_eq_or_imp, exists_eq_left, UInt64.reduceToNat]
  simp only [Bool.if_true_left, Bool.or_eq_true, decide_eq_true_eq, Bool.false_eq_true, or_false,
    Nat.succ_pos, true_and]

/-! ### Initialization -/

/-- The loop over the pages of a region frees managed pages of the region that are not
reserved. -/
theorem initPages_free
    (image : KernelImage) {n i j : Nat} {page : UInt64} {pmm : Pmm} (hpage : page.toNat = 4096 * i)
    (hfree : bitmapTest (initPages image n page pmm).bitmap j = false) :
  bitmapTest pmm.bitmap j = false
    ∨ (i ≤ j ∧ j < i + n ∧ j < maxPages ∧ ¬ Reserved image j)
  := by
  have hmax : maxPages = 1048576 := rfl
  have hsize : pageSize.toNat = 4096 := rfl
  induction n generalizing i page pmm with
  | zero => exact Or.inl hfree
  | succ n ih =>
      have hidx : (page / pageSize).toNat = i := by
        rw [UInt64.toNat_div, hpage, hsize]
        omega
      rw [initPages, hidx] at hfree
      by_cases hi : maxPages ≤ i
      · rw [if_pos hi] at hfree
        exact Or.inl hfree
      · rw [if_neg hi] at hfree
        have hnext : (page + pageSize).toNat = 4096 * (i + 1) := by
          rw [UInt64.toNat_add, hpage, hsize]
          omega
        rcases ih hnext hfree with hthis | ⟨hle, hlt, hj, hres⟩
        · split at hthis
          case isTrue => exact Or.inl hthis
          case isFalse hnot =>
            rw [bitmapTest_bitmapClear, Bool.and_eq_false_iff] at hthis
            rcases hthis with hself | hother
            · obtain rfl : j = i := by simpa using hself
              right
              use le_refl _, by omega, by omega
              rw [← pageIsReserved_iff image (by omega) hpage]
              exact hnot
            · exact Or.inl hother
        · right
          use by omega, by omega

/-- The pages that a region frees lie inside it. -/
theorem initRegion_free
    (image : KernelImage) {r : BootMemoryRegion} {pmm : Pmm} {j : Nat}
    (hwrap : r.base.toNat + r.length.toNat < 2 ^ 64)
    (hfree : bitmapTest (initRegion image pmm r).bitmap j = false) :
  bitmapTest pmm.bitmap j = false
    ∨ (r.type = e820TypeUsable ∧ r.base.toNat ≤ 4096 * j
        ∧ 4096 * j + 4096 ≤ r.base.toNat + r.length.toNat ∧ ¬ Reserved image j)
  := by
  have hsize : pageSize.toNat = 4096 := rfl
  have hmask : (pageSize - 1).toNat = 2 ^ 12 - 1 := rfl
  rw [initRegion] at hfree
  split at hfree
  case isTrue => exact Or.inl hfree
  case isFalse huse =>
    rw [not_or, not_not, UInt64.not_lt, UInt64.le_iff_toNat_le, hsize] at huse
    have hstart : (alignUp r.base pageSize).toNat = (r.base.toNat + 4095) / 4096 * 4096 := by
      rw [alignUp, Word.toNat_and_not_mask _ _ hmask, UInt64.toNat_add, hmask]
      omega
    have hend : (alignDown (r.base + r.length) pageSize).toNat
        = (r.base.toNat + r.length.toNat) / 4096 * 4096 := by
      rw [alignDown, Word.toNat_and_not_mask _ _ hmask, UInt64.toNat_add]
      omega
    by_cases hempty : alignDown (r.base + r.length) pageSize ≤ alignUp r.base pageSize
    · rw [if_pos hempty] at hfree
      exact Or.inl hfree
    · rw [if_neg hempty] at hfree
      rw [UInt64.not_le] at hempty
      have hlt := UInt64.lt_iff_toNat_lt.mp hempty
      have hrounds : ((alignDown (r.base + r.length) pageSize - alignUp r.base pageSize)
          / pageSize).toNat
          = (r.base.toNat + r.length.toNat) / 4096 - (r.base.toNat + 4095) / 4096 := by
        rw [UInt64.toNat_div, UInt64.toNat_sub_of_le _ _ (UInt64.le_of_lt hempty), hsize, hstart,
          hend]
        omega
      have hpage : (alignUp r.base pageSize).toNat = 4096 * ((r.base.toNat + 4095) / 4096) := by
        omega
      rcases initPages_free image hpage hfree with hold | ⟨hle, hj, -, hres⟩
      · exact Or.inl hold
      · rw [hrounds] at hj
        right
        use huse.1, by omega, by omega

/-- After `pmm_init` only pages that lie inside a usable region and are not reserved are
free. -/
theorem pmmInit_free
    (image : KernelImage) {info : VideoInfo} (hwrap : NoWrap info) {j : Nat}
    (hfree : bitmapTest (pmmInit image (some info)).bitmap j = false) :
  InsideUsable info j ∧ ¬ Reserved image j
  := by
  have hblank : bitmapTest blank.bitmap j = true := by
    have hall : ∀ k : Fin 8, (0xff : UInt8).toNat.testBit k.val = true := by decide
    rw [bitmapTest_eq]
    apply hall ⟨j % 8, Nat.mod_lt _ (by decide)⟩
  have hfold : ∀ (rs : List BootMemoryRegion) (pmm : Pmm), (∀ r ∈ rs, r ∈ regions info)
      → bitmapTest (rs.foldl (initRegion image) pmm).bitmap j = false
      → bitmapTest pmm.bitmap j = false ∨ (InsideUsable info j ∧ ¬ Reserved image j) := by
    intro rs
    induction rs with
    | nil =>
        intro pmm _ h
        exact Or.inl h
    | cons r rs ih =>
        intro pmm hrs h
        have hr := hrs r List.mem_cons_self
        rcases ih _ (fun r' hr' => hrs r' (List.mem_cons_of_mem _ hr')) h with hold | hnew
        · rcases initRegion_free image (hwrap r hr) hold with hold | ⟨htype, hle, hlt, hres⟩
          · exact Or.inl hold
          · exact Or.inr ⟨⟨r, hr, htype, hle, hlt⟩, hres⟩
        · exact Or.inr hnew
  rw [pmmInit] at hfree
  split at hfree
  · rw [hblank] at hfree
    cases hfree
  · rcases hfold _ _ (fun _ hr => hr) hfree with hold | hnew
    · rw [hblank] at hold
      cases hold
    · exact hnew

theorem pmmInit_lastSearchIdx (image : KernelImage) (info : VideoInfo) :
  (pmmInit image (some info)).lastSearchIdx = 0
  := by
  have hpages : ∀ n page pmm, (initPages image n page pmm).lastSearchIdx = pmm.lastSearchIdx := by
    intro n
    induction n with
    | zero =>
        intros
        rfl
    | succ n ih =>
        intro page pmm
        rw [initPages]
        split
        · rfl
        · rw [ih]
          split
          · rfl
          · rfl
  have hfold : ∀ (rs : List BootMemoryRegion) (pmm : Pmm),
      (rs.foldl (initRegion image) pmm).lastSearchIdx = pmm.lastSearchIdx := by
    intro rs
    induction rs with
    | nil =>
        intro _
        rfl
    | cons r rs ih =>
        intro pmm
        rw [List.foldl_cons, ih, initRegion]
        split
        · rfl
        · simp only
          split
          · rfl
          · apply hpages
  rw [pmmInit]
  split
  · rfl
  · apply hfold

/-! ### Callers -/

/-- The page allocator, who holds each page, and which pages have been handed out. -/
structure Session where
  pmm : Pmm
  owner : Nat → Option Nat
  given : Nat → Bool

/-- A call of the page allocator by a caller. -/
inductive Call where
  | allocPage (caller : Nat)
  | freePage (caller : Nat) (page : UInt64)
  | allocPagesMulti (caller : Nat) (count : UInt32)
  | freePagesMulti (caller : Nat) (pages : UInt64) (count : UInt32)

namespace Session

/-- The session after `pmm_init`. -/
def init (image : KernelImage) (info : VideoInfo) : Session where
  pmm := pmmInit image (some info)
  owner := fun _ => none
  given := fun _ => false

/-- The `n` pages from `i` on. -/
def InRow (i n j : Nat) : Prop := i ≤ j ∧ j < i + n

instance (i n j : Nat) : Decidable (InRow i n j) := inferInstanceAs (Decidable (_ ∧ _))

/-- The caller is handed out `n` pages from the address `page` on, unless that is null. -/
def handOut (s : Session) (caller n : Nat) (r : Pmm × UInt64) : Session :=
  if r.2 = 0 then
    { s with pmm := r.1 }
  else
    { pmm := r.1
      owner := fun j => if InRow (r.2.toNat / 4096) n j then some caller else s.owner j
      given := fun j => decide (InRow (r.2.toNat / 4096) n j) || s.given j }

/-- `n` pages from the address `page` on are given back, unless that is null. -/
def takeBack (s : Session) (n : Nat) (page : UInt64) (pmm : Pmm) : Session :=
  if page = 0 then
    { s with pmm := pmm }
  else
    { s with
      pmm := pmm
      owner := fun j => if InRow (page.toNat / 4096) n j then none else s.owner j }

/-- Execute a call. -/
def call (image : KernelImage) (s : Session) : Call → Option Session
  | .allocPage caller => some (s.handOut caller 1 (pmmAllocPage s.pmm))
  | .freePage _ page => some (s.takeBack 1 page (pmmFreePage image s.pmm page))
  | .allocPagesMulti caller count =>
      some (s.handOut caller count.toNat (pmmAllocPagesMulti s.pmm count))
  | .freePagesMulti _ pages count =>
      some (s.takeBack count.toNat pages (pmmFreePagesMulti s.pmm pages count))

/-- The caller may free `n` pages from the address `page` on: it holds each of them, or
nobody does since it has been freed before. -/
def MayFree (s : Session) (caller n : Nat) (page : UInt64) : Prop :=
  page.toNat % 4096 = 0 ∧ ∀ j, InRow (page.toNat / 4096) n j
    → s.owner j = some caller ∨ (s.owner j = none ∧ s.given j = true)

/-- Callers free only pages that were handed out to them, or the null pointer. -/
def Permitted (s : Session) : Call → Prop
  | .allocPage _ => True
  | .freePage caller page => page = 0 ∨ s.MayFree caller 1 page
  | .allocPagesMulti _ _ => True
  | .freePagesMulti caller pages count => pages = 0 ∨ s.MayFree caller count.toNat pages

/-- A call in this state hands out `n` pages from the address `page` on. -/
def HandsOut (s : Session) (page : UInt64) (n : Nat) : Prop :=
  page ≠ 0 ∧ (((pmmAllocPage s.pmm).2 = page ∧ n = 1)
    ∨ ∃ count, (pmmAllocPagesMulti s.pmm count).2 = page ∧ n = count.toNat)

/-- Only pages that nobody holds are free, and the pages that are free or have been handed
out lie inside a usable region and are not reserved. -/
structure Sound (image : KernelImage) (info : VideoInfo) (s : Session) : Prop where
  free : ∀ j < maxPages, bitmapTest s.pmm.bitmap j = false →
    InsideUsable info j ∧ ¬ Reserved image j ∧ s.owner j = none
  given : ∀ j, s.given j = true → InsideUsable info j ∧ ¬ Reserved image j
  owner : ∀ j caller, s.owner j = some caller → s.given j = true
  search : s.pmm.lastSearchIdx ≤ maxPages

theorem init_sound (image : KernelImage) {info : VideoInfo} (hwrap : NoWrap info) :
  (init image info).Sound image info
  := by
  constructor
  · intro j _ hfree
    obtain ⟨huse, hres⟩ := pmmInit_free image hwrap hfree
    use huse, hres
    rfl
  · intro j h
    cases h
  · intro j caller h
    cases h
  · rw [init, pmmInit_lastSearchIdx]
    apply Nat.zero_le

/-! ### One call -/

/-- The call hands out `n` free managed pages in a row, which are in use afterwards. -/
def Grants (pmm : Pmm) (r : Pmm × UInt64) (n : Nat) : Prop :=
  ∃ i, r.2.toNat = 4096 * i
    ∧ (∀ j, InRow i n j → j < maxPages ∧ bitmapTest pmm.bitmap j = false)
    ∧ (∀ j, bitmapTest r.1.bitmap j = (decide (InRow i n j) || bitmapTest pmm.bitmap j))
    ∧ r.1.lastSearchIdx ≤ maxPages

theorem takePage_grants
    {pmm : Pmm} {i : Nat} (hi : i < maxPages) (hfree : bitmapTest pmm.bitmap i = false) :
  Grants pmm (takePage pmm i) 1
  := by
  have hrow : ∀ j, InRow i 1 j ↔ j = i := by
    intro j
    rw [InRow]
    omega
  use i
  constructor
  · apply pageAddr_toNat hi
  · constructor
    · intro j hj
      rw [(hrow j).mp hj]
      exact ⟨hi, hfree⟩
    · constructor
      · intro j
        simp [takePage, hrow]
      · exact hi.le

theorem pmmAllocPage_grants {pmm : Pmm} (hsearch : pmm.lastSearchIdx ≤ maxPages) :
  pmmAllocPage pmm = (pmm, 0) ∨ Grants pmm (pmmAllocPage pmm) 1
  := by
  rw [pmmAllocPage]
  split
  · exact Or.inl rfl
  · cases hfind : findFree pmm.bitmap (maxPages - pmm.lastSearchIdx) pmm.lastSearchIdx with
    | some i =>
        obtain ⟨-, hlt, hfree⟩ := findFree_spec hfind
        right
        apply takePage_grants _ hfree
        omega
    | none =>
        cases hfind' : findFree pmm.bitmap pmm.lastSearchIdx 0 with
        | some i =>
            obtain ⟨-, hlt, hfree⟩ := findFree_spec hfind'
            right
            apply takePage_grants _ hfree
            omega
        | none => exact Or.inl rfl

theorem pmmAllocPagesMulti_grants
    {pmm : Pmm} (hsearch : pmm.lastSearchIdx ≤ maxPages) (count : UInt32) :
  pmmAllocPagesMulti pmm count = (pmm, 0)
    ∨ Grants pmm (pmmAllocPagesMulti pmm count) count.toNat
  := by
  rw [pmmAllocPagesMulti]
  split
  case isTrue => exact Or.inl rfl
  case isFalse hguard =>
    cases hfind : findRun pmm.bitmap count maxPages 0 0 0 with
    | none => exact Or.inl rfl
    | some r =>
        obtain ⟨first, last⟩ := r
        have hzero : (0 : UInt32).toNat = 0 := rfl
        have hcount : (0 : UInt32).toNat < count.toNat := by
          have hne : count ≠ 0 := by
            rintro rfl
            simp at hguard
          rw [ne_eq, ← UInt32.toNat_inj, hzero] at hne
          omega
        obtain ⟨hlast, hlen, hfree⟩ := findRun_spec (by omega) (fun h => (h rfl).elim) hcount
          (fun h => (h rfl).elim) hfind
        right
        use first
        constructor
        · apply pageAddr_toNat
          omega
        · constructor
          · rintro j ⟨hle, hlt⟩
            use by omega
            apply hfree j hle
            omega
          · constructor
            · intro j
              have hrow : (first ≤ j ∧ j < first + (last + 1 - first)) ↔ InRow first count.toNat j := by
                rw [InRow]
                omega
              simp [bitmapTest_setRun, hrow]
            · exact hsearch

theorem handOut_sound
    {image : KernelImage} {info : VideoInfo} {s : Session} (hs : s.Sound image info)
    (caller : Nat) {n : Nat} {r : Pmm × UInt64} (hr : r = (s.pmm, 0) ∨ Grants s.pmm r n) :
  (s.handOut caller n r).Sound image info
  := by
  rw [handOut]
  rcases hr with rfl | ⟨i, haddr, hrow, hbits, hsearch⟩
  · rw [if_pos rfl]
    exact hs
  · have hidx : r.2.toNat / 4096 = i := by omega
    have hold : ∀ j, bitmapTest r.1.bitmap j = false →
        ¬ InRow i n j ∧ bitmapTest s.pmm.bitmap j = false := by
      intro j hj
      simpa [hbits] using hj
    rw [hidx]
    split
    · constructor
      · intro j hj hfree
        apply hs.free j hj (hold j hfree).2
      · exact hs.given
      · exact hs.owner
      · exact hsearch
    · constructor
      · intro j hj hfree
        obtain ⟨hnot, hfree'⟩ := hold j hfree
        obtain ⟨huse, hres, howner⟩ := hs.free j hj hfree'
        use huse, hres
        simp only [if_neg hnot, howner]
      · intro j hj
        simp only [Bool.or_eq_true, decide_eq_true_eq] at hj
        rcases hj with hin | hgiven
        · obtain ⟨hlt, hfree⟩ := hrow j hin
          obtain ⟨huse, hres, -⟩ := hs.free j hlt hfree
          exact ⟨huse, hres⟩
        · apply hs.given j hgiven
      · intro j c hj
        simp only at hj
        split at hj
        case isTrue hin => simp [hin]
        case isFalse => simp [hs.owner j c hj]
      · exact hsearch

theorem takeBack_sound
    {image : KernelImage} {info : VideoInfo} {s : Session} (hs : s.Sound image info)
    {caller n : Nat} {page : UInt64} {pmm : Pmm}
    (hpage : (page = 0 ∧ pmm = s.pmm) ∨ (page ≠ 0 ∧ s.MayFree caller n page))
    (hbits : ∀ j, bitmapTest pmm.bitmap j = false →
      bitmapTest s.pmm.bitmap j = false ∨ InRow (page.toNat / 4096) n j)
    (hsearch : pmm.lastSearchIdx ≤ maxPages) :
  (s.takeBack n page pmm).Sound image info
  := by
  rw [takeBack]
  rcases hpage with ⟨hnull, rfl⟩ | ⟨hne, -, hmay⟩
  · rw [if_pos hnull]
    exact hs
  · rw [if_neg hne]
    constructor
    · intro j hj hfree
      by_cases hin : InRow (page.toNat / 4096) n j
      · have hgiven : s.given j = true := by
          rcases hmay j hin with howner | ⟨-, hgiven⟩
          · apply hs.owner j caller howner
          · exact hgiven
        obtain ⟨huse, hres⟩ := hs.given j hgiven
        use huse, hres
        simp only [if_pos hin]
      · obtain ⟨huse, hres, howner⟩ := hs.free j hj ((hbits j hfree).resolve_right hin)
        use huse, hres
        simp only [if_neg hin, howner]
    · exact hs.given
    · intro j c hj
      simp only at hj
      split at hj
      · cases hj
      · apply hs.owner j c hj
    · exact hsearch

/-- Freeing a page frees no other page. -/
theorem pmmFreePage_bits
    (image : KernelImage) {pmm : Pmm} (page : UInt64) (hsearch : pmm.lastSearchIdx ≤ maxPages) :
  (∀ j, bitmapTest (pmmFreePage image pmm page).bitmap j = false →
      bitmapTest pmm.bitmap j = false ∨ InRow (page.toNat / 4096) 1 j)
    ∧ (pmmFreePage image pmm page).lastSearchIdx ≤ maxPages
  := by
  have hidx : (page / pageSize).toNat = page.toNat / 4096 := UInt64.toNat_div _ _
  rw [pmmFreePage]
  split
  · exact ⟨fun _ h => Or.inl h, hsearch⟩
  · split
    · exact ⟨fun _ h => Or.inl h, hsearch⟩
    · rw [hidx]
      simp only
      split
      · exact ⟨fun _ h => Or.inl h, hsearch⟩
      · split
        · constructor
          · intro j hj
            rw [bitmapTest_bitmapClear, Bool.and_eq_false_iff] at hj
            rcases hj with hself | hother
            · have hji : j = page.toNat / 4096 := by simpa using hself
              right
              rw [InRow]
              omega
            · exact Or.inl hother
          · show (if _ then _ else _) ≤ maxPages
            split
            case isTrue hlt => apply hlt.le.trans hsearch
            case isFalse => exact hsearch
        · exact ⟨fun _ h => Or.inl h, hsearch⟩

/-- Freeing several pages frees no other page. -/
theorem pmmFreePagesMulti_bits
    {pmm : Pmm} (pages : UInt64) (count : UInt32) (hsearch : pmm.lastSearchIdx ≤ maxPages) :
  (∀ j, bitmapTest (pmmFreePagesMulti pmm pages count).bitmap j = false →
      bitmapTest pmm.bitmap j = false ∨ InRow (pages.toNat / 4096) count.toNat j)
    ∧ (pmmFreePagesMulti pmm pages count).lastSearchIdx ≤ maxPages
  := by
  have hidx : (pages / pageSize).toNat = pages.toNat / 4096 := UInt64.toNat_div _ _
  have hclear : ∀ n i pmm, (clearRun n i pmm).lastSearchIdx = pmm.lastSearchIdx := by
    intro n
    induction n with
    | zero =>
        intros
        rfl
    | succ n ih =>
        intro i pmm
        rw [clearRun, ih]
        split
        · rfl
        · rfl
  rw [pmmFreePagesMulti]
  split
  · exact ⟨fun _ h => Or.inl h, hsearch⟩
  · rw [hidx, hclear]
    constructor
    · intro j hj
      apply bitmapTest_clearRun hj
    · exact hsearch

/-- Every permitted call keeps a session sound. -/
theorem call_sound
    {image : KernelImage} {info : VideoInfo} {s : Session} {c : Call} (hs : s.Sound image info)
    (hpermitted : s.Permitted c) :
  ∃ s', s.call image c = some s' ∧ s'.Sound image info
  := by
  cases c with
  | allocPage caller =>
      apply Exists.intro
      use rfl
      apply handOut_sound hs
      apply pmmAllocPage_grants hs.search
  | freePage caller page =>
      obtain ⟨hbits, hsearch⟩ := pmmFreePage_bits image page hs.search
      apply Exists.intro
      use rfl
      apply takeBack_sound hs _ hbits hsearch
      · exact caller
      · by_cases hnull : page = 0
        · left
          use hnull
          rw [pmmFreePage, if_pos (Or.inr hnull)]
        · exact Or.inr ⟨hnull, hpermitted.resolve_left hnull⟩
  | allocPagesMulti caller count =>
      apply Exists.intro
      use rfl
      apply handOut_sound hs
      apply pmmAllocPagesMulti_grants hs.search
  | freePagesMulti caller pages count =>
      obtain ⟨hbits, hsearch⟩ := pmmFreePagesMulti_bits pages count hs.search
      apply Exists.intro
      use rfl
      apply takeBack_sound hs _ hbits hsearch
      · exact caller
      · by_cases hnull : pages = 0
        · left
          use hnull
          rw [pmmFreePagesMulti, if_pos (Or.inr (Or.inl hnull))]
        · exact Or.inr ⟨hnull, hpermitted.resolve_left hnull⟩

/-! ### Runs -/

/-- What a call may hand out: aligned managed pages inside usable regions, that meet no
region of another type, are not reserved, and are not held. -/
def Handable (image : KernelImage) (info : VideoInfo) (s : Session) (page : UInt64) (n : Nat) :
    Prop :=
  page.toNat % 4096 = 0 ∧ ∀ j, InRow (page.toNat / 4096) n j →
    InsideUsable info j ∧ ¬ MeetsNonUsable info j ∧ ¬ Reserved image j ∧ j < maxPages
      ∧ s.owner j = none

theorem Grants.handable
    {image : KernelImage} {info : VideoInfo} {s : Session} (hs : s.Sound image info)
    (hno : NoConflict image info) {r : Pmm × UInt64} {n : Nat} (hr : Grants s.pmm r n) :
  Handable image info s r.2 n
  := by
  obtain ⟨i, haddr, hrow, -, -⟩ := hr
  have hidx : r.2.toNat / 4096 = i := by omega
  constructor
  · omega
  · intro j hj
    rw [hidx] at hj
    obtain ⟨hlt, hfree⟩ := hrow j hj
    obtain ⟨huse, hres, howner⟩ := hs.free j hlt hfree
    exact ⟨huse, hno j hlt huse hres, hres, hlt, howner⟩

/-- In every run in which callers free only pages that were handed out to them, every call
hands out only pages as `Handable` says, provided that no page inside a usable region that is
not reserved meets a region of another type. -/
theorem pages_owned
    (image : KernelImage) (info : VideoInfo) (hwrap : NoWrap info) (hno : NoConflict image info)
    (calls : List Call) (h : Run.Guarded (call image) Permitted (init image info) calls) :
  ∃ s, Run.exec (call image) (init image info) calls = some s
    ∧ ∀ page n, s.HandsOut page n → Handable image info s page n
  := by
  have hstep : ∀ (s : Session) c, s.Sound image info → s.Permitted c
      → ∃ s', s.call image c = some s' ∧ s'.Sound image info :=
    fun s c hs hc => call_sound hs hc
  obtain ⟨s, hrun, hs⟩ := Run.exec_invariant hstep (init_sound image hwrap) h
  use s, hrun
  rintro page n ⟨hne, ⟨rfl, rfl⟩ | ⟨count, rfl, rfl⟩⟩
  · rcases pmmAllocPage_grants hs.search with hnone | hgrants
    · rw [hnone] at hne
      exact (hne rfl).elim
    · apply hgrants.handable hs hno
  · rcases pmmAllocPagesMulti_grants hs.search count with hnone | hgrants
    · rw [hnone] at hne
      exact (hne rfl).elim
    · apply hgrants.handable hs hno

/-- An image of the kernel with nothing behind its first megabyte. -/
def smallImage : KernelImage := ⟨0x8000, 0x100000, by decide⟩

/-- A memory map of a usable page after the first megabyte, and a region of another type that
begins `offset` bytes into it. -/
def twoRegions (offset : UInt64) : VideoInfo where
  version := 2
  memoryRegionCount := 2
  memoryRegionCapacity := 32
  memoryRegions := fun i => if i = 0 then ⟨0x100000, 4096, 1⟩ else ⟨0x100000 + offset, 4096, 2⟩

theorem regions_twoRegions (offset : UInt64) :
  regions (twoRegions offset) = [⟨0x100000, 4096, 1⟩, ⟨0x100000 + offset, 4096, 2⟩]
  := rfl

/-- The case of two regions that do not overlap, and of a page that is allocated, freed and
allocated again. -/
theorem pages_owned_twoRegions :
  ∃ s, Run.exec (call smallImage) (init smallImage (twoRegions 4096))
      [.allocPage 1, .freePage 1 0x100000, .allocPage 2] = some s
    ∧ ∀ page n, s.HandsOut page n → Handable smallImage (twoRegions 4096) s page n
  := by
  have halloc : (pmmAllocPage (init smallImage (twoRegions 4096)).pmm).2 = 0x100000 := by
    decide +kernel
  apply pages_owned
  · intro r hr
    simp only [regions_twoRegions, List.mem_cons, List.not_mem_nil, or_false] at hr
    rcases hr with rfl | rfl
    · decide
    · decide
  · rintro i - ⟨r, hr, htype, hle, hlt⟩ - ⟨r', hr', htype', hmeet⟩
    simp only [regions_twoRegions, List.mem_cons, List.not_mem_nil, or_false] at hr hr'
    rcases hr with rfl | rfl
    · rcases hr' with rfl | rfl
      · exact htype' rfl
      · simp at hle hlt hmeet
        omega
    · cases htype
  · constructor
    · trivial
    · intro s hs
      obtain rfl : (init smallImage (twoRegions 4096)).handOut 1 1 _ = s := Option.some_inj.mp hs
      constructor
      · right
        constructor
        · decide
        · intro j hj
          left
          rw [handOut, halloc, if_neg (by decide)]
          apply if_pos hj
      · intro s _
        constructor
        · trivial
        · intros
          trivial

/-- The page that is handed out first meets a region that is not usable. -/
theorem not_handable_overlapping_regions :
  NoWrap (twoRegions 2048)
    ∧ Run.Guarded (call smallImage) Permitted (init smallImage (twoRegions 2048)) []
    ∧ (init smallImage (twoRegions 2048)).HandsOut 0x100000 1
    ∧ ¬ Handable smallImage (twoRegions 2048) (init smallImage (twoRegions 2048)) 0x100000 1
  := by
  constructor
  · intro r hr
    simp only [regions_twoRegions, List.mem_cons, List.not_mem_nil, or_false] at hr
    rcases hr with rfl | rfl
    · decide
    · decide
  · constructor
    · trivial
    · constructor
      · use by decide
        left
        decide +kernel
      · rintro ⟨-, hrow⟩
        apply (hrow 256 (by decide)).2.1
        use ⟨0x100000 + 2048, 4096, 2⟩
        decide +kernel

end Session

end Pmm
