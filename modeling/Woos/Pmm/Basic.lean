import Mathlib.Logic.Function.Basic
import Mathlib.Algebra.Group.Nat.Defs

/-!
# The physical page allocator

`Pmm` is the state of `pmm.c`: a bitmap with one bit for each of the managed pages, set when
the page is not free, and the counters.  `pmmInit` builds it from the memory map that the
boot loader leaves, and the four functions after it hand out pages and take them back.

A page is named by its index; its address is the index times the page size.  A `for` loop is
a recursion on the number of its rounds.
-/

/-- `boot_memory_region_t` -/
structure BootMemoryRegion where
  base : UInt64
  length : UInt64
  type : UInt32
  deriving DecidableEq, Repr

/-- The part of `video_info_t` that the page allocator reads. -/
structure VideoInfo where
  version : UInt16
  memoryRegionCount : UInt16
  memoryRegionCapacity : UInt16
  memoryRegions : Nat → BootMemoryRegion

/-- `__kernel_start` and `__kernel_end`, of which the linker makes an image far below the end
of the address space. -/
structure KernelImage where
  start : UInt64
  stop : UInt64
  stop_lt : stop.toNat + 4096 < 2 ^ 64

/-- `g_pmm` and `g_pmm_bitmap` -/
structure Pmm where
  lastSearchIdx : Nat
  totalPages : UInt64
  freePages : UInt64
  ready : Bool
  bitmap : Nat → UInt8

namespace Pmm

/-- `PMM_PAGE_SIZE` -/
def pageSize : UInt64 := 4096

/-- `PMM_MAX_PAGES` -/
def maxPages : Nat := 1048576

/-- `PMM_LOW_MEMORY_CUTOFF` -/
def lowMemoryCutoff : UInt64 := 0x00100000

/-- `BOOT_INFO_VERSION_V2` -/
def bootInfoVersionV2 : UInt16 := 2

/-- `BOOT_INFO_E820_TYPE_USABLE` -/
def e820TypeUsable : UInt32 := 1

/-! ### The bitmap -/

/-- `bitmap_set` -/
def bitmapSet (bitmap : Nat → UInt8) (pageIdx : Nat) : Nat → UInt8 :=
  Function.update bitmap (pageIdx / 8)
    (bitmap (pageIdx / 8) ||| (1 <<< UInt8.ofNat (pageIdx % 8)))

/-- `bitmap_clear` -/
def bitmapClear (bitmap : Nat → UInt8) (pageIdx : Nat) : Nat → UInt8 :=
  Function.update bitmap (pageIdx / 8)
    (bitmap (pageIdx / 8) &&& ~~~(1 <<< UInt8.ofNat (pageIdx % 8)))

/-- `bitmap_test` -/
def bitmapTest (bitmap : Nat → UInt8) (pageIdx : Nat) : Bool :=
  (bitmap (pageIdx / 8) &&& (1 <<< UInt8.ofNat (pageIdx % 8))) != 0

/-! ### Reserved pages -/

/-- `align_up_u64` -/
def alignUp (value align : UInt64) : UInt64 :=
  (value + (align - 1)) &&& ~~~(align - 1)

/-- `align_down_u64` -/
def alignDown (value align : UInt64) : UInt64 :=
  value &&& ~~~(align - 1)

/-- `range_overlaps` -/
def rangeOverlaps (startA endA startB endB : UInt64) : Bool :=
  !(decide (endA ≤ startB) || decide (endB ≤ startA))

/-- `page_is_reserved` -/
def pageIsReserved (image : KernelImage) (pageAddr : UInt64) : Bool :=
  let pageEnd := pageAddr + pageSize
  let kernelStart := alignDown image.start pageSize
  let kernelEnd := alignUp image.stop pageSize
  if pageAddr < lowMemoryCutoff then true
  else if rangeOverlaps pageAddr pageEnd kernelStart kernelEnd then true
  else if rangeOverlaps pageAddr pageEnd 0x01000000 0x01800000 then true
  else if rangeOverlaps pageAddr pageEnd 0x01800000 0x02000000 then true
  else if rangeOverlaps pageAddr pageEnd 0x02000000 0x0A000000 then true
  else false

/-! ### Initialization -/

/-- The state at the start of `pmm_init`: all pages are in use. -/
def blank : Pmm where
  lastSearchIdx := 0
  totalPages := 0
  freePages := 0
  ready := false
  bitmap := fun _ => 0xff

/-- The loop of `pmm_init` over the pages of a region, `n` rounds from `page` on. -/
def initPages (image : KernelImage) : Nat → UInt64 → Pmm → Pmm
  | 0, _, pmm => pmm
  | n + 1, page, pmm =>
      let pageIdx := (page / pageSize).toNat
      if maxPages ≤ pageIdx then
        pmm
      else
        let pmm := { pmm with totalPages := pmm.totalPages + 1 }
        let pmm :=
          if pageIsReserved image page then pmm
          else { pmm with bitmap := bitmapClear pmm.bitmap pageIdx, freePages := pmm.freePages + 1 }
        initPages image n (page + pageSize) pmm

/-- The body of the loop of `pmm_init` over the regions. -/
def initRegion (image : KernelImage) (pmm : Pmm) (region : BootMemoryRegion) : Pmm :=
  if region.type ≠ e820TypeUsable ∨ region.length < pageSize then
    pmm
  else
    let regionStart := alignUp region.base pageSize
    let regionEnd := alignDown (region.base + region.length) pageSize
    if regionEnd ≤ regionStart then
      pmm
    else
      initPages image ((regionEnd - regionStart) / pageSize).toNat regionStart pmm

/-- The number of regions that `pmm_init` looks at. -/
def regionCount (info : VideoInfo) : UInt16 :=
  if info.memoryRegionCapacity < info.memoryRegionCount then info.memoryRegionCapacity
  else info.memoryRegionCount

/-- The regions of the memory map. -/
def regions (info : VideoInfo) : List BootMemoryRegion :=
  (List.range (regionCount info).toNat).map info.memoryRegions

/-- `pmm_init` -/
def pmmInit (image : KernelImage) : Option VideoInfo → Pmm
  | none => blank
  | some info =>
      if info.version < bootInfoVersionV2 ∨ info.memoryRegionCount = 0 then
        blank
      else
        let pmm := (regions info).foldl (initRegion image) blank
        { pmm with ready := pmm.freePages != 0 }

/-! ### Single pages -/

/-- The loops of `pmm_alloc_page`: the first free page among `n` from `i` on. -/
def findFree (bitmap : Nat → UInt8) : Nat → Nat → Option Nat
  | 0, _ => none
  | n + 1, i => if bitmapTest bitmap i = false then some i else findFree bitmap n (i + 1)

/-- The body of the loops of `pmm_alloc_page` for the page that is found. -/
def takePage (pmm : Pmm) (i : Nat) : Pmm × UInt64 :=
  ({ pmm with
      bitmap := bitmapSet pmm.bitmap i
      freePages := pmm.freePages - 1
      lastSearchIdx := i },
    UInt64.ofNat i * pageSize)

/-- `pmm_alloc_page`: the state and the address of the page, `0` when there is none. -/
def pmmAllocPage (pmm : Pmm) : Pmm × UInt64 :=
  if pmm.ready = false ∨ pmm.freePages = 0 then
    (pmm, 0)
  else
    match findFree pmm.bitmap (maxPages - pmm.lastSearchIdx) pmm.lastSearchIdx with
    | some i => takePage pmm i
    | none =>
        match findFree pmm.bitmap pmm.lastSearchIdx 0 with
        | some i => takePage pmm i
        | none => (pmm, 0)

/-- `pmm_free_page` -/
def pmmFreePage (image : KernelImage) (pmm : Pmm) (page : UInt64) : Pmm :=
  if pmm.ready = false ∨ page = 0 then
    pmm
  else if page &&& (pageSize - 1) ≠ 0 ∨ pageIsReserved image page = true then
    pmm
  else
    let pageIdx := (page / pageSize).toNat
    if maxPages ≤ pageIdx then
      pmm
    else if bitmapTest pmm.bitmap pageIdx then
      { pmm with
        bitmap := bitmapClear pmm.bitmap pageIdx
        freePages := pmm.freePages + 1
        lastSearchIdx := if pageIdx < pmm.lastSearchIdx then pageIdx else pmm.lastSearchIdx }
    else
      pmm

/-! ### Several pages -/

/-- The loop of `pmm_alloc_pages_multi` that looks for `count` free pages in a row, with
`n` rounds to go from `i` on, after `foundCount` free pages from `startIdx` on: the first
and the last of them. -/
def findRun (bitmap : Nat → UInt8) (count : UInt32) :
    Nat → Nat → UInt32 → Nat → Option (Nat × Nat)
  | 0, _, _, _ => none
  | n + 1, i, foundCount, startIdx =>
      if bitmapTest bitmap i = false then
        let startIdx := if foundCount = 0 then i else startIdx
        let foundCount := foundCount + 1
        if foundCount = count then some (startIdx, i)
        else findRun bitmap count n (i + 1) foundCount startIdx
      else
        findRun bitmap count n (i + 1) 0 startIdx

/-- Set the bits of `n` pages from `j` on. -/
def setRun (bitmap : Nat → UInt8) : Nat → Nat → (Nat → UInt8)
  | 0, _ => bitmap
  | n + 1, j => setRun (bitmapSet bitmap j) n (j + 1)

/-- `pmm_alloc_pages_multi`: the state and the address of the first page, `0` when there
are not enough in a row. -/
def pmmAllocPagesMulti (pmm : Pmm) (count : UInt32) : Pmm × UInt64 :=
  if pmm.ready = false ∨ pmm.freePages < count.toUInt64 ∨ count = 0 then
    (pmm, 0)
  else
    match findRun pmm.bitmap count maxPages 0 0 0 with
    | some (startIdx, i) =>
        ({ pmm with
            bitmap := setRun pmm.bitmap (i + 1 - startIdx) startIdx
            freePages := pmm.freePages - count.toUInt64 },
          UInt64.ofNat startIdx * pageSize)
    | none => (pmm, 0)

/-- The loop of `pmm_free_pages_multi`, `n` rounds from the page `curIdx` on. -/
def clearRun : Nat → Nat → Pmm → Pmm
  | 0, _, pmm => pmm
  | n + 1, curIdx, pmm =>
      let pmm :=
        if curIdx < maxPages ∧ bitmapTest pmm.bitmap curIdx = true then
          { pmm with
            bitmap := bitmapClear pmm.bitmap curIdx
            freePages := pmm.freePages + 1 }
        else pmm
      clearRun n (curIdx + 1) pmm

/-- `pmm_free_pages_multi` -/
def pmmFreePagesMulti (pmm : Pmm) (pages : UInt64) (count : UInt32) : Pmm :=
  if pmm.ready = false ∨ pages = 0 ∨ count = 0 then
    pmm
  else
    clearRun count.toNat (pages / pageSize).toNat pmm

end Pmm
