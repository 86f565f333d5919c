import Woos.Lib.Memory
import Woos.Pmm.Basic

/-!
# Address spaces

The functions of `vmm.c`.  A table is a page of 512 entries of 8 bytes in memory; `kernelPml4` is the
table of the kernel's own address space.  A function that takes pages from the page allocator, or gives
them back, returns its new state.
-/

namespace Vmm

/-- `VMM_PAGE_PRESENT` -/
def pagePresent : UInt64 := 1

/-- `VMM_PAGE_WRITABLE` -/
def pageWritable : UInt64 := 2

/-- `VMM_PAGE_USER` -/
def pageUser : UInt64 := 4

/-! ### Tables -/

/-- `table[i]` -/
def entry (m : Memory) (table : UInt64) (i : Nat) : UInt64 :=
  UInt64.ofNat (m.load 8 (table.toNat + 8 * i))

/-- `table[i] = e` -/
def setEntry (m : Memory) (table : UInt64) (i : Nat) (e : UInt64) : Memory :=
  m.store 8 (table.toNat + 8 * i) e.toNat

/-- The table that an entry points to. -/
def entryTable (e : UInt64) : UInt64 := e &&& ~~~0xFFF

/-- The loop that clears the first `n` entries of a table. -/
def clearEntries (m : Memory) (table : UInt64) : Nat → Memory
  | 0 => m
  | i + 1 => setEntry (clearEntries m table i) table i 0

/-- The loop that copies the first `n` entries of a table. -/
def copyEntries (m : Memory) (dst src : UInt64) : Nat → Memory
  | 0 => m
  | i + 1 =>
      let m := copyEntries m dst src i
      setEntry m dst i (entry m src i)

/-! ### Address spaces -/

/-- `vmm_create_address_space`: the memory, the page allocator and the table, `0` when there
are not enough pages. -/
def vmmCreateAddressSpace (image : KernelImage) (kernelPml4 : UInt64) (m : Memory) (pmm : Pmm) :
    Memory × Pmm × UInt64 :=
  let (pmm, newPml4) := pmm.pmmAllocPage
  if newPml4 = 0 then
    (m, pmm, 0)
  else
    let m := copyEntries (clearEntries m newPml4 512) newPml4 kernelPml4 512
    let (pmm, newPdpt) := pmm.pmmAllocPage
    if newPdpt = 0 then
      (m, pmm.pmmFreePage image newPml4, 0)
    else
      let m := clearEntries m newPdpt 512
      let m := copyEntries m newPdpt (entryTable (entry m kernelPml4 0)) 4
      let m := setEntry m newPml4 0 (newPdpt ||| pagePresent ||| pageWritable ||| pageUser)
      (m, pmm, newPml4)

/-- The loop of `vmm_destroy_address_space` over the entries of a page directory. -/
def freeDirectory (image : KernelImage) (m : Memory) (pd : UInt64) (pmm : Pmm) : Pmm :=
  (List.range 512).foldl (fun pmm j =>
    if entry m pd j &&& pagePresent ≠ 0 then pmm.pmmFreePage image (entryTable (entry m pd j))
    else pmm) pmm

/-- The loop of `vmm_destroy_address_space` over the page directories above 4 GiB. -/
def freePdpt (image : KernelImage) (m : Memory) (pdpt : UInt64) (pmm : Pmm) : Pmm :=
  (List.range' 4 508).foldl (fun pmm i =>
    if entry m pdpt i &&& pagePresent ≠ 0 then
      let pd := entryTable (entry m pdpt i)
      (freeDirectory image m pd pmm).pmmFreePage image pd
    else pmm) pmm

/-- `vmm_destroy_address_space` -/
def vmmDestroyAddressSpace (image : KernelImage) (kernelPml4 : UInt64) (m : Memory) (pmm : Pmm)
    (pml4 : UInt64) : Pmm :=
  if pml4 = 0 ∨ pml4 = kernelPml4 then
    pmm
  else
    let pmm :=
      if entry m pml4 0 &&& pagePresent ≠ 0 then
        let pdpt := entryTable (entry m pml4 0)
        (freePdpt image m pdpt pmm).pmmFreePage image pdpt
      else pmm
    pmm.pmmFreePage image pml4

/-! ### Mapping -/

/-- One level of `vmm_map_page`: the table that the entry `idx` of a table points to, made when
it is not there, and `none` when there is no page for it. -/
def mapLevel (m : Memory) (pmm : Pmm) (table : UInt64) (idx : Nat) (flags : UInt64) :
    Memory × Pmm × Option UInt64 :=
  if entry m table idx &&& pagePresent = 0 then
    let (pmm, newTable) := pmm.pmmAllocPage
    if newTable = 0 then
      (m, pmm, none)
    else
      let m := clearEntries m newTable 512
      let m := setEntry m table idx
        (newTable ||| pagePresent ||| pageWritable ||| (flags &&& pageUser))
      (m, pmm, some (entryTable (entry m table idx)))
  else
    let m :=
      if flags &&& pageUser ≠ 0 then setEntry m table idx (entry m table idx ||| pageUser) else m
    (m, pmm, some (entryTable (entry m table idx)))

/-- The index of an address at a level of the tables. -/
def tableIndex (virt : UInt64) (shift : UInt64) : Nat :=
  ((virt >>> shift) &&& 0x1FF).toNat

/-- `vmm_map_page` -/
def vmmMapPage (kernelPml4 : UInt64) (m : Memory) (pmm : Pmm) (pml4 virt phys flags : UInt64) :
    Memory × Pmm × UInt8 :=
  let pml4 := if pml4 = 0 then kernelPml4 else pml4
  match mapLevel m pmm pml4 (tableIndex virt 39) flags with
  | (m, pmm, none) => (m, pmm, 0)
  | (m, pmm, some pdpt) =>
      match mapLevel m pmm pdpt (tableIndex virt 30) flags with
      | (m, pmm, none) => (m, pmm, 0)
      | (m, pmm, some pd) =>
          match mapLevel m pmm pd (tableIndex virt 21) flags with
          | (m, pmm, none) => (m, pmm, 0)
          | (m, pmm, some pt) =>
              (setEntry m pt (tableIndex virt 12) ((phys &&& ~~~0xFFF) ||| flags ||| pagePresent),
                pmm, 1)

/-! ### Unmapping and looking up -/

/-- The steps of `vmm_unmap_page` and `vmm_get_phys` from a table to the one that its entry `idx` points
to. -/
def lookupLevel (m : Memory) (table : UInt64) (idx : Nat) : Option UInt64 :=
  if entry m table idx &&& pagePresent = 0 then none else some (entryTable (entry m table idx))

/-- The page table of an address. -/
def pageTable (m : Memory) (pml4 virt : UInt64) : Option UInt64 := do
  let pdpt ← lookupLevel m pml4 (tableIndex virt 39)
  let pd ← lookupLevel m pdpt (tableIndex virt 30)
  lookupLevel m pd (tableIndex virt 21)

/-- `vmm_unmap_page` -/
def vmmUnmapPage (kernelPml4 : UInt64) (m : Memory) (pml4 virt : UInt64) : Memory × UInt8 :=
  let pml4 := if pml4 = 0 then kernelPml4 else pml4
  match pageTable m pml4 virt with
  | none => (m, 0)
  | some pt =>
      if entry m pt (tableIndex virt 12) &&& pagePresent = 0 then (m, 0)
      else (setEntry m pt (tableIndex virt 12) 0, 1)

/-- `vmm_get_phys` -/
def vmmGetPhys (kernelPml4 : UInt64) (m : Memory) (pml4 virt : UInt64) : UInt64 :=
  let pml4 := if pml4 = 0 then kernelPml4 else pml4
  match pageTable m pml4 virt with
  | none => 0
  | some pt =>
      if entry m pt (tableIndex virt 12) &&& pagePresent = 0 then 0
      else entryTable (entry m pt (tableIndex virt 12)) ||| (virt &&& 0xFFF)

end Vmm
