import Woos.Lib.Memory
import Woos.Lib.Arena

/-!
# The kernel heap

`KHeap` is the state of `kheap.c`: the memory in which the block headers live, the pointer
to the first block and the count of used bytes.  `kheapAlloc`, `kheapFree` and
`kheapRealloc` are the operations as the code computes them, over 64-bit words.

A loop over the block list follows `next` pointers that it reads from memory, so it is given
a bound on the number of blocks it visits, and is `none` when the bound is reached.
-/

/-- The kernel heap: memory, `g_kheap_head` and `g_kheap_used`. -/
structure KHeap where
  mem : Memory
  head : UInt64
  used : UInt64

namespace KHeap

/-! ### Constants -/

/-- `KHEAP_BASE` -/
def base : UInt64 := 0x02000000

/-- `KHEAP_ARENA_SIZE` -/
def arenaSize : UInt64 := 128 * 1024 * 1024

/-- `KHEAP_ALIGN` -/
def heapAlign : UInt64 := 16

/-- `sizeof(kheap_block_t)` -/
def headerSize : UInt64 := 32

/-- The number of headers that fit into the heap. -/
def maxBlocks : Nat := 128 * 1024 * 1024 / 32

/-! ### Block headers -/

/-- `block->size` -/
def blockSize (m : Memory) (block : UInt64) : UInt64 :=
  UInt64.ofNat (m.load 8 block.toNat)

/-- `block->next` -/
def blockNext (m : Memory) (block : UInt64) : UInt64 :=
  UInt64.ofNat (m.load 8 (block.toNat + 8))

/-- `block->used` -/
def blockUsed (m : Memory) (block : UInt64) : UInt8 :=
  m (block.toNat + 16)

/-- `block->size = size` -/
def setBlockSize (m : Memory) (block size : UInt64) : Memory :=
  m.store 8 block.toNat size.toNat

/-- `block->next = next` -/
def setBlockNext (m : Memory) (block next : UInt64) : Memory :=
  m.store 8 (block.toNat + 8) next.toNat

/-- `block->used = used` -/
def setBlockUsed (m : Memory) (block : UInt64) (used : UInt8) : Memory :=
  Function.update m (block.toNat + 16) used

/-! ### The functions of `kheap.c` -/

/-- `align_up` -/
def alignUp (value align : UInt64) : UInt64 :=
  (value + (align - 1)) &&& ~~~(align - 1)

/-- `block_payload` -/
def blockPayload (block : UInt64) : UInt64 :=
  block + headerSize

/-- `block_payload_size` -/
def blockPayloadSize (m : Memory) (block : UInt64) : UInt64 :=
  if blockSize m block ≤ headerSize then 0 else blockSize m block - headerSize

/-- `kheap_init` -/
def kheapInit (m : Memory) : KHeap where
  mem := setBlockUsed (setBlockNext (setBlockSize m base arenaSize) base 0) base 0
  head := base
  used := 0

/-- The memory after `kheap_alloc` has split `need` payload bytes off a block. -/
def splitBlock (m : Memory) (block need : UInt64) : Memory :=
  let split := blockPayload block + need
  let remainPayload := blockPayloadSize m block - need
  let m := setBlockSize m split remainPayload
  let m := setBlockNext m split (blockNext m block)
  let m := setBlockUsed m split 0
  let m := setBlockSize m block (headerSize + need)
  setBlockNext m block split

/-- The body of the loop of `kheap_alloc` for a block that is taken. -/
def takeBlock (h : KHeap) (block need : UInt64) : KHeap :=
  let remainPayload := blockPayloadSize h.mem block - need
  let m := if headerSize + heapAlign ≤ remainPayload then splitBlock h.mem block need else h.mem
  let m := setBlockUsed m block 1
  { h with mem := m, used := h.used + blockPayloadSize m block }

/-- The loop of `kheap_alloc` from `block` on. -/
def allocLoop (h : KHeap) (need : UInt64) : Nat → UInt64 → Option (KHeap × UInt64)
  | 0, _ => none
  | n + 1, block =>
      if block = 0 then
        some (h, 0)
      else if blockUsed h.mem block ≠ 0 then
        allocLoop h need n (blockNext h.mem block)
      else if blockPayloadSize h.mem block < need then
        allocLoop h need n (blockNext h.mem block)
      else
        some (takeBlock h block need, blockPayload block)

/-- `kheap_alloc` -/
def kheapAlloc (h : KHeap) (size : UInt64) : Option (KHeap × UInt64) :=
  if size = 0 ∨ h.head = 0 then
    some (h, 0)
  else
    allocLoop h (alignUp size heapAlign) (maxBlocks + 1) h.head

/-- The loop of `coalesce_free_blocks` from `block` on. -/
def coalesceLoop : Nat → Memory → UInt64 → Option Memory
  | 0, _, _ => none
  | n + 1, m, block =>
      if block = 0 ∨ blockNext m block = 0 then
        some m
      else
        let next := blockNext m block
        if blockUsed m block = 0 ∧ blockUsed m next = 0 ∧ next = block + blockSize m block then
          let m := setBlockSize m block (blockSize m block + blockSize m next)
          let m := setBlockNext m block (blockNext m next)
          coalesceLoop n m block
        else
          coalesceLoop n m next

/-- `coalesce_free_blocks` -/
def coalesceFreeBlocks (h : KHeap) : Option KHeap :=
  (coalesceLoop (maxBlocks + 1) h.mem h.head).map (fun m => { h with mem := m })

/-- The body of the loop of `kheap_free` for the block that is found. -/
def dropBlock (h : KHeap) (block : UInt64) : Option KHeap :=
  if blockUsed h.mem block = 0 then
    some h
  else
    let m := setBlockUsed h.mem block 0
    coalesceFreeBlocks { h with mem := m, used := h.used - blockPayloadSize m block }

/-- The loop of `kheap_free` from `block` on. -/
def freeLoop (h : KHeap) (ptr : UInt64) : Nat → UInt64 → Option KHeap
  | 0, _ => none
  | n + 1, block =>
      if block = 0 then
        some h
      else if blockPayload block ≠ ptr then
        freeLoop h ptr n (blockNext h.mem block)
      else
        dropBlock h block

/-- `kheap_free` -/
def kheapFree (h : KHeap) (ptr : UInt64) : Option KHeap :=
  if ptr = 0 ∨ h.head = 0 then
    some h
  else
    freeLoop h ptr (maxBlocks + 1) h.head

/-- The size of the payload at `ptr`, as `kheap_realloc` reads it from the header. -/
def currentPayload (h : KHeap) (ptr : UInt64) : UInt64 :=
  blockPayloadSize h.mem (ptr - headerSize)

/-- `kheap_realloc` -/
def kheapRealloc (h : KHeap) (ptr size : UInt64) : Option (KHeap × UInt64) :=
  if ptr = 0 then
    kheapAlloc h size
  else if size = 0 then do
    let h ← kheapFree h ptr
    some (h, 0)
  else if size ≤ currentPayload h ptr then
    some (h, ptr)
  else do
    let n := currentPayload h ptr
    let (h, newPtr) ← kheapAlloc h size
    if newPtr = 0 then
      some (h, 0)
    else
      let h := { h with mem := h.mem.copy newPtr.toNat ptr.toNat n.toNat }
      let h ← kheapFree h ptr
      some (h, newPtr)

end KHeap
