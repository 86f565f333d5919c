import Woos.Lib.Headers

/-!
# The heap of an application

`AppHeap` is the state of the allocator of `woos_mem.h`: the memory of the application and the pointer
to the first block.  Pointers and sizes have 32 bits, and a header is a `wasm_block_t`.

A loop over the blocks follows `next` pointers, so it is given a bound on the number of blocks it
visits, and is `none` when the bound is reached.
-/

/-- The heap of an application: its memory and `g_wasm_heap_head`. -/
structure AppHeap where
  mem : Memory
  head : Nat

namespace AppHeap

theorem sizeofBlock_pos :
  0 < 16
  := by
  decide

/-- `wasm_block_t`, of 16 bytes: `size` and `next` have four bytes each, and `used` follows. -/
def wasmBlock : Layout where
  header := 16
  align := 8
  minSplit := 24
  align_pos := by decide
  header_pos := sizeofBlock_pos
  align_header := by decide
  header_le := by decide
  word := 4
  room := by decide

/-- `WASM_HEAP_SIZE` -/
def heapSize : Nat := 16 * 1024 * 1024

/-- The number of headers that fit into the heap. -/
def maxBlocks : Nat := 1024 * 1024

/-- The address of `g_wasm_heap` in the 32-bit memory of the application. -/
structure Base where
  addr : Nat
  pos : 0 < addr
  fits : addr + heapSize < 2 ^ 32

/-- `wasm_heap_init_if_needed` -/
def initIfNeeded (g : Base) (h : AppHeap) : AppHeap :=
  if h.head = 0 then
    let m := wasmBlock.setSize h.mem g.addr heapSize
    let m := wasmBlock.setNext m g.addr 0
    let m := wasmBlock.setUsed m g.addr 0
    ⟨m, g.addr⟩
  else h

/-- `need`: the size, aligned to 8 bytes in 32 bits. -/
def alignUp (size : UInt32) : Nat := ((size + 7) &&& ~~~7).toNat

/-- The loop of `woos_malloc` from `cur` on, up to the block that it takes: its address, or `0` when
there is none. -/
def findBlock (m : Memory) (need : Nat) : Nat → Nat → Option Nat
  | 0, _ => none
  | n + 1, cur =>
      if cur = 0 then some 0
      else if wasmBlock.used m cur ≠ 0 then findBlock m need n (wasmBlock.next m cur)
      else if wasmBlock.size m cur ≤ 16 then findBlock m need n (wasmBlock.next m cur)
      else if wasmBlock.size m cur - 16 < need then findBlock m need n (wasmBlock.next m cur)
      else some cur

/-- The memory after `need` payload bytes have been split off the block `cur`. -/
def splitBlock (m : Memory) (cur need : Nat) : Memory :=
  let nextBlock := cur + 16 + need
  let m := wasmBlock.setSize m nextBlock (wasmBlock.size m cur - 16 - need)
  let m := wasmBlock.setUsed m nextBlock 0
  let m := wasmBlock.setNext m nextBlock (wasmBlock.next m cur)
  let m := wasmBlock.setSize m cur (16 + need)
  wasmBlock.setNext m cur nextBlock

/-- The memory after the block `cur` has been taken. -/
def takeBlock (m : Memory) (cur need : Nat) : Memory :=
  wasmBlock.setUsed
    (if (need + 24) % 2 ^ 32 ≤ wasmBlock.size m cur - 16 then splitBlock m cur need else m) cur 1

/-- `woos_malloc` -/
def woosMalloc (g : Base) (h : AppHeap) (size : UInt32) : Option (AppHeap × Nat) :=
  if size = 0 then some (h, 0)
  else do
    let h := initIfNeeded g h
    let cur ← findBlock h.mem (alignUp size) (maxBlocks + 1) h.head
    if cur = 0 then some (h, 0)
    else some ({ h with mem := takeBlock h.mem cur (alignUp size) }, cur + 16)

/-- The loops of `woos_free` from the block `b` on. -/
def coalesceLoop : Nat → Memory → Nat → Option Memory
  | 0, _, _ => none
  | n + 1, m, b =>
      if b = 0 then some m
      else
        let next := wasmBlock.next m b
        if next ≠ 0 ∧ wasmBlock.used m b = 0 ∧ wasmBlock.used m next = 0
            ∧ b + wasmBlock.size m b = next then
          let m := wasmBlock.setSize m b (wasmBlock.size m b + wasmBlock.size m next)
          let m := wasmBlock.setNext m b (wasmBlock.next m next)
          coalesceLoop n m b
        else coalesceLoop n m next

/-- `woos_free` -/
def woosFree (h : AppHeap) (ptr : Nat) : Option AppHeap :=
  if ptr = 0 then some h
  else do
    let m ← coalesceLoop (maxBlocks + 1) (wasmBlock.setUsed h.mem (ptr - 16) 0) h.head
    some { h with mem := m }

/-- `old_payload` -/
def oldPayload (h : AppHeap) (ptr : Nat) : Nat := wasmBlock.size h.mem (ptr - 16) - 16

/-- `woos_realloc` -/
def woosRealloc (g : Base) (h : AppHeap) (ptr : Nat) (newSize : UInt32) : Option (AppHeap × Nat) :=
  if ptr = 0 then woosMalloc g h newSize
  else if newSize = 0 then (woosFree h ptr).map (fun h => (h, 0))
  else if newSize.toNat ≤ oldPayload h ptr then some (h, ptr)
  else do
    let n := oldPayload h ptr
    let (h, newPtr) ← woosMalloc g h newSize
    if newPtr = 0 then some (h, 0)
    else
      let h := { h with mem := h.mem.copy newPtr ptr n }
      (woosFree h ptr).map (fun h => (h, newPtr))

/-- `woos_calloc` -/
def woosCalloc (g : Base) (h : AppHeap) (nmemb size : UInt32) : Option (AppHeap × Nat) := do
  let total := nmemb * size
  let (h, p) ← woosMalloc g h total
  if p = 0 then some (h, 0)
  else some ({ h with mem := h.mem.fill p 0 total.toNat }, p)

end AppHeap
