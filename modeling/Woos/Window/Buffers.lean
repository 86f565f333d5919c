import Woos.KHeap.Basic
import Woos.Window.Stack

/-!
# The window calls

`WinMgr` is what the window calls of `fb.c` change: the window stack, and the kernel heap, which
holds the pixels of the windows.  A call that asks the heap for memory has a flag `ok`; when
it is `false` the request fails although the heap may have room.

What a call draws on the screen, and the events and messages that it sends at its end, are
not part of it here.
-/

/-- The kernel heap and the window stack. -/
structure WinMgr where
  heap : KHeap
  stack : WindowStack

namespace WinMgr

open WindowStack

/-! ### Buffers -/

/-- `kheap_alloc`, which is allowed to fail. -/
def bufAlloc (ok : Bool) (h : KHeap) (size : UInt64) : Option (KHeap × UInt64) :=
  if ok then h.kheapAlloc size else some (h, 0)

/-- `kheap_realloc`, which is allowed to fail where it allocates. -/
def bufRealloc (ok : Bool) (h : KHeap) (ptr size : UInt64) : Option (KHeap × UInt64) :=
  if ok ∨ (ptr ≠ 0 ∧ (size = 0 ∨ size ≤ h.currentPayload ptr)) then
    h.kheapRealloc ptr size
  else
    some (h, 0)

/-- The number of bytes of a buffer, as 32-bit arithmetic computes it. -/
def bufSize (w h : UInt32) : UInt32 := w * h * 4

/-- The buffer that `woos_graphics_create_window_ex` allocates and clears, `0` when there is
none. -/
def newBuffer (ok : Bool) (heap : KHeap) (w h : UInt32) : Option (KHeap × UInt64) := do
  let (heap, buf) ← bufAlloc ok heap (bufSize w h).toUInt64
  if buf = 0 then
    some (heap, 0)
  else
    some ({ heap with mem := heap.mem.fill buf.toNat 0 (bufSize w h).toNat }, buf)

/-- The reallocation in `woos_graphics_toggle_maximize`, which clears the new bytes and keeps
the buffer when it fails. -/
def growBuffer (ok : Bool) (heap : KHeap) (buffer : UInt64) (oldSize newSize : UInt32) :
    Option (KHeap × UInt64) := do
  let (heap, newBuf) ← bufRealloc ok heap buffer newSize.toUInt64
  if newBuf = 0 then
    some (heap, buffer)
  else if oldSize < newSize then
    let mem := heap.mem.fill (newBuf + oldSize.toUInt64).toNat 0 (newSize - oldSize).toNat
    some ({ heap with mem := mem }, newBuf)
  else
    some (heap, newBuf)

/-- The reallocation in `woos_graphics_blit_window_internal` for an image of `w` by `h` pixels:
the window takes on the size of the image when there is a buffer for it. -/
def fitBuffer (ok : Bool) (heap : KHeap) (v : Window) (w h : UInt32) : Option (KHeap × Window) :=
  if v.flags &&& flagMaximized ≠ 0 ∨ (w = v.w ∧ h = v.h) then
    some (heap, v)
  else do
    let (heap, newBuf) ← bufRealloc ok heap v.buffer (w.toUInt64 * h.toUInt64 * 4)
    if newBuf = 0 then
      some (heap, v)
    else
      some (heap, { v with buffer := newBuf, w := w, h := h })

/-! ### Pixels -/

/-- The address of row `r` of pixels of an image of the given width. -/
def rowAddr (pixels : UInt64) (width r : UInt32) : UInt64 :=
  pixels + (r * width).toUInt64 * 4

/-- Copy the first `width` pixels of the rows below `n`. -/
def copyRows (m : Memory) (dst src : UInt64) (dstW srcW width : UInt32) : Nat → Memory
  | 0 => m
  | r + 1 =>
      (copyRows m dst src dstW srcW width r).copy (rowAddr dst dstW (UInt32.ofNat r)).toNat
        (rowAddr src srcW (UInt32.ofNat r)).toNat (width * 4).toNat

/-- Write the pixels below `n` of a row of `dstW` pixels, taken from a row of `srcW`. -/
def scaleRow (m : Memory) (dstRow srcRow : UInt64) (dstW srcW : UInt32) : Nat → Memory
  | 0 => m
  | dx + 1 =>
      let m := scaleRow m dstRow srcRow dstW srcW dx
      let sx := UInt32.ofNat dx * srcW / dstW
      m.store 4 (dstRow + UInt64.ofNat dx * 4).toNat (m.load 4 (srcRow + sx.toUInt64 * 4).toNat)

/-- Write the rows below `n` of an image of `dstW` by `dstH` pixels, taken from one of `srcW` by
`srcH`. -/
def scaleRows (m : Memory) (dst src : UInt64) (dstW dstH srcW srcH : UInt32) : Nat → Memory
  | 0 => m
  | dy + 1 =>
      let m := scaleRows m dst src dstW dstH srcW srcH dy
      let sy := UInt32.ofNat dy * srcH / dstH
      scaleRow m (rowAddr dst dstW (UInt32.ofNat dy)) (rowAddr src srcW sy) dstW srcW dstW.toNat

/-- Fill the buffer of a window from an image of `w` by `h` pixels: copied when the sizes
agree, scaled when the window is maximized, and cut otherwise. -/
def blitPixels (m : Memory) (v : Window) (wasmBuf : UInt64) (w h : UInt32) : Memory :=
  if w = v.w ∧ h = v.h then
    copyRows m v.buffer wasmBuf v.w w v.w v.h.toNat
  else if v.flags &&& flagMaximized ≠ 0 then
    scaleRows m v.buffer wasmBuf v.w v.h w h v.h.toNat
  else
    copyRows m v.buffer wasmBuf v.w w (if w < v.w then w else v.w)
      (if h < v.h then h else v.h).toNat

/-! ### The calls -/

/-- `woos_graphics_create_window_ex`, called by the thread `threadId` -/
def woosGraphicsCreateWindowEx (ok : Bool) (m : WinMgr) (threadId w h : UInt32)
    (title : Option CString) (flags : UInt32) : Option (WinMgr × Int32) := do
  let (heap, buf) ← newBuffer ok m.heap w h
  if buf = 0 then
    some (⟨heap, m.stack⟩, -1)
  else
    match m.stack.insert threadId w h flags title buf with
    | none => do
        let heap ← heap.kheapFree buf
        some (⟨heap, m.stack⟩, -1)
    | some stack => some (⟨heap, stack⟩, m.stack.nextWindowId.toInt32)

/-- `woos_graphics_destroy_window` -/
def woosGraphicsDestroyWindow (m : WinMgr) (windowId : UInt32) : Option (WinMgr × Int32) :=
  match m.stack.remove windowId with
  | none => some (m, -1)
  | some (v, stack) => do
      let heap ← if v.buffer ≠ 0 then m.heap.kheapFree v.buffer else some m.heap
      some (⟨heap, stack⟩, 0)

/-- The loop of `woos_graphics_destroy_thread_windows`. -/
def destroyLoop (threadId : UInt32) : Nat → WinMgr → Int32 → Option (WinMgr × Int32)
  | 0, _, _ => none
  | n + 1, m, destroyed =>
      let targetId := m.stack.topOfThread threadId
      if targetId = 0 then
        some (m, destroyed)
      else do
        let (m, _) ← m.woosGraphicsDestroyWindow targetId
        destroyLoop threadId n m (destroyed + 1)

/-- `woos_graphics_destroy_thread_windows` -/
def woosGraphicsDestroyThreadWindows (m : WinMgr) (threadId : UInt32) : Option (WinMgr × Int32) :=
  destroyLoop threadId (m.stack.windows.length + 1) m 0

/-- A call that changes the window stack only, and fails when there is no such window. -/
def edit (m : WinMgr) (stack : Option WindowStack) : WinMgr × Int32 :=
  match stack with
  | none => (m, -1)
  | some stack => ({ m with stack := stack }, 0)

/-- `woos_graphics_bring_to_front` -/
def woosGraphicsBringToFront (m : WinMgr) (windowId : UInt32) : WinMgr × Int32 :=
  m.edit (m.stack.bringToFront windowId)

/-- `woos_graphics_bring_thread_to_front` -/
def woosGraphicsBringThreadToFront (m : WinMgr) (threadId : UInt32) : WinMgr × Int32 :=
  let targetId := m.stack.bottomOfThread threadId
  if targetId ≠ 0 then m.woosGraphicsBringToFront targetId else (m, -1)

/-- `woos_graphics_toggle_minimize` -/
def woosGraphicsToggleMinimize (m : WinMgr) (windowId : UInt32) : WinMgr × Int32 :=
  m.edit (m.stack.toggleMinimize windowId)

/-- `woos_graphics_set_window_pos` -/
def woosGraphicsSetWindowPos (m : WinMgr) (windowId : UInt32) (x y : Int32) : WinMgr × Int32 :=
  m.edit (m.stack.setWindowPos windowId x y)

/-- `woos_graphics_set_window_title` -/
def woosGraphicsSetWindowTitle (m : WinMgr) (windowId : UInt32) (title : Option CString) :
    WinMgr × Int32 :=
  m.edit (m.stack.setWindowTitle windowId title)

/-- `woos_graphics_set_window_flags` -/
def woosGraphicsSetWindowFlags (m : WinMgr) (windowId flags : UInt32) : WinMgr × Int32 :=
  m.edit (m.stack.setWindowFlags windowId flags)

/-- `woos_graphics_toggle_maximize` -/
def woosGraphicsToggleMaximize (ok : Bool) (info : Option ScreenInfo) (m : WinMgr)
    (windowId : UInt32) : Option (WinMgr × Int32) :=
  match m.stack.find windowId with
  | none => some (m, -1)
  | some (i, v) =>
      if v.title = calculatorTitle then
        some (m, 0)
      else do
        let v' := maximizeGeometry info v
        let (heap, buffer) ←
          if 0 < v'.w ∧ 0 < v'.h then
            growBuffer ok m.heap v.buffer (bufSize v.w v.h) (bufSize v'.w v'.h)
          else
            some (m.heap, v.buffer)
        let stack := m.stack.modify i (fun _ => { v' with buffer := buffer })
        some ((WinMgr.woosGraphicsBringToFront ⟨heap, stack⟩ windowId).1, 0)

/-- `woos_graphics_blit_window_internal` -/
def woosGraphicsBlitWindowInternal (ok : Bool) (m : WinMgr) (windowId : UInt32)
    (wasmBuf : UInt64) (w h : UInt32) : Option (WinMgr × Int32) :=
  match m.stack.find windowId with
  | none => some (m, -1)
  | some (i, v) => do
      let (heap, v) ← fitBuffer ok m.heap v w h
      let mem := blitPixels heap.mem v wasmBuf w h
      some (⟨{ heap with mem := mem }, m.stack.modify i (fun _ => v)⟩, 0)

end WinMgr
