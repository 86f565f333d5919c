import Woos.Sched.Kernel
import Woos.Vfs.Basic
import Woos.Fb.Present

/-!
# What the host functions do with the memory of a guest

`Host.events` is what a host function does with the linear memory of the guest that calls it, and the
kernel routines under it, in the order in which they do it: ranges that are checked, and ranges that
are read or written.  An address is an offset in the linear memory; a check that fails ends the call.
The compositor is the guest that has presented its buffer: a window that is drawn is copied there as
well.
-/

namespace Guest

/-- Whose linear memory is accessed. -/
inductive Owner where
  | caller
  | compositor
  deriving DecidableEq

/-- A range is checked in the memory of the caller, or accessed in the memory of a guest. -/
inductive Event where
  | check (start len : Nat)
  | access (owner : Owner) (start len : Nat)

/-- The size of the linear memory, the kernel, the handles, the video mode,
`g_compositor_wasm_buf` and `g_open_file_target`. -/
structure Host (V Fil Dir : Type) where
  size : Nat
  kernel : Kernel
  vfs : Vfs V Fil Dir
  video : Option Fb.VideoMode
  compositor : Option (Owner × Nat)
  openFile : CString

/-- A call of a guest.  The string of an argument is the bytes from its address to the first NUL,
wherever that is; a flag `ok` is `false` when the kernel heap refuses a request. -/
inductive Call where
  | presentRect (buf x y w h : UInt32)
  | blitWindow (ok : Bool) (windowId buf w h : UInt32)
  | drawWindowToBuffer (windowId buf w h : UInt32)
  | getOpenFile (buf maxLen : UInt32)
  | setOpenFile (path : UInt32) (s : CString)
  | vfsOpen (path : UInt32) (s : CString)
  | systemSpawn (path : UInt32) (s : CString)
  | createWindowEx (ok : Bool) (w h title : UInt32) (s : CString)

/-- `m3ApiCheckMem`, and what follows it. -/
def checkMem (size : Nat) (start len : UInt32) (rest : List Event) : List Event :=
  if start.toNat + len.toNat ≤ size then .check start.toNat len.toNat :: rest else []

/-- Ranges of a buffer, given by their offsets in it and their lengths. -/
def accesses (owner : Owner) (base : Nat) (ranges : List (Nat × Nat)) : List Event :=
  ranges.map fun r => .access owner (base + r.1) r.2

/-! ### Pixels -/

/-- The rows that `wasi_graphics_present_rect` copies. -/
def presentRows (video : Fb.VideoMode) (x y w h : UInt32) : List (Nat × Nat) :=
  let xEnd := (x + w).toUInt16
  let xEnd := if xEnd > video.width then video.width else xEnd
  let yEnd := (y + h).toUInt16
  let yEnd := if yEnd > video.height then video.height else yEnd
  if x ≥ xEnd.toUInt32 ∨ y ≥ yEnd.toUInt32 then
    []
  else
    let bytesPerPixel := (video.bpp / 8).toUInt32
    let rowLen := (xEnd.toUInt32 - x) * bytesPerPixel
    (List.range (yEnd.toNat - y.toNat)).map fun k =>
      let py := y + UInt32.ofNat k
      ((py * video.pitch.toUInt32 + x * bytesPerPixel).toNat, rowLen.toNat)

/-- The pixels of an image of `w` by `h` pixels from which the window is filled. -/
def sourceRows (v : Window) (w h : UInt32) : List (Nat × Nat) :=
  if w = v.w ∧ h = v.h then
    (List.range v.h.toNat).map fun r => (4 * (UInt32.ofNat r * w).toNat, (v.w * 4).toNat)
  else if v.flags &&& WindowStack.flagMaximized ≠ 0 then
    (List.range v.h.toNat).flatMap fun dy =>
      let sy := UInt32.ofNat dy * h / v.h
      (List.range v.w.toNat).map fun dx =>
        let sx := UInt32.ofNat dx * w / v.w
        (4 * (sy * w).toNat + 4 * sx.toNat, 4)
  else
    let copyW := if w < v.w then w else v.w
    let copyH := if h < v.h then h else v.h
    (List.range copyH.toNat).map fun r => (4 * (UInt32.ofNat r * w).toNat, (copyW * 4).toNat)

/-- The row `r` of a window in the buffer of the compositor: nothing when it is not on the
screen. -/
def compositorRow (video : Fb.VideoMode) (v : Window) (r : Nat) : Option (Nat × Nat) :=
  let py := v.y + Int32.ofNat r
  if 0 ≤ py ∧ py < Int32.ofNat video.height.toNat then
    let px := if v.x < 0 then 0 else v.x
    let pw := if v.x < 0 then v.w.toInt32 + v.x else v.w.toInt32
    let width := Int32.ofNat video.width.toNat
    let pw := if px + pw > width then width - px else pw
    if pw > 0 then
      some (py.toInt.toNat * video.pitch.toNat + px.toInt.toNat * 4, (pw * 4).toUInt32.toNat)
    else
      none
  else
    none

/-- The rows of a window that are copied to the buffer of the compositor. -/
def compositorRows (video : Fb.VideoMode) (v : Window) : List (Nat × Nat) :=
  (List.range v.h.toNat).filterMap (compositorRow video v)

/-- Where the rows or the columns of a window at `pos` that lie in a buffer begin and end. -/
def clip (pos : Int32) (extent limit : UInt32) : Int32 × Int32 :=
  (if pos < 0 then -pos else 0,
    if pos + extent.toInt32 > limit.toInt32 then limit.toInt32 - pos else extent.toInt32)

/-- The rows of a window that `woos_graphics_draw_window_to_buffer` writes. -/
def targetRows (v : Window) (w h : UInt32) : List (Nat × Nat) :=
  let (startX, endX) := clip v.x v.w w
  let (startY, endY) := clip v.y v.h h
  if startX < endX ∧ startY < endY ∧ v.buffer ≠ 0 then
    (List.range (endY.toInt - startY.toInt).toNat).map fun k =>
      let cy := startY + Int32.ofNat k
      (4 * ((v.y + cy).toUInt32 * w).toNat + 4 * (v.x + startX).toInt.toNat,
        ((endX - startX).toUInt32 * 4).toNat)
  else
    []

/-! ### Paths -/

/-- How many bytes of the second path `app_paths_match` reads behind the slashes in front of it. -/
def matchLoopReads : List UInt8 → List UInt8 → Nat
  | c₁ :: p₁, c₂ :: p₂ =>
    if Sched.upper c₁ ≠ Sched.upper c₂ then 1 else matchLoopReads p₁ p₂ + 1
  | _, p₂ => (p₂.takeWhile (· == 47)).length + 1

/-- How many bytes of the second path `app_paths_match` reads. -/
def matchReads (p₁ p₂ : List UInt8) : Nat :=
  (p₂.takeWhile (· == 47)).length
    + matchLoopReads (Sched.skipSlashes p₁) (Sched.skipSlashes p₂)

/-- What `findInstance` reads of the path: for each thread that has not ended, up to the first that
runs it. -/
def instanceReads (s : Sched) (path : CString) : Nat → Nat → List Nat
  | 0, _ => []
  | n + 1, i =>
      if s.state i ≠ .terminated then
        let reads := matchReads (s.threads i).appPath.bytes path.bytes
        if Sched.appPathsMatch (s.threads i).appPath path then [reads]
        else reads :: instanceReads s path n (i + 1)
      else
        instanceReads s path n (i + 1)

/-- The loop that copies a string of which at most `max` bytes fit: it reads the NUL as well when it
comes to it. -/
def copyReads (s : CString) (max : Nat) : Nat := min (s.bytes.length + 1) max

/-- What storing the path reads of it. -/
def storeReads (s : Sched) (path : CString) : List Nat :=
  if Sched.maxThreads ≤ s.freeSlot then [] else [copyReads path 63]

/-- What `woos_system_spawn` reads of the path. -/
def spawnReads (k : Kernel) (path : CString) : List Nat :=
  if path = CString.empty then
    [1]
  else
    1 :: instanceReads k.sched path (k.sched.numThreads - 1) 1 ++
      match Kernel.findInstance k.sched path with
      | none => storeReads k.sched path
      | some i =>
          let (k, r) := k.woosGraphicsBringThreadToFront (k.sched.threads i).id.toUInt32
          if r = 0 then [] else storeReads (Kernel.endThread k.sched i) path

/-! ### The host functions -/

namespace Host

variable {V Fil Dir : Type} (s : Host V Fil Dir)

/-- The rows of a window that go to the buffer of the compositor. -/
def compositorEvents (v : Window) : List Event :=
  if v.flags &&& WindowStack.flagMinimized ≠ 0 then
    []
  else
    match s.video, s.compositor with
    | some video, some (owner, base) => accesses owner base (compositorRows video v)
    | _, _ => []

/-- What `woos_graphics_blit_window` does with the memory of guests. -/
def blitEvents (ok : Bool) (windowId buf w h : UInt32) : List Event :=
  match s.kernel.windows.find windowId with
  | none => []
  | some (_, v) =>
      match WinMgr.fitBuffer ok s.kernel.heap v w h with
      | none => []
      | some (_, v) => accesses .caller buf.toNat (sourceRows v w h) ++ s.compositorEvents v

/-- What `woos_graphics_draw_window_to_buffer` does with the memory of the guest. -/
def drawEvents (windowId buf w h : UInt32) : List Event :=
  match s.kernel.windows.find windowId with
  | none => []
  | some (_, v) =>
      if v.flags &&& WindowStack.flagMinimized ≠ 0 then []
      else accesses .caller buf.toNat (targetRows v w h)

/-- What `woos_graphics_create_window_ex` reads of the title: it is copied when the window has a
buffer and an entry in the table. -/
def titleEvents (ok : Bool) (w h title : UInt32) (text : CString) : List Event :=
  match WinMgr.newBuffer ok s.kernel.heap w h with
  | none => []
  | some (_, buffer) =>
      if buffer = 0 ∨ WindowStack.maxWindows ≤ s.kernel.windows.windows.length then []
      else [.access .caller title.toNat (copyReads text 31)]

/-- What a call of a guest does with the memory of guests. -/
def events : Call → List Event
  | .presentRect buf x y w h =>
      match s.video with
      | none => []
      | some video => accesses .caller buf.toNat (presentRows video x y w h)
  | .blitWindow ok windowId buf w h =>
      checkMem s.size buf (w * h * 4) (s.blitEvents ok windowId buf w h)
  | .drawWindowToBuffer windowId buf w h =>
      checkMem s.size buf (w * h * 4) (s.drawEvents windowId buf w h)
  | .getOpenFile buf maxLen =>
      checkMem s.size buf maxLen <|
        if s.openFile ≠ CString.empty then
          [.access .caller buf.toNat (min s.openFile.bytes.length (maxLen - 1).toNat + 1)]
        else if maxLen > 0 then
          [.access .caller buf.toNat 1]
        else
          []
  | .setOpenFile path text => checkMem s.size path 1 [.access .caller path.toNat (copyReads text 127)]
  | .vfsOpen path text =>
      if s.vfs.ready = false ∨ s.vfs.allocateHandle.isNone then []
      else [.access .caller path.toNat (text.bytes.length + 1)]
  | .systemSpawn path text =>
      checkMem s.size path 1 ((spawnReads s.kernel text).map (.access .caller path.toNat))
  | .createWindowEx ok w h title text => s.titleEvents ok w h title text

end Host

end Guest
