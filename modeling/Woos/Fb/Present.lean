import Woos.Window.Focus

/-!
# Presenting a rectangle

`fbPresentRect` copies a rectangle of the back buffer to the display and passes it on to the GPU.
The display is the framebuffer, or the draw surface of the GPU when that is active.  What is
copied is given as a list of rows, each with its place in the two buffers.
-/

namespace Fb

/-! ### The screen -/

/-- The part of `video_info_t` that presentation reads. -/
structure VideoMode where
  pitch : UInt16
  width : UInt16
  height : UInt16
  bpp : UInt8
  deriving DecidableEq, Repr

/-- `FB_BACKBUFFER_CAPACITY` -/
def backbufferCapacity : UInt32 := 8 * 1024 * 1024

/-- `VIRTIO_GPU_DRAW_SURFACE_CAPACITY` -/
def drawSurfaceCapacity : UInt32 := 8 * 1024 * 1024

/-- `VIRTIO_GPU_RESOURCE_BPP` -/
def resourceBpp : UInt8 := 4

/-- `bytes_per_pixel` -/
def bytesPerPixel (info : VideoMode) : UInt8 :=
  let bytes := info.bpp / 8
  if bytes = 0 then 4 else bytes

/-- `g_backbuffer_enabled`, as `fb_init` sets it. -/
def backbufferEnabled (info : VideoMode) : Bool :=
  info.pitch.toUInt32 * info.height.toUInt32 ≤ backbufferCapacity

/-- `surface_pitch`, as `virtio_gpu_renderer_init` sets it. -/
def surfacePitch (info : VideoMode) : UInt32 := info.width.toUInt32 * resourceBpp.toUInt32

/-- `g_draw_surface_enabled`, as `virtio_gpu_renderer_init` sets it. -/
def drawSurfaceEnabled (info : VideoMode) : Bool :=
  surfacePitch info * info.height.toUInt32 ≤ drawSurfaceCapacity

/-- `clamp_u16` -/
def clampU16 (value max : UInt16) : UInt16 := if max < value then max else value

/-- `rect_end` -/
def rectEnd (start length : UInt16) : UInt16 := start + length

/-! ### Rows -/

/-- The memory areas that presentation reads and writes. -/
inductive Buffer where
  | back
  | framebuffer
  | drawSurface
  deriving DecidableEq, Repr

/-- The number of bytes of a buffer. -/
def Buffer.size (info : VideoMode) : Buffer → Nat
  | .back => backbufferCapacity.toNat
  | .framebuffer => info.pitch.toNat * info.height.toNat
  | .drawSurface => drawSurfaceCapacity.toNat

/-- `count` pixels of the row `y` from `x` on, copied from an offset in the back buffer to an offset
in `dst`, with the numbers of bytes of a pixel there. -/
structure RowCopy where
  x : UInt16
  y : UInt16
  count : UInt16
  src : UInt64
  srcDepth : UInt8
  dst : Buffer
  dstOffset : UInt64
  dstDepth : UInt8

/-- The values of the loop `for (py = y; py < y_end; py++)`. -/
def rowsFrom (y yEnd : UInt16) : List UInt16 :=
  (List.range' y.toNat (yEnd.toNat - y.toNat)).map UInt16.ofNat

/-- The copy of a row to the framebuffer. -/
def frontRow (info : VideoMode) (x count py : UInt16) : RowCopy where
  x := x
  y := py
  count := count
  src := py.toUInt64 * info.pitch.toUInt64 + (x.toUInt32 * (bytesPerPixel info).toUInt32).toUInt64
  srcDepth := bytesPerPixel info
  dst := .framebuffer
  dstOffset :=
    py.toUInt64 * info.pitch.toUInt64 + (x.toUInt32 * (bytesPerPixel info).toUInt32).toUInt64
  dstDepth := bytesPerPixel info

/-- The copy of a row to the draw surface, in which a pixel has 4 bytes. -/
def surfaceRow (info : VideoMode) (x count py : UInt16) : RowCopy where
  x := x
  y := py
  count := count
  src := py.toUInt64 * info.pitch.toUInt64 + x.toUInt64 * (bytesPerPixel info).toUInt64
  srcDepth := bytesPerPixel info
  dst := .drawSurface
  dstOffset := py.toUInt64 * (info.width.toUInt32 * 4).toUInt64 + x.toUInt64 * 4
  dstDepth := 4

/-! ### The GPU -/

/-- `g_renderer.active` and `g_transport.ready` -/
structure Gpu where
  active : Bool
  ready : Bool
  deriving DecidableEq, Repr

/-- `virtio_gpu_rect_t` -/
structure GpuRect where
  x : UInt32
  y : UInt32
  width : UInt32
  height : UInt32
  deriving DecidableEq, Repr

/-- The requests of a presentation to the device. -/
inductive GpuRequest where
  | transferToHost2d (rect : GpuRect) (offset : UInt64)
  | resourceFlush (rect : GpuRect)
  deriving DecidableEq, Repr

/-- The rectangle of a request. -/
def GpuRequest.rect : GpuRequest → GpuRect
  | .transferToHost2d rect _ => rect
  | .resourceFlush rect => rect

/-- `renderer_pitch` -/
def rendererPitch (gpu : Gpu) (info : VideoMode) : UInt32 :=
  if gpu.active ∧ drawSurfaceEnabled info ∧ surfacePitch info ≠ 0 then surfacePitch info
  else info.pitch.toUInt32

/-- `renderer_bytes_per_pixel` -/
def rendererBytesPerPixel (gpu : Gpu) (info : VideoMode) : UInt8 :=
  if gpu.active ∧ drawSurfaceEnabled info then resourceBpp else bytesPerPixel info

/-- `clip_end` -/
def clipEnd (start len limit : UInt16) : UInt16 :=
  let stop := start + len
  if limit < stop then limit else stop

/-- `virtio_gpu_set_failed` -/
def setFailed : Gpu := ⟨false, false⟩

/-- `virtio_gpu_renderer_present_rect`: the state and the requests that are submitted, when the
device answers them as `transferOk` and `flushOk` say. -/
def gpuPresentRect (transferOk flushOk : Bool) (gpu : Gpu) (info : VideoMode) (x y w h : UInt16) :
    Gpu × List GpuRequest :=
  if gpu.ready = false ∨ w = 0 ∨ h = 0 then
    (gpu, [])
  else if info.width ≤ x ∨ info.height ≤ y then
    (gpu, [])
  else
    let clippedW := clipEnd x w info.width - x
    let clippedH := clipEnd y h info.height - y
    if clippedW = 0 ∨ clippedH = 0 then
      (gpu, [])
    else
      let rect := ⟨x.toUInt32, y.toUInt32, clippedW.toUInt32, clippedH.toUInt32⟩
      let offset := y.toUInt64 * (rendererPitch gpu info).toUInt64
        + x.toUInt64 * (rendererBytesPerPixel gpu info).toUInt64
      if transferOk = false then
        (setFailed, [.transferToHost2d rect offset])
      else
        (if flushOk then gpu else setFailed, [.transferToHost2d rect offset, .resourceFlush rect])

/-! ### Presenting -/

/-- The rows that `fb_present_rect_internal` copies. -/
def presentRows (gpu : Gpu) (info : VideoMode) (x y w h : UInt16) : List RowCopy :=
  if backbufferEnabled info = false ∨ w = 0 ∨ h = 0 then
    []
  else
    let xEnd := clampU16 (rectEnd x w) info.width
    let yEnd := clampU16 (rectEnd y h) info.height
    let copyWidth := xEnd - x
    if gpu.active then
      if 0 < copyWidth ∧ y < yEnd then
        if bytesPerPixel info = 3 ∨ bytesPerPixel info = 4 ∨ bytesPerPixel info = 2 then
          (rowsFrom y yEnd).map (surfaceRow info x copyWidth)
        else []
      else []
    else
      (rowsFrom y yEnd).map (frontRow info x copyWidth)

/-- What a presentation does. -/
structure Presented where
  rows : List RowCopy
  gpu : Gpu
  requests : List GpuRequest

/-- `fb_present_rect_internal` -/
def fbPresentRect (transferOk flushOk : Bool) (gpu : Gpu) (info : VideoMode) (x y w h : UInt16) :
    Presented :=
  let (gpu', requests) := gpuPresentRect transferOk flushOk gpu info x y w h
  ⟨presentRows gpu info x y w h, gpu', requests⟩

/-- A request to present: a rectangle, or a window that is not minimized. -/
inductive Request where
  | rect (x y w h : UInt16)
  | window (v : Window) (shown : ¬ v.Minimized)

/-- The rectangle that is requested. -/
def Request.area : Request → Int × Int × Nat × Nat
  | .rect x y w h => (x.toNat, y.toNat, w.toNat, h.toNat)
  | .window v _ => (v.x.toInt, v.y.toInt, v.w.toNat, v.h.toNat)

/-- The call of `fb_present_rect`, at the end of `woos_graphics_blit_window_internal` for a
window. -/
def Request.present (transferOk flushOk : Bool) (gpu : Gpu) (info : VideoMode) :
    Request → Presented
  | .rect x y w h => fbPresentRect transferOk flushOk gpu info x y w h
  | .window v _ =>
      fbPresentRect transferOk flushOk gpu info v.x.toUInt32.toUInt16 v.y.toUInt32.toUInt16
        v.w.toUInt16 v.h.toUInt16

end Fb
