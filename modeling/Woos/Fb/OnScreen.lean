import Mathlib.Tactic.Ring
import Woos.Fb.Present

/-!
# Presentation stays on screen

`OnScreen` says what presentation should do with a rectangle: copy exactly its pixels that are on
the screen, each from its place in the back buffer to its place in the display, and pass on to
the GPU a rectangle of the screen.  `present_onScreen_iff` says when it does that: the position
and the size of a window are cut to 16 bits on the way, and so are the ends of a rectangle.
-/

namespace Fb

/-! ### What presentation should do -/

/-- The pixel lies in the area and on the screen. -/
def Visible (info : VideoMode) (area : Int × Int × Nat × Nat) (px py : Nat) : Prop :=
  px < info.width.toNat ∧ py < info.height.toNat
    ∧ area.1 ≤ px ∧ px < area.1 + area.2.2.1 ∧ area.2.1 ≤ py ∧ py < area.2.1 + area.2.2.2

instance (info : VideoMode) (area : Int × Int × Nat × Nat) (px py : Nat) :
    Decidable (Visible info area px py) :=
  inferInstanceAs (Decidable (_ ∧ _))

/-- The pixel is one of those of the row. -/
def RowCopy.Contains (r : RowCopy) (px py : Nat) : Prop :=
  r.y.toNat = py ∧ r.x.toNat ≤ px ∧ px < r.x.toNat + r.count.toNat

/-- What the user sees. -/
def display (gpu : Gpu) (info : VideoMode) : Buffer :=
  if gpu.active ∧ drawSurfaceEnabled info then .drawSurface else .framebuffer

/-- The number of bytes of a row of a buffer. -/
def Buffer.pitch (info : VideoMode) : Buffer → Nat
  | .back => info.pitch.toNat
  | .framebuffer => info.pitch.toNat
  | .drawSurface => 4 * info.width.toNat

/-- Exactly the pixels of the area that are on the screen are copied, if there is a back buffer;
from their place there to their place in the display; within both buffers; and the device is
given a rectangle of the screen. -/
structure OnScreen (gpu : Gpu) (info : VideoMode) (area : Int × Int × Nat × Nat)
    (out : Presented) : Prop where
  pixels : ∀ px py, (∃ r ∈ out.rows, r.Contains px py)
    ↔ backbufferEnabled info = true ∧ Visible info area px py
  display : ∀ r ∈ out.rows, 0 < r.count.toNat → r.dst = display gpu info
  src : ∀ r ∈ out.rows,
    r.src.toNat = r.y.toNat * Buffer.back.pitch info + r.x.toNat * r.srcDepth.toNat
  dst : ∀ r ∈ out.rows,
    r.dstOffset.toNat = r.y.toNat * r.dst.pitch info + r.x.toNat * r.dstDepth.toNat
  read : ∀ r ∈ out.rows, ∀ b < r.count.toNat * r.srcDepth.toNat,
    r.src.toNat + b < Buffer.back.size info
  written : ∀ r ∈ out.rows, ∀ b < r.count.toNat * r.dstDepth.toNat,
    r.dstOffset.toNat + b < r.dst.size info
  device : ∀ q ∈ out.requests,
    q.rect.x.toNat + q.rect.width.toNat ≤ info.width.toNat
      ∧ q.rect.y.toNat + q.rect.height.toNat ≤ info.height.toNat

/-! ### When it does -/

/-- The depths of pixels that are copied to the draw surface. -/
def SurfaceDepth (info : VideoMode) : Prop :=
  bytesPerPixel info = 3 ∨ bytesPerPixel info = 4 ∨ bytesPerPixel info = 2

instance (info : VideoMode) : Decidable (SurfaceDepth info) := inferInstanceAs (Decidable (_ ∨ _))

section

variable (gpu : Gpu) (info : VideoMode) (x y w h : UInt16)

/-- Nothing is copied: there is no back buffer, the rectangle is empty or below the screen, its
lower end is cut, it begins at the right edge of the screen, or the pixels are of another depth
than the draw surface takes. -/
def CopiesNothing : Prop :=
  backbufferEnabled info = false ∨ w = 0 ∨ h = 0
    ∨ info.height.toNat ≤ y.toNat ∨ 2 ^ 16 ≤ y.toNat + h.toNat
    ∨ (x = info.width ∧ x.toNat + w.toNat < 2 ^ 16)
    ∨ (gpu.active = true ∧ ¬ SurfaceDepth info)

instance : Decidable (CopiesNothing gpu info x y w h) := inferInstanceAs (Decidable (_ ∨ _))

/-- The rectangle meets the screen and its ends are not cut. -/
def Meets : Prop :=
  w ≠ 0 ∧ h ≠ 0 ∧ x.toNat < info.width.toNat ∧ y.toNat < info.height.toNat
    ∧ x.toNat + w.toNat < 2 ^ 16 ∧ y.toNat + h.toNat < 2 ^ 16

instance : Decidable (Meets info x y w h) := inferInstanceAs (Decidable (_ ∧ _))

/-- The offset behind the last pixel of a rectangle, in a buffer with these sizes of a row and of a
pixel. -/
def stopOffset (pitch depth : Nat) : Nat :=
  (min (y.toNat + h.toNat) info.height.toNat - 1) * pitch
    + min (x.toNat + w.toNat) info.width.toNat * depth

/-- The pixels of the rectangle have their places in the back buffer and in the display. -/
def Fits : Prop :=
  stopOffset info x y w h info.pitch.toNat (bytesPerPixel info).toNat ≤ backbufferCapacity.toNat
    ∧ if gpu.active then
        drawSurfaceEnabled info = true ∧ SurfaceDepth info
          ∧ stopOffset info x y w h (4 * info.width.toNat) 4 ≤ drawSurfaceCapacity.toNat
      else
        stopOffset info x y w h info.pitch.toNat (bytesPerPixel info).toNat
          ≤ info.pitch.toNat * info.height.toNat

/-- A rectangle that begins on the screen is passed on to the device only when its ends are not
cut. -/
def DeviceFits : Prop :=
  gpu.ready = true → w ≠ 0 → h ≠ 0 → x.toNat < info.width.toNat → y.toNat < info.height.toNat
    → x.toNat + w.toNat < 2 ^ 16 ∧ y.toNat + h.toNat < 2 ^ 16

/-- The area of a rectangle. -/
def area : Int × Int × Nat × Nat := (x.toNat, y.toNat, w.toNat, h.toNat)

/-- Either nothing is to be copied and nothing is, or the rectangle meets the screen where the
requested area does, and fits. -/
def Presentable (requested : Int × Int × Nat × Nat) : Prop :=
  DeviceFits gpu info x y w h
    ∧ ((CopiesNothing gpu info x y w h
          ∧ (backbufferEnabled info = true → ∀ px py, ¬ Visible info requested px py))
      ∨ (backbufferEnabled info = true ∧ Meets info x y w h ∧ Fits gpu info x y w h
          ∧ ∀ px py, Visible info requested px py ↔ Visible info (area x y w h) px py))

end

/-! ### Ends -/

section

variable {gpu : Gpu} {info : VideoMode} {x y w h : UInt16}

theorem clampU16_rectEnd (x w limit : UInt16) :
  (clampU16 (rectEnd x w) limit).toNat = min ((x.toNat + w.toNat) % 2 ^ 16) limit.toNat
  := by
  have hend : (rectEnd x w).toNat = (x.toNat + w.toNat) % 2 ^ 16 := UInt16.toNat_add x w
  rw [clampU16, ← hend]
  split
  case isTrue hlt =>
    rw [UInt16.lt_iff_toNat_lt] at hlt
    omega
  case isFalse hle =>
    rw [UInt16.not_lt, UInt16.le_iff_toNat_le] at hle
    omega

theorem mem_rowsFrom {y yEnd py : UInt16} :
  py ∈ rowsFrom y yEnd ↔ y.toNat ≤ py.toNat ∧ py.toNat < yEnd.toNat
  := by
  have hlt := yEnd.toNat_lt
  have hsize : UInt16.size = 2 ^ 16 := rfl
  rw [rowsFrom, List.mem_map]
  constructor
  · rintro ⟨n, hn, rfl⟩
    rw [List.mem_range'_1] at hn
    rw [UInt16.toNat_ofNat_of_lt' (by omega)]
    omega
  · rintro ⟨hle, hlt'⟩
    use py.toNat, List.mem_range'_1.mpr ⟨hle, by omega⟩
    exact UInt16.ofNat_toNat

/-- The end of a rectangle on the screen, as 16-bit arithmetic computes it. -/
def stopAt (start length limit : Nat) : Nat := min ((start + length) % 2 ^ 16) limit

/-- The number of pixels of a row, as 16-bit arithmetic computes it. -/
def countAt (start length limit : Nat) : Nat :=
  (stopAt start length limit + 2 ^ 16 - start) % 2 ^ 16

theorem copyWidth_toNat (x w limit : UInt16) :
  (clampU16 (rectEnd x w) limit - x).toNat = countAt x.toNat w.toNat limit.toNat
  := by
  have hlt := x.toNat_lt
  rw [UInt16.toNat_sub, clampU16_rectEnd, countAt, stopAt]
  congr 1
  omega

/-- The row that is copied for `py`. -/
def row (gpu : Gpu) (info : VideoMode) (x count py : UInt16) : RowCopy :=
  if gpu.active then surfaceRow info x count py else frontRow info x count py

theorem row_x (gpu : Gpu) (info : VideoMode) (x count py : UInt16) :
  (row gpu info x count py).x = x
  := by
  rw [row]
  split
  · rfl
  · rfl

theorem row_y (gpu : Gpu) (info : VideoMode) (x count py : UInt16) :
  (row gpu info x count py).y = py
  := by
  rw [row]
  split
  · rfl
  · rfl

theorem row_count (gpu : Gpu) (info : VideoMode) (x count py : UInt16) :
  (row gpu info x count py).count = count
  := by
  rw [row]
  split
  · rfl
  · rfl

/-- Rows are copied at all. -/
def Copies (gpu : Gpu) (info : VideoMode) (w h : UInt16) : Prop :=
  backbufferEnabled info = true ∧ w ≠ 0 ∧ h ≠ 0 ∧ (gpu.active = true → SurfaceDepth info)

theorem mem_presentRows {r : RowCopy} (hr : r ∈ presentRows gpu info x y w h) :
  Copies gpu info w h ∧ ∃ py : UInt16, y.toNat ≤ py.toNat
    ∧ py.toNat < stopAt y.toNat h.toNat info.height.toNat
    ∧ r = row gpu info x (clampU16 (rectEnd x w) info.width - x) py
  := by
  rw [presentRows] at hr
  split at hr
  case isTrue => cases hr
  case isFalse hsome =>
    rw [not_or, Bool.not_eq_false, not_or] at hsome
    obtain ⟨henabled, hw, hh⟩ := hsome
    simp only at hr
    split at hr
    case isTrue hactive =>
      split at hr
      case isTrue =>
        split at hr
        case isTrue hdepth =>
          obtain ⟨py, hpy, rfl⟩ := List.mem_map.mp hr
          rw [mem_rowsFrom, clampU16_rectEnd] at hpy
          use ⟨henabled, hw, hh, fun _ => hdepth⟩, py, hpy.1, hpy.2
          rw [row, if_pos hactive]
        case isFalse => cases hr
      case isFalse => cases hr
    case isFalse hinactive =>
      obtain ⟨py, hpy, rfl⟩ := List.mem_map.mp hr
      rw [mem_rowsFrom, clampU16_rectEnd] at hpy
      use ⟨henabled, hw, hh, fun hactive => absurd hactive hinactive⟩, py, hpy.1, hpy.2
      rw [row, if_neg hinactive]

theorem row_mem_presentRows {py : UInt16} (hcopies : Copies gpu info w h)
    (hle : y.toNat ≤ py.toNat) (hlt : py.toNat < stopAt y.toNat h.toNat info.height.toNat)
    (hcount : 0 < countAt x.toNat w.toNat info.width.toNat) :
  row gpu info x (clampU16 (rectEnd x w) info.width - x) py ∈ presentRows gpu info x y w h
  := by
  obtain ⟨henabled, hw, hh, hdepth⟩ := hcopies
  have hpy : py ∈ rowsFrom y (clampU16 (rectEnd y h) info.height) := by
    rw [mem_rowsFrom, clampU16_rectEnd]
    exact ⟨hle, hlt⟩
  rw [presentRows, if_neg (by simp [henabled, hw, hh])]
  simp only
  split
  case isTrue hactive =>
    have hloop : 0 < clampU16 (rectEnd x w) info.width - x
        ∧ y < clampU16 (rectEnd y h) info.height := by
      rw [UInt16.lt_iff_toNat_lt, UInt16.lt_iff_toNat_lt, copyWidth_toNat, clampU16_rectEnd]
      exact ⟨hcount, lt_of_le_of_lt hle hlt⟩
    have hcases : bytesPerPixel info = 3 ∨ bytesPerPixel info = 4 ∨ bytesPerPixel info = 2 :=
      hdepth hactive
    rw [if_pos hloop, if_pos hcases, row, if_pos hactive]
    exact List.mem_map_of_mem hpy
  case isFalse hinactive =>
    rw [row, if_neg hinactive]
    exact List.mem_map_of_mem hpy

/-- The pixels that are copied. -/
theorem contains_presentRows (px py : Nat) :
  (∃ r ∈ presentRows gpu info x y w h, r.Contains px py) ↔
    Copies gpu info w h ∧ y.toNat ≤ py ∧ py < stopAt y.toNat h.toNat info.height.toNat
      ∧ x.toNat ≤ px ∧ px < x.toNat + countAt x.toNat w.toNat info.width.toNat
  := by
  constructor
  · rintro ⟨r, hr, hy, hle, hlt⟩
    obtain ⟨hcopies, py', hle', hlt', rfl⟩ := mem_presentRows hr
    rw [row_y] at hy
    rw [row_x] at hle hlt
    rw [row_count, copyWidth_toNat] at hlt
    subst hy
    exact ⟨hcopies, hle', hlt', hle, hlt⟩
  · rintro ⟨hcopies, hley, hlty, hlex, hltx⟩
    have hheight := info.height.toNat_lt
    have hpy : (UInt16.ofNat py).toNat = py := by
      apply UInt16.toNat_ofNat_of_lt'
      rw [stopAt] at hlty
      have hsize : UInt16.size = 2 ^ 16 := rfl
      omega
    use row gpu info x (clampU16 (rectEnd x w) info.width - x) (UInt16.ofNat py)
    constructor
    · apply row_mem_presentRows hcopies
      · rw [hpy]
        exact hley
      · rw [hpy]
        exact hlty
      · omega
    · constructor
      · rw [row_y, hpy]
      · rw [row_x, row_count, copyWidth_toNat]
        exact ⟨hlex, hltx⟩

/-! ### Nothing, or the right pixels -/

theorem lt_stopAt {start length limit : Nat} (hstart : start < 2 ^ 16) (hlength : length < 2 ^ 16)
    (hsome : 0 < length) :
  start < stopAt start length limit ↔ start < limit ∧ start + length < 2 ^ 16
  := by
  rw [stopAt]
  omega

theorem countAt_pos {start length limit : Nat} (hstart : start < 2 ^ 16) (hlength : length < 2 ^ 16)
    (hlimit : limit < 2 ^ 16) (hsome : 0 < length) :
  0 < countAt start length limit ↔ ¬ (start = limit ∧ start + length < 2 ^ 16)
  := by
  rw [countAt, stopAt]
  omega

theorem countAt_of_lt {start length limit : Nat} (hlimit : start < limit)
    (hend : start + length < 2 ^ 16) :
  countAt start length limit = min (start + length) limit - start
  := by
  rw [countAt, stopAt]
  omega

/-- A rectangle whose end is cut is copied beyond the right edge of the screen. -/
theorem countAt_of_cut {start length limit : Nat} (hlength : length < 2 ^ 16)
    (hlt : limit < 2 ^ 16) (hlimit : start < limit) (hend : 2 ^ 16 ≤ start + length) :
  countAt start length limit = length
  := by
  rw [countAt, stopAt]
  omega

theorem toNat_pos {v : UInt16} (hv : v ≠ 0) :
  0 < v.toNat
  := by
  rw [Nat.pos_iff_ne_zero, ne_eq, ← UInt16.toNat_zero, UInt16.toNat_inj]
  exact hv

/-- Some pixel is copied. -/
theorem not_copiesNothing :
  ¬ CopiesNothing gpu info x y w h ↔ Copies gpu info w h
    ∧ y.toNat < stopAt y.toNat h.toNat info.height.toNat
    ∧ 0 < countAt x.toNat w.toNat info.width.toNat
  := by
  have hx := x.toNat_lt
  have hy := y.toNat_lt
  have hwlt := w.toNat_lt
  have hhlt := h.toNat_lt
  have hW := info.width.toNat_lt
  rw [CopiesNothing, Copies]
  by_cases hw : w = 0
  · simp [hw]
  · by_cases hh : h = 0
    · simp [hh]
    · rw [lt_stopAt hy hhlt (toNat_pos hh), countAt_pos hx hwlt hW (toNat_pos hw), UInt16.toNat_inj]
      simp only [not_or, Bool.not_eq_false, not_and, not_not, not_le, hw, hh]
      tauto

/-- When nothing is copied, no pixel is. -/
theorem CopiesNothing.not_contains (hnothing : CopiesNothing gpu info x y w h) (px py : Nat) :
  ¬ ∃ r ∈ presentRows gpu info x y w h, r.Contains px py
  := by
  rw [contains_presentRows]
  rintro ⟨hcopies, hley, hlty, hlex, hltx⟩
  apply not_copiesNothing.mpr _ hnothing
  exact ⟨hcopies, lt_of_le_of_lt hley hlty, by omega⟩

/-- The pixels of a rectangle that meets the screen and whose ends are not cut. -/
theorem Meets.visible_iff (hmeets : Meets info x y w h) (px py : Nat) :
  Visible info (area x y w h) px py ↔
    y.toNat ≤ py ∧ py < stopAt y.toNat h.toNat info.height.toNat
      ∧ x.toNat ≤ px ∧ px < x.toNat + countAt x.toNat w.toNat info.width.toNat
  := by
  obtain ⟨-, -, hx, hy, hxw, hyh⟩ := hmeets
  rw [countAt_of_lt hx hxw, stopAt, Visible, area]
  simp only
  omega

/-- When only pixels of the screen are copied, but some, the rectangle meets the screen. -/
theorem meets_of_contains (hsome : ¬ CopiesNothing gpu info x y w h)
    (hscreen : ∀ px py, (∃ r ∈ presentRows gpu info x y w h, r.Contains px py)
      → px < info.width.toNat ∧ py < info.height.toNat) :
  Meets info x y w h
  := by
  obtain ⟨hcopies, hrow, hcount⟩ := not_copiesNothing.mp hsome
  have hw := hcopies.2.1
  have hh := hcopies.2.2.1
  have hxlt := x.toNat_lt
  have hylt := y.toNat_lt
  have hwlt := w.toNat_lt
  have hhlt := h.toNat_lt
  have hW := info.width.toNat_lt
  obtain ⟨hy, hyh⟩ := (lt_stopAt hylt hhlt (toNat_pos hh)).mp hrow
  have hfirst := hscreen x.toNat y.toNat
    ((contains_presentRows _ _).mpr ⟨hcopies, le_rfl, hrow, le_rfl, by omega⟩)
  have hlast := hscreen (x.toNat + countAt x.toNat w.toNat info.width.toNat - 1) y.toNat
    ((contains_presentRows _ _).mpr ⟨hcopies, le_rfl, hrow, by omega, by omega⟩)
  refine ⟨hw, hh, hfirst.1, hy, ?_, hyh⟩
  by_contra hcut
  rw [countAt_of_cut hwlt hW hfirst.1 (not_lt.mp hcut)] at hlast
  omega

/-! ### Places -/

theorem bytesPerPixel_pos (info : VideoMode) :
  0 < (bytesPerPixel info).toNat
  := by
  have hfour : (4 : UInt8).toNat = 4 := rfl
  rw [bytesPerPixel]
  split
  case isTrue => omega
  case isFalse hne =>
    rw [Nat.pos_iff_ne_zero, ne_eq, ← UInt8.toNat_zero, UInt8.toNat_inj]
    exact hne

/-- The offset of a pixel does not wrap. -/
theorem offset_toNat (py pitch x : UInt16) (depth : UInt8) :
  (py.toUInt64 * pitch.toUInt64 + (x.toUInt32 * depth.toUInt32).toUInt64).toNat
    = py.toNat * pitch.toNat + x.toNat * depth.toNat
  := by
  have hrow : py.toNat * pitch.toNat ≤ 65535 * 65535 :=
    Nat.mul_le_mul (Nat.le_of_lt_succ py.toNat_lt) (Nat.le_of_lt_succ pitch.toNat_lt)
  have hpixel : x.toNat * depth.toNat ≤ 65535 * 255 :=
    Nat.mul_le_mul (Nat.le_of_lt_succ x.toNat_lt) (Nat.le_of_lt_succ depth.toNat_lt)
  rw [UInt64.toNat_add, UInt64.toNat_mul, UInt32.toNat_toUInt64, UInt32.toNat_mul,
    UInt16.toNat_toUInt64, UInt16.toNat_toUInt64, UInt16.toNat_toUInt32, UInt8.toNat_toUInt32]
  omega

theorem surfaceOffset_toNat (py pitch x : UInt16) (depth : UInt8) :
  (py.toUInt64 * pitch.toUInt64 + x.toUInt64 * depth.toUInt64).toNat
    = py.toNat * pitch.toNat + x.toNat * depth.toNat
  := by
  have hpixel : x.toNat * depth.toNat ≤ 65535 * 255 :=
    Nat.mul_le_mul (Nat.le_of_lt_succ x.toNat_lt) (Nat.le_of_lt_succ depth.toNat_lt)
  rw [← offset_toNat, UInt64.toNat_add, UInt64.toNat_add, UInt64.toNat_mul x.toUInt64,
    UInt32.toNat_toUInt64, UInt32.toNat_mul, UInt16.toNat_toUInt64, UInt8.toNat_toUInt64,
    UInt16.toNat_toUInt32, UInt8.toNat_toUInt32]
  congr 2
  omega

theorem targetOffset_toNat (py width x : UInt16) :
  (py.toUInt64 * (width.toUInt32 * 4).toUInt64 + x.toUInt64 * 4).toNat
    = py.toNat * (4 * width.toNat) + x.toNat * 4
  := by
  have hwidth := width.toNat_lt
  have hx := x.toNat_lt
  have hfour : (4 : UInt64).toNat = 4 := rfl
  have hfour' : (4 : UInt32).toNat = 4 := rfl
  have hrow : py.toNat * (4 * width.toNat) ≤ 65535 * (4 * 65535) :=
    Nat.mul_le_mul (Nat.le_of_lt_succ py.toNat_lt) (by omega)
  have hpitch : (width.toUInt32 * 4).toUInt64.toNat = 4 * width.toNat := by
    rw [UInt32.toNat_toUInt64, UInt32.toNat_mul, UInt16.toNat_toUInt32, hfour']
    omega
  rw [UInt64.toNat_add, UInt64.toNat_mul, UInt64.toNat_mul, hpitch, UInt16.toNat_toUInt64,
    UInt16.toNat_toUInt64, hfour]
  omega

theorem row_src (gpu : Gpu) (info : VideoMode) (x count py : UInt16) :
  (row gpu info x count py).src.toNat
    = py.toNat * info.pitch.toNat + x.toNat * (bytesPerPixel info).toNat
  := by
  rw [row]
  split
  · apply surfaceOffset_toNat
  · apply offset_toNat

theorem row_srcDepth (gpu : Gpu) (info : VideoMode) (x count py : UInt16) :
  (row gpu info x count py).srcDepth = bytesPerPixel info
  := by
  rw [row]
  split
  · rfl
  · rfl

theorem row_of_active (hactive : gpu.active = true) (count py : UInt16) :
  row gpu info x count py = surfaceRow info x count py
  := if_pos hactive

theorem row_of_inactive (hinactive : ¬ gpu.active = true) (count py : UInt16) :
  row gpu info x count py = frontRow info x count py
  := if_neg hinactive

theorem row_dst (gpu : Gpu) (info : VideoMode) (x count py : UInt16) :
  (row gpu info x count py).dstOffset.toNat
    = py.toNat * (row gpu info x count py).dst.pitch info
      + x.toNat * (row gpu info x count py).dstDepth.toNat
  := by
  rw [row]
  split
  · apply targetOffset_toNat
  · apply offset_toNat

/-- Every row is copied from its place to its place. -/
theorem presentRows_places {r : RowCopy} (hr : r ∈ presentRows gpu info x y w h) :
  r.src.toNat = r.y.toNat * Buffer.back.pitch info + r.x.toNat * r.srcDepth.toNat
    ∧ r.dstOffset.toNat = r.y.toNat * r.dst.pitch info + r.x.toNat * r.dstDepth.toNat
  := by
  obtain ⟨-, py, -, -, rfl⟩ := mem_presentRows hr
  rw [row_x, row_y, row_srcDepth]
  exact ⟨row_src gpu info x _ py, row_dst gpu info x _ py⟩

/-- A byte of a row lies before the end of the rectangle. -/
theorem lt_stopOffset (hmeets : Meets info x y w h) {py b pitch depth : Nat}
    (hpy : py < stopAt y.toNat h.toNat info.height.toNat)
    (hb : b < countAt x.toNat w.toNat info.width.toNat * depth) :
  py * pitch + x.toNat * depth + b < stopOffset info x y w h pitch depth
  := by
  obtain ⟨-, -, hx, hy, hxw, hyh⟩ := hmeets
  have hrow : py * pitch ≤ (min (y.toNat + h.toNat) info.height.toNat - 1) * pitch := by
    apply Nat.mul_le_mul_right
    rw [stopAt] at hpy
    omega
  have hend : x.toNat + countAt x.toNat w.toNat info.width.toNat
      = min (x.toNat + w.toNat) info.width.toNat := by
    rw [countAt_of_lt hx hxw]
    omega
  have hpixels : x.toNat * depth + countAt x.toNat w.toNat info.width.toNat * depth
      = min (x.toNat + w.toNat) info.width.toNat * depth := by
    rw [← hend, Nat.add_mul]
  rw [stopOffset]
  omega

/-- When all bytes of the last row lie below a bound, the end of the rectangle does. -/
theorem stopOffset_le (hmeets : Meets info x y w h) {pitch depth bound : Nat} (hdepth : 0 < depth)
    (hb : ∀ b < countAt x.toNat w.toNat info.width.toNat * depth,
      (stopAt y.toNat h.toNat info.height.toNat - 1) * pitch + x.toNat * depth + b < bound) :
  stopOffset info x y w h pitch depth ≤ bound
  := by
  obtain ⟨hw, -, hx, hy, hxw, hyh⟩ := hmeets
  have hcount : countAt x.toNat w.toNat info.width.toNat
      = min (x.toNat + w.toNat) info.width.toNat - x.toNat := countAt_of_lt hx hxw
  have hpos := toNat_pos hw
  have hsome : 0 < countAt x.toNat w.toNat info.width.toNat * depth := by
    apply Nat.mul_pos _ hdepth
    omega
  have hpixels : x.toNat * depth + countAt x.toNat w.toNat info.width.toNat * depth
      = min (x.toNat + w.toNat) info.width.toNat * depth := by
    rw [← Nat.add_mul]
    congr 1
    omega
  have hrow : stopAt y.toNat h.toNat info.height.toNat
      = min (y.toNat + h.toNat) info.height.toNat := by
    rw [stopAt, Nat.mod_eq_of_lt hyh]
  have hlast := hb (countAt x.toNat w.toNat info.width.toNat * depth - 1) (by omega)
  rw [hrow] at hlast
  rw [stopOffset]
  omega

/-! ### The device -/

theorem clipEnd_sub (x w limit : UInt16) :
  (clipEnd x w limit - x).toNat = countAt x.toNat w.toNat limit.toNat
  := copyWidth_toNat x w limit

theorem add_countAt_le {start length limit : Nat} (hlength : length < 2 ^ 16) (hlt : limit < 2 ^ 16)
    (hlimit : start < limit) :
  start + countAt start length limit ≤ limit ↔ start + length < 2 ^ 16
  := by
  constructor
  · intro hle
    by_contra hcut
    rw [countAt_of_cut hlength hlt hlimit (not_lt.mp hcut)] at hle
    omega
  · intro hend
    rw [countAt_of_lt hlimit hend]
    omega

/-- The rectangle that the device is given lies on the screen. -/
theorem gpuPresentRect_device (transferOk flushOk : Bool) :
  (∀ q ∈ (gpuPresentRect transferOk flushOk gpu info x y w h).2,
      q.rect.x.toNat + q.rect.width.toNat ≤ info.width.toNat
        ∧ q.rect.y.toNat + q.rect.height.toNat ≤ info.height.toNat)
    ↔ DeviceFits gpu info x y w h
  := by
  have hx := x.toNat_lt
  have hy := y.toNat_lt
  have hwlt := w.toNat_lt
  have hhlt := h.toNat_lt
  have hW := info.width.toNat_lt
  have hH := info.height.toNat_lt
  rw [gpuPresentRect, DeviceFits]
  split
  case isTrue hnone =>
    apply iff_of_true (by simp)
    intro hready hw hh
    simp [hready, hw, hh] at hnone
  case isFalse hsome =>
    rw [not_or, Bool.not_eq_false, not_or] at hsome
    obtain ⟨hready, hw, hh⟩ := hsome
    split
    case isTrue hout =>
      rw [UInt16.le_iff_toNat_le, UInt16.le_iff_toNat_le] at hout
      apply iff_of_true (by simp)
      intro _ _ _ hxW hyH
      omega
    case isFalse hin =>
      rw [UInt16.le_iff_toNat_le, UInt16.le_iff_toNat_le, not_or, not_le, not_le] at hin
      obtain ⟨hxW, hyH⟩ := hin
      have hwidth : 0 < countAt x.toNat w.toNat info.width.toNat := by
        rw [countAt_pos hx hwlt hW (toNat_pos hw)]
        omega
      have hheight : 0 < countAt y.toNat h.toNat info.height.toNat := by
        rw [countAt_pos hy hhlt hH (toNat_pos hh)]
        omega
      have hsent : ¬ (clipEnd x w info.width - x = 0 ∨ clipEnd y h info.height - y = 0) := by
        rw [← UInt16.toNat_inj, ← UInt16.toNat_inj, clipEnd_sub, clipEnd_sub, UInt16.toNat_zero]
        omega
      rw [if_neg hsent]
      have hends : x.toNat + countAt x.toNat w.toNat info.width.toNat ≤ info.width.toNat
          ∧ y.toNat + countAt y.toNat h.toNat info.height.toNat ≤ info.height.toNat
          ↔ x.toNat + w.toNat < 2 ^ 16 ∧ y.toNat + h.toNat < 2 ^ 16 := by
        rw [add_countAt_le hwlt hW hxW, add_countAt_le hhlt hH hyH]
      have hfits : (gpu.ready = true → w ≠ 0 → h ≠ 0 → x.toNat < info.width.toNat
            → y.toNat < info.height.toNat → x.toNat + w.toNat < 2 ^ 16 ∧ y.toNat + h.toNat < 2 ^ 16)
          ↔ x.toNat + w.toNat < 2 ^ 16 ∧ y.toNat + h.toNat < 2 ^ 16 :=
        ⟨fun hends => hends hready hw hh hxW hyH, fun hends _ _ _ _ _ => hends⟩
      rw [hfits, ← hends]
      split
      · simp only [List.mem_singleton, forall_eq, GpuRequest.rect, UInt16.toNat_toUInt32,
          clipEnd_sub]
      · simp only [List.mem_cons, List.not_mem_nil, or_false, forall_eq_or_imp, forall_eq,
          GpuRequest.rect, UInt16.toNat_toUInt32, clipEnd_sub, and_self]

/-! ### Presentation -/

theorem fbPresentRect_rows (transferOk flushOk : Bool) :
  (fbPresentRect transferOk flushOk gpu info x y w h).rows = presentRows gpu info x y w h
  := rfl

/-- A row in which nothing is copied when nothing is copied at all. -/
theorem CopiesNothing.count_eq_zero (hnothing : CopiesNothing gpu info x y w h) {r : RowCopy}
    (hr : r ∈ presentRows gpu info x y w h) :
  r.count.toNat = 0
  := by
  by_contra hcount
  apply hnothing.not_contains r.x.toNat r.y.toNat
  exact ⟨r, hr, rfl, le_rfl, by omega⟩

/-- A rectangle that is presentable is presented. -/
theorem Presentable.onScreen {requested : Int × Int × Nat × Nat} (transferOk flushOk : Bool)
    (hp : Presentable gpu info x y w h requested) :
  OnScreen gpu info requested (fbPresentRect transferOk flushOk gpu info x y w h)
  := by
  obtain ⟨hdevice, ⟨hnothing, hnone⟩ | ⟨henabled, hmeets, ⟨hback, hfront⟩, hsame⟩⟩ := hp
  · constructor
    · intro px py
      apply iff_of_false (hnothing.not_contains px py)
      rintro ⟨henabled, hvisible⟩
      exact hnone henabled px py hvisible
    · intro r hr hcount
      rw [hnothing.count_eq_zero hr] at hcount
      exact absurd hcount (lt_irrefl 0)
    · intro r hr
      exact (presentRows_places hr).1
    · intro r hr
      exact (presentRows_places hr).2
    · intro r hr b hb
      rw [hnothing.count_eq_zero hr, Nat.zero_mul] at hb
      exact absurd hb (Nat.not_lt_zero b)
    · intro r hr b hb
      rw [hnothing.count_eq_zero hr, Nat.zero_mul] at hb
      exact absurd hb (Nat.not_lt_zero b)
    · exact (gpuPresentRect_device transferOk flushOk).mpr hdevice
  · have hcopies : Copies gpu info w h := by
      refine ⟨henabled, hmeets.1, hmeets.2.1, ?_⟩
      intro hactive
      rw [if_pos hactive] at hfront
      exact hfront.2.1
    constructor
    · intro px py
      rw [fbPresentRect_rows, contains_presentRows, hsame, hmeets.visible_iff]
      exact and_congr_left' (iff_of_true hcopies henabled)
    · intro r hr _
      obtain ⟨-, py, -, -, rfl⟩ := mem_presentRows hr
      by_cases hactive : gpu.active = true
      · rw [if_pos hactive] at hfront
        rw [row_of_active hactive, display, if_pos ⟨hactive, hfront.1⟩]
        rfl
      · rw [row_of_inactive hactive, display, if_neg (fun hboth => hactive hboth.1)]
        rfl
    · intro r hr
      exact (presentRows_places hr).1
    · intro r hr
      exact (presentRows_places hr).2
    · intro r hr b hb
      obtain ⟨-, py, -, hpy, rfl⟩ := mem_presentRows hr
      rw [row_count, copyWidth_toNat, row_srcDepth] at hb
      rw [row_src]
      exact lt_of_lt_of_le (lt_stopOffset hmeets hpy hb) hback
    · intro r hr b hb
      obtain ⟨-, py, -, hpy, rfl⟩ := mem_presentRows hr
      rw [row_count, copyWidth_toNat] at hb
      rw [row_dst]
      by_cases hactive : gpu.active = true
      · rw [if_pos hactive] at hfront
        rw [row_of_active hactive] at hb ⊢
        exact lt_of_lt_of_le (lt_stopOffset hmeets hpy hb) hfront.2.2
      · rw [if_neg hactive] at hfront
        rw [row_of_inactive hactive] at hb ⊢
        exact lt_of_lt_of_le (lt_stopOffset hmeets hpy hb) hfront
    · exact (gpuPresentRect_device transferOk flushOk).mpr hdevice

/-- When the last row is copied as it should be, the rectangle fits. -/
theorem OnScreen.fits {requested : Int × Int × Nat × Nat} {transferOk flushOk : Bool}
    (ho : OnScreen gpu info requested (fbPresentRect transferOk flushOk gpu info x y w h))
    (hmeets : Meets info x y w h) (hcopies : Copies gpu info w h)
    (hrow : y.toNat < stopAt y.toNat h.toNat info.height.toNat)
    (hcount : 0 < countAt x.toNat w.toNat info.width.toNat) :
  Fits gpu info x y w h
  := by
  have hheight := info.height.toNat_lt
  let last := UInt16.ofNat (stopAt y.toNat h.toNat info.height.toNat - 1)
  have hlast : last.toNat = stopAt y.toNat h.toNat info.height.toNat - 1 := by
    apply UInt16.toNat_ofNat_of_lt'
    have hsize : UInt16.size = 2 ^ 16 := rfl
    rw [stopAt]
    omega
  have hmem : row gpu info x (clampU16 (rectEnd x w) info.width - x) last
      ∈ presentRows gpu info x y w h :=
    row_mem_presentRows hcopies (by omega) (by omega) hcount
  constructor
  · apply stopOffset_le hmeets (bytesPerPixel_pos info)
    intro b hb
    have hread := ho.read _ hmem b
    rw [row_count, copyWidth_toNat, row_srcDepth, row_src, hlast] at hread
    exact hread hb
  · have hwritten := ho.written _ hmem
    have hdisplay := ho.display _ hmem
    rw [row_count, copyWidth_toNat] at hdisplay
    simp only [row_count, copyWidth_toNat, row_dst, hlast] at hwritten
    split
    case isTrue hactive =>
      rw [row_of_active hactive] at hwritten hdisplay
      have hseen := hdisplay hcount
      refine ⟨?_, hcopies.2.2.2 hactive, ?_⟩
      · by_contra hdisabled
        have hfront : Fb.display gpu info = .framebuffer := if_neg (fun hboth => hdisabled hboth.2)
        rw [hfront] at hseen
        cases hseen
      · exact stopOffset_le hmeets (by decide) hwritten
    case isFalse hinactive =>
      rw [row_of_inactive hinactive] at hwritten
      exact stopOffset_le hmeets (bytesPerPixel_pos info) hwritten

/-- A rectangle that is presented as it should be is presentable. -/
theorem OnScreen.presentable {requested : Int × Int × Nat × Nat} (transferOk flushOk : Bool)
    (ho : OnScreen gpu info requested (fbPresentRect transferOk flushOk gpu info x y w h)) :
  Presentable gpu info x y w h requested
  := by
  use (gpuPresentRect_device transferOk flushOk).mp ho.device
  by_cases hnothing : CopiesNothing gpu info x y w h
  · left
    use hnothing
    intro henabled px py hvisible
    exact hnothing.not_contains px py ((ho.pixels px py).mpr ⟨henabled, hvisible⟩)
  · right
    obtain ⟨hcopies, hrow, hcount⟩ := not_copiesNothing.mp hnothing
    have hmeets : Meets info x y w h := by
      apply meets_of_contains hnothing
      intro px py hcontains
      obtain ⟨-, hpx, hpy, -⟩ := (ho.pixels px py).mp hcontains
      exact ⟨hpx, hpy⟩
    refine ⟨hcopies.1, hmeets, ho.fits hmeets hcopies hrow hcount, ?_⟩
    · intro px py
      rw [hmeets.visible_iff]
      have hpixels := ho.pixels px py
      rw [fbPresentRect_rows, contains_presentRows] at hpixels
      constructor
      · intro hvisible
        exact (hpixels.mpr ⟨hcopies.1, hvisible⟩).2
      · intro hregion
        exact (hpixels.mp ⟨hcopies, hregion⟩).2

end

/-- The request is presentable with the arguments that `fb_present_rect` is given for it. -/
def Request.Presentable (gpu : Gpu) (info : VideoMode) (request : Request) : Prop :=
  match request with
  | .rect x y w h => Fb.Presentable gpu info x y w h request.area
  | .window v _ => Fb.Presentable gpu info v.x.toUInt32.toUInt16 v.y.toUInt32.toUInt16 v.w.toUInt16
      v.h.toUInt16 request.area

/-- Presentation does what it should with exactly the requests that are presentable. -/
theorem present_onScreen_iff
    (transferOk flushOk : Bool) (gpu : Gpu) (info : VideoMode) (request : Request) :
  OnScreen gpu info request.area (request.present transferOk flushOk gpu info)
    ↔ request.Presentable gpu info
  := by
  cases request with
  | rect x y w h => exact ⟨OnScreen.presentable transferOk flushOk, Presentable.onScreen transferOk flushOk⟩
  | window v shown => exact ⟨OnScreen.presentable transferOk flushOk, Presentable.onScreen transferOk flushOk⟩

/-- A screen of 1280 by 1024 pixels of 4 bytes. -/
def screen : VideoMode := ⟨5120, 1280, 1024, 32⟩

/-- A window of 100 by 50 pixels at the upper edge of the screen. -/
def windowAt (x : Int32) : Window where
  id := 1
  threadId := 1
  x := x
  y := 0
  w := 100
  h := 50
  flags := 0
  savedX := x
  savedY := 0
  savedW := 100
  savedH := 50
  title := CString.empty
  active := 1
  buffer := 0x2000020

/-- Of a window that reaches beyond the left edge nothing that is on the screen is copied, and of a
window to the right of the screen a row of 65516 pixels is. -/
theorem not_onScreen_at_edges :
  (¬ OnScreen ⟨false, false⟩ screen (Request.window (windowAt (-10)) (by decide)).area
      ((Request.window (windowAt (-10)) (by decide)).present true true ⟨false, false⟩ screen))
    ∧ ¬ OnScreen ⟨false, false⟩ screen (Request.window (windowAt 1300) (by decide)).area
      ((Request.window (windowAt 1300) (by decide)).present true true ⟨false, false⟩ screen)
  := by
  constructor
  · intro ho
    obtain ⟨-, ⟨-, hnone⟩ | ⟨-, hmeets, -⟩⟩ := OnScreen.presentable true true ho
    · exact hnone (by decide) 0 0 (by decide)
    · exact absurd hmeets (by decide)
  · intro ho
    obtain ⟨-, ⟨hnothing, -⟩ | ⟨-, hmeets, -⟩⟩ := OnScreen.presentable true true ho
    · exact absurd hnothing (by decide)
    · exact absurd hmeets (by decide)

end Fb
