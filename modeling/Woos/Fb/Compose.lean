import Woos.Lib.Copies
import Woos.Lib.Signed
import Woos.Window.Focus

/-!
# Drawing a window into a buffer

`woos_graphics_draw_window_to_buffer` copies the part of a window that lies on the destination, one
`memcpy` a row.  The copies are given by the indices of pixels in the buffer of the window and in the
destination.

On each axis the window is an interval, from `pos` on, and so is the destination, from `0` on.  The
sums of positions and sizes are sums of signed 32-bit words: `Exact` says that they do not overflow,
and `Beside` that the intervals do not meet.
-/

namespace Fb

/-! ### The copies -/

/-- The window is drawn at all. -/
def Shown (v : Window) : Prop := ¬ v.Minimized ∧ v.buffer ≠ 0

/-- The end of the interval is computed without overflow, and so is its negated start. -/
def Exact (pos : Int32) (size : UInt32) : Prop :=
  pos ≠ Int32.minValue ∧ pos.toInt + size.toNat < 2 ^ 31

section

variable {pos : Int32} {size limit : UInt32}

variable (hsize : size.toNat < 2 ^ 30) (hlimit : limit.toNat < 2 ^ 30)
include hsize hlimit

end

section

variable {v : Window} {dstW dstH : UInt32} (hw : v.w.toNat < 2 ^ 30) (hh : v.h.toNat < 2 ^ 30)
  (hdstW : dstW.toNat < 2 ^ 30) (hdstH : dstH.toNat < 2 ^ 30)

include hw hh hdstW hdstH

variable (hx : Exact v.x v.w) (hy : Exact v.y v.h)
include hx hy

end

end Fb
