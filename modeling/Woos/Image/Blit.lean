import Woos.Image.Scale
import Woos.Lib.Painting
import Mathlib.Tactic.Positivity

/-!
# Drawing an image over another

`imageBlitAlpha` and `imageBlitAlphaClipped` compute with checks, as the scalers do.  Both paint the
target: `Target.row` and `Target.column` are the coordinates of its cells, and a cell is painted with
the pixel of the picture that is at its place.
-/

namespace Image

open Checked Painting

/-- A destination: `dst`, `dst_w` and `dst_h`, in a memory of `2 ^ 32` bytes. -/
structure Target where
  dst : UInt32
  w : Nat
  h : Nat
  held : dst.toNat + 4 * (w * h) ≤ 2 ^ 32
  w_lt : w < 2 ^ 31
  h_lt : h < 2 ^ 31

/-- A source: `src`, its pixels and their number, `sw`, `sh` and `src_pitch`. -/
structure Picture where
  src : UInt32
  pixels : Nat → UInt32
  size : Nat
  w : Nat
  h : Nat
  pitch : Nat
  held : src.toNat + 4 * size ≤ 2 ^ 32
  extent : ∀ y < h, y * pitch + w ≤ size
  w_lt : w < 2 ^ 30
  h_lt : h < 2 ^ 30

/-- `clip_x`, `clip_y`, `clip_w` and `clip_h` -/
structure Clip where
  x : Int
  y : Int
  w : Int
  h : Int
  deriving DecidableEq, Repr

/-! ### One pixel -/

/-- A channel of a pixel that is blended over another. -/
def overChannel (s d sa : UInt32) : UInt32 := (s * sa + d * (255 - sa)) / 255

/-- The pixel with the channels `sr`, `sg` and `sb` over `dp`. -/
def overPixel (sa sr sg sb dp : UInt32) : UInt32 :=
  Packing.pack 0xFF (overChannel sr ((dp >>> 16) &&& 0xFF) sa)
    (overChannel sg ((dp >>> 8) &&& 0xFF) sa) (overChannel sb (dp &&& 0xFF) sa)

/-- Draw the pixel `sp` over the one at an index. -/
def blitPixel (t : Target) (i : Int) (sp : UInt32) (cells : Nat → UInt32) :
    Option (Nat → UInt32) :=
  let sa := (sp >>> 24) &&& 0xFF
  if sa = 0 then some cells
  else if sa = 255 then storeAt cells (t.w * t.h) i sp
  else do
    let dp ← loadAt cells (t.w * t.h) i
    storeAt cells (t.w * t.h) i
      (overPixel sa ((sp >>> 16) &&& 0xFF) ((sp >>> 8) &&& 0xFF) (sp &&& 0xFF) dp)

/-! ### `image_blit_alpha` -/

/-- A pass of the loop over the columns. -/
def blitColumn (t : Target) (dx : Int) (p : Picture) (sLine dLine x : Int) (cells : Nat → UInt32) :
    Option (Nat → UInt32) := do
  let tx ← sint (dx + x)
  if tx < 0 ∨ t.w ≤ tx then some cells
  else do
    let sp ← loadAt p.pixels p.size (sLine + x)
    blitPixel t (dLine + tx) sp cells

/-- A pass of the loop over the rows. -/
def blitRow (t : Target) (dx dy : Int) (p : Picture) (y : Int) (cells : Nat → UInt32) :
    Option (Nat → UInt32) := do
  let ty ← sint (dy + y)
  if ty < 0 ∨ t.h ≤ ty then some cells
  else do
    let sLine ← sint (y * p.pitch)
    let dLine ← sint (ty * t.w)
    fromTo 0 p.w (blitColumn t dx p sLine dLine) cells

/-- `image_blit_alpha` -/
def imageBlitAlpha (t : Target) (dx dy : Int) (p : Picture) (cells : Nat → UInt32) :
    Option (Nat → UInt32) :=
  if t.dst = 0 ∨ p.src = 0 then some cells else fromTo 0 p.h (blitRow t dx dy p) cells

/-! ### `image_blit_alpha_clipped` -/

/-- `min_x` and `min_y` -/
def clipMin (clip : Int) : Int := if clip > 0 then clip else 0

/-- `max_x` and `max_y` -/
def clipMax (clip len limit : Int) : Option Int :=
  (sint (clip + len)).map (fun stop => if stop < limit then stop else limit)

/-- `start_x` and `start_y` -/
def startOf (pos lo : Int) : Option Int := if pos < lo then sint (lo - pos) else some 0

/-- `end_x` and `end_y` -/
def endOf (pos size hi : Int) : Option Int :=
  (sint (pos + size)).bind (fun stop => if stop > hi then sint (hi - pos) else some size)

/-- A pass of the loop over the columns. -/
def clippedColumn (t : Target) (dx : Int) (p : Picture) (sLine dLine x : Int)
    (cells : Nat → UInt32) : Option (Nat → UInt32) := do
  let tx ← sint (dx + x)
  let sp ← loadAt p.pixels p.size (sLine + x)
  blitPixel t (dLine + tx) sp cells

/-- A pass of the loop over the rows. -/
def clippedRow (t : Target) (dx dy : Int) (p : Picture) (clip : Clip) (maxX y : Int)
    (cells : Nat → UInt32) : Option (Nat → UInt32) := do
  let ty ← sint (dy + y)
  let sLine ← sint (y * p.pitch)
  let dLine ← sint (ty * t.w)
  let startX ← startOf dx (clipMin clip.x)
  let endX ← endOf dx p.w maxX
  fromTo startX endX (clippedColumn t dx p sLine dLine) cells

/-- `image_blit_alpha_clipped` -/
def imageBlitAlphaClipped (t : Target) (dx dy : Int) (p : Picture) (clip : Clip)
    (cells : Nat → UInt32) : Option (Nat → UInt32) :=
  if t.dst = 0 ∨ p.src = 0 then some cells
  else do
    let maxY ← clipMax clip.y clip.h t.h
    let maxX ← clipMax clip.x clip.w t.w
    let startY ← startOf dy (clipMin clip.y)
    let endY ← endOf dy p.h maxY
    fromTo startY endY (clippedRow t dx dy p clip maxX) cells

/-! ### The cells of a target -/

/-- The row of a cell. -/
def Target.row (t : Target) (j : Nat) : Int := (j / t.w : Nat)

/-- The column of a cell. -/
def Target.column (t : Target) (j : Nat) : Int := (j % t.w : Nat)

/-- A cell of the target. -/
def Target.Inside (t : Target) (j : Nat) : Prop := t.column j < t.w ∧ t.row j < t.h

theorem Target.column_nonneg (t : Target) (j : Nat) :
  0 ≤ t.column j
  := Int.natCast_nonneg _

theorem Target.row_nonneg (t : Target) (j : Nat) :
  0 ≤ t.row j
  := Int.natCast_nonneg _

/-- The place of a cell whose row and column are given. -/
theorem Target.place {t : Target} {ty tx : Int} (hty : 0 ≤ ty) (hlast : ty < t.h) (htx : 0 ≤ tx)
    (hlast' : tx < t.w) :
  0 ≤ ty * t.w + tx ∧ ty * t.w + tx < (t.w * t.h : Nat)
    ∧ ∀ j, j = (ty * t.w + tx).toNat ↔ t.column j = tx ∧ t.row j = ty
  := by
  obtain ⟨r, rfl⟩ := Int.eq_ofNat_of_zero_le hty
  obtain ⟨c, rfl⟩ := Int.eq_ofNat_of_zero_le htx
  have hlt : r * t.w + c < t.w * t.h := row_lt (by omega) (by omega)
  obtain ⟨hdiv, hmod⟩ := div_row (w := t.w) (y := r) (x := c) (by omega)
  refine ⟨by positivity, by exact_mod_cast hlt, ?_⟩
  intro j
  have hplace : ((r : Int) * t.w + c).toNat = r * t.w + c := by
    rw [← Int.natCast_mul, ← Int.natCast_add, Int.toNat_natCast]
  rw [hplace, Target.column, Target.row]
  constructor
  · rintro rfl
    rw [hdiv, hmod]
    exact ⟨rfl, rfl⟩
  · rintro ⟨hcolumn, hrow⟩
    rw [← Int.natCast_inj.mp hcolumn, ← Int.natCast_inj.mp hrow, Nat.div_add_mod']

/-- The pixel that is left when `sp` is drawn over `dp`. -/
def drawn (sp dp : UInt32) : UInt32 :=
  let sa := (sp >>> 24) &&& 0xFF
  if sa = 0 then dp
  else if sa = 255 then sp
  else overPixel sa ((sp >>> 16) &&& 0xFF) ((sp >>> 8) &&& 0xFF) (sp &&& 0xFF) dp

theorem blitPixel_some {t : Target} {i : Int} (sp : UInt32) (cells : Nat → UInt32) (hle : 0 ≤ i)
    (hlt : i < (t.w * t.h : Nat)) :
  blitPixel t i sp cells = some (Function.update cells i.toNat (drawn sp (cells i.toNat)))
  := by
  simp only [blitPixel, drawn]
  split
  · rw [Function.update_eq_self]
  · split
    · rw [storeAt_some _ _ hle hlt]
    · rw [loadAt_some _ hle hlt, Option.bind_eq_bind, Option.bind_some, storeAt_some _ _ hle hlt]

/-- What is drawn into a cell: the pixel of an image that is at its place. -/
def drawnAt (t : Target) (dx dy : Int) (image : Int → Int → UInt32) (j : Nat) (dp : UInt32) : UInt32 :=
  drawn (image (t.row j - dy) (t.column j - dx)) dp

/-- Drawing a pixel paints its cell. -/
theorem blitPixel_paint
    {t : Target} {image : Int → Int → UInt32} {dx dy ty tx : Int} (hty : 0 ≤ ty) (hlast : ty < t.h)
    (htx : 0 ≤ tx) (hlast' : tx < t.w) (cells : Nat → UInt32) :
  blitPixel t (ty * t.w + tx) (image (ty - dy) (tx - dx)) cells
    = some (paint (fun j => t.column j = tx ∧ t.row j = ty) (drawnAt t dx dy image) cells)
  := by
  obtain ⟨hle, hlt, hcell⟩ := Target.place hty hlast htx hlast'
  obtain ⟨hcolumn, hrow⟩ := (hcell _).mp rfl
  rw [blitPixel_some _ _ hle hlt, ← paint_congr _ hcell (fun _ _ => rfl), ← update_eq_paint, drawnAt,
    hcolumn, hrow]

/-- The pixel of a picture in a row and a column. -/
def Picture.pixel (p : Picture) (y x : Int) : UInt32 := p.pixels (y * p.pitch + x).toNat

/-- The start of a row of a picture. -/
theorem Picture.line (p : Picture) {y : Int} (hy : 0 ≤ y) (hlast : y < p.h) :
  0 ≤ y * p.pitch ∧ y * p.pitch + p.w ≤ p.size ∧ sint (y * p.pitch) = some (y * p.pitch)
  := by
  obtain ⟨r, rfl⟩ := Int.eq_ofNat_of_zero_le hy
  have hextent : (r : Int) * p.pitch + p.w ≤ p.size := by
    exact_mod_cast p.extent r (by omega)
  have hheld := p.held
  have hnonneg : 0 ≤ (r : Int) * p.pitch := by positivity
  exact ⟨hnonneg, hextent, sint_some (by omega) (by omega)⟩

/-- The start of a row of a target. -/
theorem Target.line (t : Target) {ty : Int} (hty : 0 ≤ ty) (hlast : ty < t.h) :
  sint (ty * t.w) = some (ty * t.w)
  := by
  obtain ⟨r, rfl⟩ := Int.eq_ofNat_of_zero_le hty
  have hend : (r : Int) * t.w + t.w ≤ (t.w * t.h : Nat) := by
    exact_mod_cast row_end_le (by omega)
  have hheld := t.held
  have hnonneg : 0 ≤ (r : Int) * t.w := by positivity
  exact sint_some (by omega) (by omega)

/-! ### The plain loops -/

section Loops

variable {t : Target} {p : Picture} {dx dy : Int}

/-- The cells of the target in the rows from `top` to `bottom` and the columns from `left` to `right`,
as the picture counts them. -/
def Target.Block (t : Target) (dx dy left right top bottom : Int) (j : Nat) : Prop :=
  top ≤ t.row j - dy ∧ t.row j - dy < bottom
    ∧ left ≤ t.column j - dx ∧ t.column j - dx < right ∧ t.Inside j

/-- A pass paints the cell at its place. -/
theorem pass_paint {y x : Int} (hy : 0 ≤ y ∧ y < p.h) (hx : 0 ≤ x ∧ x < p.w)
    (hrow : 0 ≤ dy + y ∧ dy + y < t.h) (hcolumn : 0 ≤ dx + x ∧ dx + x < t.w)
    (cells : Nat → UInt32) :
  (loadAt p.pixels p.size (y * p.pitch + x)).bind
      (fun sp => blitPixel t ((dy + y) * t.w + (dx + x)) sp cells)
    = some (paint (fun j => t.column j = dx + x ∧ t.row j = dy + y ∧ t.Inside j)
        (drawnAt t dx dy p.pixel) cells)
  := by
  obtain ⟨hnonneg, hend, -⟩ := p.line hy.1 hy.2
  have hpixel : p.pixels (y * p.pitch + x).toNat = p.pixel (dy + y - dy) (dx + x - dx) := by
    rw [add_sub_cancel_left, add_sub_cancel_left, Picture.pixel]
  rw [loadAt_some _ (by omega) (by omega), Option.bind_some, hpixel,
    blitPixel_paint hrow.1 hrow.2 hcolumn.1 hcolumn.2]
  congr 1
  apply paint_congr _ _ (fun _ _ => rfl)
  intro j
  rw [Target.Inside]
  constructor
  · rintro ⟨hj, hj'⟩
    exact ⟨hj, hj', by omega, by omega⟩
  · rintro ⟨hj, hj', -⟩
    exact ⟨hj, hj'⟩

theorem blitColumn_paint {y x : Int} (hy : 0 ≤ y ∧ y < p.h) (hx : 0 ≤ x ∧ x < p.w)
    (hrow : 0 ≤ dy + y ∧ dy + y < t.h) (hdx : -2 ^ 31 ≤ dx) (hlast : dx + p.w ≤ 2 ^ 31)
    (cells : Nat → UInt32) :
  blitColumn t dx p (y * p.pitch) ((dy + y) * t.w) x cells
    = some (paint (fun j => t.column j = dx + x ∧ t.row j = dy + y ∧ t.Inside j)
        (drawnAt t dx dy p.pixel) cells)
  := by
  rw [blitColumn, sint_some (by omega) (by omega), Option.bind_eq_bind, Option.bind_some]
  by_cases houtside : dx + x < 0 ∨ t.w ≤ dx + x
  · rw [if_pos houtside, paint_empty]
    rintro j ⟨hcolumn, -, hlt, -⟩
    have hle := t.column_nonneg j
    omega
  · rw [if_neg houtside]
    exact pass_paint hy hx hrow (by omega) cells

/-- A row of the picture paints the cells of its row of the target. -/
theorem blitRow_paint {y : Int} (hy : 0 ≤ y ∧ y < p.h) (hdx : -2 ^ 31 ≤ dx)
    (hlast : dx + p.w ≤ 2 ^ 31) (hdy : -2 ^ 31 ≤ dy) (hlast' : dy + p.h ≤ 2 ^ 31)
    (cells : Nat → UInt32) :
  blitRow t dx dy p y cells
    = some (paint (fun j => t.row j = dy + y ∧ 0 ≤ t.column j - dx ∧ t.column j - dx < p.w
        ∧ t.Inside j) (drawnAt t dx dy p.pixel) cells)
  := by
  obtain ⟨-, -, hline⟩ := p.line hy.1 hy.2
  rw [blitRow, sint_some (by omega) (by omega), Option.bind_eq_bind, Option.bind_some]
  by_cases houtside : dy + y < 0 ∨ t.h ≤ dy + y
  · rw [if_pos houtside, paint_empty]
    rintro j ⟨hrow, -, -, -, hlt⟩
    have hle := t.row_nonneg j
    omega
  · rw [if_neg houtside, hline, Option.bind_some, t.line (by omega) (by omega), Option.bind_some,
      fromTo_paint_key t.column
        (fun x hx hx' => blitColumn_paint hy ⟨hx, hx'⟩ (by omega) hdx hlast)]
    congr 1
    apply paint_congr _ _ (fun _ _ => rfl)
    intro j
    tauto

/-- `image_blit_alpha` paints the cells that lie under the picture. -/
theorem imageBlitAlpha_paint (ht : t.dst ≠ 0) (hp : p.src ≠ 0) (hdx : -2 ^ 31 ≤ dx)
    (hlast : dx + p.w ≤ 2 ^ 31) (hdy : -2 ^ 31 ≤ dy) (hlast' : dy + p.h ≤ 2 ^ 31)
    (cells : Nat → UInt32) :
  imageBlitAlpha t dx dy p cells
    = some (paint (t.Block dx dy 0 p.w 0 p.h) (drawnAt t dx dy p.pixel) cells)
  := by
  rw [imageBlitAlpha, if_neg (not_or.mpr ⟨ht, hp⟩)]
  exact fromTo_paint_key t.row
    (fun y hy hy' => blitRow_paint ⟨hy, hy'⟩ hdx hlast hdy hlast') cells

/-! ### The clipped loops -/

theorem clippedColumn_paint {y x : Int} (hy : 0 ≤ y ∧ y < p.h) (hx : 0 ≤ x ∧ x < p.w)
    (hrow : 0 ≤ dy + y ∧ dy + y < t.h) (hcolumn : 0 ≤ dx + x ∧ dx + x < t.w)
    (cells : Nat → UInt32) :
  clippedColumn t dx p (y * p.pitch) ((dy + y) * t.w) x cells
    = some (paint (fun j => t.column j = dx + x ∧ t.row j = dy + y ∧ t.Inside j)
        (drawnAt t dx dy p.pixel) cells)
  := by
  have hlt := t.w_lt
  rw [clippedColumn, sint_some (by omega) (by omega), Option.bind_eq_bind, Option.bind_some]
  exact pass_paint hy hx hrow hcolumn cells

/-- What `start_x` and `end_x`, or `start_y` and `end_y`, need not to overflow. -/
structure AxisFits (pos size clip len limit : Int) : Prop where
  stop_lt : pos + size < 2 ^ 31
  low_lt : clipMin clip - pos < 2 ^ 31
  high_le : min (clip + len) limit < pos + size → -2 ^ 31 ≤ min (clip + len) limit - pos

theorem clipMin_eq (clip : Int) :
  clipMin clip = max clip 0
  := by
  rw [clipMin]
  omega

theorem clipMax_some {clip len : Int} (limit : Int) (hle : -2 ^ 31 ≤ clip + len)
    (hlt : clip + len < 2 ^ 31) :
  clipMax clip len limit = some (min (clip + len) limit)
  := by
  rw [clipMax, sint_some hle hlt, Option.map_some]
  congr 1
  omega

/-- The part of an axis that is drawn. -/
theorem span_some {pos size clip len limit : Int} (hfits : AxisFits pos size clip len limit)
    (hpos : -2 ^ 31 ≤ pos) (hsize : 0 ≤ size) (hlt : size < 2 ^ 31) :
  startOf pos (clipMin clip) = some (max 0 (clipMin clip - pos))
    ∧ endOf pos size (min (clip + len) limit) = some (min size (min (clip + len) limit - pos))
  := by
  obtain ⟨hstop, hlow, hhigh⟩ := hfits
  generalize clipMin clip = lo at *
  generalize min (clip + len) limit = hi at *
  constructor
  · rw [startOf]
    split
    · rw [sint_some (by omega) hlow, max_eq_right (by omega)]
    · rw [max_eq_left (by omega)]
  · rw [endOf, sint_some (by omega) hstop, Option.bind_some]
    split
    · rw [sint_some (hhigh (by omega)) (by omega), min_eq_right (by omega)]
    · rw [min_eq_left (by omega)]

theorem span_none {β : Type} {pos size clip len limit : Int}
    (h : ¬ AxisFits pos size clip len limit) (body : Int → Int → Option β) :
  (startOf pos (clipMin clip)).bind
      (fun start => (endOf pos size (min (clip + len) limit)).bind (body start))
    = none
  := by
  by_cases hlow : clipMin clip - pos < 2 ^ 31
  · have hend : endOf pos size (min (clip + len) limit) = none := by
      rw [endOf]
      by_cases hstop : -2 ^ 31 ≤ pos + size ∧ pos + size < 2 ^ 31
      · have hhigh : ¬ (min (clip + len) limit < pos + size →
            -2 ^ 31 ≤ min (clip + len) limit - pos) := fun hcon => h ⟨hstop.2, hlow, hcon⟩
        push Not at hhigh
        rw [sint_some hstop.1 hstop.2, Option.bind_some, if_pos (by omega), sint_none (by omega)]
      · rw [sint_none hstop, Option.bind_none]
    cases startOf pos (clipMin clip) with
    | none => rfl
    | some start => rw [Option.bind_some, hend, Option.bind_none]
  · rw [startOf, if_pos (by omega), sint_none (by omega), Option.bind_none]

variable {clip : Clip}

/-- A row of the picture paints the cells of its row that lie in the clip rectangle. -/
theorem clippedRow_paint {y : Int} (hy : 0 ≤ y ∧ y < p.h) (hrow : 0 ≤ dy + y ∧ dy + y < t.h)
    (hfits : AxisFits dx p.w clip.x clip.w t.w) (hdx : -2 ^ 31 ≤ dx) (cells : Nat → UInt32) :
  clippedRow t dx dy p clip (min (clip.x + clip.w) t.w) y cells
    = some (paint (fun j => t.row j = dy + y
        ∧ max 0 (clipMin clip.x - dx) ≤ t.column j - dx
        ∧ t.column j - dx < min (p.w : Int) (min (clip.x + clip.w) t.w - dx)
        ∧ t.Inside j) (drawnAt t dx dy p.pixel) cells)
  := by
  have hlt := t.h_lt
  have hsize := p.w_lt
  have hmin := clipMin_eq clip.x
  obtain ⟨-, -, hline⟩ := p.line hy.1 hy.2
  obtain ⟨hstart, hend⟩ := span_some hfits hdx (by omega) (by omega)
  rw [clippedRow, sint_some (by omega) (by omega), Option.bind_eq_bind, Option.bind_some, hline,
    Option.bind_some, t.line hrow.1 hrow.2, Option.bind_some, hstart, Option.bind_some, hend,
    Option.bind_some, fromTo_paint_key t.column
      (fun x hx hx' => clippedColumn_paint hy ⟨by omega, by omega⟩ hrow ⟨by omega, by omega⟩)]
  congr 1
  apply paint_congr _ _ (fun _ _ => rfl)
  intro j
  tauto

theorem clippedRow_none {y : Int} (h : ¬ AxisFits dx p.w clip.x clip.w t.w)
    (cells : Nat → UInt32) :
  clippedRow t dx dy p clip (min (clip.x + clip.w) t.w) y cells = none
  := by
  rw [clippedRow]
  cases sint (dy + y) with
  | none => rfl
  | some ty =>
      cases sint (y * p.pitch) with
      | none => rfl
      | some sLine =>
          simp only [Option.bind_eq_bind, Option.bind_some]
          cases sint (ty * t.w) with
          | none => rfl
          | some dLine =>
              exact span_none h _

end Loops

section Clipped

variable (t : Target) (w h : Nat) (dx dy : Int) (clip : Clip)

/-- The first row, as the picture counts them. -/
def top : Int := max 0 (clipMin clip.y - dy)

/-- The row after the last. -/
def bottom : Int := min h (min (clip.y + clip.h) t.h - dy)

/-- The first column. -/
def left : Int := max 0 (clipMin clip.x - dx)

/-- The column after the last. -/
def right : Int := min w (min (clip.x + clip.w) t.w - dx)

/-- What the clipping of a picture of `w` columns and `h` rows needs not to overflow. -/
structure ClipFits : Prop where
  columns : -2 ^ 31 ≤ clip.x + clip.w ∧ clip.x + clip.w < 2 ^ 31
  rows : -2 ^ 31 ≤ clip.y + clip.h ∧ clip.y + clip.h < 2 ^ 31
  y : AxisFits dy h clip.y clip.h t.h
  x : top dy clip < bottom t h dy clip → AxisFits dx w clip.x clip.w t.w

end Clipped

section

variable {t : Target} {p : Picture} {dx dy : Int} {clip : Clip}

/-- `image_blit_alpha_clipped` paints the cells that lie under the picture and in the clip rectangle. -/
theorem imageBlitAlphaClipped_paint (ht : t.dst ≠ 0) (hp : p.src ≠ 0)
    (hfits : ClipFits t p.w p.h dx dy clip) (hdx : -2 ^ 31 ≤ dx) (hdy : -2 ^ 31 ≤ dy)
    (cells : Nat → UInt32) :
  imageBlitAlphaClipped t dx dy p clip cells
    = some (paint (t.Block dx dy (left dx clip) (right t p.w dx clip) (top dy clip)
        (bottom t p.h dy clip)) (drawnAt t dx dy p.pixel) cells)
  := by
  have hsize := p.h_lt
  obtain ⟨hcolumns, hrows, hy, hx⟩ := hfits
  obtain ⟨hstart, hend⟩ := span_some hy hdy (by omega) (by omega)
  rw [imageBlitAlphaClipped, if_neg (not_or.mpr ⟨ht, hp⟩), clipMax_some _ hrows.1 hrows.2,
    Option.bind_eq_bind, Option.bind_some, clipMax_some _ hcolumns.1 hcolumns.2, Option.bind_some,
    hstart, Option.bind_some, hend, Option.bind_some]
  apply fromTo_paint_key t.row
  intro y hy hy'
  have hmin := clipMin_eq clip.y
  exact clippedRow_paint ⟨by omega, by omega⟩ ⟨by omega, by omega⟩
    (hx (Int.lt_of_le_of_lt hy hy')) hdx

theorem imageBlitAlphaClipped_none (ht : t.dst ≠ 0) (hp : p.src ≠ 0)
    (hfits : ¬ ClipFits t p.w p.h dx dy clip) (hdy : -2 ^ 31 ≤ dy) (cells : Nat → UInt32) :
  imageBlitAlphaClipped t dx dy p clip cells = none
  := by
  have hsize := p.h_lt
  rw [imageBlitAlphaClipped, if_neg (not_or.mpr ⟨ht, hp⟩)]
  by_cases hrows : -2 ^ 31 ≤ clip.y + clip.h ∧ clip.y + clip.h < 2 ^ 31
  · rw [clipMax_some _ hrows.1 hrows.2, Option.bind_eq_bind, Option.bind_some]
    by_cases hcolumns : -2 ^ 31 ≤ clip.x + clip.w ∧ clip.x + clip.w < 2 ^ 31
    · rw [clipMax_some _ hcolumns.1 hcolumns.2, Option.bind_some]
      by_cases hy : AxisFits dy p.h clip.y clip.h t.h
      · obtain ⟨hstart, hend⟩ := span_some hy hdy (by omega) (by omega)
        have hx : ¬ (top dy clip < bottom t p.h dy clip → AxisFits dx p.w clip.x clip.w t.w) :=
          fun hcon => hfits ⟨hcolumns, hrows, hy, hcon⟩
        push Not at hx
        rw [hstart, Option.bind_some, hend, Option.bind_some]
        exact fromTo_none hx.1 (clippedRow_none hx.2 cells)
      · exact span_none hy _
    · rw [clipMax, sint_none hcolumns, Option.map_none, Option.bind_none]
  · rw [clipMax, sint_none hrows, Option.map_none, Option.bind_eq_bind, Option.bind_none]

/-! ### The two together -/

/-- A cell of the target in the clip rectangle. -/
def InClip (t : Target) (clip : Clip) (j : Nat) : Prop :=
  t.Inside j ∧ clip.x ≤ t.column j ∧ t.column j < clip.x + clip.w ∧ clip.y ≤ t.row j
    ∧ t.row j < clip.y + clip.h

/-- A row or a column is in the part that is drawn if it is in the picture, the clip rectangle and the
target. -/
theorem span_iff {pos size clip len limit k : Int} (hk : 0 ≤ k) :
  max 0 (clipMin clip - pos) ≤ k - pos ∧ k - pos < min size (min (clip + len) limit - pos)
    ↔ 0 ≤ k - pos ∧ k - pos < size ∧ clip ≤ k ∧ k < clip + len ∧ k < limit
  := by
  rw [clipMin_eq, max_le_iff, lt_min_iff, sub_le_sub_iff_right, max_le_iff, sub_lt_sub_iff_right,
    lt_min_iff]
  tauto

/-- A cell is under the clipped picture if it is under the picture and in the clip rectangle. -/
theorem block_clipped (w h j : Nat) :
  t.Block dx dy (left dx clip) (right t w dx clip) (top dy clip) (bottom t h dy clip) j
    ↔ t.Block dx dy 0 w 0 h j ∧ InClip t clip j
  := by
  constructor
  · rintro ⟨htop, hbottom, hleft, hright, hinside⟩
    obtain ⟨hle, hlt, hclip, hclip', -⟩ := (span_iff (t.row_nonneg j)).mp ⟨htop, hbottom⟩
    obtain ⟨hle', hlt', hclip'', hclip''', -⟩ := (span_iff (t.column_nonneg j)).mp ⟨hleft, hright⟩
    exact ⟨⟨hle, hlt, hle', hlt', hinside⟩, hinside, hclip'', hclip''', hclip, hclip'⟩
  · rintro ⟨⟨hle, hlt, hle', hlt', hinside⟩, -, hclip'', hclip''', hclip, hclip'⟩
    obtain ⟨htop, hbottom⟩ := (span_iff (t.row_nonneg j)).mpr ⟨hle, hlt, hclip, hclip', hinside.2⟩
    obtain ⟨hleft, hright⟩ :=
      (span_iff (t.column_nonneg j)).mpr ⟨hle', hlt', hclip'', hclip''', hinside.1⟩
    exact ⟨htop, hbottom, hleft, hright, hinside⟩

/-- Some row of the picture lies in the target and in the clip rectangle. -/
def DrawsRow (t : Target) (h : Nat) (dy : Int) (clip : Clip) : Prop :=
  ∃ row, dy ≤ row ∧ row < dy + h ∧ 0 ≤ row ∧ row < t.h ∧ clip.y ≤ row ∧ row < clip.y + clip.h

theorem drawsRow_iff (h : Nat) :
  DrawsRow t h dy clip ↔ top dy clip < bottom t h dy clip
  := by
  rw [top, bottom, clipMin_eq]
  constructor
  · rintro ⟨row, hrow⟩
    omega
  · intro hlt
    exact ⟨dy + max 0 (max clip.y 0 - dy), by omega⟩

/-- A coordinate below `2 ^ 30` in magnitude. -/
def Near (v : Int) : Prop := -2 ^ 30 < v ∧ v < 2 ^ 30

instance (v : Int) : Decidable (Near v) := inferInstanceAs (Decidable (_ ∧ _))

/-- The coordinates of a clip rectangle are below `2 ^ 30`. -/
structure Clip.Near (clip : Clip) : Prop where
  x : Image.Near clip.x
  y : Image.Near clip.y
  w : Image.Near clip.w
  h : Image.Near clip.h

/-- For near coordinates only the end of the clipped part can overflow. -/
theorem axisFits_iff {pos clip len : Int} {size limit : Nat} (hpos : Near pos) (hclip : Near clip)
    (hsize : size < 2 ^ 30) :
  AxisFits pos size clip len limit ↔ -2 ^ 31 ≤ clip + len - pos
  := by
  have hmin := clipMin_eq clip
  rw [Near] at hpos hclip
  constructor
  · rintro ⟨-, -, hhigh⟩
    by_contra hcon
    have hle := hhigh (by omega)
    omega
  · intro hle
    exact ⟨by omega, by omega, by omega⟩

theorem clipFits_iff (hdx : Near dx) (hdy : Near dy) (hclip : clip.Near) :
  ClipFits t p.w p.h dx dy clip
    ↔ -2 ^ 31 ≤ clip.y + clip.h - dy
      ∧ (-2 ^ 31 ≤ clip.x + clip.w - dx ∨ ¬ DrawsRow t p.h dy clip)
  := by
  obtain ⟨hx, hy, hw, hh⟩ := hclip
  rw [drawsRow_iff]
  constructor
  · rintro ⟨-, -, hfitsY, hfitsX⟩
    use (axisFits_iff hdy hy p.h_lt).mp hfitsY
    by_cases hdraws : top dy clip < bottom t p.h dy clip
    · exact Or.inl ((axisFits_iff hdx hx p.w_lt).mp (hfitsX hdraws))
    · exact Or.inr hdraws
  · rintro ⟨hfitsY, hfitsX⟩
    refine ⟨?_, ?_, (axisFits_iff hdy hy p.h_lt).mpr hfitsY, ?_⟩
    · rw [Image.Near] at hx hw
      omega
    · rw [Image.Near] at hy hh
      omega
    · intro hdraws
      rcases hfitsX with hle | hnot
      · exact (axisFits_iff hdx hx p.w_lt).mpr hle
      · exact absurd hdraws hnot

/-- Both blits access only cells of the picture and the target; the clipped one changes the cells in
the clip rectangle as the plain one does, and no other. -/
def BlitsAgree (t : Target) (dx dy : Int) (p : Picture) (clip : Clip) (cells : Nat → UInt32) : Prop :=
  ∃ plain clipped, imageBlitAlpha t dx dy p cells = some plain
    ∧ imageBlitAlphaClipped t dx dy p clip cells = some clipped
    ∧ ∀ j, (InClip t clip j → clipped j = plain j) ∧ (¬ InClip t clip j → clipped j = cells j)

theorem blitsAgree_null (h : t.dst = 0 ∨ p.src = 0) (cells : Nat → UInt32) :
  BlitsAgree t dx dy p clip cells
  := by
  refine ⟨cells, cells, ?_, ?_, fun _ => ⟨fun _ => rfl, fun _ => rfl⟩⟩
  · rw [imageBlitAlpha, if_pos h]
  · rw [imageBlitAlphaClipped, if_pos h]

theorem blitsAgree_of_clipFits (ht : t.dst ≠ 0) (hp : p.src ≠ 0) (hdx : Near dx) (hdy : Near dy)
    (hfits : ClipFits t p.w p.h dx dy clip) (cells : Nat → UInt32) :
  BlitsAgree t dx dy p clip cells
  := by
  have hw := p.w_lt
  have hh := p.h_lt
  rw [Near] at hdx hdy
  refine ⟨_, _, imageBlitAlpha_paint ht hp (by omega) (by omega) (by omega) (by omega) cells,
    imageBlitAlphaClipped_paint ht hp hfits (by omega) (by omega) cells, ?_⟩
  intro j
  have hblock : t.Block dx dy (left dx clip) (right t p.w dx clip) (top dy clip)
        (bottom t p.h dy clip) j
      ↔ t.Block dx dy 0 p.w 0 p.h j ∧ InClip t clip j := block_clipped p.w p.h j
  constructor
  · intro hin
    by_cases hcovered : t.Block dx dy 0 p.w 0 p.h j
    · rw [paint_of_mem (hblock.mpr ⟨hcovered, hin⟩), paint_of_mem hcovered]
    · rw [paint_of_not_mem (fun hcon => hcovered (hblock.mp hcon).1), paint_of_not_mem hcovered]
  · intro hout
    exact paint_of_not_mem (fun hcon => hout (hblock.mp hcon).2)

/-- The blits agree unless the end of the part that is drawn overflows: its row, or its column when
there is a row to draw. -/
theorem blitsAgree_iff
    (t : Target) (p : Picture) (cells : Nat → UInt32) (hdx : Near dx) (hdy : Near dy)
    (hclip : clip.Near) :
  BlitsAgree t dx dy p clip cells
    ↔ t.dst = 0 ∨ p.src = 0
      ∨ (-2 ^ 31 ≤ clip.y + clip.h - dy
        ∧ (-2 ^ 31 ≤ clip.x + clip.w - dx ∨ ¬ DrawsRow t p.h dy clip))
  := by
  by_cases hnull : t.dst = 0 ∨ p.src = 0
  · rw [← or_assoc]
    exact ⟨fun _ => Or.inl hnull, fun _ => blitsAgree_null hnull cells⟩
  obtain ⟨ht, hp⟩ := not_or.mp hnull
  rw [← or_assoc, or_iff_right hnull, ← clipFits_iff (p := p) hdx hdy hclip]
  constructor
  · rintro ⟨-, clipped, -, hclipped, -⟩
    by_contra hfits
    rw [Near] at hdy
    rw [imageBlitAlphaClipped_none ht hp hfits (by omega) cells] at hclipped
    exact absurd hclipped (Option.some_ne_none clipped).symm
  · intro hfits
    exact blitsAgree_of_clipFits ht hp hdx hdy hfits cells

end

/-- A screen of 64 columns and rows. -/
def screen : Target := ⟨65536, 64, 64, by decide, by decide, by decide⟩

/-- A square of 32 columns and rows. -/
def square : Picture := ⟨4096, fun _ => 0xFF000000, 1024, 32, 32, 32, by decide, by decide, by decide,
  by decide⟩

theorem blitsAgree_screen :
  BlitsAgree screen (-5) 40 square ⟨0, 16, 64, 32⟩ (fun _ => 0)
  := by
  apply (blitsAgree_iff screen square (fun _ => 0) (by decide) (by decide)
    ⟨by decide, by decide, by decide, by decide⟩).mpr
  exact Or.inr (Or.inr ⟨by decide, Or.inl (by decide)⟩)

/-- A clip rectangle that is inverted, below a picture far above. -/
theorem not_blitsAgree :
  ¬ BlitsAgree screen 0 (2 ^ 30 - 1) square ⟨0, -(2 ^ 30 - 1), 64, -(2 ^ 30 - 1)⟩ (fun _ => 0)
  := by
  have hnone : imageBlitAlphaClipped screen 0 (2 ^ 30 - 1) square
      ⟨0, -(2 ^ 30 - 1), 64, -(2 ^ 30 - 1)⟩ (fun _ => 0) = none := by decide
  rintro ⟨-, clipped, -, hclipped, -⟩
  rw [hnone] at hclipped
  exact absurd hclipped (Option.some_ne_none clipped).symm

end Image
