import Woos.Image.Blit

/-!
# Scaling and drawing in one pass

`imageScaleBlitDirect` draws a scaled image without a buffer for it.  `draws_same_iff` compares it with
`imageScaleBilinear` into a buffer and `imageBlitAlphaClipped` from there.
-/

namespace Image

open Checked Painting

/-! ### `image_scale_blit_direct` -/

/-- Draw the pixel that is blended from samples. -/
def directPixel (t : Target) (i : Int) (s : Samples) (xDiff yDiff : Nat) (cells : Nat → UInt32) :
    Option (Nat → UInt32) := do
  let sa ← blendChannel s xDiff yDiff .alpha
  if sa = 0 then some cells
  else do
    let sr ← blendChannel s xDiff yDiff .red
    let sg ← blendChannel s xDiff yDiff .green
    let sb ← blendChannel s xDiff yDiff .blue
    if 255 ≤ sa then storeAt cells (t.w * t.h) i (Packing.pack 0xFF sr sg sb)
    else do
      let dp ← loadAt cells (t.w * t.h) i
      storeAt cells (t.w * t.h) i (overPixel sa sr sg sb dp)

/-- A pass of the loop over the columns. -/
def directColumn (t : Target) (dx : Int) (pixels : Nat → UInt32) (sw sh : Nat)
    (minX maxX : Int) (xRatio : Nat) (py : Place) (dstRow x : Int) (cells : Nat → UInt32) :
    Option (Nat → UInt32) := do
  let tx ← sint (dx + x)
  if tx < minX ∨ maxX ≤ tx then some cells
  else do
    let px ← placeOf xRatio x.toNat
    let s ← samples pixels sw sh py.start px.start
    directPixel t (dstRow + tx) s px.diff py.diff cells

/-- A pass of the loop over the rows. -/
def directRow (t : Target) (dx dy : Int) (pixels : Nat → UInt32) (sw sh dw : Nat)
    (minX maxX minY maxY : Int) (xRatio yRatio : Nat) (y : Int) (cells : Nat → UInt32) :
    Option (Nat → UInt32) := do
  let ty ← sint (dy + y)
  if ty < minY ∨ maxY ≤ ty then some cells
  else do
    let py ← placeOf yRatio y.toNat
    let dstRow ← sint (ty * t.w)
    fromTo 0 dw (directColumn t dx pixels sw sh minX maxX xRatio py dstRow) cells

/-- The loops of `image_scale_blit_direct`. -/
def directLoops (t : Target) (dx dy : Int) (pixels : Nat → UInt32) (sw sh dw dh : Nat) (clip : Clip)
    (cells : Nat → UInt32) : Option (Nat → UInt32) := do
  let maxY ← clipMax clip.y clip.h t.h
  let maxX ← clipMax clip.x clip.w t.w
  let xRatio ← ratio sw dw
  let yRatio ← ratio sh dh
  fromTo 0 dh
    (directRow t dx dy pixels sw sh dw (clipMin clip.x) maxX (clipMin clip.y) maxY xRatio yRatio) cells

/-- `image_scale_blit_direct` -/
def imageScaleBlitDirect (t : Target) (dx dy : Int) (src : UInt32) (pixels : Nat → UInt32)
    (sw sh dw dh : Int32) (clip : Clip) (cells : Nat → UInt32) : Option (Nat → UInt32) :=
  if Refused src sw sh t.dst dw dh then some cells
  else directLoops t dx dy pixels sw.toInt.toNat sh.toInt.toNat dw.toInt.toNat dh.toInt.toNat clip
    cells

/-! ### The pixels of the scaled image -/

/-- A scaled image has all its pixels. -/
def IsScaled (pixels : Nat → UInt32) (sw sh dw dh : Nat) (out : Nat → UInt32) : Prop :=
  ∀ y < dh, ∀ x < dw, scaledAt pixels sw sh dw dh y x = some (out (y * dw + x))

section Scaled

variable {pixels : Nat → UInt32} {sw sh dw dh : Nat}

/-! ### Images of the same size -/

/-- The places of an image that is not scaled are its own columns or rows. -/
theorem placeOf_same {s i : Nat} (hs : Length s) (hi : i < s) :
  ∃ r, ratio s s = some r ∧ placeOf r i = some ⟨i, 0⟩
  := by
  have hle := hs.2
  by_cases hone : 1 < s
  · refine ⟨_, ratio_some hs hone, ?_⟩
    rw [Nat.mul_div_cancel_left _ (by omega), placeOf, int_of_lt (by omega), Option.map_some,
      Nat.mul_div_cancel _ (by decide), Nat.mul_mod_left]
  · obtain rfl : s = 1 := by omega
    obtain rfl : i = 0 := by omega
    exact ⟨0, by decide, by decide⟩

theorem mix_zero {a : Nat} (b : Nat) (ha : a < 2 ^ 8) :
  mix a b 0 = some a
  := by
  rw [mix, Nat.sub_zero, Nat.mul_zero, word_of_lt (by omega), Option.bind_eq_bind, Option.bind_some,
    word_of_lt (by decide), Option.bind_some, Nat.add_zero, word_of_lt (by omega), Option.bind_some,
    Nat.mul_div_cancel _ (by decide)]
  rfl

theorem blendChannel_zero (s : Samples) (c : Channel) :
  blendChannel s 0 0 c = some (c.of s.p00)
  := by
  rw [blendChannel, mix_zero _ (c.of_lt s.p00), mix_zero _ (c.of_lt s.p10), Option.bind_eq_bind,
    Option.bind_some, Option.bind_some, mix_zero _ (c.of_lt s.p00), Option.bind_some,
    UInt32.ofNat_toNat]
  rfl

theorem blend_zero (s : Samples) :
  blend s 0 0 = some s.p00
  := by
  simp only [blend, blendChannel_zero, Option.bind_eq_bind, Option.bind_some]
  exact congrArg some (Packing.pack_bytes s.p00)

theorem scaledAt_same (hsw : Length sw) (hsh : Length sh) {y x : Nat} (hy : y < sh) (hx : x < sw) :
  scaledAt pixels sw sh sw sh y x = some (pixels (y * sw + x))
  := by
  obtain ⟨xRatio, hxRatio, hpx⟩ := placeOf_same hsw hx
  obtain ⟨yRatio, hyRatio, hpy⟩ := placeOf_same hsh hy
  obtain ⟨s, hs, -⟩ := samples_some pixels hsw hsh hy hx
  obtain ⟨-, hpixel⟩ := pixelAt_some pixels hsw hsh hy hx
  have hp00 : s.p00 = pixels (y * sw + x) := by
    rw [samples, hpixel, Option.bind_eq_bind, Option.bind_some] at hs
    obtain ⟨p01, -, hs⟩ := Option.bind_eq_some_iff.mp hs
    obtain ⟨p10, -, hs⟩ := Option.bind_eq_some_iff.mp hs
    obtain ⟨p11, -, hs⟩ := Option.bind_eq_some_iff.mp hs
    exact congrArg Samples.p00 (Option.some_inj.mp hs).symm
  simp only [scaledAt, hxRatio, hyRatio, hpy, bilinearCell, hpx, hs, Option.bind_eq_bind,
    Option.bind_some, blend_zero, hp00]

end Scaled

section Scaler

variable {src tmp : UInt32} {sw sh dw dh : Int32}

/-- The scaler does not take the nearest pixel. -/
def Bilinear (sw sh dw dh : Int32) : Prop :=
  (dw = sw ∧ dh = sh) ∨ ¬ Nearest sw.toInt.toNat sh.toInt.toNat dw.toInt.toNat dh.toInt.toNat

theorem imageScaleBilinear_isScaled
    (pixels out : Nat → UInt32) (hsw : Dimension sw) (hsh : Dimension sh) (hdw : Dimension dw)
    (hdh : Dimension dh) (hsrc : Held src sw sh) (htmp : Held tmp dw dh)
    (hpath : Bilinear sw sh dw dh) :
  ∃ out', imageScaleBilinear src pixels sw sh tmp out dw dh = some out'
    ∧ IsScaled pixels sw.toInt.toNat sh.toInt.toNat dw.toInt.toNat dh.toInt.toNat out'
  := by
  rw [imageScaleBilinear, if_neg (not_refused hsw hsh hdw hdh hsrc htmp)]
  by_cases hsame : dw = sw ∧ dh = sh
  · obtain ⟨rfl, rfl⟩ := hsame
    have harea := hdw.length.area_le hdh.length
    have hsize : 4 * (dw.toInt.toNat * dh.toInt.toNat) < 2 ^ 32 := by
      have hne : src.toNat ≠ 0 := fun hcon => hsrc.ne_zero (UInt32.toNat_inj.mp hcon)
      have hfits := hsrc.fits
      rw [area] at hfits
      omega
    rw [if_pos ⟨rfl, rfl⟩, copyPixels_some pixels out hsize]
    refine ⟨_, rfl, ?_⟩
    intro y hy x hx
    rw [scaledAt_same hsw.length hsh.length hy hx]
    exact congrArg some (if_pos (row_lt hy hx)).symm
  · have hnearest := hpath.resolve_left hsame
    rw [if_neg hsame, if_neg hnearest]
    simp only [Nearest, not_or, Nat.not_lt] at hnearest
    obtain ⟨out', hout', hfilled⟩ := bilinearLoops_some pixels out hsw.length hsh.length hdw.length
      hdh.length (by omega) (by omega)
    exact ⟨out', hout', fun y hy x hx => (hfilled.meets hy hx).1⟩

end Scaler

/-! ### Drawing from samples -/

section Loops

variable {t : Target} {dx dy : Int} {clip : Clip} {pixels : Nat → UInt32}

/-- A pixel that is blended is drawn as it would be from a buffer. -/
theorem directPixel_eq {s : Samples} {xDiff yDiff : Nat} (hx : xDiff < 2 ^ 16) (hy : yDiff < 2 ^ 16)
    {sp : UInt32} (hsp : blend s xDiff yDiff = some sp) (i : Int) (cells : Nat → UInt32) :
  directPixel t i s xDiff yDiff cells = blitPixel t i sp cells
  := by
  obtain ⟨a, ha, halpha, -⟩ := blendChannel_some s hx hy .alpha
  obtain ⟨r, hr, hred, -⟩ := blendChannel_some s hx hy .red
  obtain ⟨g, hg, hgreen, -⟩ := blendChannel_some s hx hy .green
  obtain ⟨b, hb, hblue, -⟩ := blendChannel_some s hx hy .blue
  obtain ⟨htop, hsecond, hthird, hlow⟩ := Packing.bytes_pack halpha hred hgreen hblue
  have hpack : Packing.pack a r g b = sp := by
    rw [blend, ha, hr, hg, hb] at hsp
    exact Option.some_inj.mp hsp
  have hmask : a &&& 0xFF = a := by
    apply UInt32.toNat_inj.mp
    rw [Packing.toNat_low, Nat.mod_eq_of_lt halpha]
  rw [hpack] at htop hsecond hthird hlow
  simp only [directPixel, ha, hr, hg, hb, Option.bind_eq_bind, Option.bind_some]
  rw [blitPixel, htop, hmask, hsecond, hthird, hlow]
  by_cases hfull : a = 255
  · rw [← hpack, hfull]
    rfl
  · have hlt : ¬ 255 ≤ a := by
      rw [UInt32.le_iff_toNat_le]
      intro hcon
      apply hfull
      apply UInt32.toNat_inj.mp
      exact Nat.le_antisymm (Nat.le_of_lt_succ halpha) hcon
    rw [if_neg hlt, if_neg hfull]
    rfl

theorem placeOf_diff_lt {r i : Nat} {p : Place} (h : placeOf r i = some p) :
  p.diff < 2 ^ 16
  := by
  obtain ⟨v, -, rfl⟩ := Option.map_eq_some_iff.mp h
  exact Nat.mod_lt _ (by decide)

/-- The steps of a pixel of the scaled image. -/
theorem bilinearCell_steps {sw sh xRatio x : Nat} {py : Place} {sp : UInt32}
    (h : bilinearCell pixels sw sh xRatio py x = some sp) :
  ∃ px s, placeOf xRatio x = some px ∧ samples pixels sw sh py.start px.start = some s
    ∧ blend s px.diff py.diff = some sp
  := by
  obtain ⟨px, hpx, h⟩ := Option.bind_eq_some_iff.mp h
  obtain ⟨s, hs, hblend⟩ := Option.bind_eq_some_iff.mp h
  exact ⟨px, s, hpx, hs, hblend⟩

section Drawn

variable {image : Int → Int → UInt32} {sw sh dw dh xRatio yRatio : Nat}

/-- A pass paints the cell at its place if it is in the clip rectangle. -/
theorem directColumn_paint {py : Place} {y x minX maxX : Int} (hdiff : py.diff < 2 ^ 16)
    (hcell : bilinearCell pixels sw sh xRatio py x.toNat = some (image y x))
    (hrow : 0 ≤ dy + y ∧ dy + y < t.h) (hmin : 0 ≤ minX) (hmax : maxX ≤ t.w)
    (hle : -2 ^ 31 ≤ dx + x) (hlt : dx + x < 2 ^ 31) (cells : Nat → UInt32) :
  directColumn t dx pixels sw sh minX maxX xRatio py ((dy + y) * t.w) x cells
    = some (paint (fun j => t.column j = dx + x ∧ t.row j = dy + y ∧ minX ≤ t.column j
        ∧ t.column j < maxX ∧ t.Inside j) (drawnAt t dx dy image) cells)
  := by
  rw [directColumn, sint_some hle hlt, Option.bind_eq_bind, Option.bind_some]
  by_cases houtside : dx + x < minX ∨ maxX ≤ dx + x
  · rw [if_pos houtside, paint_empty]
    rintro j ⟨hcolumn, -, hle, hlt, -⟩
    omega
  · obtain ⟨px, s, hpx, hs, hblend⟩ := bilinearCell_steps hcell
    have hpixel : image y x = image (dy + y - dy) (dx + x - dx) := by
      rw [add_sub_cancel_left, add_sub_cancel_left]
    rw [if_neg houtside, hpx, Option.bind_eq_bind, Option.bind_some, hs, Option.bind_eq_bind,
      Option.bind_some,
      directPixel_eq (placeOf_diff_lt hpx) hdiff hblend, hpixel,
      blitPixel_paint hrow.1 hrow.2 (by omega) (by omega)]
    congr 1
    apply paint_congr _ _ (fun _ _ => rfl)
    intro j
    rw [Target.Inside]
    omega

/-- A row of the scaled image paints the cells of its row that lie in the clip rectangle. -/
theorem directRow_paint {y minX maxX minY maxY : Int} (hxRatio : ratio sw dw = some xRatio)
    (hyRatio : ratio sh dh = some yRatio)
    (himage : ∀ x : Int, 0 ≤ x → x < dw →
      scaledAt pixels sw sh dw dh y.toNat x.toNat = some (image y x))
    (hpy : ∃ py, placeOf yRatio y.toNat = some py) (hmin : 0 ≤ minX) (hmax : maxX ≤ t.w)
    (hmin' : 0 ≤ minY) (hmax' : maxY ≤ t.h) (hle : -2 ^ 31 ≤ dy + y) (hlt : dy + y < 2 ^ 31)
    (hdx : -2 ^ 31 ≤ dx) (hlast : minY ≤ dy + y → dy + y < maxY → dx + dw ≤ 2 ^ 31)
    (cells : Nat → UInt32) :
  directRow t dx dy pixels sw sh dw minX maxX minY maxY xRatio yRatio y cells
    = some (paint (fun j => t.row j = dy + y ∧ minY ≤ t.row j ∧ t.row j < maxY
        ∧ 0 ≤ t.column j - dx ∧ t.column j - dx < dw ∧ minX ≤ t.column j ∧ t.column j < maxX
        ∧ t.Inside j) (drawnAt t dx dy image) cells)
  := by
  rw [directRow, sint_some hle hlt, Option.bind_eq_bind, Option.bind_some]
  by_cases houtside : dy + y < minY ∨ maxY ≤ dy + y
  · rw [if_pos houtside, paint_empty]
    rintro j ⟨hrow, hle, hlt, -⟩
    omega
  · obtain ⟨py, hpy⟩ := hpy
    have hlast' := hlast (by omega) (by omega)
    have hcolumn : ∀ x, 0 ≤ x → x < (dw : Int) → ∀ cells,
        directColumn t dx pixels sw sh minX maxX xRatio py ((dy + y) * t.w) x cells
          = some (paint (fun j => t.column j = dx + x ∧ t.row j = dy + y ∧ minX ≤ t.column j
              ∧ t.column j < maxX ∧ t.Inside j) (drawnAt t dx dy image) cells) := by
      intro x hx hx'
      have hpixel := himage x hx hx'
      rw [scaledAt, hxRatio, hyRatio, Option.bind_eq_bind, Option.bind_some, Option.bind_some, hpy,
        Option.bind_eq_bind, Option.bind_some] at hpixel
      exact directColumn_paint (placeOf_diff_lt hpy) hpixel (by omega) hmin hmax (by omega)
        (by omega)
    rw [if_neg houtside, hpy, Option.bind_eq_bind, Option.bind_some, t.line (by omega) (by omega),
      Option.bind_some, fromTo_paint_key t.column hcolumn]
    congr 1
    apply paint_congr _ _ (fun _ _ => rfl)
    intro j
    constructor
    · rintro ⟨hle, hlt, hrow, hle', hlt', hinside⟩
      exact ⟨hrow, by omega, by omega, hle, hlt, hle', hlt', hinside⟩
    · rintro ⟨hrow, -, -, hle, hlt, hle', hlt', hinside⟩
      exact ⟨hle, hlt, hrow, hle', hlt', hinside⟩

end Drawn

section Direct

variable {image : Int → Int → UInt32} {sw sh dw dh : Nat}

/-- `image_scale_blit_direct` paints the cells that lie under the scaled image and in the clip
rectangle. -/
theorem directLoops_paint (hsw : ∃ r, ratio sw dw = some r) (hsh : ∃ r, ratio sh dh = some r)
    (himage : ∀ y x : Int, 0 ≤ y → y < dh → 0 ≤ x → x < dw →
      scaledAt pixels sw sh dw dh y.toNat x.toNat = some (image y x))
    (hfits : ClipFits t dw dh dx dy clip) (hdx : -2 ^ 31 ≤ dx) (hdy : -2 ^ 31 ≤ dy)
    (hpos : 0 < dw) (cells : Nat → UInt32) :
  directLoops t dx dy pixels sw sh dw dh clip cells
    = some (paint (t.Block dx dy (left dx clip) (right t dw dx clip) (top dy clip)
        (bottom t dh dy clip)) (drawnAt t dx dy image) cells)
  := by
  obtain ⟨xRatio, hxRatio⟩ := hsw
  obtain ⟨yRatio, hyRatio⟩ := hsh
  obtain ⟨hcolumns, hrows, hy, hx⟩ := hfits
  have hminX := clipMin_eq clip.x
  have hminY := clipMin_eq clip.y
  have hstop := hy.stop_lt
  have hrow : ∀ y, 0 ≤ y → y < (dh : Int) → ∀ cells,
      directRow t dx dy pixels sw sh dw (clipMin clip.x) (min (clip.x + clip.w) t.w)
          (clipMin clip.y) (min (clip.y + clip.h) t.h) xRatio yRatio y cells
        = some (paint (fun j => t.row j = dy + y ∧ clipMin clip.y ≤ t.row j
            ∧ t.row j < min (clip.y + clip.h) t.h ∧ 0 ≤ t.column j - dx ∧ t.column j - dx < dw
            ∧ clipMin clip.x ≤ t.column j ∧ t.column j < min (clip.x + clip.w) t.w
            ∧ t.Inside j) (drawnAt t dx dy image) cells) := by
    intro y hle hlt
    have hcell := himage y 0 hle hlt (Int.le_refl 0) (by omega)
    rw [scaledAt, hxRatio, hyRatio, Option.bind_eq_bind, Option.bind_some, Option.bind_some] at hcell
    obtain ⟨py, hpy, -⟩ := Option.bind_eq_some_iff.mp hcell
    apply directRow_paint hxRatio hyRatio (fun x hx hx' => himage y x hle hlt hx hx')
      ⟨py, hpy⟩ (by omega) (by omega) (by omega) (by omega) (by omega) (by omega) hdx
    intro hmin hmax
    have hdraws : top dy clip < bottom t dh dy clip := by
      rw [top, bottom]
      omega
    have hlast := (hx hdraws).stop_lt
    omega
  rw [directLoops, clipMax_some _ hrows.1 hrows.2, Option.bind_eq_bind, Option.bind_some,
    clipMax_some _ hcolumns.1 hcolumns.2, Option.bind_eq_bind, Option.bind_some, hxRatio,
    Option.bind_some, hyRatio, Option.bind_some, fromTo_paint_key t.row hrow]
  congr 1
  apply paint_congr _ _ (fun _ _ => rfl)
  intro j
  rw [Target.Block, Target.Inside, left, right, top, bottom]
  omega

end Direct

end Loops

/-! ### The two together -/

section Agree

variable {src tmp : UInt32} {sw sh dw dh : Int32}

/-- The buffer with the scaled image. -/
def scaledPicture (tmp : UInt32) (scaled : Nat → UInt32) (hdw : Dimension dw) (hdh : Dimension dh)
    (htmp : Held tmp dw dh) : Picture where
  src := tmp
  pixels := scaled
  size := area dw dh
  w := dw.toInt.toNat
  h := dh.toInt.toNat
  pitch := dw.toInt.toNat
  held := htmp.fits
  extent := fun _ hy => row_end_le hy
  w_lt := Nat.lt_of_le_of_lt hdw.length.2 (by decide)
  h_lt := Nat.lt_of_le_of_lt hdh.length.2 (by decide)

/-- `image_scale_bilinear` into a buffer whose pixels are `out`, and `image_blit_alpha_clipped`. -/
def scaleThenBlit (t : Target) (dx dy : Int) (src : UInt32) (pixels : Nat → UInt32)
    (sw sh : Int32) (out : Nat → UInt32) (clip : Clip) (hdw : Dimension dw) (hdh : Dimension dh)
    (htmp : Held tmp dw dh) (cells : Nat → UInt32) : Option (Nat → UInt32) := do
  let scaled ← imageScaleBilinear src pixels sw sh tmp out dw dh
  imageBlitAlphaClipped t dx dy (scaledPicture tmp scaled hdw hdh htmp) clip cells

theorem ratio_isSome {s d : Nat} (hs : Length s) (h : d = s ∨ 1 < d) :
  ∃ r, ratio s d = some r
  := by
  rcases h with rfl | hlt
  · obtain ⟨r, hr, -⟩ := placeOf_same hs hs.1
    exact ⟨r, hr⟩
  · exact ⟨_, ratio_some hs hlt⟩

theorem Bilinear.sides (h : Bilinear sw sh dw dh) :
  (dw.toInt.toNat = sw.toInt.toNat ∨ 1 < dw.toInt.toNat)
    ∧ (dh.toInt.toNat = sh.toInt.toNat ∨ 1 < dh.toInt.toNat)
  := by
  rcases h with ⟨rfl, rfl⟩ | hnearest
  · exact ⟨Or.inl rfl, Or.inl rfl⟩
  · simp only [Nearest, not_or, Nat.not_lt] at hnearest
    exact ⟨Or.inr (by omega), Or.inr (by omega)⟩

/-- The fallback and the two passes succeed, and leave the same target. -/
def DrawsSame (t : Target) (dx dy : Int32) (src : UInt32) (pixels : Nat → UInt32) (sw sh : Int32)
    (out : Nat → UInt32) (clip : Clip) (hdw : Dimension dw) (hdh : Dimension dh)
    (htmp : Held tmp dw dh) (cells : Nat → UInt32) : Prop :=
  ∃ cells', imageScaleBlitDirect t dx.toInt dy.toInt src pixels sw sh dw dh clip cells = some cells'
    ∧ scaleThenBlit t dx.toInt dy.toInt src pixels sw sh out clip hdw hdh htmp cells = some cells'

/-- The fallback draws as the two passes do unless the clipping overflows. -/
theorem drawsSame_iff
    {clip : Clip} (t : Target) (dx dy : Int32) (pixels out cells : Nat → UInt32)
    (hsw : Dimension sw) (hsh : Dimension sh) (hdw : Dimension dw) (hdh : Dimension dh)
    (hsrc : Held src sw sh) (htmp : Held tmp dw dh) (hpath : Bilinear sw sh dw dh) :
  DrawsSame t dx dy src pixels sw sh out clip hdw hdh htmp cells
    ↔ t.dst = 0 ∨ ClipFits t dw.toInt.toNat dh.toInt.toNat dx.toInt dy.toInt clip
  := by
  have hdx := Int32.le_toInt dx
  have hdy := Int32.le_toInt dy
  obtain ⟨scaled, hscaled, hpixels⟩ :=
    imageScaleBilinear_isScaled pixels out hsw hsh hdw hdh hsrc htmp hpath
  have hblit (cells : Nat → UInt32) :
      scaleThenBlit t dx.toInt dy.toInt src pixels sw sh out clip hdw hdh htmp cells
        = imageBlitAlphaClipped t dx.toInt dy.toInt (scaledPicture tmp scaled hdw hdh htmp) clip
            cells := by
    rw [scaleThenBlit, hscaled, Option.bind_eq_bind, Option.bind_some]
  rw [DrawsSame, hblit]
  by_cases ht : t.dst = 0
  · constructor
    · exact fun _ => Or.inl ht
    · exact fun _ => ⟨cells, if_pos (Or.inr (Or.inl ht)), if_pos (Or.inl ht)⟩
  rw [or_iff_right ht]
  constructor
  · rintro ⟨cells', -, hcells'⟩
    by_contra hfits
    rw [imageBlitAlphaClipped_none ht htmp.ne_zero hfits hdy] at hcells'
    exact absurd hcells' (Option.some_ne_none cells').symm
  · intro hfits
    refine ⟨_, ?_, imageBlitAlphaClipped_paint ht htmp.ne_zero hfits hdx hdy cells⟩
    have hrefused : ¬ Refused src sw sh t.dst dw dh := by
      simp only [Refused, not_or]
      exact ⟨hsrc.ne_zero, ht, hsw.pos, hsh.pos, hdw.pos, hdh.pos⟩
    rw [imageScaleBlitDirect, if_neg hrefused]
    apply directLoops_paint (ratio_isSome hsw.length hpath.sides.1)
      (ratio_isSome hsh.length hpath.sides.2) _ hfits hdx hdy hdw.length.1
    intro y x hy hy' hx hx'
    obtain ⟨r, rfl⟩ := Int.eq_ofNat_of_zero_le hy
    obtain ⟨c, rfl⟩ := Int.eq_ofNat_of_zero_le hx
    exact hpixels r (by omega) c (by omega)

end Agree

/-- A side of 32 pixels. -/
theorem dimension_32 :
  Dimension 32
  := ⟨by decide, by decide⟩

theorem held_square :
  Held 4096 32 32
  := ⟨by decide, by decide⟩

theorem drawsSame_screen :
  DrawsSame screen (-5) 40 4096 stripes 32 32 (fun _ => 0) ⟨0, 16, 64, 32⟩ dimension_32 dimension_32
    held_square (fun _ => 0)
  := by
  apply (drawsSame_iff screen (-5) 40 stripes (fun _ => 0) (fun _ => 0) dimension_32 dimension_32
    dimension_32 dimension_32 held_square held_square (Or.inl ⟨rfl, rfl⟩)).mpr
  right
  exact ⟨by decide, by decide, ⟨by decide, by decide, by decide⟩,
    fun _ => ⟨by decide, by decide, by decide⟩⟩

/-- An image below the last row that a word can hold. -/
theorem not_drawsSame :
  ¬ DrawsSame screen 0 (2 ^ 31 - 1) 4096 stripes 32 32 (fun _ => 0) ⟨0, 0, 64, 64⟩ dimension_32
    dimension_32 held_square (fun _ => 0)
  := by
  rintro ⟨cells', -, hcells'⟩
  rw [scaleThenBlit, Option.bind_eq_bind] at hcells'
  obtain ⟨scaled, -, hblit⟩ := Option.bind_eq_some_iff.mp hcells'
  have hfits : ¬ ClipFits screen 32 32 0 (2 ^ 31 - 1) ⟨0, 0, 64, 64⟩ := by
    intro hcon
    exact absurd hcon.y.stop_lt (by decide)
  have hnone : imageBlitAlphaClipped screen 0 (2 ^ 31 - 1)
      (scaledPicture 4096 scaled dimension_32 dimension_32 held_square) ⟨0, 0, 64, 64⟩ (fun _ => 0)
      = none :=
    imageBlitAlphaClipped_none (by decide) held_square.ne_zero hfits (by decide) _
  exact absurd (hnone.symm.trans hblit) (Option.some_ne_none cells').symm

end Image
