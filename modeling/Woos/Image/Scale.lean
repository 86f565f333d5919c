import Woos.Lib.Checked
import Woos.Lib.Packing

/-!
# Scaling an image

`imageScaleNearest` and `imageScaleBilinear` compute with checks: the result is `none` when a value
does not fit into its 32-bit word, or a pixel outside an image would be read or written.  The sides are
positive, so all values are natural numbers.

`scales` says that no check fails, and what the scaled image is.
-/

namespace Image

open Checked

/-! ### The nearest pixel -/

/-- The pixel in a row and a column. -/
def pixelAt (pixels : Nat → UInt32) (w h y x : Nat) : Option UInt32 :=
  (int (y * w)).bind (fun start => (int (start + x)).bind (load pixels (w * h)))

/-- `sx` and `sy` of `image_scale_nearest` -/
def nearestAt (s d i : Nat) : Option Nat :=
  (int (i * s)).map (fun t => if s ≤ t / d then s - 1 else t / d)

/-- The loops of `image_scale_nearest`. -/
def nearestLoops (pixels : Nat → UInt32) (sw sh : Nat) (out : Nat → UInt32) (dw dh : Nat) :
    Option (Nat → UInt32) :=
  raster dw dh (nearestAt sh dh)
    (fun sy x => (nearestAt sw dw x).bind (pixelAt pixels sw sh sy)) out

/-- The arguments for which the scalers return at once. -/
def Refused (src : UInt32) (sw sh : Int32) (dst : UInt32) (dw dh : Int32) : Prop :=
  src = 0 ∨ dst = 0 ∨ sw ≤ 0 ∨ sh ≤ 0 ∨ dw ≤ 0 ∨ dh ≤ 0

instance (src : UInt32) (sw sh : Int32) (dst : UInt32) (dw dh : Int32) :
    Decidable (Refused src sw sh dst dw dh) := inferInstanceAs (Decidable (_ ∨ _))

/-- `image_scale_nearest`, from the image `pixels` at `src` into the image `out` at `dst`. -/
def imageScaleNearest (src : UInt32) (pixels : Nat → UInt32) (sw sh : Int32) (dst : UInt32)
    (out : Nat → UInt32) (dw dh : Int32) : Option (Nat → UInt32) :=
  if Refused src sw sh dst dw dh then some out
  else nearestLoops pixels sw.toInt.toNat sh.toInt.toNat out dw.toInt.toNat dh.toInt.toNat

/-! ### Blending -/

/-- `x_ratio` and `y_ratio` -/
def ratio (s d : Nat) : Option Nat :=
  (int ((s - 1) * 2 ^ 16)).map (fun t => t / if 1 < d then d - 1 else 1)

/-- A place between two columns or rows: `sx` and `x_diff`, or `sy` and `y_diff`. -/
structure Place where
  start : Nat
  diff : Nat
  deriving DecidableEq, Repr

/-- The place of a column or a row. -/
def placeOf (ratio i : Nat) : Option Place :=
  (int (i * ratio)).map (fun t => ⟨t / 2 ^ 16, t % 2 ^ 16⟩)

/-- `p00` to `p11` -/
structure Samples where
  p00 : UInt32
  p01 : UInt32
  p10 : UInt32
  p11 : UInt32
  deriving DecidableEq, Repr

/-- The pixel in a row and a column under a condition, and `p00` otherwise. -/
def pixelIf (c : Prop) [Decidable c] (pixels : Nat → UInt32) (w h y x : Nat) (p00 : UInt32) :
    Option UInt32 :=
  if c then pixelAt pixels w h y x else some p00

/-- The samples at a place. -/
def samples (pixels : Nat → UInt32) (w h sy sx : Nat) : Option Samples := do
  let p00 ← pixelAt pixels w h sy sx
  let p01 ← pixelIf (sx + 1 < w) pixels w h sy (sx + 1) p00
  let p10 ← pixelIf (sy + 1 < h) pixels w h (sy + 1) sx p00
  let p11 ← pixelIf (sx + 1 < w ∧ sy + 1 < h) pixels w h (sy + 1) (sx + 1) p00
  return ⟨p00, p01, p10, p11⟩

/-- Two values, weighted with `65536 - diff` and `diff`. -/
def mix (a b diff : Nat) : Option Nat := do
  let left ← word (a * (2 ^ 16 - diff))
  let right ← word (b * diff)
  let sum ← word (left + right)
  return sum / 2 ^ 16

/-- The channels of a pixel. -/
inductive Channel where
  | alpha
  | red
  | green
  | blue
  deriving DecidableEq, Repr

/-- A channel of a pixel. -/
def Channel.of (p : UInt32) : Channel → UInt32
  | .alpha => p >>> 24
  | .red => (p >>> 16) &&& 0xFF
  | .green => (p >>> 8) &&& 0xFF
  | .blue => p &&& 0xFF

/-- `a`, `r`, `g` and `b` -/
def blendChannel (s : Samples) (xDiff yDiff : Nat) (c : Channel) : Option UInt32 := do
  let top ← mix (c.of s.p00).toNat (c.of s.p01).toNat xDiff
  let bottom ← mix (c.of s.p10).toNat (c.of s.p11).toNat xDiff
  let value ← mix top bottom yDiff
  return UInt32.ofNat value

/-- The pixel that is blended from samples. -/
def blend (s : Samples) (xDiff yDiff : Nat) : Option UInt32 := do
  let a ← blendChannel s xDiff yDiff .alpha
  let r ← blendChannel s xDiff yDiff .red
  let g ← blendChannel s xDiff yDiff .green
  let b ← blendChannel s xDiff yDiff .blue
  return Packing.pack a r g b

/-- The pixel in a column of a row whose place is given. -/
def bilinearCell (pixels : Nat → UInt32) (sw sh xRatio : Nat) (py : Place) (x : Nat) :
    Option UInt32 := do
  let px ← placeOf xRatio x
  let s ← samples pixels sw sh py.start px.start
  blend s px.diff py.diff

/-- The loops of `image_scale_bilinear`. -/
def bilinearLoops (pixels : Nat → UInt32) (sw sh : Nat) (out : Nat → UInt32) (dw dh : Nat) :
    Option (Nat → UInt32) := do
  let xRatio ← ratio sw dw
  let yRatio ← ratio sh dh
  raster dw dh (placeOf yRatio) (bilinearCell pixels sw sh xRatio) out

/-- The samples that are blended for a pixel. -/
def samplesAt (pixels : Nat → UInt32) (sw sh dw dh y x : Nat) : Option Samples := do
  let xRatio ← ratio sw dw
  let yRatio ← ratio sh dh
  let py ← placeOf yRatio y
  let px ← placeOf xRatio x
  samples pixels sw sh py.start px.start

/-- The pixel of the scaled image in a row and a column. -/
def scaledAt (pixels : Nat → UInt32) (sw sh dw dh y x : Nat) : Option UInt32 := do
  let xRatio ← ratio sw dw
  let yRatio ← ratio sh dh
  let py ← placeOf yRatio y
  bilinearCell pixels sw sh xRatio py x

/-- The `memcpy` of `w * h` pixels. -/
def copyPixels (pixels : Nat → UInt32) (w h : Nat) (out : Nat → UInt32) : Option (Nat → UInt32) := do
  let count ← word (w * h)
  let bytes ← word (count * 4)
  return fun i => if i < bytes / 4 then pixels i else out i

/-- The nearest pixel is taken for large steps and small icons. -/
def Nearest (sw sh dw dh : Nat) : Prop := dw < 32 ∨ dh < 32 ∨ 3 ≤ sw / dw ∨ 3 ≤ sh / dh

instance (sw sh dw dh : Nat) : Decidable (Nearest sw sh dw dh) :=
  inferInstanceAs (Decidable (_ ∨ _))

/-- `image_scale_bilinear`, from the image `pixels` at `src` into the image `out` at `dst`. -/
def imageScaleBilinear (src : UInt32) (pixels : Nat → UInt32) (sw sh : Int32) (dst : UInt32)
    (out : Nat → UInt32) (dw dh : Int32) : Option (Nat → UInt32) :=
  if Refused src sw sh dst dw dh then some out
  else if dw = sw ∧ dh = sh then copyPixels pixels sw.toInt.toNat sh.toInt.toNat out
  else if Nearest sw.toInt.toNat sh.toInt.toNat dw.toInt.toNat dh.toInt.toNat then
    imageScaleNearest src pixels sw sh dst out dw dh
  else bilinearLoops pixels sw.toInt.toNat sh.toInt.toNat out dw.toInt.toNat dh.toInt.toNat

/-! ### The checks of the nearest scaler -/

section Checks

variable {pixels : Nat → UInt32} {sw sh dw dh : Nat}

/-- A number of pixels in a row or a column. -/
def Length (n : Nat) : Prop := 1 ≤ n ∧ n ≤ 32768

theorem Length.area_le (hw : Length sw) (hh : Length sh) :
  sw * sh ≤ 2 ^ 30
  := by
  calc sw * sh
      ≤ 32768 * 32768 := Nat.mul_le_mul hw.2 hh.2
    _ = 2 ^ 30 := by decide

theorem pixelAt_some (pixels : Nat → UInt32) (hw : Length sw) (hh : Length sh) {y x : Nat}
    (hy : y < sh) (hx : x < sw) :
  y * sw + x < sw * sh ∧ pixelAt pixels sw sh y x = some (pixels (y * sw + x))
  := by
  have harea := hw.area_le hh
  have hlt : y * sw + x < sw * sh := row_lt hy hx
  use hlt
  rw [pixelAt, int_of_lt (by omega), Option.bind_some, int_of_lt (by omega), Option.bind_some,
    load_of_lt _ hlt]

theorem nearestAt_some {s d i : Nat} (hs : Length s) (hd : Length d) (hi : i < d) :
  i * s / d < s ∧ nearestAt s d i = some (i * s / d)
  := by
  have hlt : i * s / d < s := by
    apply Nat.div_lt_of_lt_mul
    exact Nat.mul_lt_mul_of_pos_right hi hs.1
  have hprod : i * s ≤ 2 ^ 30 := by
    calc i * s
        ≤ d * s := Nat.mul_le_mul_right s hi.le
      _ ≤ 2 ^ 30 := hd.area_le hs
  use hlt
  rw [nearestAt, int_of_lt (by omega), Option.map_some, if_neg (Nat.not_le.mpr hlt)]

/-- Every pixel of the result is the one of the image that `image_scale_nearest` picks. -/
theorem nearestLoops_some
    (out : Nat → UInt32) (hsw : Length sw) (hsh : Length sh) (hdw : Length dw) (hdh : Length dh) :
  ∃ out', nearestLoops pixels sw sh out dw dh = some out'
    ∧ Filled dw (fun y x p => y * sh / dh * sw + x * sw / dw < sw * sh
        ∧ p = pixels (y * sh / dh * sw + x * sw / dw)) out (dw * dh) out'
  := by
  have harea := hdw.area_le hdh
  apply raster_some out (by omega)
  intro y hy
  obtain ⟨hsy, hrow⟩ := nearestAt_some hsh hdh hy
  refine ⟨_, hrow, ?_⟩
  intro x hx
  obtain ⟨hsx, hcolumn⟩ := nearestAt_some hsw hdw hx
  obtain ⟨hlt, hpixel⟩ := pixelAt_some pixels hsw hsh hsy hsx
  refine ⟨_, ?_, hlt, rfl⟩
  rw [hcolumn, Option.bind_some, hpixel]

/-! ### The checks of the bilinear scaler -/

theorem ratio_some {s d : Nat} (hs : Length s) (hd : 1 < d) :
  ratio s d = some ((s - 1) * 2 ^ 16 / (d - 1))
  := by
  have hle := hs.2
  rw [ratio, int_of_lt (by omega), Option.map_some, if_pos hd]

/-- The place of a column lies in the image: its product is at most `(s - 1) << 16`. -/
theorem placeOf_some {s d i : Nat} (hs : Length s) (hi : i < d) :
  ∃ p, placeOf ((s - 1) * 2 ^ 16 / (d - 1)) i = some p ∧ p.start < s ∧ p.diff < 2 ^ 16
  := by
  have hpos := hs.1
  have hle := hs.2
  have hprod : i * ((s - 1) * 2 ^ 16 / (d - 1)) ≤ (s - 1) * 2 ^ 16 := by
    calc i * ((s - 1) * 2 ^ 16 / (d - 1))
        ≤ (d - 1) * ((s - 1) * 2 ^ 16 / (d - 1)) := Nat.mul_le_mul_right _ (by omega)
      _ ≤ (s - 1) * 2 ^ 16 := Nat.mul_div_le _ _
  rw [placeOf, int_of_lt (by omega), Option.map_some]
  refine ⟨_, rfl, ?_, ?_⟩
  · dsimp only
    omega
  · dsimp only
    omega

/-- All samples are pixels of the image. -/
def Samples.All (s : Samples) (P : UInt32 → Prop) : Prop := P s.p00 ∧ P s.p01 ∧ P s.p10 ∧ P s.p11

theorem pixelIf_some {c : Prop} [Decidable c] (hw : Length sw) (hh : Length sh) {y x : Nat}
    {p00 : UInt32} (hc : c → y < sh ∧ x < sw) (h00 : ∃ i < sw * sh, p00 = pixels i) :
  ∃ p, pixelIf c pixels sw sh y x p00 = some p ∧ ∃ i < sw * sh, p = pixels i
  := by
  rw [pixelIf]
  split
  · next hinside =>
      obtain ⟨hlt, hp⟩ := pixelAt_some pixels hw hh (hc hinside).1 (hc hinside).2
      exact ⟨_, hp, _, hlt, rfl⟩
  · exact ⟨_, rfl, h00⟩

theorem samples_some (pixels : Nat → UInt32) (hw : Length sw) (hh : Length sh) {sy sx : Nat}
    (hy : sy < sh) (hx : sx < sw) :
  ∃ s, samples pixels sw sh sy sx = some s ∧ s.All (fun p => ∃ i < sw * sh, p = pixels i)
  := by
  obtain ⟨hlt, hp00⟩ := pixelAt_some pixels hw hh hy hx
  have h00 : ∃ i < sw * sh, pixels (sy * sw + sx) = pixels i := ⟨_, hlt, rfl⟩
  obtain ⟨p01, hp01, h01⟩ := pixelIf_some hw hh (fun hc : sx + 1 < sw => ⟨hy, hc⟩) h00
  obtain ⟨p10, hp10, h10⟩ := pixelIf_some hw hh (fun hc : sy + 1 < sh => ⟨hc, hx⟩) h00
  obtain ⟨p11, hp11, h11⟩ :=
    pixelIf_some hw hh (fun hc : sx + 1 < sw ∧ sy + 1 < sh => ⟨hc.2, hc.1⟩) h00
  refine ⟨⟨pixels (sy * sw + sx), p01, p10, p11⟩, ?_, h00, h01, h10, h11⟩
  simp only [samples, hp00, Option.bind_eq_bind, Option.bind_some, hp01, hp10, hp11, Option.pure_def]

/-- The weights sum up to `65536`, so the mix lies between the two values. -/
theorem mix_some {a b diff lo hi : Nat} (hdiff : diff < 2 ^ 16) (ha : lo ≤ a ∧ a ≤ hi)
    (hb : lo ≤ b ∧ b ≤ hi) (hhi : hi < 2 ^ 8) :
  ∃ v, mix a b diff = some v ∧ lo ≤ v ∧ v ≤ hi
  := by
  have hsum (c : Nat) : c * (2 ^ 16 - diff) + c * diff = c * 2 ^ 16 := by
    rw [← Nat.mul_add, Nat.sub_add_cancel hdiff.le]
  have hlow : lo * 2 ^ 16 ≤ a * (2 ^ 16 - diff) + b * diff := by
    rw [← hsum lo]
    exact Nat.add_le_add (Nat.mul_le_mul_right _ ha.1) (Nat.mul_le_mul_right _ hb.1)
  have hhigh : a * (2 ^ 16 - diff) + b * diff ≤ hi * 2 ^ 16 := by
    rw [← hsum hi]
    exact Nat.add_le_add (Nat.mul_le_mul_right _ ha.2) (Nat.mul_le_mul_right _ hb.2)
  refine ⟨(a * (2 ^ 16 - diff) + b * diff) / 2 ^ 16, ?_, ?_, ?_⟩
  · simp only [mix, Option.bind_eq_bind, Option.pure_def]
    rw [word_of_lt (by omega), Option.bind_some, word_of_lt (by omega), Option.bind_some,
      word_of_lt (by omega), Option.bind_some]
  · omega
  · omega

theorem Channel.of_lt (c : Channel) (p : UInt32) :
  (c.of p).toNat < 2 ^ 8
  := by
  have hlt := p.toNat_lt
  obtain ⟨htop, hsecond, hthird, hlow⟩ := Packing.toNat_bytes p
  cases c with
  | alpha =>
      rw [Channel.of, htop]
      omega
  | red =>
      rw [Channel.of, hsecond]
      omega
  | green =>
      rw [Channel.of, hthird]
      omega
  | blue =>
      rw [Channel.of, hlow]
      omega

/-- The value lies between the least and the greatest of a channel of the samples. -/
def Samples.Between (s : Samples) (c : Channel) (v : UInt32) : Prop :=
  min (min (c.of s.p00).toNat (c.of s.p01).toNat) (min (c.of s.p10).toNat (c.of s.p11).toNat)
      ≤ v.toNat
    ∧ v.toNat
      ≤ max (max (c.of s.p00).toNat (c.of s.p01).toNat) (max (c.of s.p10).toNat (c.of s.p11).toNat)

theorem blendChannel_some (s : Samples) {xDiff yDiff : Nat} (hx : xDiff < 2 ^ 16)
    (hy : yDiff < 2 ^ 16) (c : Channel) :
  ∃ v, blendChannel s xDiff yDiff c = some v ∧ v.toNat < 256 ∧ s.Between c v
  := by
  have h00 := c.of_lt s.p00
  have h01 := c.of_lt s.p01
  have h10 := c.of_lt s.p10
  have h11 := c.of_lt s.p11
  simp only [Samples.Between]
  generalize hlo : min (min (c.of s.p00).toNat (c.of s.p01).toNat)
    (min (c.of s.p10).toNat (c.of s.p11).toNat) = lo
  generalize hhi : max (max (c.of s.p00).toNat (c.of s.p01).toNat)
    (max (c.of s.p10).toNat (c.of s.p11).toNat) = hi
  obtain ⟨top, htop, hbounds⟩ : ∃ v, mix (c.of s.p00).toNat (c.of s.p01).toNat xDiff = some v
      ∧ lo ≤ v ∧ v ≤ hi :=
    mix_some hx (by omega) (by omega) (by omega)
  obtain ⟨bottom, hbottom, hbounds'⟩ : ∃ v, mix (c.of s.p10).toNat (c.of s.p11).toNat xDiff = some v
      ∧ lo ≤ v ∧ v ≤ hi :=
    mix_some hx (by omega) (by omega) (by omega)
  obtain ⟨v, hv, hle, hge⟩ := mix_some hy hbounds hbounds' (by omega)
  have hvalue : (UInt32.ofNat v).toNat = v := by
    rw [UInt32.toNat_ofNat']
    omega
  refine ⟨UInt32.ofNat v, ?_, by omega, by omega, by omega⟩
  simp only [blendChannel, Option.bind_eq_bind, htop, hbottom, hv, Option.bind_some,
    Option.pure_def]

/-- Every channel of a pixel that is blended lies between those of the samples. -/
theorem blend_some (s : Samples) {xDiff yDiff : Nat} (hx : xDiff < 2 ^ 16) (hy : yDiff < 2 ^ 16) :
  ∃ p, blend s xDiff yDiff = some p ∧ ∀ c, s.Between c (c.of p)
  := by
  obtain ⟨a, ha, halpha, ha'⟩ := blendChannel_some s hx hy .alpha
  obtain ⟨r, hr, hred, hr'⟩ := blendChannel_some s hx hy .red
  obtain ⟨g, hg, hgreen, hg'⟩ := blendChannel_some s hx hy .green
  obtain ⟨b, hb, hblue, hb'⟩ := blendChannel_some s hx hy .blue
  obtain ⟨htop, hsecond, hthird, hlow⟩ := Packing.bytes_pack halpha hred hgreen hblue
  refine ⟨Packing.pack a r g b, ?_, ?_⟩
  · simp only [blend, Option.bind_eq_bind, ha, hr, hg, hb, Option.bind_some, Option.pure_def]
  · intro c
    cases c with
    | alpha =>
        rw [Channel.of, htop]
        exact ha'
    | red =>
        rw [Channel.of, hsecond]
        exact hr'
    | green =>
        rw [Channel.of, hthird]
        exact hg'
    | blue =>
        rw [Channel.of, hlow]
        exact hb'

/-- A pixel that is blended from the samples of a place in the image. -/
def BlendedFrom (pixels : Nat → UInt32) (sw sh dw dh y x : Nat) (p : UInt32) : Prop :=
  ∃ s, samplesAt pixels sw sh dw dh y x = some s ∧ s.All (fun q => ∃ i < sw * sh, q = pixels i)
    ∧ ∀ c, s.Between c (c.of p)

/-- Every pixel of the result is blended from samples of the image. -/
theorem bilinearLoops_some
    (pixels out : Nat → UInt32) (hsw : Length sw) (hsh : Length sh) (hdw : Length dw)
    (hdh : Length dh) (hcolumns : 1 < dw) (hrows : 1 < dh) :
  ∃ out', bilinearLoops pixels sw sh out dw dh = some out'
    ∧ Filled dw (fun y x p => scaledAt pixels sw sh dw dh y x = some p
        ∧ BlendedFrom pixels sw sh dw dh y x p) out (dw * dh) out'
  := by
  have harea := hdw.area_le hdh
  rw [bilinearLoops, ratio_some hsw hcolumns, ratio_some hsh hrows, Option.bind_eq_bind,
    Option.bind_some, Option.bind_some]
  apply raster_some out (by omega)
  intro y hy
  obtain ⟨py, hpy, hsy, hyDiff⟩ := placeOf_some hsh hy
  refine ⟨py, hpy, ?_⟩
  intro x hx
  obtain ⟨px, hpx, hsx, hxDiff⟩ := placeOf_some hsw hx
  obtain ⟨s, hs, hall⟩ := samples_some pixels hsw hsh hsy hsx
  obtain ⟨p, hp, hbetween⟩ := blend_some s hxDiff hyDiff
  have hcell : bilinearCell pixels sw sh ((sw - 1) * 2 ^ 16 / (dw - 1)) py x = some p := by
    simp only [bilinearCell, hpx, Option.bind_eq_bind, Option.bind_some, hs, hp]
  refine ⟨p, hcell, ?_, s, ?_, hall, hbetween⟩
  · rw [scaledAt, ratio_some hsw hcolumns, ratio_some hsh hrows, Option.bind_eq_bind,
      Option.bind_some, Option.bind_some, hpy, Option.bind_eq_bind, Option.bind_some, hcell]
  · rw [samplesAt, ratio_some hsw hcolumns, ratio_some hsh hrows, Option.bind_eq_bind,
      Option.bind_some, Option.bind_some, hpy, Option.bind_eq_bind, Option.bind_some, hpx,
      Option.bind_some, hs]

/-! ### Constant images -/

/-- An image whose pixels are all the same scales to the same. -/
def KeepsConstant (pixels : Nat → UInt32) (n : Nat) (out : Nat → UInt32) (m : Nat) : Prop :=
  ∀ color, (∀ i < n, pixels i = color) → ∀ i < m, out i = color

/-- A pixel is determined by its channels. -/
theorem eq_of_channels {p q : UInt32} (h : ∀ c : Channel, c.of p = c.of q) :
  p = q
  := by
  have halpha : p >>> 24 = q >>> 24 := h .alpha
  have hred : p >>> (16 : UInt32) &&& (0xFF : UInt32) = q >>> 16 &&& 0xFF := h .red
  have hgreen : p >>> (8 : UInt32) &&& (0xFF : UInt32) = q >>> 8 &&& 0xFF := h .green
  have hblue : p &&& 0xFF = q &&& 0xFF := h .blue
  rw [← Packing.pack_bytes p, ← Packing.pack_bytes q, halpha, hred, hgreen, hblue]

theorem BlendedFrom.eq_of_constant
    {y x : Nat} {p color : UInt32} (h : BlendedFrom pixels sw sh dw dh y x p)
    (hcolor : ∀ i < sw * sh, pixels i = color) :
  p = color
  := by
  obtain ⟨s, -, ⟨⟨i, hi, h00⟩, ⟨j, hj, h01⟩, ⟨k, hk, h10⟩, ⟨l, hl, h11⟩⟩, hbetween⟩ := h
  rw [hcolor i hi] at h00
  rw [hcolor j hj] at h01
  rw [hcolor k hk] at h10
  rw [hcolor l hl] at h11
  apply eq_of_channels
  intro c
  apply UInt32.toNat_inj.mp
  obtain ⟨hle, hge⟩ := hbetween c
  rw [h00, h01, h10, h11, min_self, min_self] at hle
  rw [h00, h01, h10, h11, max_self, max_self] at hge
  exact Nat.le_antisymm hge hle

end Checks

/-! ### The scalers -/

/-- A side of an image that is scaled. -/
def Dimension (a : Int32) : Prop := 1 ≤ a ∧ a ≤ 32768

/-- The number of pixels of an image. -/
def area (w h : Int32) : Nat := w.toInt.toNat * h.toInt.toNat

/-- An image at an address of a memory of `2 ^ 32` bytes. -/
structure Held (ptr : UInt32) (w h : Int32) : Prop where
  ne_zero : ptr ≠ 0
  fits : ptr.toNat + 4 * area w h ≤ 2 ^ 32

theorem Dimension.length {a : Int32} (h : Dimension a) :
  Length a.toInt.toNat
  := by
  have hle := Int32.le_iff_toInt_le.mp h.1
  have hge := Int32.le_iff_toInt_le.mp h.2
  change 1 ≤ a.toInt at hle
  change a.toInt ≤ 32768 at hge
  constructor
  · omega
  · omega

theorem Dimension.pos {a : Int32} (h : Dimension a) :
  ¬ a ≤ 0
  := by
  have hle := Int32.le_iff_toInt_le.mp h.1
  change 1 ≤ a.toInt at hle
  intro hcon
  have hcon' := Int32.le_iff_toInt_le.mp hcon
  change a.toInt ≤ 0 at hcon'
  omega

section Scalers

variable {src dst : UInt32} {sw sh dw dh : Int32}

theorem not_refused
    (hsw : Dimension sw) (hsh : Dimension sh) (hdw : Dimension dw) (hdh : Dimension dh)
    (hsrc : Held src sw sh) (hdst : Held dst dw dh) :
  ¬ Refused src sw sh dst dw dh
  := by
  simp only [Refused, not_or]
  exact ⟨hsrc.ne_zero, hdst.ne_zero, hsw.pos, hsh.pos, hdw.pos, hdh.pos⟩

theorem imageScaleNearest_some
    (pixels out : Nat → UInt32) (hsw : Dimension sw) (hsh : Dimension sh) (hdw : Dimension dw)
    (hdh : Dimension dh) (hsrc : Held src sw sh) (hdst : Held dst dw dh) :
  ∃ out', imageScaleNearest src pixels sw sh dst out dw dh = some out'
    ∧ (∀ i, area dw dh ≤ i → out' i = out i)
    ∧ KeepsConstant pixels (area sw sh) out' (area dw dh)
    ∧ (dw = sw → dh = sh → ∀ i < area sw sh, out' i = pixels i)
  := by
  obtain ⟨out', hout', hfilled⟩ := nearestLoops_some out hsw.length hsh.length hdw.length hdh.length
  refine ⟨out', ?_, hfilled.outside, ?_, ?_⟩
  · rw [imageScaleNearest, if_neg (not_refused hsw hsh hdw hdh hsrc hdst), hout']
  · intro color hcolor i hi
    obtain ⟨hlt, hpixel⟩ := hfilled.inside i hi
    rw [hpixel]
    exact hcolor _ hlt
  · rintro rfl rfl i hi
    have hpos := hsw.length.1
    have hpos' := hsh.length.1
    obtain ⟨-, hpixel⟩ := hfilled.inside i hi
    rw [hpixel, Nat.mul_div_cancel _ hpos, Nat.mul_div_cancel _ hpos', Nat.div_add_mod']

theorem copyPixels_some
    (pixels out : Nat → UInt32) {w h : Nat} (hsize : 4 * (w * h) < 2 ^ 32) :
  copyPixels pixels w h out = some (fun i => if i < w * h then pixels i else out i)
  := by
  simp only [copyPixels, Option.bind_eq_bind]
  rw [word_of_lt (by omega), Option.bind_some, word_of_lt (by omega), Option.bind_some,
    Nat.mul_div_cancel _ (by decide)]
  rfl

theorem imageScaleBilinear_some
    (pixels out : Nat → UInt32) (hsw : Dimension sw) (hsh : Dimension sh) (hdw : Dimension dw)
    (hdh : Dimension dh) (hsrc : Held src sw sh) (hdst : Held dst dw dh) :
  ∃ out', imageScaleBilinear src pixels sw sh dst out dw dh = some out'
    ∧ (∀ i, area dw dh ≤ i → out' i = out i)
    ∧ KeepsConstant pixels (area sw sh) out' (area dw dh)
    ∧ (¬ (dw = sw ∧ dh = sh) → ¬ Nearest sw.toInt.toNat sh.toInt.toNat dw.toInt.toNat dh.toInt.toNat →
        ∀ y < dh.toInt.toNat, ∀ x < dw.toInt.toNat,
          BlendedFrom pixels sw.toInt.toNat sh.toInt.toNat dw.toInt.toNat dh.toInt.toNat y x
            (out' (y * dw.toInt.toNat + x)))
  := by
  rw [imageScaleBilinear, if_neg (not_refused hsw hsh hdw hdh hsrc hdst)]
  by_cases hsame : dw = sw ∧ dh = sh
  · obtain ⟨rfl, rfl⟩ := hsame
    have hsize : 4 * (dw.toInt.toNat * dh.toInt.toNat) < 2 ^ 32 := by
      have hne : src.toNat ≠ 0 := fun hcon => hsrc.ne_zero (UInt32.toNat_inj.mp hcon)
      have hfits := hsrc.fits
      rw [area] at hfits
      omega
    rw [if_pos ⟨rfl, rfl⟩, copyPixels_some pixels out hsize]
    refine ⟨_, rfl, ?_, ?_, fun hcon => absurd ⟨rfl, rfl⟩ hcon⟩
    · intro i hi
      exact if_neg (Nat.not_lt.mpr hi)
    · intro color hcolor i hi
      exact (if_pos hi).trans (hcolor i hi)
  rw [if_neg hsame]
  by_cases hnearest : Nearest sw.toInt.toNat sh.toInt.toNat dw.toInt.toNat dh.toInt.toNat
  · rw [if_pos hnearest]
    obtain ⟨out', hout', houtside, hconstant, -⟩ :=
      imageScaleNearest_some pixels out hsw hsh hdw hdh hsrc hdst
    exact ⟨out', hout', houtside, hconstant, fun _ hcon => absurd hnearest hcon⟩
  rw [if_neg hnearest]
  simp only [Nearest, not_or, Nat.not_lt] at hnearest
  obtain ⟨out', hout', hfilled⟩ := bilinearLoops_some pixels out hsw.length hsh.length hdw.length
    hdh.length (by omega) (by omega)
  refine ⟨out', hout', hfilled.outside, ?_, ?_⟩
  · intro color hcolor i hi
    exact (hfilled.inside i hi).2.eq_of_constant hcolor
  · intro _ _ y hy x hx
    exact (hfilled.meets hy hx).2

end Scalers

/-- Scaling reads and writes inside the images only, and nothing overflows.  An image of one color keeps
it; the nearest scaler copies an image to one of the same size; and each channel of a pixel of the
bilinear scaler lies between those of the samples that are blended for it. -/
theorem scales
    {src dst : UInt32} {sw sh dw dh : Int32} (pixels out : Nat → UInt32) (hsw : Dimension sw)
    (hsh : Dimension sh) (hdw : Dimension dw) (hdh : Dimension dh) (hsrc : Held src sw sh)
    (hdst : Held dst dw dh) :
  (∃ out', imageScaleNearest src pixels sw sh dst out dw dh = some out'
    ∧ (∀ i, area dw dh ≤ i → out' i = out i)
    ∧ KeepsConstant pixels (area sw sh) out' (area dw dh)
    ∧ (dw = sw → dh = sh → ∀ i < area sw sh, out' i = pixels i))
  ∧ ∃ out', imageScaleBilinear src pixels sw sh dst out dw dh = some out'
    ∧ (∀ i, area dw dh ≤ i → out' i = out i)
    ∧ KeepsConstant pixels (area sw sh) out' (area dw dh)
    ∧ (¬ (dw = sw ∧ dh = sh) → ¬ Nearest sw.toInt.toNat sh.toInt.toNat dw.toInt.toNat dh.toInt.toNat →
        ∀ y < dh.toInt.toNat, ∀ x < dw.toInt.toNat,
          BlendedFrom pixels sw.toInt.toNat sh.toInt.toNat dw.toInt.toNat dh.toInt.toNat y x
            (out' (y * dw.toInt.toNat + x)))
  := ⟨imageScaleNearest_some pixels out hsw hsh hdw hdh hsrc hdst,
    imageScaleBilinear_some pixels out hsw hsh hdw hdh hsrc hdst⟩

/-- The color of an image of stripes. -/
def stripes (i : Nat) : UInt32 := if i % 2 = 0 then 0xFF000000 else 0xFFFFFFFF

theorem scales_stripes :
  ∃ out', imageScaleBilinear 4096 stripes 40 2 65536 (fun _ => 0) 50 60 = some out'
    ∧ ∀ y < 60, ∀ x < 50, BlendedFrom stripes 40 2 50 60 y x (out' (y * 50 + x))
  := by
  have hdim : Dimension 40 ∧ Dimension 2 ∧ Dimension 50 ∧ Dimension 60 := by
    refine ⟨⟨?_, ?_⟩, ⟨?_, ?_⟩, ⟨?_, ?_⟩, ⟨?_, ?_⟩⟩ <;> decide
  obtain ⟨hsw, hsh, hdw, hdh⟩ := hdim
  have hsrc : Held 4096 40 2 := ⟨by decide, by decide⟩
  have hdst : Held 65536 50 60 := ⟨by decide, by decide⟩
  obtain ⟨-, out', hout', -, -, hblends⟩ := scales stripes (fun _ => 0) hsw hsh hdw hdh hsrc hdst
  exact ⟨out', hout', hblends (by decide) (by decide)⟩

end Image
