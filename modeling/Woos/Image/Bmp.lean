import Mathlib.Data.List.TakeWhile
import Mathlib.Tactic.Ring
import Woos.Lib.Memory
import Woos.Lib.Packing
import Woos.Lib.Signed
import Woos.Lib.Word

/-!
# Uncompressed images

`imageEncodeBmp` writes an image of 32 bits a pixel, the top row first, and `imageDecodeBmp` reads one
of 24 or 32 bits.  The input of a decoder is a memory whose address `0` is the first byte; sizes and
offsets are 32-bit words, and sums and products of them wrap.  What a decoder does in its inner loop is
a list of `PixelLoad`s, each with the addresses of the bytes that it reads and the index of the
pixel that it writes.

`roundtrip` gives the image that is decoded from what was encoded.
-/

namespace Image

/-! ### Headers -/

/-- The fields of a header that are read. -/
structure BmpHeader where
  offset : UInt32
  w : Int32
  h : Int32
  bpp : UInt16
  comp : UInt32
  deriving DecidableEq, Repr

/-- The header at the start of the input. -/
def readHeader (data : Memory) : BmpHeader where
  offset := .ofNat (data.load 4 10)
  w := (UInt32.ofNat (data.load 4 18)).toInt32
  h := (UInt32.ofNat (data.load 4 22)).toInt32
  bpp := .ofNat (data.load 2 28)
  comp := .ofNat (data.load 4 30)

namespace BmpHeader

variable (hdr : BmpHeader)

/-- The checks of `image_decode_bmp`. -/
def Decodable : Prop :=
  (hdr.comp = 0 ∨ hdr.comp = 3) ∧ (hdr.bpp = 24 ∨ hdr.bpp = 32) ∧ 0 < hdr.w ∧ hdr.w ≤ 4096
    ∧ hdr.h ≠ 0 ∧ hdr.h ≤ 4096 ∧ -4096 ≤ hdr.h

instance : Decidable hdr.Decodable := inferInstanceAs (Decidable (_ ∧ _))

/-- `abs_h` -/
def absH : Int32 := if hdr.h < 0 then -hdr.h else hdr.h

/-- `bpp / 8` -/
def pixelBytes : UInt32 := (hdr.bpp / 8).toUInt32

/-- `row_bytes` -/
def rowBytes : UInt32 := (hdr.w.toUInt32 * hdr.pixelBytes + 3) &&& ~~~3

end BmpHeader

/-! ### Pixels -/

/-- A pass of the inner loop of a decoder: the addresses of the bytes of a pixel, where the alpha byte
is read only at 32 bits a pixel, and the index of the pixel. -/
structure PixelLoad where
  blue : UInt32
  green : UInt32
  red : UInt32
  alpha : Option UInt32
  dst : Nat
  deriving DecidableEq, Repr

namespace PixelLoad

/-- The addresses that are read. -/
def reads (p : PixelLoad) : List UInt32 := [p.blue, p.green, p.red] ++ p.alpha.toList

/-- The color of the pixel. -/
def color (data : Memory) (p : PixelLoad) : UInt32 :=
  let a := (p.alpha.map (fun a => (data a.toNat).toUInt32)).getD 0xFF
  Packing.pack a (data p.red.toNat).toUInt32 (data p.green.toNat).toUInt32
    (data p.blue.toNat).toUInt32

end PixelLoad

/-- The pixels after the passes of a loop. -/
def draw (data : Memory) (ps : List PixelLoad) (pixels : Nat → UInt32) : Nat → UInt32 :=
  ps.foldl (fun pixels p => Function.update pixels p.dst (p.color data)) pixels

/-! ### The decoder -/

namespace BmpHeader

variable (hdr : BmpHeader)

/-- The number of columns. -/
def columns : Nat := hdr.w.toInt.toNat

/-- The number of rows. -/
def rows : Nat := hdr.absH.toInt.toNat

/-- `src_y` -/
def srcY (y : Nat) : UInt32 := .ofNat (if hdr.h < 0 then y else hdr.rows - 1 - y)

/-- The end of a row. -/
def rowEnd (y : Nat) : UInt32 := hdr.offset + (hdr.srcY y + 1) * hdr.rowBytes

/-- The address of a byte of a pixel. -/
def byteAt (y x k : Nat) : UInt32 :=
  hdr.offset + hdr.srcY y * hdr.rowBytes + .ofNat x * hdr.pixelBytes + .ofNat k

/-- A pass of the inner loop of `image_decode_bmp`. -/
def load (y x : Nat) : PixelLoad where
  blue := hdr.byteAt y x 0
  green := hdr.byteAt y x 1
  red := hdr.byteAt y x 2
  alpha := if hdr.bpp = 32 then some (hdr.byteAt y x 3) else none
  dst := y * hdr.columns + x

/-- The rows that are decoded: the loop ends at the first that does not end inside the input. -/
def decodedRows (len : UInt32) : List Nat :=
  (List.range hdr.rows).takeWhile (fun y => hdr.rowEnd y ≤ len)

/-- The passes of the loops of `image_decode_bmp`. -/
def loads (len : UInt32) : List PixelLoad :=
  (hdr.decodedRows len).flatMap (fun y => (List.range hdr.columns).map (hdr.load y))

end BmpHeader

/-- Some of the first `n` pixels has an alpha. -/
def HasAlpha (pixels : Nat → UInt32) (n : Nat) : Prop := ∃ i < n, pixels i >>> 24 ≠ 0

instance (pixels : Nat → UInt32) (n : Nat) : Decidable (HasAlpha pixels n) :=
  inferInstanceAs (Decidable (∃ i < n, _))

/-- When none of the pixels has an alpha, all become opaque. -/
def fixAlpha (n : Nat) (pixels : Nat → UInt32) : Nat → UInt32 :=
  if HasAlpha pixels n then pixels
  else fun i => if i < n then pixels i ||| 0xFF000000 else pixels i

/-- `woos_image_t` -/
structure WoosImage where
  width : Int32
  height : Int32
  channels : Int32
  pixels : Nat → UInt32

/-- `image_decode_bmp`, of the input at the address `ptr`.  Each allocation may fail, and the buffer
holds `fresh` when it is allocated. -/
def imageDecodeBmp (ptr : UInt32) (data : Memory) (len : UInt32) (fresh : Nat → UInt32)
    (pixelsOk imageOk : Bool) : Option WoosImage :=
  if ptr = 0 ∨ len < 54 then none
  else if data 0 ≠ 0x42 ∨ data 1 ≠ 0x4D then none
  else
    let hdr := readHeader data
    if ¬ hdr.Decodable then none
    else if pixelsOk = false then none
    else
      let pixels := draw data (hdr.loads len) fresh
      let pixels := if hdr.bpp = 32 then fixAlpha (hdr.columns * hdr.rows) pixels else pixels
      if imageOk = false then none
      else some ⟨hdr.w, hdr.absH, if hdr.bpp = 32 then 4 else 3, pixels⟩

/-! ### The encoder -/

/-- A pixel that is taken apart and put together. -/
def repacked (p : UInt32) : UInt32 :=
  let a := (p >>> 24) &&& 0xFF
  let r := (p >>> 16) &&& 0xFF
  let g := (p >>> 8) &&& 0xFF
  let b := p &&& 0xFF
  Packing.pack a.toUInt8.toUInt32 r.toUInt8.toUInt32 g.toUInt8.toUInt32 b.toUInt8.toUInt32

/-- The header that is written. -/
def headerFields (w h : Int32) (imgBytes totalSize : UInt32) : List Memory.Field :=
  [⟨1, 0, 0x42⟩, ⟨1, 1, 0x4D⟩, ⟨4, 2, totalSize.toNat⟩, ⟨2, 6, 0⟩, ⟨2, 8, 0⟩, ⟨4, 10, 54⟩,
    ⟨4, 14, 40⟩, ⟨4, 18, w.toUInt32.toNat⟩, ⟨4, 22, (-h).toUInt32.toNat⟩, ⟨2, 26, 1⟩, ⟨2, 28, 32⟩,
    ⟨4, 30, 0⟩, ⟨4, 34, imgBytes.toNat⟩, ⟨4, 38, 2835⟩, ⟨4, 42, 2835⟩, ⟨4, 46, 0⟩, ⟨4, 50, 0⟩]

/-- The first `n` pixels, from the address `54` on. -/
def encodePixels (pixels : Nat → UInt32) (buf : Memory) : Nat → Memory
  | 0 => buf
  | n + 1 => (encodePixels pixels buf n).store 4 (54 + 4 * n) (repacked (pixels n)).toNat

/-- `image_encode_bmp`: the bytes and their number.  The allocation may fail, and the buffer holds
`fresh` when it is allocated. -/
def imageEncodeBmp (pixels : Nat → UInt32) (w h : Int32) (fresh : Memory) (bufOk : Bool) :
    Option (Memory × UInt32) :=
  if w ≤ 0 ∨ h ≤ 0 then none
  else
    let imgBytes := w.toUInt32 * h.toUInt32 * 4
    let totalSize := 54 + imgBytes
    if bufOk = false then none
    else
      let buf := fresh.storeFields (headerFields w h imgBytes totalSize)
      some (encodePixels pixels buf (w.toUInt32 * h.toUInt32).toNat, totalSize)

/-! ### The bytes that are written -/

theorem repacked_eq (p : UInt32) :
  repacked p = p
  := by
  have hbyte : ∀ x : UInt32, (x &&& (0xFF : UInt32)).toUInt8.toUInt32 = x &&& 0xFF := by
    intro x
    apply UInt32.toNat_inj.mp
    rw [UInt8.toNat_toUInt32, UInt32.toNat_toUInt8, Packing.toNat_low]
    apply Nat.mod_mod
  have htop : (p >>> (24 : UInt32)) &&& (0xFF : UInt32) = p >>> 24 := by
    have hlt := p.toNat_lt
    apply UInt32.toNat_inj.mp
    rw [Packing.toNat_low, Packing.toNat_top]
    omega
  rw [repacked, hbyte, hbyte, hbyte, hbyte, htop, Packing.pack_bytes]

/-- The pixels lie behind the header. -/
theorem load_encodePixels_header (pixels : Nat → UInt32) (buf : Memory) (n : Nat) {k b : Nat}
    (h : b + k ≤ 54) :
  (encodePixels pixels buf n).load k b = buf.load k b
  := by
  induction n with
  | zero => rfl
  | succ n ih =>
      rw [encodePixels, Memory.load_store_disjoint, ih]
      omega

theorem load_encodePixels (pixels : Nat → UInt32) (buf : Memory) {n i : Nat} (h : i < n) :
  (encodePixels pixels buf n).load 4 (54 + 4 * i) = (pixels i).toNat
  := by
  induction n with
  | zero => omega
  | succ n ih =>
      rw [encodePixels]
      by_cases hlast : i = n
      · rw [hlast, repacked_eq, Memory.load_store_of_lt]
        exact (pixels n).toNat_lt
      · rw [Memory.load_store_disjoint _ _ (by omega)]
        apply ih
        omega

/-- The four bytes of a pixel. -/
theorem pack_load (data : Memory) (a : Nat) :
  Packing.pack (data (a + 3)).toUInt32 (data (a + 2)).toUInt32 (data (a + 1)).toUInt32
      (data a).toUInt32
    = UInt32.ofNat (data.load 4 a)
  := by
  have hlt : ∀ b : UInt8, b.toUInt32.toNat < 256 := by
    intro b
    rw [UInt8.toNat_toUInt32]
    exact b.toNat_lt
  have hload : data.load 4 a < 2 ^ 32 := data.load_lt 4 a
  apply UInt32.toNat_inj.mp
  rw [Packing.toNat_pack (hlt _) (hlt _) (hlt _) (hlt _), UInt32.toNat_ofNat',
    Nat.mod_eq_of_lt hload]
  simp only [Memory.load, UInt8.toNat_toUInt32, Nat.add_assoc, Nat.reduceAdd]
  omega

/-- The header is read as it was written. -/
theorem readHeader_encoded (fresh : Memory) (pixels : Nat → UInt32) (w h : Int32)
    (imgBytes totalSize : UInt32) (n : Nat) :
  let data := encodePixels pixels (fresh.storeFields (headerFields w h imgBytes totalSize)) n
  data 0 = 0x42 ∧ data 1 = 0x4D ∧ readHeader data = ⟨54, w, -h, 32, 0⟩
  := by
  intro data
  have hfield : ∀ f ∈ headerFields w h imgBytes totalSize,
      data.load f.size f.address = f.value % 256 ^ f.size := by
    intro f hf
    rw [load_encodePixels_header, Memory.load_storeFields _ _ hf]
    · simp [headerFields]
    · revert f
      simp [headerFields]
  have hbyte : ∀ a, (data a).toNat = data.load 1 a := by
    intro a
    rw [Memory.load, Memory.load, Nat.mul_zero, Nat.add_zero]
  refine ⟨UInt8.toNat_inj.mp ?_, UInt8.toNat_inj.mp ?_, ?_⟩
  · exact (hbyte 0).trans (hfield ⟨1, 0, 0x42⟩ (by simp [headerFields]))
  · exact (hbyte 1).trans (hfield ⟨1, 1, 0x4D⟩ (by simp [headerFields]))
  · have hoffset := hfield ⟨4, 10, 54⟩ (by simp [headerFields])
    have hw := hfield ⟨4, 18, w.toUInt32.toNat⟩ (by simp [headerFields])
    have hh := hfield ⟨4, 22, (-h).toUInt32.toNat⟩ (by simp [headerFields])
    have hbpp := hfield ⟨2, 28, 32⟩ (by simp [headerFields])
    have hcomp := hfield ⟨4, 30, 0⟩ (by simp [headerFields])
    dsimp only at hoffset hw hh hbpp hcomp
    rw [show 256 ^ 4 = 2 ^ 32 from rfl, Nat.mod_eq_of_lt w.toUInt32.toNat_lt] at hw
    rw [show 256 ^ 4 = 2 ^ 32 from rfl, Nat.mod_eq_of_lt (-h).toUInt32.toNat_lt] at hh
    rw [readHeader, hoffset, hw, hh, hbpp, hcomp, UInt32.ofNat_toNat, UInt32.ofNat_toNat,
      Int32.toInt32_toUInt32, Int32.toInt32_toUInt32]
    rfl

/-! ### Drawing -/

theorem draw_nil (data : Memory) (pixels : Nat → UInt32) :
  draw data [] pixels = pixels
  := rfl

theorem draw_cons (data : Memory) (p : PixelLoad) (ps : List PixelLoad) (pixels : Nat → UInt32) :
  draw data (p :: ps) pixels = draw data ps (Function.update pixels p.dst (p.color data))
  := rfl

/-- Other pixels are left as they are. -/
theorem draw_apply_outside
    (data : Memory) {ps : List PixelLoad} (pixels : Nat → UInt32) {i : Nat}
    (h : ∀ p ∈ ps, p.dst ≠ i) :
  draw data ps pixels i = pixels i
  := by
  induction ps generalizing pixels with
  | nil => rfl
  | cons p ps ih =>
      rw [draw_cons, ih _ (fun q hq => h q (List.mem_cons_of_mem p hq)),
        Function.update_of_ne (h p List.mem_cons_self).symm]

/-- A pixel that is drawn with one color only. -/
theorem draw_apply
    {data : Memory} {ps : List PixelLoad} {pixels : Nat → UInt32} {i : Nat} {c : UInt32}
    (hdrawn : ∃ p ∈ ps, p.dst = i) (hcolor : ∀ p ∈ ps, p.dst = i → p.color data = c) :
  draw data ps pixels i = c
  := by
  induction ps generalizing pixels with
  | nil =>
      obtain ⟨p, hp, -⟩ := hdrawn
      cases hp
  | cons p ps ih =>
      rw [draw_cons]
      by_cases hlater : ∃ q ∈ ps, q.dst = i
      · exact ih hlater (fun q hq => hcolor q (List.mem_cons_of_mem p hq))
      · rw [draw_apply_outside _ _ (fun q hq hcon => hlater ⟨q, hq, hcon⟩)]
        obtain ⟨q, hq, hdst⟩ := hdrawn
        rcases List.mem_cons.mp hq with rfl | hq
        · rw [← hdst, Function.update_self]
          exact hcolor q List.mem_cons_self hdst
        · exact absurd ⟨q, hq, hdst⟩ hlater

/-- The fix of the alphas depends on the pixels of the image only. -/
theorem fixAlpha_apply
    {pixels pixels' : Nat → UInt32} {n i : Nat} (h : ∀ j < n, pixels' j = pixels j) (hi : i < n) :
  fixAlpha n pixels' i = if HasAlpha pixels n then pixels i else pixels i ||| 0xFF000000
  := by
  have hhas : HasAlpha pixels' n ↔ HasAlpha pixels n := by
    apply exists_congr
    intro j
    apply and_congr_right
    intro hj
    rw [h j hj]
  rw [fixAlpha]
  by_cases hpixels : HasAlpha pixels n
  · rw [if_pos (hhas.mpr hpixels), if_pos hpixels, h i hi]
  · rw [if_neg (mt hhas.mp hpixels), if_neg hpixels, if_pos hi, h i hi]

/-! ### Addresses -/

namespace BmpHeader

variable (hdr : BmpHeader)

theorem toNat_rowEnd (y : Nat) :
  (hdr.rowEnd y).toNat
    = (hdr.offset.toNat + ((hdr.srcY y).toNat + 1) * hdr.rowBytes.toNat) % 2 ^ 32
  := by
  rw [rowEnd, UInt32.toNat_add, UInt32.toNat_mul, UInt32.toNat_add, UInt32.toNat_one,
    Nat.mod_mul_mod, Nat.add_mod_mod]

theorem toNat_byteAt (y x k : Nat) :
  (hdr.byteAt y x k).toNat
    = (hdr.offset.toNat + (hdr.srcY y).toNat * hdr.rowBytes.toNat + x * hdr.pixelBytes.toNat + k)
      % 2 ^ 32
  := by
  rw [byteAt, UInt32.toNat_add, UInt32.toNat_add, UInt32.toNat_add, UInt32.toNat_mul,
    UInt32.toNat_mul, UInt32.toNat_ofNat', UInt32.toNat_ofNat', Nat.mod_mul_mod]
  omega

theorem toNat_rowBytes :
  hdr.rowBytes.toNat = (hdr.w.toUInt32.toNat * hdr.pixelBytes.toNat + 3) % 2 ^ 32 / 4 * 4
  := by
  rw [rowBytes, Word.toNat_and_not_mask_32 _ 3 (show (3 : UInt32).toNat = 2 ^ 2 - 1 from rfl),
    UInt32.toNat_add, UInt32.toNat_mul, Nat.mod_add_mod]
  rfl

theorem mem_loads {len : UInt32} {p : PixelLoad} :
  p ∈ hdr.loads len ↔ ∃ y ∈ hdr.decodedRows len, ∃ x < hdr.columns, hdr.load y x = p
  := by
  simp only [loads, List.mem_flatMap, List.mem_map, List.mem_range]

end BmpHeader

/-! ### The round trip -/

/-- A side of an image. -/
def Side (a : Int32) : Prop := 1 ≤ a ∧ a ≤ 4096

section Roundtrip

variable {w h : Int32}

/-- The header of an encoded image. -/
def encodedHeader (w h : Int32) : BmpHeader := ⟨54, w, -h, 32, 0⟩

/-- The value of a side. -/
theorem side_bounds {a : Int32} (ha : Side a) :
  1 ≤ a.toInt ∧ a.toInt ≤ 4096
  := ⟨Int32.le_iff_toInt_le.mp ha.1, Int32.le_iff_toInt_le.mp ha.2⟩

theorem toNat_side {a : Int32} (ha : Side a) :
  a.toUInt32.toNat = a.toInt.toNat
  := by
  have hside := side_bounds ha
  have hvalue := Signed.toNat_toUInt32 (a := a) (by omega)
  omega

theorem toInt_neg_side {a : Int32} (ha : Side a) :
  (-a).toInt = -a.toInt
  := by
  have hside := side_bounds ha
  apply Signed.toInt_neg
  rintro rfl
  exact absurd hside.1 (by decide)

theorem encodedHeader_absH (hh : Side h) (w : Int32) :
  (encodedHeader w h).absH = h
  := by
  have hside := side_bounds hh
  have hneg := toInt_neg_side hh
  have hlt : -h < 0 := by
    rw [Int32.lt_iff_toInt_lt, hneg]
    change -h.toInt < 0
    omega
  rw [BmpHeader.absH, encodedHeader]
  change (if -h < 0 then - -h else -h) = h
  rw [if_pos hlt, Int32.neg_neg]

theorem encodedHeader_decodable (hw : Side w) (hh : Side h) :
  (encodedHeader w h).Decodable
  := by
  have hside := side_bounds hh
  have hneg := toInt_neg_side hh
  have hside' := side_bounds hw
  refine ⟨Or.inl rfl, Or.inr rfl, ?_, hw.2, ?_, ?_, ?_⟩
  · apply Int32.lt_iff_toInt_lt.mpr
    change 0 < w.toInt
    omega
  · intro hcon
    change -h = 0 at hcon
    rw [hcon] at hneg
    change 0 = -h.toInt at hneg
    omega
  · apply Int32.le_iff_toInt_le.mpr
    change (-h).toInt ≤ 4096
    omega
  · apply Int32.le_iff_toInt_le.mpr
    change -4096 ≤ (-h).toInt
    omega

theorem encodedHeader_rows (hh : Side h) (w : Int32) :
  (encodedHeader w h).rows = h.toInt.toNat
  := by
  rw [BmpHeader.rows, encodedHeader_absH hh w]

theorem encodedHeader_srcY (hh : Side h) (w : Int32) {y : Nat} (hy : y < h.toInt.toNat) :
  ((encodedHeader w h).srcY y).toNat = y
  := by
  have hside := side_bounds hh
  have hneg := toInt_neg_side hh
  have hlt : (encodedHeader w h).h < 0 := by
    rw [Int32.lt_iff_toInt_lt]
    change (-h).toInt < 0
    omega
  rw [BmpHeader.srcY, if_pos hlt, UInt32.toNat_ofNat']
  omega

theorem encodedHeader_pixelBytes (w h : Int32) :
  (encodedHeader w h).pixelBytes.toNat = 4
  := by
  rw [BmpHeader.pixelBytes]
  change ((32 : UInt16) / 8).toUInt32.toNat = 4
  decide

theorem encodedHeader_rowBytes (hw : Side w) (h : Int32) :
  (encodedHeader w h).rowBytes.toNat = 4 * w.toInt.toNat
  := by
  have hside := side_bounds hw
  have hvalue := toNat_side hw
  have hbytes := encodedHeader_pixelBytes w h
  rw [BmpHeader.toNat_rowBytes, hbytes]
  change (w.toUInt32.toNat * 4 + 3) % 2 ^ 32 / 4 * 4 = _
  omega

/-- An image has at most `2 ^ 24` pixels. -/
theorem area_le (hw : Side w) (hh : Side h) :
  w.toInt.toNat * h.toInt.toNat ≤ 2 ^ 24
  := by
  have hside := side_bounds hw
  have hside' := side_bounds hh
  calc w.toInt.toNat * h.toInt.toNat
      ≤ 4096 * 4096 := Nat.mul_le_mul (by omega) (by omega)
    _ = 2 ^ 24 := by decide

/-- The number of pixels before a row. -/
theorem row_le (w : Int32) {y : Nat} (hy : y < h.toInt.toNat) :
  y * w.toInt.toNat + w.toInt.toNat ≤ w.toInt.toNat * h.toInt.toNat
  := by
  rw [← Nat.succ_mul, Nat.mul_comm w.toInt.toNat]
  exact Nat.mul_le_mul_right _ hy

theorem toNat_encodedLen (hw : Side w) (hh : Side h) :
  (54 + w.toUInt32 * h.toUInt32 * 4).toNat = 54 + 4 * (w.toInt.toNat * h.toInt.toNat)
  := by
  have harea := area_le hw hh
  rw [UInt32.toNat_add, UInt32.toNat_mul, UInt32.toNat_mul, toNat_side hw, toNat_side hh]
  change (54 + w.toInt.toNat * h.toInt.toNat % 2 ^ 32 * 4 % 2 ^ 32) % 2 ^ 32 = _
  omega

/-- Every row ends inside the input. -/
theorem encodedHeader_decodedRows (hw : Side w) (hh : Side h) :
  (encodedHeader w h).decodedRows (54 + w.toUInt32 * h.toUInt32 * 4) = List.range h.toInt.toNat
  := by
  have harea := area_le hw hh
  rw [BmpHeader.decodedRows, encodedHeader_rows hh w, List.takeWhile_eq_self_iff]
  intro y hy
  rw [List.mem_range] at hy
  have hrow := row_le w hy
  rw [decide_eq_true_eq, UInt32.le_iff_toNat_le, toNat_encodedLen hw hh, BmpHeader.toNat_rowEnd,
    encodedHeader_srcY hh w hy, encodedHeader_rowBytes hw h]
  have hend : (y + 1) * (4 * w.toInt.toNat) = 4 * (y * w.toInt.toNat + w.toInt.toNat) := by ring
  change (54 + (y + 1) * (4 * w.toInt.toNat)) % 2 ^ 32 ≤ _
  rw [hend]
  omega

theorem encodedHeader_byteAt (hw : Side w) (hh : Side h) {y x k : Nat} (hy : y < h.toInt.toNat)
    (hx : x < w.toInt.toNat) (hk : k < 4) :
  ((encodedHeader w h).byteAt y x k).toNat = 54 + 4 * (y * w.toInt.toNat + x) + k
  := by
  have harea := area_le hw hh
  have hrow := row_le w hy
  have hbytes := encodedHeader_pixelBytes w h
  have hstart : y * (4 * w.toInt.toNat) = 4 * (y * w.toInt.toNat) := by ring
  rw [BmpHeader.toNat_byteAt, encodedHeader_srcY hh w hy, encodedHeader_rowBytes hw h, hbytes, hstart]
  change (54 + 4 * (y * w.toInt.toNat) + x * 4 + k) % 2 ^ 32 = _
  omega

/-- The color of a pixel that is read is the one that was written. -/
theorem color_load_encoded
    (hw : Side w) (hh : Side h) (pixels : Nat → UInt32) (buf : Memory) {y x : Nat} (hy : y < h.toInt.toNat)
    (hx : x < w.toInt.toNat) :
  ((encodedHeader w h).load y x).color (encodePixels pixels buf (w.toInt.toNat * h.toInt.toNat))
    = pixels (y * w.toInt.toNat + x)
  := by
  have hrow := row_le w hy
  have hpixel := load_encodePixels pixels buf
    (show y * w.toInt.toNat + x < w.toInt.toNat * h.toInt.toNat by omega)
  have hbyte := fun k (hk : k < 4) => encodedHeader_byteAt hw hh hy hx hk
  have halpha : ((encodedHeader w h).load y x).alpha = some ((encodedHeader w h).byteAt y x 3) := rfl
  rw [PixelLoad.color, halpha]
  change Packing.pack ((encodePixels pixels buf _) ((encodedHeader w h).byteAt y x 3).toNat).toUInt32
    ((encodePixels pixels buf _) ((encodedHeader w h).byteAt y x 2).toNat).toUInt32
    ((encodePixels pixels buf _) ((encodedHeader w h).byteAt y x 1).toNat).toUInt32
    ((encodePixels pixels buf _) ((encodedHeader w h).byteAt y x 0).toNat).toUInt32 = _
  have hpack := pack_load (encodePixels pixels buf (w.toInt.toNat * h.toInt.toNat))
    (54 + 4 * (y * w.toInt.toNat + x))
  rw [hbyte 0 (by decide), hbyte 1 (by decide), hbyte 2 (by decide), hbyte 3 (by decide)]
  exact hpack.trans (by rw [hpixel, UInt32.ofNat_toNat])

/-- The number of bytes of an encoded image. -/
def encodedLen (w h : Int32) : UInt32 := 54 + w.toUInt32 * h.toUInt32 * 4

/-- The bytes of an encoded image. -/
def encodedBytes (w h : Int32) (pixels : Nat → UInt32) (buf : Memory) : Memory :=
  encodePixels pixels
    (buf.storeFields (headerFields w h (w.toUInt32 * h.toUInt32 * 4) (encodedLen w h)))
    (w.toInt.toNat * h.toInt.toNat)

theorem imageEncodeBmp_eq (hw : Side w) (hh : Side h) (pixels : Nat → UInt32) (buf : Memory) :
  imageEncodeBmp pixels w h buf true = some (encodedBytes w h pixels buf, encodedLen w h)
  := by
  have hside := side_bounds hw
  have hside' := side_bounds hh
  have harea := area_le hw hh
  have hcount : (w.toUInt32 * h.toUInt32).toNat = w.toInt.toNat * h.toInt.toNat := by
    rw [UInt32.toNat_mul, toNat_side hw, toNat_side hh]
    omega
  have hpos : ¬ (w ≤ 0 ∨ h ≤ 0) := by
    rw [not_or, Int32.not_le, Int32.not_le, Int32.lt_iff_toInt_lt, Int32.lt_iff_toInt_lt]
    change 0 < w.toInt ∧ 0 < h.toInt
    omega
  rw [imageEncodeBmp, if_neg hpos, if_neg (by decide), hcount]
  rfl

theorem imageDecodeBmp_encoded
    (hw : Side w) (hh : Side h) (pixels fresh : Nat → UInt32) (buf : Memory) {ptr : UInt32}
    (hptr : ptr ≠ 0) :
  imageDecodeBmp ptr (encodedBytes w h pixels buf) (encodedLen w h) fresh true true
    = some ⟨w, h, 4, fixAlpha (w.toInt.toNat * h.toInt.toNat)
        (draw (encodedBytes w h pixels buf) ((encodedHeader w h).loads (encodedLen w h)) fresh)⟩
  := by
  obtain ⟨hmagic, hmagic', hheader⟩ := readHeader_encoded buf pixels w h
    (w.toUInt32 * h.toUInt32 * 4) (encodedLen w h) (w.toInt.toNat * h.toInt.toNat)
  change readHeader (encodedBytes w h pixels buf) = encodedHeader w h at hheader
  have hlen := toNat_encodedLen hw hh
  have hgiven : ¬ (ptr = 0 ∨ encodedLen w h < 54) := by
    rw [not_or, UInt32.not_lt, UInt32.le_iff_toNat_le, encodedLen, hlen]
    use hptr
    apply Nat.le_add_right
  have hmagic : ¬ (encodedBytes w h pixels buf 0 ≠ 0x42 ∨ encodedBytes w h pixels buf 1 ≠ 0x4D) :=
    not_or.mpr ⟨not_not.mpr hmagic, not_not.mpr hmagic'⟩
  rw [imageDecodeBmp, if_neg hgiven, if_neg hmagic, hheader,
    if_neg (not_not.mpr (encodedHeader_decodable hw hh)), if_neg (by decide), if_neg (by decide),
    encodedHeader_absH hh w, encodedHeader_rows hh w]
  rfl

/-- The pixels that are drawn are those of the image. -/
theorem draw_encoded
    (hw : Side w) (hh : Side h) (pixels fresh : Nat → UInt32) (buf : Memory) {i : Nat}
    (hi : i < w.toInt.toNat * h.toInt.toNat) :
  draw (encodedBytes w h pixels buf) ((encodedHeader w h).loads (encodedLen w h)) fresh i = pixels i
  := by
  have hside := side_bounds hw
  have hrows := encodedHeader_decodedRows hw hh
  apply draw_apply
  · use (encodedHeader w h).load (i / w.toInt.toNat) (i % w.toInt.toNat)
    constructor
    · rw [BmpHeader.mem_loads, encodedLen, hrows]
      refine ⟨_, List.mem_range.mpr (Nat.div_lt_of_lt_mul hi), _, Nat.mod_lt _ ?_, rfl⟩
      change 0 < w.toInt.toNat
      omega
    · exact Nat.div_add_mod' i w.toInt.toNat
  · intro p hp hdst
    rw [BmpHeader.mem_loads, encodedLen, hrows] at hp
    obtain ⟨y, hy, x, hx, rfl⟩ := hp
    change y * w.toInt.toNat + x = i at hdst
    rw [← hdst]
    exact color_load_encoded hw hh pixels _ (List.mem_range.mp hy) hx

end Roundtrip

/-- The image that is decoded from an encoded one has the same sides and pixels, but it is opaque when
no pixel had an alpha. -/
theorem roundtrip
    {w h : Int32} (hw : Side w) (hh : Side h) (pixels fresh : Nat → UInt32) (buf : Memory)
    {ptr : UInt32} (hptr : ptr ≠ 0) :
  ∃ data len img, imageEncodeBmp pixels w h buf true = some (data, len)
    ∧ imageDecodeBmp ptr data len fresh true true = some img ∧ img.width = w ∧ img.height = h
    ∧ ∀ i < w.toInt.toNat * h.toInt.toNat,
        img.pixels i = if HasAlpha pixels (w.toInt.toNat * h.toInt.toNat) then pixels i
          else pixels i ||| 0xFF000000
  := by
  refine ⟨_, _, _, imageEncodeBmp_eq hw hh pixels buf,
    imageDecodeBmp_encoded hw hh pixels fresh buf hptr, rfl, rfl, ?_⟩
  intro i hi
  exact fixAlpha_apply (fun j hj => draw_encoded hw hh pixels fresh buf hj) hi

/-- A pixel that is half transparent beside one without an alpha. -/
def halfRed (i : Nat) : UInt32 := if i = 0 then 0x80FF0000 else 0

theorem roundtrip_halfRed :
  ∃ data len img, imageEncodeBmp halfRed 2 1 (fun _ => 0) true = some (data, len)
    ∧ imageDecodeBmp 1 data len (fun _ => 0) true true = some img ∧ img.width = 2 ∧ img.height = 1
    ∧ ∀ i < (2 : Int32).toInt.toNat * (1 : Int32).toInt.toNat,
        img.pixels i
          = if HasAlpha halfRed ((2 : Int32).toInt.toNat * (1 : Int32).toInt.toNat) then halfRed i
            else halfRed i ||| 0xFF000000
  := roundtrip ⟨by decide, by decide⟩ ⟨by decide, by decide⟩ halfRed _ _ (by decide)

/-- A pixel without an alpha comes back opaque. -/
theorem not_roundtrip :
  ∃ data len img, imageEncodeBmp (fun _ => 0) 1 1 (fun _ => 0) true = some (data, len)
    ∧ imageDecodeBmp 1 data len (fun _ => 0) true true = some img ∧ img.pixels 0 ≠ 0
  := by
  have hside : Side 1 := ⟨by decide, by decide⟩
  refine ⟨_, _, _, imageEncodeBmp_eq hside hside _ _,
    imageDecodeBmp_encoded hside hside _ _ _ (by decide), ?_⟩
  have hdrawn := fun j hj =>
    draw_encoded hside hside (fun _ => 0) (fun _ => 0) (fun _ => 0) (i := j) hj
  dsimp only
  rw [fixAlpha_apply hdrawn (by decide), if_neg]
  · decide
  · rintro ⟨j, -, hcon⟩
    apply hcon
    dsimp only
    decide

end Image
