import Woos.Fb.Present

/-!
# Filling a rectangle

`fbRect` clips a rectangle once and stores its rows, and `fbWritepixel` clips a pixel and stores it.
`writePixels` writes the pixels of a rectangle one after the other; a pixel whose coordinates do not
have 16 bits lies on no screen.

On each axis the pixels that are seen are those of an interval.  `fbRect` computes its ends in 16 bits:
`clipped_iff` says that it finds it empty when an end is cut to 16 bits or nothing is seen, and
`fbRect_eq` that it writes the pixels that are seen otherwise.
-/

namespace Fb

/-! ### Pixels -/

/-- `g_clip_x` to `g_clip_h` -/
structure Clip where
  x : UInt16
  y : UInt16
  w : UInt16
  h : UInt16
  deriving DecidableEq, Repr

/-- The pixel of a color at a depth of 2 bytes. -/
def packed (color : UInt32) : UInt16 :=
  let r := (color >>> 16).toUInt8
  let g := (color >>> 8).toUInt8
  let b := color.toUInt8
  (r >>> 3).toUInt16 <<< 11 ||| (g >>> 2).toUInt16 <<< 5 ||| (b >>> 3).toUInt16

/-- The three bytes of a pixel at a depth of 3 bytes, from `a` on. -/
def storeBytes (color : UInt32) (m : Memory) (a : UInt64) : Memory :=
  let m := m.store 1 a.toNat color.toUInt8.toNat
  let m := m.store 1 (a + 1).toNat (color >>> 8).toUInt8.toNat
  m.store 1 (a + 2).toNat (color >>> 16).toUInt8.toNat

/-- The store of a pixel, by the number of its bytes. -/
def storePixel (info : VideoMode) (color : UInt32) (m : Memory) (a : UInt64) : Memory :=
  if bytesPerPixel info = 2 then m.store 2 a.toNat (packed color).toNat
  else if bytesPerPixel info = 3 then storeBytes color m a
  else m.store 4 a.toNat (color &&& 0x00FFFFFF).toNat

/-- The address of a pixel. -/
def pixelAddr (info : VideoMode) (base : UInt64) (x y : UInt16) : UInt64 :=
  base + y.toUInt64 * info.pitch.toUInt64 + x.toUInt64 * (bytesPerPixel info).toUInt64

/-- `fb_writepixel` -/
def fbWritepixel (info : VideoMode) (clip : Clip) (base : UInt64) (m : Memory) (x y : UInt16)
    (color : UInt32) : Memory :=
  if info.width ≤ x ∨ info.height ≤ y then
    m
  else if x < clip.x ∨ y < clip.y ∨ clip.x.toNat + clip.w.toNat ≤ x.toNat
      ∨ clip.y.toNat + clip.h.toNat ≤ y.toNat then
    m
  else
    storePixel info color m (pixelAddr info base x y)

/-- Write the pixels of a rectangle, row by row. -/
def writePixels (info : VideoMode) (clip : Clip) (base : UInt64) (m : Memory) (x y w h : UInt16)
    (color : UInt32) : Memory :=
  (List.range' y.toNat h.toNat).foldl (fun m py =>
    (List.range' x.toNat w.toNat).foldl (fun m px =>
      if px < 2 ^ 16 ∧ py < 2 ^ 16 then
        fbWritepixel info clip base m (UInt16.ofNat px) (UInt16.ofNat py) color
      else m) m) m

/-! ### The rectangle -/

/-- `max_u16` -/
def maxU16 (a b : UInt16) : UInt16 := if b < a then a else b

/-- `min_u16` -/
def minU16 (a b : UInt16) : UInt16 := if a < b then a else b

/-- `cx` and `cy`: the first column or row that is drawn. -/
def clippedStart (start clipStart limit : UInt16) : UInt16 := minU16 (maxU16 start clipStart) limit

/-- `cx2` and `cy2`: the column or row behind the last that is drawn. -/
def clippedStop (start len clipStart clipLen limit : UInt16) : UInt16 :=
  minU16 (minU16 (start + len) (clipStart + clipLen)) limit

/-- A row of pixels of 4 bytes. -/
def fillRow4 (color : UInt32) (dst : UInt64) (cw : UInt16) (m : Memory) : Memory :=
  (rowsFrom 0 cw).foldl
    (fun m px => m.store 4 (dst + px.toUInt64 * 4).toNat (color &&& 0x00FFFFFF).toNat) m

/-- A row of pixels of 3 bytes: the memory and `dst`, which moves on. -/
def fillRow3 (color : UInt32) (dst : UInt64) (cw : UInt16) (m : Memory) : Memory :=
  ((rowsFrom 0 cw).foldl (fun s _ => (storeBytes color s.1 s.2, s.2 + 3)) (m, dst)).1

/-- A row of pixels of 2 bytes. -/
def fillRow2 (color : UInt32) (dst : UInt64) (cw : UInt16) (m : Memory) : Memory :=
  (rowsFrom 0 cw).foldl
    (fun m px => m.store 2 (dst + px.toUInt64 * 2).toNat (packed color).toNat) m

/-- `fb_rect` -/
def fbRect (info : VideoMode) (clip : Clip) (base : UInt64) (m : Memory) (x y w h : UInt16)
    (color : UInt32) : Memory :=
  if w = 0 ∨ h = 0 then
    m
  else
    let cx := clippedStart x clip.x info.width
    let cy := clippedStart y clip.y info.height
    let cx2 := clippedStop x w clip.x clip.w info.width
    let cy2 := clippedStop y h clip.y clip.h info.height
    if cx2 ≤ cx ∨ cy2 ≤ cy then
      m
    else
      let cw := cx2 - cx
      let bpp := bytesPerPixel info
      let row := fun py : UInt16 => base + py.toUInt64 * info.pitch.toUInt64
      if bpp = 4 then
        (rowsFrom cy cy2).foldl (fun m py => fillRow4 color (row py + cx.toUInt64 * 4) cw m) m
      else if bpp = 3 then
        (rowsFrom cy cy2).foldl (fun m py => fillRow3 color (row py + cx.toUInt64 * 3) cw m) m
      else if bpp = 2 then
        (rowsFrom cy cy2).foldl (fun m py => fillRow2 color (row py + cx.toUInt64 * 2) cw m) m
      else
        m

/-! ### What is seen -/

/-- The end of what is seen of an interval, behind its last place. -/
def seenStop (start len clipStart clipLen limit : UInt16) : Nat :=
  min (min (start.toNat + len.toNat) (clipStart.toNat + clipLen.toNat)) limit.toNat

/-- The number of places of an interval that are seen. -/
def seenCount (start len clipStart clipLen limit : UInt16) : Nat :=
  seenStop start len clipStart clipLen limit - max start.toNat clipStart.toNat

/-- The ends of the interval and of the clip interval have 16 bits. -/
def EndsFit (start len clipStart clipLen : UInt16) : Prop :=
  start.toNat + len.toNat < 2 ^ 16 ∧ clipStart.toNat + clipLen.toNat < 2 ^ 16

/-- The rectangle that is seen, and its pixels written row by row. -/
def fillSeen (info : VideoMode) (base : UInt64) (color : UInt32) (x y cols rows : Nat) (m : Memory) :
    Memory :=
  (List.range' y rows).foldl (fun m py => (List.range' x cols).foldl (fun m px =>
    storePixel info color m (pixelAddr info base (UInt16.ofNat px) (UInt16.ofNat py))) m) m

/-- The depths that both paths draw at. -/
def SupportedDepth (info : VideoMode) : Prop :=
  bytesPerPixel info = 2 ∨ bytesPerPixel info = 3 ∨ bytesPerPixel info = 4

/-! ### An axis -/

section

variable {start len clipStart clipLen limit : UInt16}

theorem toNat_maxU16 (a b : UInt16) :
  (maxU16 a b).toNat = max a.toNat b.toNat
  := by
  rw [maxU16]
  split
  case isTrue hlt =>
    rw [UInt16.lt_iff_toNat_lt] at hlt
    omega
  case isFalse hle =>
    rw [UInt16.not_lt, UInt16.le_iff_toNat_le] at hle
    omega

theorem toNat_minU16 (a b : UInt16) :
  (minU16 a b).toNat = min a.toNat b.toNat
  := by
  rw [minU16]
  split
  case isTrue hlt =>
    rw [UInt16.lt_iff_toNat_lt] at hlt
    omega
  case isFalse hle =>
    rw [UInt16.not_lt, UInt16.le_iff_toNat_le] at hle
    omega

/-- The interval is found empty when an end is cut, or when nothing is seen. -/
theorem clipped_iff :
  clippedStop start len clipStart clipLen limit ≤ clippedStart start clipStart limit
    ↔ ¬ EndsFit start len clipStart clipLen ∨ seenCount start len clipStart clipLen limit = 0
  := by
  have hstart := start.toNat_lt
  have hlen := len.toNat_lt
  have hclip := clipStart.toNat_lt
  have hclipLen := clipLen.toNat_lt
  rw [UInt16.le_iff_toNat_le, clippedStop, clippedStart, toNat_minU16, toNat_minU16, toNat_minU16,
    toNat_maxU16, UInt16.toNat_add, UInt16.toNat_add, EndsFit, seenCount, seenStop]
  omega

theorem clippedStart_toNat (h : 0 < seenCount start len clipStart clipLen limit) :
  (clippedStart start clipStart limit).toNat = max start.toNat clipStart.toNat
  := by
  rw [seenCount, seenStop] at h
  rw [clippedStart, toNat_minU16, toNat_maxU16]
  omega

theorem clippedStop_toNat (limit : UInt16) (h : EndsFit start len clipStart clipLen) :
  (clippedStop start len clipStart clipLen limit).toNat = seenStop start len clipStart clipLen limit
  := by
  obtain ⟨hstart, hclip⟩ := h
  rw [clippedStop, toNat_minU16, toNat_minU16, UInt16.toNat_add, UInt16.toNat_add, seenStop,
    Nat.mod_eq_of_lt hstart, Nat.mod_eq_of_lt hclip]

/-- The places of an interval between two bounds. -/
theorem filter_range' (start len lo hi : Nat) :
  (List.range' start len).filter (fun p => lo ≤ p ∧ p < hi)
    = List.range' (max start lo) (min (start + len) hi - max start lo)
  := by
  induction len generalizing start with
  | zero =>
      have hzero : min (start + 0) hi - max start lo = 0 := by omega
      rw [hzero]
      rfl
  | succ len ih =>
      rw [List.range'_succ, List.filter_cons, ih]
      split
      case isTrue hin =>
        have hin' := of_decide_eq_true hin
        have hcount : min (start + (len + 1)) hi - max start lo
            = min (start + 1 + len) hi - max (start + 1) lo + 1 := by omega
        have hfirst : max start lo = start := by omega
        have hnext : max (start + 1) lo = start + 1 := by omega
        rw [hcount, List.range'_succ, hfirst, hnext]
      case isFalse hout =>
        rw [decide_eq_true_eq] at hout
        rcases Nat.lt_or_ge start lo with hlt | hge
        · have hfirst : max (start + 1) lo = max start lo := by omega
          have hcount : start + 1 + len = start + (len + 1) := by omega
          rw [hfirst, hcount]
        · have hzero : min (start + 1 + len) hi - max (start + 1) lo = 0 := by omega
          have hzero' : min (start + (len + 1)) hi - max start lo = 0 := by omega
          rw [hzero, hzero']
          rfl

end

/-! ### Writing the pixels -/

section

variable {info : VideoMode} {clip : Clip} {base : UInt64} {m : Memory} {x y w h : UInt16}
  {color : UInt32}

/-- A pixel is stored when it is seen. -/
theorem writePixel_eq (m : Memory) (px py : Nat) :
  (if px < 2 ^ 16 ∧ py < 2 ^ 16 then
      fbWritepixel info clip base m (UInt16.ofNat px) (UInt16.ofNat py) color
    else m)
    = if (clip.x.toNat ≤ px ∧ px < min (clip.x.toNat + clip.w.toNat) info.width.toNat)
        ∧ (clip.y.toNat ≤ py ∧ py < min (clip.y.toNat + clip.h.toNat) info.height.toNat) then
        storePixel info color m (pixelAddr info base (UInt16.ofNat px) (UInt16.ofNat py))
      else m
  := by
  have hwidth := info.width.toNat_lt
  have hheight := info.height.toNat_lt
  by_cases hsmall : px < 2 ^ 16 ∧ py < 2 ^ 16
  · have hpx : (UInt16.ofNat px).toNat = px := UInt16.toNat_ofNat_of_lt' hsmall.1
    have hpy : (UInt16.ofNat py).toNat = py := UInt16.toNat_ofNat_of_lt' hsmall.2
    rw [if_pos hsmall, fbWritepixel]
    simp only [UInt16.le_iff_toNat_le, UInt16.lt_iff_toNat_lt, hpx, hpy]
    split
    case isTrue hscreen =>
      rw [if_neg]
      omega
    case isFalse hscreen =>
      split
      case isTrue hclip =>
        rw [if_neg]
        omega
      case isFalse hclip =>
        rw [if_pos]
        omega
  · rw [if_neg hsmall, if_neg]
    omega

/-- Writing all pixels writes those that are seen. -/
theorem writePixels_eq :
  writePixels info clip base m x y w h color
    = fillSeen info base color (max x.toNat clip.x.toNat) (max y.toNat clip.y.toNat)
        (seenCount x w clip.x clip.w info.width) (seenCount y h clip.y clip.h info.height) m
  := by
  have hcols := filter_range' x.toNat w.toNat clip.x.toNat
    (min (clip.x.toNat + clip.w.toNat) info.width.toNat)
  have hrows := filter_range' y.toNat h.toNat clip.y.toNat
    (min (clip.y.toNat + clip.h.toNat) info.height.toNat)
  rw [← min_assoc] at hcols hrows
  rw [fillSeen, seenCount, seenCount, seenStop, seenStop, ← hcols, ← hrows, List.foldl_filter,
    writePixels]
  congr 1
  funext m py
  rw [List.foldl_filter]
  by_cases hrow : clip.y.toNat ≤ py ∧ py < min (clip.y.toNat + clip.h.toNat) info.height.toNat
  · rw [if_pos (decide_eq_true hrow)]
    congr 1
    funext m px
    rw [writePixel_eq]
    simp only [hrow, and_true, decide_eq_true_eq]
  · rw [if_neg (by rw [decide_eq_true_eq]; exact hrow)]
    apply List.foldl_fixed'
    intro px
    rw [writePixel_eq, if_neg]
    exact fun hcon => hrow hcon.2

/-! ### Filling the rows -/

/-- The address of a pixel, from the start of the part of its row that is drawn. -/
theorem pixelAddr_add {cx py : UInt16} {k : Nat} (h : cx.toNat + k < 2 ^ 16) :
  base + py.toUInt64 * info.pitch.toUInt64 + cx.toUInt64 * (bytesPerPixel info).toUInt64
      + UInt64.ofNat k * (bytesPerPixel info).toUInt64
    = pixelAddr info base (UInt16.ofNat (cx.toNat + k)) py
  := by
  have hsum : (UInt16.ofNat (cx.toNat + k)).toUInt64 = cx.toUInt64 + UInt64.ofNat k := by
    apply UInt64.toNat_inj.mp
    rw [UInt16.toNat_toUInt64, UInt16.toNat_ofNat_of_lt' h, UInt64.toNat_add, UInt16.toNat_toUInt64,
      UInt64.toNat_ofNat']
    omega
  rw [pixelAddr, hsum, UInt64.add_mul, UInt64.add_assoc]

/-- The pixels of a row, stored one after the other. -/
def storeRow (info : VideoMode) (base : UInt64) (color : UInt32) (cx cols : Nat) (m : Memory)
    (py : UInt16) : Memory :=
  (List.range' cx cols).foldl
    (fun m px => storePixel info color m (pixelAddr info base (UInt16.ofNat px) py)) m

theorem storeRow_eq {cx py : UInt16} {cols : Nat} (h : cx.toNat + cols < 2 ^ 16) (m : Memory) :
  storeRow info base color cx.toNat cols m py
    = (List.range' 0 cols).foldl (fun m k => storePixel info color m
        (base + py.toUInt64 * info.pitch.toUInt64 + cx.toUInt64 * (bytesPerPixel info).toUInt64
          + UInt64.ofNat k * (bytesPerPixel info).toUInt64)) m
  := by
  have hrange : List.range' cx.toNat cols = (List.range' 0 cols).map (cx.toNat + ·) := by
    rw [List.map_add_range', Nat.add_zero]
  rw [storeRow, hrange, List.foldl_map]
  apply List.foldl_ext
  intro m k hk
  rw [pixelAddr_add]
  rw [List.mem_range'_1] at hk
  omega

theorem toUInt64_ofNat {k : Nat} (h : k < 2 ^ 16) :
  (UInt16.ofNat k).toUInt64 = UInt64.ofNat k
  := by
  apply UInt64.toNat_inj.mp
  rw [UInt16.toNat_toUInt64, UInt16.toNat_ofNat_of_lt' h, UInt64.toNat_ofNat']
  omega

theorem fillRow4_eq {cx cw py : UInt16} (hdepth : bytesPerPixel info = 4)
    (h : cx.toNat + cw.toNat < 2 ^ 16) (m : Memory) :
  fillRow4 color (base + py.toUInt64 * info.pitch.toUInt64 + cx.toUInt64 * 4) cw m
    = storeRow info base color cx.toNat cw.toNat m py
  := by
  have hne2 : ¬ (4 : UInt8) = 2 := by decide
  have hne3 : ¬ (4 : UInt8) = 3 := by decide
  have hcast : (4 : UInt8).toUInt64 = 4 := rfl
  rw [storeRow_eq h, fillRow4, rowsFrom, List.foldl_map]
  apply List.foldl_ext
  intro m k hk
  rw [List.mem_range'_1] at hk
  rw [storePixel, hdepth, if_neg hne2, if_neg hne3, hcast, toUInt64_ofNat]
  omega

theorem fillRow2_eq {cx cw py : UInt16} (hdepth : bytesPerPixel info = 2)
    (h : cx.toNat + cw.toNat < 2 ^ 16) (m : Memory) :
  fillRow2 color (base + py.toUInt64 * info.pitch.toUInt64 + cx.toUInt64 * 2) cw m
    = storeRow info base color cx.toNat cw.toNat m py
  := by
  have hcast : (2 : UInt8).toUInt64 = 2 := rfl
  rw [storeRow_eq h, fillRow2, rowsFrom, List.foldl_map]
  apply List.foldl_ext
  intro m k hk
  rw [List.mem_range'_1] at hk
  rw [storePixel, hdepth, if_pos rfl, hcast, toUInt64_ofNat]
  omega

/-- The loop whose pointer moves on by three bytes. -/
theorem foldl_storeBytes {α : Type*} (color : UInt32) (l : List α) (m : Memory) (dst : UInt64) :
  (l.foldl (fun s _ => (storeBytes color s.1 s.2, s.2 + 3)) (m, dst)).1
    = (List.range' 0 l.length).foldl
        (fun m k => storeBytes color m (dst + UInt64.ofNat k * 3)) m
  := by
  induction l generalizing m dst with
  | nil => rfl
  | cons a l ih =>
      have hrange : List.range' (0 + 1) l.length = (List.range' 0 l.length).map (1 + ·) :=
        (List.map_add_range' 0 l.length 1).symm
      have hzero : dst + UInt64.ofNat 0 * 3 = dst := by
        have hnat : UInt64.ofNat 0 = 0 := rfl
        rw [hnat, UInt64.zero_mul, UInt64.add_zero]
      rw [List.foldl_cons, ih, List.length_cons, List.range'_succ, List.foldl_cons, hrange,
        List.foldl_map, hzero]
      apply List.foldl_ext
      intro m k _
      rw [UInt64.ofNat_add, UInt64.add_mul, ← UInt64.add_assoc]
      rfl

theorem fillRow3_eq {cx cw py : UInt16} (hdepth : bytesPerPixel info = 3)
    (h : cx.toNat + cw.toNat < 2 ^ 16) (m : Memory) :
  fillRow3 color (base + py.toUInt64 * info.pitch.toUInt64 + cx.toUInt64 * 3) cw m
    = storeRow info base color cx.toNat cw.toNat m py
  := by
  have hne2 : ¬ (3 : UInt8) = 2 := by decide
  have hcast : (3 : UInt8).toUInt64 = 3 := rfl
  have hlength : (rowsFrom 0 cw).length = cw.toNat := by
    rw [rowsFrom, List.length_map, List.length_range']
    rfl
  rw [storeRow_eq h, fillRow3, foldl_storeBytes, hlength]
  apply List.foldl_ext
  intro m k _
  rw [storePixel, hdepth, if_neg hne2, if_pos rfl, hcast]

/-- When no end is cut, the rectangle that is seen is filled. -/
theorem fbRect_eq (hdepth : SupportedDepth info) (hx : EndsFit x w clip.x clip.w)
    (hy : EndsFit y h clip.y clip.h) (hcols : 0 < seenCount x w clip.x clip.w info.width)
    (hrows : 0 < seenCount y h clip.y clip.h info.height) :
  fbRect info clip base m x y w h color
    = fillSeen info base color (max x.toNat clip.x.toNat) (max y.toNat clip.y.toNat)
        (seenCount x w clip.x clip.w info.width) (seenCount y h clip.y clip.h info.height) m
  := by
  have hstart := clippedStart_toNat hcols
  have hstart' := clippedStart_toNat hrows
  have hstop := clippedStop_toNat info.width hx
  have hstop' := clippedStop_toNat info.height hy
  have hne : ¬ (w = 0 ∨ h = 0) := by
    rintro (rfl | rfl)
    · rw [seenCount, seenStop, UInt16.toNat_zero] at hcols
      omega
    · rw [seenCount, seenStop, UInt16.toNat_zero] at hrows
      omega
  have hmeets : ¬ (clippedStop x w clip.x clip.w info.width ≤ clippedStart x clip.x info.width
      ∨ clippedStop y h clip.y clip.h info.height ≤ clippedStart y clip.y info.height) := by
    rw [clipped_iff, clipped_iff]
    rintro ((hcon | hcon) | (hcon | hcon))
    · exact hcon hx
    · omega
    · exact hcon hy
    · omega
  rw [seenCount] at hcols hrows
  have hcount : (clippedStop x w clip.x clip.w info.width - clippedStart x clip.x info.width).toNat
      = seenCount x w clip.x clip.w info.width := by
    rw [UInt16.toNat_sub_of_le, hstart, hstop, seenCount]
    rw [UInt16.le_iff_toNat_le]
    omega
  have hfit : (clippedStart x clip.x info.width).toNat
      + (clippedStop x w clip.x clip.w info.width - clippedStart x clip.x info.width).toNat
      < 2 ^ 16 := by
    have hlt := (clippedStop x w clip.x clip.w info.width).toNat_lt
    rw [hcount, seenCount]
    omega
  have hfill : ∀ f : Memory → UInt16 → Memory,
      (∀ m py, f m py = storeRow info base color (clippedStart x clip.x info.width).toNat
        (clippedStop x w clip.x clip.w info.width - clippedStart x clip.x info.width).toNat m py)
      → (rowsFrom (clippedStart y clip.y info.height)
          (clippedStop y h clip.y clip.h info.height)).foldl f m
        = fillSeen info base color (max x.toNat clip.x.toNat) (max y.toNat clip.y.toNat)
            (seenCount x w clip.x clip.w info.width) (seenCount y h clip.y clip.h info.height) m := by
    intro f hf
    rw [rowsFrom, List.foldl_map, hstart', hstop', fillSeen]
    apply List.foldl_ext
    intro m py _
    rw [hf, hstart, hcount, storeRow]
  rw [fbRect, if_neg hne]
  dsimp only
  rw [if_neg hmeets]
  have hne24 : ¬ (2 : UInt8) = 4 := by decide
  have hne23 : ¬ (2 : UInt8) = 3 := by decide
  have hne34 : ¬ (3 : UInt8) = 4 := by decide
  rcases hdepth with hdepth | hdepth | hdepth
  · rw [hdepth, if_neg hne24, if_neg hne23, if_pos rfl]
    apply hfill
    intro m py
    apply fillRow2_eq hdepth hfit
  · rw [hdepth, if_neg hne34, if_pos rfl]
    apply hfill
    intro m py
    apply fillRow3_eq hdepth hfit
  · rw [hdepth, if_pos rfl]
    apply hfill
    intro m py
    apply fillRow4_eq hdepth hfit

/-- When an end is cut or nothing is seen, nothing is filled. -/
theorem fbRect_of_clipped
    (hclipped : ¬ EndsFit x w clip.x clip.w ∨ seenCount x w clip.x clip.w info.width = 0
      ∨ ¬ EndsFit y h clip.y clip.h ∨ seenCount y h clip.y clip.h info.height = 0) :
  fbRect info clip base m x y w h color = m
  := by
  rw [fbRect]
  split
  · rfl
  · dsimp only
    apply if_pos
    rw [clipped_iff, clipped_iff, or_assoc]
    exact hclipped

/-! ### Something is written

Of two memories with the same byte at an address, the results of a store have the same byte there; and
after a store of that byte they have it in any case. -/

theorem storePixel_congr {m m' : Memory} {p : Nat} (h : m p = m' p) (a : UInt64) :
  storePixel info color m a p = storePixel info color m' a p
  := by
  rw [storePixel, storePixel]
  split
  · apply Memory.store_apply_congr h
  · split
    · apply Memory.store_apply_congr
      apply Memory.store_apply_congr
      apply Memory.store_apply_congr h
    · apply Memory.store_apply_congr h

theorem storePixel_first (m m' : Memory) (a : UInt64) :
  storePixel info color m a a.toNat = storePixel info color m' a a.toNat
  := by
  rw [storePixel, storePixel]
  split
  · apply Memory.store_apply_inside
    omega
  · split
    · apply Memory.store_apply_congr
      apply Memory.store_apply_congr
      apply Memory.store_apply_inside
      omega
    · apply Memory.store_apply_inside
      omega

/-- The first byte that is filled does not depend on the memory. -/
theorem fillSeen_first
    (info : VideoMode) (base : UInt64) (color : UInt32) {x y cols rows : Nat} (hcols : 0 < cols)
    (hrows : 0 < rows) (m m' : Memory) :
  fillSeen info base color x y cols rows m
      (pixelAddr info base (UInt16.ofNat x) (UInt16.ofNat y)).toNat
    = fillSeen info base color x y cols rows m'
      (pixelAddr info base (UInt16.ofNat x) (UInt16.ofNat y)).toNat
  := by
  obtain ⟨cols, rfl⟩ := Nat.exists_eq_add_one.mpr hcols
  obtain ⟨rows, rfl⟩ := Nat.exists_eq_add_one.mpr hrows
  let p := (pixelAddr info base (UInt16.ofNat x) (UInt16.ofNat y)).toNat
  rw [fillSeen, fillSeen, List.range'_succ (s := y), List.foldl_cons, List.foldl_cons]
  apply List.foldl_rel (r := fun m m' : Memory => m p = m' p)
  · rw [List.range'_succ, List.foldl_cons, List.foldl_cons]
    apply List.foldl_rel (r := fun m m' : Memory => m p = m' p)
    · apply storePixel_first
    · intro px _ m m' h
      apply storePixel_congr h
  · intro py _ m m' h
    apply List.foldl_rel (r := fun m m' : Memory => m p = m' p) h
    intro px _ m m' h
    apply storePixel_congr h

end

/-! ### Agreement -/

/-- The rectangle is filled as writing its pixels fills it, whatever the buffer holds. -/
def FillsAsPixels (info : VideoMode) (clip : Clip) (base : UInt64) (x y w h : UInt16)
    (color : UInt32) : Prop :=
  ∀ m, fbRect info clip base m x y w h color = writePixels info clip base m x y w h color

/-- When an end is cut and something is seen, nothing is filled where pixels are written. -/
theorem not_fillsAsPixels_of_cut {info : VideoMode} {clip : Clip} {base : UInt64} {x y w h : UInt16}
    {color : UInt32} (hcols : seenCount x w clip.x clip.w info.width ≠ 0)
    (hrows : seenCount y h clip.y clip.h info.height ≠ 0)
    (hcut : ¬ EndsFit x w clip.x clip.w ∨ ¬ EndsFit y h clip.y clip.h) :
  ¬ FillsAsPixels info clip base x y w h color
  := by
  intro hsame
  have hkept : ∀ m, fbRect info clip base m x y w h color = m := by
    intro m
    apply fbRect_of_clipped
    rcases hcut with hcut | hcut
    · exact Or.inl hcut
    · exact Or.inr (Or.inr (Or.inl hcut))
  have hfirst := fillSeen_first info base color
    (x := max x.toNat clip.x.toNat) (y := max y.toNat clip.y.toNat)
    (Nat.pos_of_ne_zero hcols) (Nat.pos_of_ne_zero hrows) (fun _ => 0) (fun _ => 1)
  rw [← writePixels_eq, ← writePixels_eq, ← hsame, ← hsame, hkept, hkept] at hfirst
  cases hfirst

/-- The two agree exactly when nothing of the rectangle is seen, or neither its ends nor those of the
clip rectangle are cut to 16 bits. -/
theorem fillsAsPixels_iff (info : VideoMode) (hdepth : SupportedDepth info) (clip : Clip)
    (base : UInt64) (x y w h : UInt16) (color : UInt32) :
  FillsAsPixels info clip base x y w h color
    ↔ seenCount x w clip.x clip.w info.width = 0 ∨ seenCount y h clip.y clip.h info.height = 0
      ∨ (EndsFit x w clip.x clip.w ∧ EndsFit y h clip.y clip.h)
  := by
  constructor
  · intro hsame
    by_contra hnot
    simp only [not_or, not_and_or] at hnot
    obtain ⟨hcols, hrows, hcut⟩ := hnot
    exact not_fillsAsPixels_of_cut hcols hrows hcut hsame
  · intro hcases m
    by_cases hcols : seenCount x w clip.x clip.w info.width = 0
    · rw [fbRect_of_clipped (Or.inr (Or.inl hcols)), writePixels_eq, fillSeen, hcols]
      symm
      apply List.foldl_fixed'
      intro py
      rfl
    by_cases hrows : seenCount y h clip.y clip.h info.height = 0
    · rw [fbRect_of_clipped (Or.inr (Or.inr (Or.inr hrows))), writePixels_eq, fillSeen, hrows]
      rfl
    obtain ⟨hx, hy⟩ := (hcases.resolve_left hcols).resolve_left hrows
    rw [fbRect_eq hdepth hx hy (Nat.pos_of_ne_zero hcols) (Nat.pos_of_ne_zero hrows),
      writePixels_eq]

/-- A screen of 1280 by 1024 pixels of 4 bytes, and no clip rectangle set. -/
def wholeScreen : VideoMode × Clip := (⟨5120, 1280, 1024, 32⟩, ⟨0, 0, 65535, 65535⟩)

/-- A rectangle that reaches beyond the lower right corner of the screen. -/
theorem fillsAsPixels_iff_corner :
  FillsAsPixels wholeScreen.1 wholeScreen.2 0 1200 1000 500 100 0xFFFFFF
  := by
  apply (fillsAsPixels_iff wholeScreen.1 (Or.inr (Or.inr (by decide))) _ _ _ _ _ _ _).mpr
  right; right
  exact ⟨⟨by decide, by decide⟩, ⟨by decide, by decide⟩⟩

/-- Of a rectangle whose end is cut to 16 bits nothing is filled. -/
theorem not_fillsAsPixels :
  ¬ FillsAsPixels wholeScreen.1 wholeScreen.2 0 1279 1023 65535 1 0xFFFFFF
  := by
  apply not_fillsAsPixels_of_cut
  · decide
  · decide
  · left
    rintro ⟨hcon, -⟩
    exact absurd hcon (by decide)

end Fb
