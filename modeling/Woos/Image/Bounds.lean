import Woos.Image.Bmp

/-!
# What the image decoders touch

`decodeReads` and `decodeTouches` are the addresses of the input that `image_decode_bmp` reads and the
indices of the pixels that it reads or writes; `wallpaperReads` and `wallpaperTouches` are those of
`load_wallpaper` of the desktop.

The check of a row compares the end of the row with the length of the input, and the end may wrap.
`decode_inside_iff` and `wallpaper_inside_iff` say when the decoders stay inside their input all the
same.
-/

namespace Image

/-! ### The addresses -/

/-- The addresses of the fields of a header that are read. -/
def fieldAddresses : List UInt32 := [10, 11, 12, 13, 18, 19, 20, 21, 22, 23, 24, 25, 28, 29, 30, 31, 32, 33]

/-- The reads of a decoder: those of the two letters at the start, those of the header, and the rest
when both letters are right. -/
def startReads (data : Memory) (rest : List UInt32) : List UInt32 :=
  if data 0 ≠ 0x42 then [0]
  else if data 1 ≠ 0x4D then [0, 1]
  else [0, 1] ++ fieldAddresses ++ rest

/-- The addresses that `image_decode_bmp` reads. -/
def decodeReads (ptr : UInt32) (data : Memory) (len : UInt32) (pixelsOk : Bool) : List UInt32 :=
  if ptr = 0 ∨ len < 54 then []
  else startReads data
    (if (readHeader data).Decodable ∧ pixelsOk = true then
      ((readHeader data).loads len).flatMap PixelLoad.reads
    else [])

/-- The input is decoded: its header is accepted, and the pixels are allocated. -/
def DecodeRuns (ptr : UInt32) (data : Memory) (len : UInt32) (pixelsOk : Bool) : Prop :=
  ¬ (ptr = 0 ∨ len < 54) ∧ data 0 = 0x42 ∧ data 1 = 0x4D ∧ (readHeader data).Decodable
    ∧ pixelsOk = true

instance (ptr : UInt32) (data : Memory) (len : UInt32) (pixelsOk : Bool) :
    Decidable (DecodeRuns ptr data len pixelsOk) := inferInstanceAs (Decidable (_ ∧ _))

/-- The indices of the pixels that `image_decode_bmp` reads or writes. -/
def decodeTouches (ptr : UInt32) (data : Memory) (len : UInt32) (pixelsOk : Bool) : List Nat :=
  let hdr := readHeader data
  if DecodeRuns ptr data len pixelsOk then
    (hdr.loads len).map PixelLoad.dst
      ++ (if hdr.bpp = 32 then List.range (hdr.columns * hdr.rows) else [])
  else []

theorem zero_mem_startReads (data : Memory) (rest : List UInt32) :
  0 ∈ startReads data rest
  := by
  rw [startReads]
  split
  · exact List.mem_cons_self
  · split
    · exact List.mem_cons_self
    · exact List.mem_cons_self

theorem one_mem_startReads {data : Memory} (rest : List UInt32) (h : data 0 = 0x42) :
  1 ∈ startReads data rest
  := by
  rw [startReads, if_neg (not_not.mpr h)]
  split
  · exact List.mem_cons_of_mem _ List.mem_cons_self
  · exact List.mem_cons_of_mem _ List.mem_cons_self

theorem startReads_eq {data : Memory} (rest : List UInt32) (h : data 0 = 0x42) (h' : data 1 = 0x4D) :
  startReads data rest = [0, 1] ++ fieldAddresses ++ rest
  := by
  rw [startReads, if_neg (not_not.mpr h), if_neg (not_not.mpr h')]

theorem readHeader_congr {data data' : Memory}
    (h : ∀ a ∈ fieldAddresses, data' a.toNat = data a.toNat) :
  readHeader data' = readHeader data
  := by
  have hload : ∀ n a, (∀ i < n, UInt32.ofNat (a + i) ∈ fieldAddresses ∧ a + i < 2 ^ 32) →
      data'.load n a = data.load n a := by
    intro n a hfields
    apply Memory.load_congr
    intro i hi
    obtain ⟨hmem, hlt⟩ := hfields i hi
    have hbyte := h _ hmem
    rwa [UInt32.toNat_ofNat', Nat.mod_eq_of_lt hlt] at hbyte
  rw [readHeader, readHeader, hload 4 10 (by decide), hload 4 18 (by decide), hload 4 22 (by decide),
    hload 2 28 (by decide), hload 4 30 (by decide)]

theorem draw_congr {data data' : Memory} {ps : List PixelLoad} (pixels : Nat → UInt32)
    (h : ∀ a ∈ ps.flatMap PixelLoad.reads, data' a.toNat = data a.toNat) :
  draw data' ps pixels = draw data ps pixels
  := by
  induction ps generalizing pixels with
  | nil => rw [draw_nil, draw_nil]
  | cons p ps ih =>
      have hread : ∀ a ∈ p.reads, data' a.toNat = data a.toNat :=
        fun a ha => h a (List.mem_flatMap.mpr ⟨p, List.mem_cons_self, ha⟩)
      have hblue := hread p.blue (by simp [PixelLoad.reads])
      have hgreen := hread p.green (by simp [PixelLoad.reads])
      have hred := hread p.red (by simp [PixelLoad.reads])
      have hcolor : p.color data' = p.color data := by
        rw [PixelLoad.color, PixelLoad.color, hblue, hgreen, hred]
        cases halpha : p.alpha with
        | none => rfl
        | some a =>
            have hbyte := hread a (by simp [PixelLoad.reads, halpha])
            rw [Option.map_some, Option.map_some, hbyte]
      rw [draw_cons, draw_cons, hcolor, ih]
      intro a ha
      obtain ⟨q, hq, hmem⟩ := List.mem_flatMap.mp ha
      exact h a (List.mem_flatMap.mpr ⟨q, List.mem_cons_of_mem p hq, hmem⟩)

/-- The reads at the start of an input of at least 54 bytes are inside. -/
theorem startReads_inside_iff (data : Memory) (rest : List UInt32) {n : Nat} (h : 54 ≤ n) :
  (∀ a ∈ startReads data rest, a.toNat < n)
    ↔ (data 0 = 0x42 → data 1 = 0x4D → ∀ a ∈ rest, a.toNat < n)
  := by
  have hstart : ∀ a ∈ [0, 1] ++ fieldAddresses, a.toNat < 54 := by
    intro a ha
    have hall : ([0, 1] ++ fieldAddresses).all (fun a => a.toNat < 54) = true := by decide
    exact of_decide_eq_true (List.all_eq_true.mp hall a ha)
  constructor
  · intro hinside hletter hletter' a ha
    apply hinside
    rw [startReads_eq rest hletter hletter']
    exact List.mem_append_right _ ha
  · intro hinside a ha
    rw [startReads] at ha
    split at ha
    · exact (hstart a (List.mem_append_left _ (List.mem_of_mem_take (i := 1) ha))).trans_le h
    · next hletter =>
        split at ha
        · exact (hstart a (List.mem_append_left _ ha)).trans_le h
        · next hletter' =>
            rcases List.mem_append.mp ha with ha | ha
            · exact (hstart a ha).trans_le h
            · exact hinside (not_not.mp hletter) (not_not.mp hletter') a ha

/-- The result of `image_decode_bmp` depends on the bytes that it reads only. -/
theorem imageDecodeBmp_congr
    {ptr len : UInt32} {data data' : Memory} (fresh : Nat → UInt32) {pixelsOk : Bool} (imageOk : Bool)
    (h : ∀ a ∈ decodeReads ptr data len pixelsOk, data' a.toNat = data a.toNat) :
  imageDecodeBmp ptr data' len fresh pixelsOk imageOk
    = imageDecodeBmp ptr data len fresh pixelsOk imageOk
  := by
  rw [imageDecodeBmp, imageDecodeBmp]
  by_cases hgiven : ptr = 0 ∨ len < 54
  · rw [if_pos hgiven, if_pos hgiven]
  rw [if_neg hgiven, if_neg hgiven]
  rw [decodeReads, if_neg hgiven] at h
  have hzero : data' 0 = data 0 := h 0 (zero_mem_startReads _ _)
  by_cases hletter : data 0 = 0x42
  swap
  · rw [hzero, if_pos (Or.inl hletter), if_pos (Or.inl hletter)]
  have hone : data' 1 = data 1 := h 1 (one_mem_startReads _ hletter)
  by_cases hletter' : data 1 = 0x4D
  swap
  · rw [hone, if_pos (Or.inr hletter'), if_pos (Or.inr hletter')]
  rw [startReads_eq _ hletter hletter'] at h
  have hheader : readHeader data' = readHeader data := by
    apply readHeader_congr
    intro a ha
    exact h a (List.mem_append_left _ (List.mem_append_right _ ha))
  rw [hzero, hone, hheader]
  dsimp only
  by_cases haccepted : (readHeader data).Decodable ∧ pixelsOk = true
  · rw [if_pos haccepted] at h
    rw [draw_congr fresh (fun a ha => h a (List.mem_append_right _ ha))]
  · rcases not_and_or.mp haccepted with hcon | hcon
    · rw [if_pos hcon, if_pos hcon]
    · rw [if_pos (Bool.eq_false_of_not_eq_true hcon), if_pos (Bool.eq_false_of_not_eq_true hcon)]

/-! ### The first row -/

/-- The numbers from `start` on up to the first that fails a test. -/
theorem mem_takeWhile_range' (p : Nat → Bool) {start n y : Nat} :
  y ∈ (List.range' start n).takeWhile p
    ↔ start ≤ y ∧ y < start + n ∧ ∀ z, start ≤ z → z ≤ y → p z = true
  := by
  induction n generalizing start with
  | zero =>
      constructor
      · intro hcon
        cases hcon
      · rintro ⟨hle, hlt, -⟩
        omega
  | succ n ih =>
      rw [List.range'_succ, List.takeWhile_cons]
      by_cases hp : p start = true
      · rw [if_pos hp, List.mem_cons, ih]
        constructor
        · rintro (rfl | ⟨hle, hlt, hall⟩)
          · refine ⟨le_rfl, by omega, ?_⟩
            intro z hz hz'
            rw [← Nat.le_antisymm hz hz']
            exact hp
          · refine ⟨by omega, by omega, ?_⟩
            intro z hz hz'
            by_cases heq : z = start
            · rw [heq, hp]
            · exact hall z (by omega) hz'
        · rintro ⟨hle, hlt, hall⟩
          by_cases heq : y = start
          · exact Or.inl heq
          · right
            refine ⟨by omega, by omega, ?_⟩
            intro z hz hz'
            exact hall z (by omega) hz'
      · rw [if_neg hp]
        constructor
        · intro hcon
          cases hcon
        · rintro ⟨hle, -, hall⟩
          exact absurd (hall start le_rfl hle) hp

namespace BmpHeader

variable (hdr : BmpHeader)

/-- The end of the row that is decoded first. -/
def firstEnd : Nat :=
  hdr.offset.toNat + (if hdr.h < 0 then 1 else hdr.rows) * hdr.rowBytes.toNat

/-- The end of a row, that does not wrap. -/
def trueEnd (y : Nat) : Nat := hdr.offset.toNat + ((hdr.srcY y).toNat + 1) * hdr.rowBytes.toNat

/-- The end of the first row wraps to a place inside the input. -/
def Wraps (len : UInt32) : Prop := 2 ^ 32 ≤ hdr.firstEnd ∧ hdr.firstEnd - 2 ^ 32 ≤ len.toNat

variable {hdr}

theorem Decodable.bytes (h : hdr.Decodable) :
  (hdr.bpp = 24 ∧ hdr.pixelBytes.toNat = 3) ∨ (hdr.bpp = 32 ∧ hdr.pixelBytes.toNat = 4)
  := by
  apply h.2.1.imp
  · intro hbpp
    use hbpp
    rw [pixelBytes, hbpp]
    decide
  · intro hbpp
    use hbpp
    rw [pixelBytes, hbpp]
    decide

theorem Decodable.columns (h : hdr.Decodable) :
  1 ≤ hdr.columns ∧ hdr.columns ≤ 4096 ∧ hdr.w.toUInt32.toNat = hdr.columns
  := by
  obtain ⟨-, -, hpos, hle, -⟩ := h
  have hside := side_bounds ⟨Int32.le_iff_toInt_le.mpr (Int32.lt_iff_toInt_lt.mp hpos), hle⟩
  have hvalue := toNat_side ⟨Int32.le_iff_toInt_le.mpr (Int32.lt_iff_toInt_lt.mp hpos), hle⟩
  rw [BmpHeader.columns]
  omega

theorem Decodable.rows (h : hdr.Decodable) :
  1 ≤ hdr.rows ∧ hdr.rows ≤ 4096
  := by
  obtain ⟨-, -, -, -, hne, hle, hge⟩ := h
  have hle' := Int32.le_iff_toInt_le.mp hle
  have hge' := Int32.le_iff_toInt_le.mp hge
  change hdr.h.toInt ≤ 4096 at hle'
  change -4096 ≤ hdr.h.toInt at hge'
  have hne' : hdr.h.toInt ≠ 0 := fun hcon => hne (Int32.toInt_inj.mp hcon)
  rw [BmpHeader.rows, absH]
  split
  · next hneg =>
      have hlt := Int32.lt_iff_toInt_lt.mp hneg
      change hdr.h.toInt < 0 at hlt
      have hvalue : (-hdr.h).toInt = -hdr.h.toInt := by
        apply Signed.toInt_neg
        intro hcon
        rw [hcon] at hge'
        exact absurd hge' (by decide)
      omega
  · next hpos =>
      have hlt := Int32.le_iff_toInt_le.mp (Int32.not_lt.mp hpos)
      change 0 ≤ hdr.h.toInt at hlt
      omega

/-- The bytes of a row, and the padding. -/
theorem Decodable.rowBytes (h : hdr.Decodable) :
  hdr.columns * hdr.pixelBytes.toNat ≤ hdr.rowBytes.toNat
    ∧ hdr.rowBytes.toNat ≤ 4 * hdr.columns ∧ hdr.rowBytes.toNat ≤ 2 ^ 14
  := by
  obtain ⟨hpos, hle, hw⟩ := h.columns
  rw [toNat_rowBytes, hw]
  rcases h.bytes with ⟨-, hbytes⟩ | ⟨-, hbytes⟩
  · rw [hbytes, Nat.mod_eq_of_lt (by omega)]
    omega
  · rw [hbytes, Nat.mod_eq_of_lt (by omega)]
    omega

theorem Decodable.srcY_lt (h : hdr.Decodable) {y : Nat} (hy : y < hdr.rows) :
  (hdr.srcY y).toNat = if hdr.h < 0 then y else hdr.rows - 1 - y
  := by
  obtain ⟨hpos, hle⟩ := h.rows
  rw [srcY, UInt32.toNat_ofNat']
  split
  · omega
  · omega

theorem rowEnd_eq (y : Nat) :
  (hdr.rowEnd y).toNat = hdr.trueEnd y % 2 ^ 32
  := hdr.toNat_rowEnd y

theorem trueEnd_zero (h : hdr.Decodable) :
  hdr.trueEnd 0 = hdr.firstEnd
  := by
  have hrows := h.rows
  rw [trueEnd, firstEnd, h.srcY_lt hrows.1]
  split
  · rfl
  · have hlast : hdr.rows - 1 - 0 + 1 = hdr.rows := by omega
    rw [hlast]

/-- The rows are decoded up to the first whose end is not inside the input. -/
theorem mem_decodedRows {len : UInt32} {y : Nat} :
  y ∈ hdr.decodedRows len ↔ y < hdr.rows ∧ ∀ z ≤ y, hdr.trueEnd z % 2 ^ 32 ≤ len.toNat
  := by
  rw [decodedRows, List.range_eq_range', mem_takeWhile_range', Nat.zero_add]
  simp only [Nat.zero_le, true_and, forall_const, decide_eq_true_eq, UInt32.le_iff_toNat_le,
    rowEnd_eq]

/-- A top-down row ends a row further than the one before. -/
theorem trueEnd_topDown (h : hdr.Decodable) (hdown : hdr.h < 0) {y : Nat} (hy : y < hdr.rows) :
  hdr.trueEnd y = hdr.firstEnd + y * hdr.rowBytes.toNat
  := by
  rw [trueEnd, firstEnd, h.srcY_lt hy, if_pos hdown, if_pos hdown]
  ring

/-- A bottom-up row ends a row before the one before. -/
theorem trueEnd_bottomUp (h : hdr.Decodable) (hup : ¬ hdr.h < 0) {y : Nat} (hy : y < hdr.rows) :
  hdr.trueEnd y + y * hdr.rowBytes.toNat = hdr.firstEnd
  := by
  have hrow : hdr.rows - 1 - y + 1 + y = hdr.rows := by omega
  rw [trueEnd, firstEnd, h.srcY_lt hy, if_neg hup, if_neg hup, Nat.add_assoc, ← Nat.add_mul, hrow]

/-- The place that is read first in a row. -/
theorem byteAt_first (y : Nat) :
  (hdr.byteAt y 0 0).toNat = (hdr.trueEnd y - hdr.rowBytes.toNat) % 2 ^ 32
  := by
  have hend : hdr.trueEnd y - hdr.rowBytes.toNat
      = hdr.offset.toNat + (hdr.srcY y).toNat * hdr.rowBytes.toNat := by
    rw [trueEnd, Nat.add_mul, Nat.one_mul, ← Nat.add_assoc, Nat.add_sub_cancel]
  rw [toNat_byteAt, hend, Nat.zero_mul, Nat.add_zero]

/-- The bytes of a row lie before its end. -/
theorem byteAt_lt (h : hdr.Decodable) {y x k : Nat} (hx : x < hdr.columns)
    (hk : k < hdr.pixelBytes.toNat) (hend : hdr.trueEnd y < 2 ^ 32) :
  (hdr.byteAt y x k).toNat < hdr.trueEnd y
  := by
  have hrow := h.rowBytes.1
  have hpixel : x * hdr.pixelBytes.toNat + k < hdr.rowBytes.toNat := by
    calc x * hdr.pixelBytes.toNat + k
        < x * hdr.pixelBytes.toNat + hdr.pixelBytes.toNat := Nat.add_lt_add_left hk _
      _ = (x + 1) * hdr.pixelBytes.toNat := (Nat.succ_mul x _).symm
      _ ≤ hdr.columns * hdr.pixelBytes.toNat := Nat.mul_le_mul_right _ hx
      _ ≤ hdr.rowBytes.toNat := hrow
  rw [toNat_byteAt]
  rw [trueEnd, Nat.add_mul, Nat.one_mul] at hend ⊢
  rw [Nat.mod_eq_of_lt (by omega)]
  omega

/-- The check of the first row. -/
theorem firstEnd_le_of_mem (h : hdr.Decodable) {len : UInt32} (hwraps : ¬ hdr.Wraps len) {y : Nat}
    (hy : y ∈ hdr.decodedRows len) :
  hdr.firstEnd < 2 ^ 32
  := by
  obtain ⟨hlt, hall⟩ := mem_decodedRows.mp hy
  have hrows := h.rows
  have hbytes := h.rowBytes
  have hoffset := hdr.offset.toNat_lt
  have hfirst := hall 0 (Nat.zero_le y)
  rw [trueEnd_zero h] at hfirst
  have hbound : (if hdr.h < 0 then 1 else hdr.rows) * hdr.rowBytes.toNat ≤ 4096 * 2 ^ 14 := by
    apply Nat.mul_le_mul _ hbytes.2.2
    split
    · decide
    · exact hrows.2
  by_contra hcon
  apply hwraps
  have hend : hdr.firstEnd < 2 ^ 32 + 2 ^ 32 := by
    rw [firstEnd]
    omega
  constructor
  · omega
  · omega

/-- A top-down row that is decoded ends a row behind one that ends inside the input. -/
theorem trueEnd_lt_topDown (h : hdr.Decodable) (hdown : hdr.h < 0) {len : UInt32}
    (hroom : len.toNat + 4 * (hdr.columns * hdr.rows) < 2 ^ 32) (hfirst : hdr.firstEnd < 2 ^ 32)
    {y : Nat} (hy : y ∈ hdr.decodedRows len) :
  hdr.trueEnd y < 2 ^ 32
  := by
  induction y with
  | zero =>
      rw [trueEnd_zero h]
      exact hfirst
  | succ y ih =>
      obtain ⟨hlt, hall⟩ := mem_decodedRows.mp hy
      have hless := ih (mem_decodedRows.mpr ⟨by omega, fun z hz => hall z (by omega)⟩)
      have hbefore := hall y (Nat.le_succ y)
      rw [Nat.mod_eq_of_lt hless] at hbefore
      have hend := trueEnd_topDown h hdown hlt
      have hend' := trueEnd_topDown h hdown (Nat.lt_of_succ_lt hlt)
      have hbytes := h.rowBytes.2.1
      have hwide := Nat.le_mul_of_pos_right hdr.columns h.rows.1
      rw [Nat.succ_mul] at hend
      omega

/-- When the end of the first row does not wrap to a place inside the input, every row that is decoded
lies inside. -/
theorem trueEnd_le_of_mem (h : hdr.Decodable) {len : UInt32} (hwraps : ¬ hdr.Wraps len)
    (hroom : len.toNat + 4 * (hdr.columns * hdr.rows) < 2 ^ 32) {y : Nat}
    (hy : y ∈ hdr.decodedRows len) :
  hdr.trueEnd y < 2 ^ 32 ∧ hdr.trueEnd y ≤ len.toNat
  := by
  have hfirst := firstEnd_le_of_mem h hwraps hy
  obtain ⟨hlt, hall⟩ := mem_decodedRows.mp hy
  have hlast := hall y le_rfl
  have hless : hdr.trueEnd y < 2 ^ 32 := by
    by_cases hdown : hdr.h < 0
    · exact trueEnd_lt_topDown h hdown hroom hfirst hy
    · have hend := trueEnd_bottomUp h hdown hlt
      omega
  rw [Nat.mod_eq_of_lt hless] at hlast
  exact ⟨hless, hlast⟩

/-- Below a row that ends behind `2 ^ 32` there is one that starts before and ends behind. -/
theorem exists_straddling (h : hdr.Decodable) (hup : ¬ hdr.h < 0) {d y : Nat}
    (hlast : y + d + 1 = hdr.rows) (hend : 2 ^ 32 ≤ hdr.trueEnd y) :
  ∃ z < hdr.rows, 2 ^ 32 ≤ hdr.trueEnd z ∧ hdr.trueEnd z - hdr.rowBytes.toNat < 2 ^ 32
  := by
  have hoffset := hdr.offset.toNat_lt
  induction d generalizing y with
  | zero =>
      refine ⟨y, by omega, hend, ?_⟩
      have hbottom : hdr.rows - 1 - y = 0 := by omega
      rw [trueEnd, h.srcY_lt (by omega), if_neg hup, hbottom, Nat.zero_add, Nat.one_mul,
        Nat.add_sub_cancel]
      exact hoffset
  | succ d ih =>
      by_cases hnext : 2 ^ 32 ≤ hdr.trueEnd (y + 1)
      · exact ih (by omega) hnext
      · refine ⟨y, by omega, hend, ?_⟩
        have hrow := trueEnd_bottomUp h hup (show y < hdr.rows by omega)
        have hrow' := trueEnd_bottomUp h hup (show y + 1 < hdr.rows by omega)
        rw [Nat.succ_mul] at hrow'
        omega

/-- When the end of the first row wraps to a place inside the input, a row is decoded that starts at
the end of the address space. -/
theorem exists_decoded_of_wraps (h : hdr.Decodable) {len : UInt32} (hwraps : hdr.Wraps len) :
  ∃ y ∈ hdr.decodedRows len,
    2 ^ 32 ≤ hdr.trueEnd y ∧ hdr.trueEnd y - hdr.rowBytes.toNat < 2 ^ 32
  := by
  obtain ⟨hbehind, hinside⟩ := hwraps
  have hrows := h.rows
  have hbytes := h.rowBytes
  have hoffset := hdr.offset.toNat_lt
  by_cases hdown : hdr.h < 0
  · use 0
    have hend : hdr.firstEnd = hdr.offset.toNat + hdr.rowBytes.toNat := by
      rw [firstEnd, if_pos hdown, Nat.one_mul]
    rw [mem_decodedRows]
    refine ⟨⟨hrows.1, ?_⟩, ?_, ?_⟩
    · intro z hz
      rw [Nat.le_zero.mp hz, trueEnd_zero h]
      omega
    · rw [trueEnd_zero h]
      exact hbehind
    · rw [trueEnd_zero h]
      omega
  · rw [← trueEnd_zero h] at hbehind hinside
    obtain ⟨y, hy, hrow, hstart⟩ := exists_straddling h hdown
      (show 0 + (hdr.rows - 1) + 1 = hdr.rows by omega) hbehind
    refine ⟨y, mem_decodedRows.mpr ⟨hy, ?_⟩, hrow, hstart⟩
    intro z hz
    have hz' := trueEnd_bottomUp h hdown (show z < hdr.rows by omega)
    have hy' := trueEnd_bottomUp h hdown hy
    have hle := Nat.mul_le_mul_right hdr.rowBytes.toNat hz
    rw [trueEnd_zero h] at hinside
    have hbound : (if hdr.h < 0 then 1 else hdr.rows) * hdr.rowBytes.toNat ≤ 4096 * 2 ^ 14 := by
      rw [if_neg hdown]
      exact Nat.mul_le_mul hrows.2 hbytes.2.2
    have hfirst : hdr.firstEnd < 2 ^ 32 + 2 ^ 32 := by
      rw [firstEnd]
      omega
    omega

/-- The addresses that are read for a pixel. -/
theorem mem_reads (h : hdr.Decodable) {a : UInt32} {y x : Nat} :
  a ∈ (hdr.load y x).reads ↔ ∃ k < hdr.pixelBytes.toNat, a = hdr.byteAt y x k
  := by
  rw [PixelLoad.reads, load]
  rcases h.bytes with ⟨hbpp, hbytes⟩ | ⟨hbpp, hbytes⟩
  · rw [hbpp, hbytes, if_neg (by decide)]
    simp only [Option.toList, List.append_nil, List.mem_cons, List.not_mem_nil, or_false]
    constructor
    · rintro (rfl | rfl | rfl)
      · exact ⟨0, by decide, rfl⟩
      · exact ⟨1, by decide, rfl⟩
      · exact ⟨2, by decide, rfl⟩
    · rintro ⟨k, hk, rfl⟩
      obtain rfl | rfl | rfl : k = 0 ∨ k = 1 ∨ k = 2 := by omega
      · exact Or.inl rfl
      · exact Or.inr (Or.inl rfl)
      · exact Or.inr (Or.inr rfl)
  · rw [hbpp, hbytes, if_pos rfl]
    simp only [Option.toList, List.cons_append, List.nil_append, List.mem_cons, List.not_mem_nil,
      or_false]
    constructor
    · rintro (rfl | rfl | rfl | rfl)
      · exact ⟨0, by decide, rfl⟩
      · exact ⟨1, by decide, rfl⟩
      · exact ⟨2, by decide, rfl⟩
      · exact ⟨3, by decide, rfl⟩
    · rintro ⟨k, hk, rfl⟩
      obtain rfl | rfl | rfl | rfl : k = 0 ∨ k = 1 ∨ k = 2 ∨ k = 3 := by omega
      · exact Or.inl rfl
      · exact Or.inr (Or.inl rfl)
      · exact Or.inr (Or.inr (Or.inl rfl))
      · exact Or.inr (Or.inr (Or.inr rfl))

/-- The bytes of the pixels lie inside the input exactly when the end of the first row does not wrap
to a place inside. -/
theorem loads_inside_iff (h : hdr.Decodable) {len : UInt32}
    (hroom : len.toNat + 4 * (hdr.columns * hdr.rows) < 2 ^ 32) :
  (∀ a ∈ (hdr.loads len).flatMap PixelLoad.reads, a.toNat < len.toNat) ↔ ¬ hdr.Wraps len
  := by
  have hcolumns := h.columns
  have hpixel : 0 < hdr.pixelBytes.toNat := by
    rcases h.bytes with ⟨-, hbytes⟩ | ⟨-, hbytes⟩
    · omega
    · omega
  simp only [List.mem_flatMap, mem_loads]
  constructor
  · intro hinside hwraps
    obtain ⟨y, hy, hend, hstart⟩ := exists_decoded_of_wraps h hwraps
    have hread := hinside (hdr.byteAt y 0 0)
      ⟨_, ⟨y, hy, 0, hcolumns.1, rfl⟩, (mem_reads h).mpr ⟨0, hpixel, rfl⟩⟩
    rw [byteAt_first, Nat.mod_eq_of_lt hstart] at hread
    have hbytes := h.rowBytes.2.1
    have hwide := Nat.le_mul_of_pos_right hdr.columns h.rows.1
    omega
  · rintro hwraps a ⟨p, ⟨y, hy, x, hx, rfl⟩, ha⟩
    obtain ⟨k, hk, rfl⟩ := (mem_reads h).mp ha
    obtain ⟨hless, hend⟩ := trueEnd_le_of_mem h hwraps hroom hy
    exact (byteAt_lt h hx hk hless).trans_le hend

end BmpHeader

/-! ### The wallpaper -/

/-- `target_w` -/
def targetW : Nat := 1280

/-- `target_h` -/
def targetH : Nat := 1024 - 36

namespace BmpHeader

variable (hdr : BmpHeader)

/-- The checks of `load_wallpaper`. -/
def Shown (fsize : UInt32) : Prop :=
  (hdr.comp = 0 ∨ hdr.comp = 3) ∧ (hdr.bpp = 24 ∨ hdr.bpp = 32) ∧ 0 < hdr.w ∧ hdr.h ≠ 0
    ∧ hdr.offset < fsize

instance (fsize : UInt32) : Decidable (hdr.Shown fsize) := inferInstanceAs (Decidable (_ ∧ _))

/-- `src_y` -/
def srcLine (y : Nat) : Int32 :=
  let line := Int32.ofNat y * hdr.absH / Int32.ofNat targetH
  if hdr.h < 0 then line else hdr.absH - 1 - line

/-- `row_off` -/
def rowOff (y : Nat) : UInt32 := hdr.offset + (hdr.srcLine y).toUInt32 * hdr.rowBytes

/-- `sx` -/
def srcColumn (x : Nat) : Int32 := Int32.ofNat x * hdr.w / Int32.ofNat targetW

/-- The address of a byte of a pixel. -/
def wallpaperByte (y x k : Nat) : UInt32 :=
  hdr.rowOff y + (hdr.srcColumn x).toUInt32 * hdr.pixelBytes + .ofNat k

/-- A pass of the inner loop of `load_wallpaper`. -/
def wallpaperLoad (y x : Nat) : PixelLoad where
  blue := hdr.wallpaperByte y x 0
  green := hdr.wallpaperByte y x 1
  red := hdr.wallpaperByte y x 2
  alpha := none
  dst := y * targetW + x

/-- The rows that are drawn: those whose source row ends inside the file. -/
def wallpaperRows (fsize : UInt32) : List Nat :=
  (List.range targetH).filter (fun y => hdr.rowOff y + hdr.rowBytes ≤ fsize)

/-- The passes of the loops of `load_wallpaper`. -/
def wallpaperLoads (fsize : UInt32) : List PixelLoad :=
  (hdr.wallpaperRows fsize).flatMap (fun y => (List.range targetW).map (hdr.wallpaperLoad y))

end BmpHeader

/-- `load_wallpaper`, with the answers of `woos_vfs_open`, `woos_vfs_size` and `woos_vfs_read`: whether
there is a wallpaper, and its pixels. -/
def loadWallpaper (fd : Int32) (fsize : UInt32) (data : Memory) (r : UInt32)
    (wallpaper : Nat → UInt32) : Bool × (Nat → UInt32) :=
  if fd < 0 then (false, wallpaper)
  else if fsize < 54 ∨ 512 * 1024 < fsize then (false, wallpaper)
  else if r < 54 ∨ data 0 ≠ 0x42 ∨ data 1 ≠ 0x4D then (false, wallpaper)
  else
    let hdr := readHeader data
    if ¬ hdr.Shown fsize then (false, wallpaper)
    else (true, draw data (hdr.wallpaperLoads fsize) wallpaper)

/-- The addresses of `s_bmp_data` that `load_wallpaper` reads. -/
def wallpaperReads (fd : Int32) (fsize : UInt32) (data : Memory) (r : UInt32) : List UInt32 :=
  if fd < 0 ∨ fsize < 54 ∨ 512 * 1024 < fsize ∨ r < 54 then []
  else startReads data
    (if (readHeader data).Shown fsize then
      ((readHeader data).wallpaperLoads fsize).flatMap PixelLoad.reads
    else [])

/-- The number of bytes that the read has delivered: none when its answer is an error. -/
def delivered (fsize r : UInt32) : Nat := if r ≤ fsize then r.toNat else 0

namespace BmpHeader

variable (hdr : BmpHeader)

/-- The number of bytes of the pixels of a row, that does not wrap. -/
def trueBytes : Nat := hdr.w.toUInt32.toNat * hdr.pixelBytes.toNat

/-- The last column that is drawn. -/
def lastColumn : Nat := (targetW - 1) * hdr.w.toUInt32.toNat / targetW

/-- When a row of the wallpaper is drawn, neither the size of the row nor the end of its source row wraps,
and the last byte that is read was delivered. -/
def RowFits (fsize : UInt32) (given y : Nat) : Prop :=
  hdr.rowOff y + hdr.rowBytes ≤ fsize →
    hdr.trueBytes + 3 < 2 ^ 31 ∧ (hdr.rowOff y).toNat + hdr.rowBytes.toNat < 2 ^ 32
      ∧ (hdr.rowOff y).toNat + hdr.lastColumn * hdr.pixelBytes.toNat + 2 < given

variable {hdr}

theorem toNat_srcColumn (hpos : 0 < hdr.w) {x : Nat} (h : x * hdr.w.toUInt32.toNat < 2 ^ 31)
    (hx : x < 2 ^ 31) :
  (hdr.srcColumn x).toUInt32.toNat = x * hdr.w.toUInt32.toNat / targetW
  := by
  have hpos' := Int32.lt_iff_toInt_lt.mp hpos
  have hw := Signed.toNat_toUInt32 (Int.le_of_lt hpos')
  have hx' : (Int32.ofNat x).toInt = x := Int32.toInt_ofNat_of_lt hx
  have hprod : (Int32.ofNat x).toInt * hdr.w.toInt = (x * hdr.w.toUInt32.toNat : Nat) := by
    rw [hx', ← hw]
    push_cast
    rfl
  have hmul : (Int32.ofNat x * hdr.w).toInt = (x * hdr.w.toUInt32.toNat : Nat) := by
    rw [Signed.toInt_mul, hprod]
    · omega
    · omega
  have hdiv : (hdr.srcColumn x).toInt = (x * hdr.w.toUInt32.toNat / targetW : Nat) := by
    rw [srcColumn, Signed.toInt_div, hmul]
    · rfl
    · omega
    · decide
  have hvalue := Signed.toNat_toUInt32 (hdiv.symm ▸ Int.natCast_nonneg _)
  omega

theorem toNat_wallpaperByte (y x k : Nat) :
  (hdr.wallpaperByte y x k).toNat
    = ((hdr.rowOff y).toNat + (hdr.srcColumn x).toUInt32.toNat * hdr.pixelBytes.toNat + k) % 2 ^ 32
  := by
  rw [wallpaperByte, UInt32.toNat_add, UInt32.toNat_add, UInt32.toNat_mul, UInt32.toNat_ofNat']
  omega

/-- The bytes of a row that is drawn were delivered exactly when the row fits. -/
theorem row_inside_iff {fsize : UInt32} {given y : Nat} (h : hdr.Shown fsize)
    (hsize : fsize.toNat ≤ 512 * 1024) (hgiven : given ≤ fsize.toNat)
    (hpass : hdr.rowOff y + hdr.rowBytes ≤ fsize) :
  (∀ x < targetW, ∀ k < 3, (hdr.wallpaperByte y x k).toNat < given)
    ↔ hdr.trueBytes + 3 < 2 ^ 31 ∧ (hdr.rowOff y).toNat + hdr.rowBytes.toNat < 2 ^ 32
      ∧ (hdr.rowOff y).toNat + hdr.lastColumn * hdr.pixelBytes.toNat + 2 < given
  := by
  have hpos := h.2.2.1
  have hw := hdr.w.toUInt32.toNat_lt
  have hbytes : hdr.pixelBytes.toNat = 3 ∨ hdr.pixelBytes.toNat = 4 := by
    rcases h.2.1 with hbpp | hbpp
    · left
      rw [pixelBytes, hbpp]
      decide
    · right
      rw [pixelBytes, hbpp]
      decide
  have hend : ((hdr.rowOff y).toNat + hdr.rowBytes.toNat) % 2 ^ 32 ≤ fsize.toNat := by
    rw [← UInt32.toNat_add]
    exact UInt32.le_iff_toNat_le.mp hpass
  have hrow : hdr.trueBytes + 3 < 2 ^ 31
      → hdr.trueBytes ≤ hdr.rowBytes.toNat ∧ hdr.rowBytes.toNat < 2 ^ 31 := by
    intro hwide
    rw [toNat_rowBytes, ← trueBytes, Nat.mod_eq_of_lt (by omega)]
    omega
  have hsmall : hdr.trueBytes + 3 < 2 ^ 31 → (hdr.rowOff y).toNat + hdr.rowBytes.toNat < 2 ^ 32
      → (hdr.rowOff y).toNat ≤ 2 ^ 19 ∧ hdr.w.toUInt32.toNat ≤ 2 ^ 18 := by
    intro hwide hless
    rw [Nat.mod_eq_of_lt hless] at hend
    have hpixels := (hrow hwide).1
    rw [trueBytes] at hpixels
    rcases hbytes with hbytes | hbytes
    · rw [hbytes] at hpixels
      omega
    · rw [hbytes] at hpixels
      omega
  constructor
  · intro hinside
    have hstart : (hdr.rowOff y).toNat < given := by
      have hread := hinside 0 (by decide) 0 (by decide)
      rw [toNat_wallpaperByte, toNat_srcColumn hpos (by omega) (by decide), Nat.zero_mul,
        Nat.zero_div, Nat.zero_mul, Nat.add_zero, Nat.mod_eq_of_lt (hdr.rowOff y).toNat_lt] at hread
      exact hread
    have hwide : hdr.trueBytes + 3 < 2 ^ 31 := by
      -- otherwise the second column lies behind the largest file
      by_contra hcon
      have hread := hinside 1 (by decide) 0 (by decide)
      have hlt := Int32.toInt_lt hdr.w
      have hvalue := Signed.toNat_toUInt32 (Int.le_of_lt (Int32.lt_iff_toInt_lt.mp hpos))
      rw [toNat_wallpaperByte, toNat_srcColumn hpos (by omega) (by decide), Nat.one_mul, targetW]
        at hread
      rw [trueBytes] at hcon
      rcases hbytes with hbytes | hbytes
      · rw [hbytes] at hread hcon
        rw [Nat.mod_eq_of_lt (by omega)] at hread
        omega
      · rw [hbytes] at hread hcon
        rw [Nat.mod_eq_of_lt (by omega)] at hread
        omega
    have hless : (hdr.rowOff y).toNat + hdr.rowBytes.toNat < 2 ^ 32 := by
      have hbound := (hrow hwide).2
      omega
    refine ⟨hwide, hless, ?_⟩
    obtain ⟨hoff, hw'⟩ := hsmall hwide hless
    have hread := hinside (targetW - 1) (by decide) 2 (by decide)
    have hlast : hdr.lastColumn ≤ 2 ^ 18 := by
      rw [lastColumn, targetW]
      omega
    rw [toNat_wallpaperByte, toNat_srcColumn hpos (by rw [targetW]; omega) (by decide), ← lastColumn]
      at hread
    rcases hbytes with hbytes | hbytes
    · rw [hbytes] at hread ⊢
      omega
    · rw [hbytes] at hread ⊢
      omega
  · rintro ⟨hwide, hless, hlast⟩ x hx k hk
    obtain ⟨hoff, hw'⟩ := hsmall hwide hless
    have hcolumn : x * hdr.w.toUInt32.toNat ≤ (targetW - 1) * hdr.w.toUInt32.toNat :=
      Nat.mul_le_mul_right _ (Nat.le_sub_one_of_lt hx)
    have hsx : x * hdr.w.toUInt32.toNat / targetW ≤ hdr.lastColumn := Nat.div_le_div_right hcolumn
    have hpixel := Nat.mul_le_mul_right hdr.pixelBytes.toNat hsx
    have hx31 : x < 2 ^ 31 := hx.trans (by decide)
    have hprod : x * hdr.w.toUInt32.toNat < 2 ^ 31 := by
      rw [targetW] at hcolumn
      omega
    rw [toNat_wallpaperByte, toNat_srcColumn hpos hprod hx31, Nat.mod_eq_of_lt (by omega)]
    omega

end BmpHeader

/-! ### The decoders -/

/-- The input and a buffer of a size lie apart in a memory of `2 ^ 32` bytes. -/
structure Apart (ptr len buffer : UInt32) (size : Nat) : Prop where
  input : ptr.toNat + len.toNat ≤ 2 ^ 32
  fits : buffer.toNat + size ≤ 2 ^ 32
  apart : ptr.toNat + len.toNat ≤ buffer.toNat ∨ buffer.toNat + size ≤ ptr.toNat

/-- `image_decode_bmp` stays inside its input and its pixels.  The buffer of the pixels is at `buffer`,
or `buffer` is `0`. -/
structure DecodeInside (ptr : UInt32) (data : Memory) (len buffer : UInt32) : Prop where
  reads : ∀ a ∈ decodeReads ptr data len (buffer != 0), a.toNat < len.toNat
  touches : ∀ i ∈ decodeTouches ptr data len (buffer != 0),
    i < (readHeader data).columns * (readHeader data).rows

theorem decodeTouches_inside
    {ptr len : UInt32} {data : Memory} {pixelsOk : Bool} {i : Nat}
    (h : i ∈ decodeTouches ptr data len pixelsOk) :
  i < (readHeader data).columns * (readHeader data).rows
  := by
  rw [decodeTouches] at h
  split at h
  · rcases List.mem_append.mp h with h | h
    · obtain ⟨p, hp, rfl⟩ := List.mem_map.mp h
      obtain ⟨y, hy, x, hx, rfl⟩ := (readHeader data).mem_loads.mp hp
      have hrow := (BmpHeader.mem_decodedRows.mp hy).1
      calc y * (readHeader data).columns + x
          < y * (readHeader data).columns + (readHeader data).columns := Nat.add_lt_add_left hx _
        _ = (y + 1) * (readHeader data).columns := (Nat.succ_mul y _).symm
        _ ≤ (readHeader data).rows * (readHeader data).columns := Nat.mul_le_mul_right _ hrow
        _ = (readHeader data).columns * (readHeader data).rows := Nat.mul_comm _ _
    · split at h
      · exact List.mem_range.mp h
      · cases h
  · cases h

theorem decode_inside_iff
    {ptr len buffer : UInt32} {data : Memory}
    (happart : DecodeRuns ptr data len (buffer != 0)
      → Apart ptr len buffer (4 * ((readHeader data).columns * (readHeader data).rows))) :
  DecodeInside ptr data len buffer
    ↔ (DecodeRuns ptr data len (buffer != 0) → ¬ (readHeader data).Wraps len)
  := by
  have hroom : DecodeRuns ptr data len (buffer != 0)
      → len.toNat + 4 * ((readHeader data).columns * (readHeader data).rows) < 2 ^ 32 := by
    intro hruns
    have hptr : ptr.toNat ≠ 0 := fun hcon => hruns.1 (Or.inl (UInt32.toNat_inj.mp hcon))
    have hbuffer : buffer.toNat ≠ 0 :=
      fun hcon => (bne_iff_ne.mp hruns.2.2.2.2) (UInt32.toNat_inj.mp hcon)
    obtain ⟨hinput, hfits, hside⟩ := happart hruns
    omega
  have hlen : ¬ (ptr = 0 ∨ len < 54) → 54 ≤ len.toNat := by
    intro hgiven
    exact UInt32.le_iff_toNat_le.mp (UInt32.not_lt.mp (not_or.mp hgiven).2)
  constructor
  · rintro ⟨hreads, -⟩ hruns
    obtain ⟨hgiven, hletter, hletter', haccepted, hok⟩ := id hruns
    rw [decodeReads, if_neg hgiven, if_pos ⟨haccepted, hok⟩,
      startReads_inside_iff _ _ (hlen hgiven)] at hreads
    exact (BmpHeader.loads_inside_iff haccepted (hroom hruns)).mp (hreads hletter hletter')
  · intro hfits
    refine ⟨?_, fun i hi => decodeTouches_inside hi⟩
    rw [decodeReads]
    split
    · intro a ha
      cases ha
    · next hgiven =>
        rw [startReads_inside_iff _ _ (hlen hgiven)]
        intro hletter hletter'
        split
        · next haccepted =>
            have hruns : DecodeRuns ptr data len (buffer != 0) :=
              ⟨hgiven, hletter, hletter', haccepted⟩
            exact (BmpHeader.loads_inside_iff haccepted.1 (hroom hruns)).mpr (hfits hruns)
        · intro a ha
          cases ha

/-- What `load_wallpaper` draws depends on the bytes that it reads only. -/
theorem loadWallpaper_congr
    {fd : Int32} {fsize r : UInt32} {data data' : Memory} (wallpaper : Nat → UInt32)
    (h : ∀ a ∈ wallpaperReads fd fsize data r, data' a.toNat = data a.toNat) :
  loadWallpaper fd fsize data' r wallpaper = loadWallpaper fd fsize data r wallpaper
  := by
  rw [loadWallpaper, loadWallpaper]
  by_cases hfd : fd < 0
  · rw [if_pos hfd, if_pos hfd]
  rw [if_neg hfd, if_neg hfd]
  by_cases hsize : fsize < 54 ∨ 512 * 1024 < fsize
  · rw [if_pos hsize, if_pos hsize]
  rw [if_neg hsize, if_neg hsize]
  by_cases hr : r < 54
  · rw [if_pos (Or.inl hr), if_pos (Or.inl hr)]
  have hgiven : ¬ (fd < 0 ∨ fsize < 54 ∨ 512 * 1024 < fsize ∨ r < 54) := by
    rw [not_or] at hsize
    simp only [not_or]
    exact ⟨hfd, hsize.1, hsize.2, hr⟩
  rw [wallpaperReads, if_neg hgiven] at h
  have hzero : data' 0 = data 0 := h 0 (zero_mem_startReads _ _)
  by_cases hletter : data 0 = 0x42
  swap
  · rw [hzero, if_pos (Or.inr (Or.inl hletter)), if_pos (Or.inr (Or.inl hletter))]
  have hone : data' 1 = data 1 := h 1 (one_mem_startReads _ hletter)
  by_cases hletter' : data 1 = 0x4D
  swap
  · rw [hone, if_pos (Or.inr (Or.inr hletter')), if_pos (Or.inr (Or.inr hletter'))]
  rw [startReads_eq _ hletter hletter'] at h
  have hheader : readHeader data' = readHeader data := by
    apply readHeader_congr
    intro a ha
    exact h a (List.mem_append_left _ (List.mem_append_right _ ha))
  rw [hzero, hone, hheader]
  dsimp only
  by_cases hshown : (readHeader data).Shown fsize
  · rw [if_pos hshown] at h
    rw [draw_congr wallpaper (fun a ha => h a (List.mem_append_right _ ha))]
  · rw [if_pos hshown, if_pos hshown]

/-- The indices of the pixels that `load_wallpaper` writes. -/
def wallpaperTouches (fd : Int32) (fsize : UInt32) (data : Memory) (r : UInt32) : List Nat :=
  if fd < 0 ∨ fsize < 54 ∨ 512 * 1024 < fsize ∨ r < 54 then []
  else if data 0 ≠ 0x42 ∨ data 1 ≠ 0x4D then []
  else if (readHeader data).Shown fsize then
    ((readHeader data).wallpaperLoads fsize).map PixelLoad.dst
  else []

/-- `load_wallpaper` stays inside the bytes that were delivered and its pixels. -/
structure WallpaperInside (fd : Int32) (fsize : UInt32) (data : Memory) (r : UInt32) : Prop where
  reads : ∀ a ∈ wallpaperReads fd fsize data r, a.toNat < delivered fsize r
  touches : ∀ i ∈ wallpaperTouches fd fsize data r, i < targetW * targetH

/-- The read gives at most what was asked for, and every row that is drawn fits. -/
def WallpaperFits (fd : Int32) (fsize : UInt32) (data : Memory) (r : UInt32) : Prop :=
  ¬ (fd < 0 ∨ fsize < 54 ∨ 512 * 1024 < fsize ∨ r < 54) →
    r ≤ fsize ∧ (data 0 = 0x42 → data 1 = 0x4D → (readHeader data).Shown fsize →
      ∀ y < targetH, (readHeader data).RowFits fsize r.toNat y)

theorem wallpaperTouches_inside
    {fd : Int32} {fsize r : UInt32} {data : Memory} {i : Nat}
    (h : i ∈ wallpaperTouches fd fsize data r) :
  i < targetW * targetH
  := by
  rw [wallpaperTouches] at h
  split at h
  · cases h
  split at h
  · cases h
  split at h
  · obtain ⟨p, hp, rfl⟩ := List.mem_map.mp h
    simp only [BmpHeader.wallpaperLoads, BmpHeader.wallpaperRows, List.mem_flatMap, List.mem_filter,
      List.mem_map, List.mem_range] at hp
    obtain ⟨y, ⟨hy, -⟩, x, hx, rfl⟩ := hp
    rw [targetH] at hy
    rw [targetW] at hx
    change y * 1280 + x < 1280 * (1024 - 36)
    omega
  · cases h

theorem wallpaper_rows_inside_iff
    {hdr : BmpHeader} {fsize : UInt32} {given : Nat} (h : hdr.Shown fsize)
    (hsize : fsize.toNat ≤ 512 * 1024) (hgiven : given ≤ fsize.toNat) :
  (∀ a ∈ (hdr.wallpaperLoads fsize).flatMap PixelLoad.reads, a.toNat < given)
    ↔ ∀ y < targetH, hdr.RowFits fsize given y
  := by
  have hloads : ∀ a, a ∈ (hdr.wallpaperLoads fsize).flatMap PixelLoad.reads
      ↔ ∃ y < targetH, hdr.rowOff y + hdr.rowBytes ≤ fsize ∧ ∃ x < targetW, ∃ k < 3,
          a = hdr.wallpaperByte y x k := by
    intro a
    simp only [BmpHeader.wallpaperLoads, BmpHeader.wallpaperRows, List.mem_flatMap, List.mem_filter,
      List.mem_map, List.mem_range, decide_eq_true_eq]
    constructor
    · rintro ⟨p, ⟨y, ⟨hy, hpass⟩, x, hx, rfl⟩, ha⟩
      refine ⟨y, hy, hpass, x, hx, ?_⟩
      rw [PixelLoad.reads, BmpHeader.wallpaperLoad] at ha
      simp only [Option.toList, List.append_nil, List.mem_cons, List.not_mem_nil, or_false] at ha
      rcases ha with rfl | rfl | rfl
      · exact ⟨0, by decide, rfl⟩
      · exact ⟨1, by decide, rfl⟩
      · exact ⟨2, by decide, rfl⟩
    · rintro ⟨y, hy, hpass, x, hx, k, hk, rfl⟩
      refine ⟨_, ⟨y, ⟨hy, hpass⟩, x, hx, rfl⟩, ?_⟩
      obtain rfl | rfl | rfl : k = 0 ∨ k = 1 ∨ k = 2 := by omega
      · exact List.mem_cons_self
      · exact List.mem_cons_of_mem _ List.mem_cons_self
      · exact List.mem_cons_of_mem _ (List.mem_cons_of_mem _ List.mem_cons_self)
  constructor
  · intro hinside y hy hpass
    apply (BmpHeader.row_inside_iff h hsize hgiven hpass).mp
    intro x hx k hk
    exact hinside _ ((hloads _).mpr ⟨y, hy, hpass, x, hx, k, hk, rfl⟩)
  · intro hfits a ha
    obtain ⟨y, hy, hpass, x, hx, k, hk, rfl⟩ := (hloads a).mp ha
    exact (BmpHeader.row_inside_iff h hsize hgiven hpass).mpr (hfits y hy hpass) x hx k hk

theorem wallpaper_inside_iff (fd : Int32) (fsize : UInt32) (data : Memory) (r : UInt32) :
  WallpaperInside fd fsize data r ↔ WallpaperFits fd fsize data r
  := by
  by_cases hgiven : fd < 0 ∨ fsize < 54 ∨ 512 * 1024 < fsize ∨ r < 54
  · constructor
    · intro _ hcon
      exact absurd hgiven hcon
    · intro _
      refine ⟨?_, fun i hi => wallpaperTouches_inside hi⟩
      rw [wallpaperReads, if_pos hgiven]
      intro a ha
      cases ha
  obtain ⟨-, -, hsize, hr⟩ : _ ∧ _ ∧ _ ∧ _ := by simpa only [not_or] using hgiven
  have hsize' : fsize.toNat ≤ 512 * 1024 := UInt32.le_iff_toNat_le.mp (UInt32.not_lt.mp hsize)
  have hr' : 54 ≤ r.toNat := UInt32.le_iff_toNat_le.mp (UInt32.not_lt.mp hr)
  have hreads : r ≤ fsize → ((∀ a ∈ wallpaperReads fd fsize data r, a.toNat < delivered fsize r)
      ↔ (data 0 = 0x42 → data 1 = 0x4D → (readHeader data).Shown fsize →
        ∀ y < targetH, (readHeader data).RowFits fsize r.toNat y)) := by
    intro hle
    rw [wallpaperReads, if_neg hgiven, delivered, if_pos hle, startReads_inside_iff _ _ hr']
    apply imp_congr_right
    intro _
    apply imp_congr_right
    intro _
    by_cases hshown : (readHeader data).Shown fsize
    · rw [if_pos hshown, wallpaper_rows_inside_iff hshown hsize' (UInt32.le_iff_toNat_le.mp hle),
        imp_iff_right hshown]
    · rw [if_neg hshown]
      constructor
      · intro _ hcon
        exact absurd hcon hshown
      · intro _ a ha
        cases ha
  constructor
  · rintro ⟨hinside, -⟩ -
    have hle : r ≤ fsize := by
      by_contra hcon
      have hzero := hinside 0 (by
        rw [wallpaperReads, if_neg hgiven]
        exact zero_mem_startReads _ _)
      rw [delivered, if_neg hcon] at hzero
      exact absurd hzero (Nat.not_lt_zero _)
    exact ⟨hle, (hreads hle).mp hinside⟩
  · intro hfits
    obtain ⟨hle, hrows⟩ := hfits hgiven
    exact ⟨(hreads hle).mpr hrows, fun i hi => wallpaperTouches_inside hi⟩

/-- The decoders stay inside exactly when the end of the first row of a picture does not wrap to a
place inside the input, and every row of the wallpaper fits. -/
theorem decoders_inside_iff
    (ptr len buffer : UInt32) (data : Memory) (fd : Int32) (fsize : UInt32) (file : Memory)
    (r : UInt32) :
  ((DecodeRuns ptr data len (buffer != 0)
      → Apart ptr len buffer (4 * ((readHeader data).columns * (readHeader data).rows)))
    → (DecodeInside ptr data len buffer
        ↔ (DecodeRuns ptr data len (buffer != 0) → ¬ (readHeader data).Wraps len)))
  ∧ (WallpaperInside fd fsize file r ↔ WallpaperFits fd fsize file r)
  := ⟨fun happart => decode_inside_iff happart, wallpaper_inside_iff fd fsize file r⟩

/-- An input with a header, and zeros elsewhere. -/
def inputOf (offset w h bpp : Nat) : Memory :=
  Memory.storeFields (fun _ => 0)
    [⟨1, 0, 0x42⟩, ⟨1, 1, 0x4D⟩, ⟨4, 10, offset⟩, ⟨4, 18, w⟩, ⟨4, 22, h⟩, ⟨2, 28, bpp⟩]

theorem decoders_inside_onePixel :
  DecodeInside 256 (inputOf 54 1 1 32) 58 4096 ∧ WallpaperInside 3 58 (inputOf 54 1 1 32) 58
  := by
  constructor
  · apply ((decoders_inside_iff 256 58 4096 (inputOf 54 1 1 32) 3 58 (inputOf 54 1 1 32) 58).1
        ?_).mpr
    · intro _
      rw [BmpHeader.Wraps]
      decide +kernel
    · intro _
      refine ⟨?_, ?_, ?_⟩ <;> decide +kernel
  · apply (decoders_inside_iff 256 58 4096 (inputOf 54 1 1 32) 3 58 (inputOf 54 1 1 32) 58).2.mpr
    intro _
    refine ⟨by decide, fun _ _ _ => ?_⟩
    simp only [BmpHeader.RowFits]
    decide +kernel

/-- The end of a row wraps to 0, and the row before the input is read; and rows of `2 ^ 32` bytes count
as empty. -/
theorem not_decoders_inside :
  ¬ DecodeInside 256 (inputOf 0xFFFFFFFC 1 1 32) 54 4096
    ∧ ¬ WallpaperInside 3 54 (inputOf 0 0x40000000 1 32) 54
  := by
  constructor
  · intro h
    have hread := h.reads 0xFFFFFFFC (by decide +kernel)
    exact absurd hread (by decide)
  · rw [wallpaper_inside_iff]
    intro h
    have hrow := ((h (by decide)).2 (by decide +kernel) (by decide +kernel) (by decide +kernel)) 0
      (by decide) (by decide +kernel)
    exact absurd hrow.1 (by decide +kernel)

end Image
