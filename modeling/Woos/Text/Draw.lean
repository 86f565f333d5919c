import Woos.Lib.Painting
import Woos.Lib.Signed
import Woos.Text.Utf8
import Mathlib.Tactic.Tauto

/-!
# Drawing a text

`drawTextToBuffer` draws a string into a buffer of pixels, for the kernel and for the apps.  It
computes with checks, as the scalers and the blitters of the apps do: a sum of signed words that
overflows, a glyph outside the font and a pixel outside the buffer are failures.

A character paints the pixels of its cell that the font has ink in, and the string paints those of its
characters, which stand side by side: `drawTextToBuffer_paints`.
-/

namespace TextDraw

open Checked Painting Utf8

/-- `g_font_cp866` is a table of 256 glyphs of 8 rows each.  `glyph_for_unicode` returns the glyph of
this number. -/
def glyphForUnicode (cp : UInt32) : UInt32 :=
  if cp < 128 then cp
  else if 0x0410 ≤ cp ∧ cp ≤ 0x042F then 0x80 + (cp - 0x0410)
  else if 0x0430 ≤ cp ∧ cp ≤ 0x043F then 0xA0 + (cp - 0x0430)
  else if 0x0440 ≤ cp ∧ cp ≤ 0x044F then 0xE0 + (cp - 0x0440)
  else if cp = 0x0401 then 0xF0
  else if cp = 0x0451 then 0xF1
  else if cp = 0x2116 then 0xFC
  else if cp = 0x00AB then 0xAE
  else if cp = 0x00BB then 0xAF
  else if cp = 0x2014 ∨ cp = 0x2013 then 0x2D
  else if cp = 0x2026 then 0x2E
  else if cp = 0x2022 then 0x07
  else 0x3F

/-- A buffer of pixels: `dst_buf`, `dst_w` and `dst_h`.  Its cells have indices of 32 bits. -/
structure Buffer where
  dst : UInt64
  w : UInt32
  h : UInt32
  indexed : w.toNat * h.toNat ≤ 2 ^ 32

/-- The number of cells. -/
def Buffer.size (t : Buffer) : Nat := t.w.toNat * t.h.toNat

section Draw

variable (font : Nat → UInt8) (t : Buffer) (color : UInt32)

/-- A pass of the loop over the columns of a glyph, of which `row` is a row. -/
def drawColumn (py curX : Int) (row : UInt8) (gx : Int) (cells : Nat → UInt32) :
    Option (Nat → UInt32) := do
  let px ← sint (curX + gx)
  if px < 0 ∨ t.w.toInt32.toInt ≤ px then some cells
  else if row.toNat &&& 0x80 >>> gx.toNat ≠ 0 then
    storeAt cells t.size ((py * t.w.toNat + px) % 2 ^ 32) color
  else some cells

/-- A pass of the loop over the rows of a glyph. -/
def drawRow (y curX : Int) (glyph : Nat) (gy : Int) (cells : Nat → UInt32) :
    Option (Nat → UInt32) := do
  let py ← sint (y + gy)
  if py < 0 ∨ t.h.toInt32.toInt ≤ py then some cells
  else do
    let row ← loadAt font (256 * 8) (glyph + gy)
    fromTo 0 8 (drawColumn t color py curX row) cells

/-- The loop of `woos_graphics_draw_text_to_buffer`, for at most `fuel` characters. -/
def drawFrom (mem : Nat → UInt8) (y : Int) :
    (fuel text : Nat) → (curX : Int) → (Nat → UInt32) → Option (Nat → UInt32)
  | 0, _, _, _ => none
  | fuel + 1, text, curX, cells =>
    if mem text ≠ 0 then do
      let (cp, next) := decodeChar mem text
      let glyph := (glyphForUnicode cp).toNat * 8
      let cells ← fromTo 0 8 (drawRow font t color y curX glyph) cells
      let curX ← sint (curX + 8)
      drawFrom mem y fuel next curX cells
    else
      some cells

/-- `woos_graphics_draw_text_to_buffer` -/
def drawTextToBuffer (mem : Nat → UInt8) (fuel : Nat) (x y : Int) (text : Nat)
    (cells : Nat → UInt32) : Option (Nat → UInt32) :=
  if t.dst = 0 ∨ text = 0 then some cells else drawFrom font t color mem y fuel text x cells

end Draw

/-! ### Ink -/

/-- The font has ink in a row and a column of the glyph of a character. -/
def HasInk (font : Nat → UInt8) (cp : UInt32) (gy gx : Int) : Prop :=
  (font ((glyphForUnicode cp).toNat * 8 + gy.toNat)).toNat.testBit (7 - gx.toNat)

/-- The row of a cell. -/
def Buffer.row (t : Buffer) (j : Nat) : Int := (j / t.w.toNat : Nat)

/-- The column of a cell. -/
def Buffer.column (t : Buffer) (j : Nat) : Int := (j % t.w.toNat : Nat)

/-- A cell that is drawn to. -/
def Buffer.Inside (t : Buffer) (j : Nat) : Prop :=
  t.column j < t.w.toInt32.toInt ∧ t.row j < t.h.toInt32.toInt

/-- A cell lies under the ink of a character that stands at `x` and `y`. -/
def Buffer.Under (t : Buffer) (font : Nat → UInt8) (x y : Int) (cp : UInt32) (j : Nat) : Prop :=
  0 ≤ t.row j - y ∧ t.row j - y < 8 ∧ 0 ≤ t.column j - x ∧ t.column j - x < 8
    ∧ HasInk font cp (t.row j - y) (t.column j - x) ∧ t.Inside j

/-- A cell lies under the ink of a text: of the character whose place on the line is the cell's. -/
def Buffer.Inked (t : Buffer) (font : Nat → UInt8) (x y : Int) (cps : List UInt32) (j : Nat) : Prop :=
  ∃ (i : Nat) (cp : UInt32), cps[i]? = some cp ∧ t.Under font (x + 8 * i) y cp j

/-- What lies in a range of 32 or 16 characters is moved into a row of the table. -/
theorem toNat_moved {base first last cp : UInt32} (h : first ≤ cp ∧ cp ≤ last)
    (hlt : base.toNat + (last.toNat - first.toNat) < 256) :
  (base + (cp - first)).toNat < 256
  := by
  obtain ⟨hfirst, hlast⟩ := h
  rw [UInt32.le_iff_toNat_le] at hfirst hlast
  rw [UInt32.toNat_add, UInt32.toNat_sub_of_le _ _ (UInt32.le_iff_toNat_le.mpr hfirst)]
  omega

/-- Every character has a glyph in the font. -/
theorem glyphForUnicode_lt (cp : UInt32) :
  (glyphForUnicode cp).toNat < 256
  := by
  rw [glyphForUnicode]
  split
  case isTrue hascii =>
    rw [UInt32.lt_iff_toNat_lt] at hascii
    exact hascii.trans (by decide)
  case isFalse =>
    split
    case isTrue hupper => exact toNat_moved hupper (by decide)
    case isFalse =>
      split
      case isTrue hlower => exact toNat_moved hlower (by decide)
      case isFalse =>
        split
        case isTrue hlower => exact toNat_moved hlower (by decide)
        case isFalse =>
          split_ifs
          all_goals decide

/-! ### The loops over a glyph -/

theorem mask_ne_zero_iff (row : UInt8) {gx : Int} (hle : 0 ≤ gx) (hlt : gx < 8) :
  row.toNat &&& 0x80 >>> gx.toNat ≠ 0 ↔ row.toNat.testBit (7 - gx.toNat)
  := by
  have hmask : 0x80 >>> gx.toNat = 2 ^ (7 - gx.toNat) := by
    rw [Nat.shiftRight_eq_div_pow, show 0x80 = 2 ^ 7 from rfl, Nat.pow_div (by omega) (by decide)]
  rw [hmask, Nat.and_two_pow]
  cases row.toNat.testBit (7 - gx.toNat) with
  | false => simp
  | true => simp

/-- A value below a size that is read as a signed word is below the size. -/
theorem lt_of_lt_signed {v : Int} {size : UInt32} (hle : 0 ≤ v) (hlt : v < size.toInt32.toInt) :
  v < size.toNat
  := by
  have hsize := size.toNat_lt
  rw [Signed.toInt_toInt32, Int.bmod_def] at hlt
  omega

section Paint

variable {font : Nat → UInt8} {t : Buffer} (color : UInt32)

/-- The place of a cell whose row and column are given. -/
theorem Buffer.place {py px : Int} (hpy : 0 ≤ py) (hlast : py < t.h.toInt32.toInt) (hpx : 0 ≤ px)
    (hlast' : px < t.w.toInt32.toInt) :
  ∃ i < t.size, (py * t.w.toNat + px) % 2 ^ 32 = (i : Int)
    ∧ ∀ j, j = i ↔ t.column j = px ∧ t.row j = py
  := by
  have hrow := lt_of_lt_signed hpy hlast
  have hcolumn := lt_of_lt_signed hpx hlast'
  obtain ⟨r, rfl⟩ := Int.eq_ofNat_of_zero_le hpy
  obtain ⟨c, rfl⟩ := Int.eq_ofNat_of_zero_le hpx
  have hlt : r * t.w.toNat + c < t.w.toNat * t.h.toNat := row_lt (by omega) (by omega)
  obtain ⟨hdiv, hmod⟩ := div_row (w := t.w.toNat) (y := r) (x := c) (by omega)
  use r * t.w.toNat + c, hlt
  constructor
  · have hindexed := t.indexed
    rw [← Int.natCast_mul, ← Int.natCast_add]
    apply Int.emod_eq_of_lt (Int.natCast_nonneg _)
    exact_mod_cast hlt.trans_le hindexed
  · intro j
    rw [Buffer.column, Buffer.row]
    constructor
    · rintro rfl
      rw [hdiv, hmod]
      exact ⟨rfl, rfl⟩
    · rintro ⟨hcolumn, hrow⟩
      rw [← Int.natCast_inj.mp hcolumn, ← Int.natCast_inj.mp hrow, Nat.div_add_mod']

theorem Buffer.column_nonneg (t : Buffer) (j : Nat) :
  0 ≤ t.column j
  := Int.natCast_nonneg _

theorem Buffer.row_nonneg (t : Buffer) (j : Nat) :
  0 ≤ t.row j
  := Int.natCast_nonneg _

/-- A pass over a column of a glyph paints the cell at its place, when there is ink. -/
theorem drawColumn_paint {py curX gx : Int} (row : UInt8) (hpy : 0 ≤ py)
    (hlast : py < t.h.toInt32.toInt) (hx : -2 ^ 31 ≤ curX) (hstop : curX + 8 < 2 ^ 31) (hle : 0 ≤ gx)
    (hlt : gx < 8) (cells : Nat → UInt32) :
  drawColumn t color py curX row gx cells
    = some (paint (fun j => t.column j = curX + gx
        ∧ t.row j = py ∧ row.toNat.testBit (7 - (t.column j - curX).toNat) ∧ t.Inside j)
      (fun _ _ => color) cells)
  := by
  rw [drawColumn, sint_some (by omega) (by omega), Option.bind_eq_bind, Option.bind_some]
  by_cases houtside : curX + gx < 0 ∨ t.w.toInt32.toInt ≤ curX + gx
  · rw [if_pos houtside, paint_empty]
    rintro j ⟨hcolumn, -, -, hinside, -⟩
    have hnonneg := t.column_nonneg j
    omega
  · rw [if_neg houtside]
    obtain ⟨i, hi, hplace, hcell⟩ := Buffer.place hpy hlast (show 0 ≤ curX + gx by omega) (by omega)
    by_cases hink : row.toNat &&& 0x80 >>> gx.toNat ≠ 0
    · have hbit := (mask_ne_zero_iff row hle hlt).mp hink
      rw [if_pos hink, hplace, storeAt_some _ _ (by omega) (by omega), Int.toNat_natCast]
      congr 1
      rw [update_eq_paint (fun _ _ => color) cells i]
      apply paint_congr _ _ (fun _ _ => rfl)
      intro j
      rw [hcell]
      constructor
      · rintro ⟨hcolumn, hrow⟩
        rw [hcolumn, show curX + gx - curX = gx by omega]
        exact ⟨rfl, hrow, hbit, by rw [hcolumn]; omega, by rw [hrow]; exact hlast⟩
      · rintro ⟨hcolumn, hrow, -⟩
        exact ⟨hcolumn, hrow⟩
    · rw [if_neg hink, paint_empty]
      rintro j ⟨hcolumn, -, hbit, -⟩
      rw [hcolumn, show curX + gx - curX = gx by omega] at hbit
      exact hink ((mask_ne_zero_iff row hle hlt).mpr hbit)

/-- A pass over a row of a glyph paints the cells of its row that are under ink. -/
theorem drawRow_paint {y curX gy : Int} (cp : UInt32) (hy : -2 ^ 31 ≤ y) (hbottom : y + 8 ≤ 2 ^ 31)
    (hx : -2 ^ 31 ≤ curX) (hstop : curX + 8 < 2 ^ 31) (hle : 0 ≤ gy) (hlt : gy < 8)
    (cells : Nat → UInt32) :
  drawRow font t color y curX ((glyphForUnicode cp).toNat * 8) gy cells
    = some (paint (fun j => t.row j = y + gy
        ∧ 0 ≤ t.column j - curX ∧ t.column j - curX < 8
        ∧ HasInk font cp (t.row j - y) (t.column j - curX) ∧ t.Inside j)
      (fun _ _ => color) cells)
  := by
  have hglyph := glyphForUnicode_lt cp
  rw [drawRow, sint_some (by omega) (by omega), Option.bind_eq_bind, Option.bind_some]
  by_cases houtside : y + gy < 0 ∨ t.h.toInt32.toInt ≤ y + gy
  · rw [if_pos houtside, paint_empty]
    rintro j ⟨hrow, -, -, -, -, hinside⟩
    have hnonneg := t.row_nonneg j
    omega
  · rw [if_neg houtside, loadAt_some _ (by omega) (by omega), Option.bind_eq_bind,
      Option.bind_some, fromTo_paint_key t.column
        (fun gx hgx hgx' => drawColumn_paint color _ (by omega) (by omega) hx hstop hgx hgx')]
    congr 1
    apply paint_congr _ _ (fun _ _ => rfl)
    intro j
    have hplace : ((glyphForUnicode cp).toNat * 8 + gy : Int).toNat
        = (glyphForUnicode cp).toNat * 8 + gy.toNat := by omega
    constructor
    · rintro ⟨hfirst, hlast, hrow, hbit, hinside⟩
      have hgy : t.row j - y = gy := by omega
      refine ⟨hrow, hfirst, hlast, ?_, hinside⟩
      rw [HasInk, hgy, ← hplace]
      exact_mod_cast hbit
    · rintro ⟨hrow, hfirst, hlast, hbit, hinside⟩
      have hgy : t.row j - y = gy := by omega
      refine ⟨hfirst, hlast, hrow, ?_, hinside⟩
      rw [HasInk, hgy, ← hplace] at hbit
      exact_mod_cast hbit

/-- A character paints the cells under its ink. -/
theorem drawGlyph_paint {y curX : Int} (cp : UInt32) (hy : -2 ^ 31 ≤ y) (hbottom : y + 8 ≤ 2 ^ 31)
    (hx : -2 ^ 31 ≤ curX) (hstop : curX + 8 < 2 ^ 31) (cells : Nat → UInt32) :
  fromTo 0 8 (drawRow font t color y curX ((glyphForUnicode cp).toNat * 8)) cells
    = some (paint (t.Under font curX y cp) (fun _ _ => color) cells)
  := fromTo_paint_key t.row
      (fun _ hgy hgy' => drawRow_paint color cp hy hbottom hx hstop hgy hgy') cells

end Paint

/-! ### The text -/

section Paint

variable {font : Nat → UInt8} {t : Buffer} (color : UInt32) {x y : Int}

theorem not_inked_nil (j : Nat) :
  ¬ t.Inked font x y [] j
  := by
  rintro ⟨i, cp, hcp, -⟩
  cases hcp

/-- The ink of the first character, and that of the others, which stand 8 columns further. -/
theorem inked_cons_iff (cp : UInt32) (cps : List UInt32) (j : Nat) :
  t.Inked font x y (cp :: cps) j ↔ t.Under font x y cp j ∨ t.Inked font (x + 8) y cps j
  := by
  constructor
  · rintro ⟨i, cp', hcp, hunder⟩
    cases i with
    | zero =>
        cases hcp
        rw [Int.natCast_zero, Int.mul_zero, Int.add_zero] at hunder
        exact Or.inl hunder
    | succ i =>
        right
        use i, cp', hcp
        rw [show x + 8 + 8 * (i : Int) = x + 8 * ((i + 1 : Nat) : Int) by omega]
        exact hunder
  · rintro (hunder | ⟨i, cp', hcp, hunder⟩)
    · use 0, cp, rfl
      rw [Int.natCast_zero, Int.mul_zero, Int.add_zero]
      exact hunder
    · use i + 1, cp', hcp
      rw [show x + 8 * ((i + 1 : Nat) : Int) = x + 8 + 8 * (i : Int) by omega]
      exact hunder

/-- The characters behind the first leave its cell alone. -/
theorem not_inked_of_under {cp : UInt32} (cps : List UInt32) {j : Nat}
    (h : t.Under font x y cp j) :
  ¬ t.Inked font (x + 8) y cps j
  := by
  obtain ⟨-, -, -, hlt, -⟩ := h
  rintro ⟨i, cp', -, -, -, hle, -⟩
  omega

/-- What a text is decoded to does not depend on the number of rounds, when they are enough. -/
theorem decodeText_fuel {mem : Nat → UInt8} {fuel fuel' text n : Nat}
    (h : Terminated mem text n) (hfuel : n ≤ fuel) (hfuel' : n ≤ fuel') :
  decodeText mem fuel text = decodeText mem fuel' text
  := by
  induction fuel generalizing text n fuel' with
  | zero =>
      obtain rfl : n = 0 := by omega
      have hzero : mem text = 0 := h.terminator
      cases fuel' with
      | zero => rfl
      | succ fuel' => rw [decodeText, decodeText, if_neg (not_not_intro hzero)]
  | succ fuel ih =>
      by_cases hpos : 0 < n
      · have hfirst : mem text ≠ 0 := h.nonzero 0 hpos
        have hwidth := width_pos (mem text)
        have hnext := decodeChar_next h hpos
        have hrest := h.drop (Nat.min_le_right (width (mem text)) n)
        rw [← hnext] at hrest
        obtain ⟨fuel', rfl⟩ := Nat.exists_eq_succ_of_ne_zero (show fuel' ≠ 0 by omega)
        rw [decodeText, decodeText, if_pos hfirst, if_pos hfirst]
        dsimp only
        rw [ih hrest (by omega) (show _ ≤ fuel' by omega)]
      · obtain rfl : n = 0 := by omega
        have hzero : mem text = 0 := h.terminator
        rw [decodeText, if_neg (not_not_intro hzero)]
        cases fuel' with
        | zero => rw [decodeText]
        | succ fuel' => rw [decodeText, if_neg (not_not_intro hzero)]

/-- The loop over the characters paints the cells under the ink of the text. -/
theorem drawFrom_paint {mem : Nat → UInt8} (hy : -2 ^ 31 ≤ y) (hbottom : y + 8 ≤ 2 ^ 31)
    {fuel text n : Nat} (h : Terminated mem text n) (hfuel : n < fuel) {curX : Int}
    (hx : -2 ^ 31 ≤ curX) (hstop : curX + 8 * (decodeText mem fuel text).1.length < 2 ^ 31)
    (cells : Nat → UInt32) :
  drawFrom font t color mem y fuel text curX cells
    = some (paint (t.Inked font curX y (decodeText mem fuel text).1) (fun _ _ => color) cells)
  := by
  induction fuel generalizing text n curX cells with
  | zero => exact absurd hfuel (Nat.not_lt_zero n)
  | succ fuel ih =>
      rw [drawFrom]
      rw [decodeText] at hstop ⊢
      by_cases hpos : 0 < n
      · have hfirst : mem text ≠ 0 := h.nonzero 0 hpos
        have hwidth := width_pos (mem text)
        have hnext := decodeChar_next h hpos
        have hrest := h.drop (Nat.min_le_right (width (mem text)) n)
        rw [← hnext] at hrest
        rw [if_pos hfirst] at hstop ⊢
        dsimp only [List.length_cons] at hstop
        dsimp only
        rw [if_pos hfirst]
        dsimp only
        rw [drawGlyph_paint color _ hy hbottom hx (by omega), Option.bind_eq_bind, Option.bind_some,
          sint_some (by omega) (by omega), Option.bind_eq_bind, Option.bind_some,
          ih hrest (by omega) (by omega) (by omega),
          paint_paint _ _ (fun j => not_inked_of_under _)]
        congr 1
        apply paint_congr _ _ (fun _ _ => rfl)
        intro j
        exact (inked_cons_iff _ _ j).symm
      · obtain rfl : n = 0 := by omega
        have hzero : mem text = 0 := h.terminator
        rw [if_neg (not_not_intro hzero), if_neg (not_not_intro hzero),
          paint_empty _ _ not_inked_nil]

/-- Drawing a text that is in memory succeeds, wherever it lies: it gives the color to the pixels of
the buffer that lie under the ink of a character, of which each has the 8 columns behind those of the
one before, and to no other. -/
theorem drawTextToBuffer_paints (font : Nat → UInt8) (t : Buffer) (color : UInt32)
    (mem : Nat → UInt8) {text n : Nat} (h : Terminated mem text n) (hdst : t.dst ≠ 0)
    (htext : text ≠ 0) (hx : -2 ^ 31 ≤ x) (hright : x + 8 * charlen mem text n < 2 ^ 31)
    (hy : -2 ^ 31 ≤ y) (hbottom : y + 8 ≤ 2 ^ 31) (cells : Nat → UInt32) :
  ∀ fuel > n, ∃ cells', drawTextToBuffer font t color mem fuel x y text cells = some cells'
    ∧ ∀ j, (t.Inked font x y (decodeText mem n text).1 j → cells' j = color)
      ∧ (¬ t.Inked font x y (decodeText mem n text).1 j → cells' j = cells j)
  := by
  intro fuel hfuel
  have hdecode := decodeText_fuel h hfuel.le le_rfl
  have hlength := decodeText_length h hfuel.le
  rw [drawTextToBuffer, if_neg (not_or.mpr ⟨hdst, htext⟩),
    drawFrom_paint color hy hbottom h hfuel hx (by omega), hdecode]
  refine ⟨_, rfl, ?_⟩
  intro j
  exact ⟨paint_of_mem, paint_of_not_mem⟩

/-- The letters `П` and `!` in a buffer of two cells, with a font that is all ink. -/
theorem drawTextToBuffer_paints_two :
  ∃ cells', drawTextToBuffer (fun _ => 0xFF) ⟨4096, 16, 8, by decide⟩ 0xFFFFFF
      (fun a => [0, 0xD0, 0x9F, 0x21].getD a 0) 4 (-4) 0 1 (fun _ => 0) = some cells'
    ∧ cells' 0 = 0xFFFFFF ∧ cells' 12 = 0
  := by
  have hterminated : Terminated (fun a => [0, 0xD0, 0x9F, 0x21].getD a 0) 1 3 := ⟨by decide, rfl⟩
  have hlength := decodeText_length hterminated le_rfl
  obtain ⟨cells', hdraw, hcells⟩ := drawTextToBuffer_paints (fun _ => 0xFF)
    ⟨4096, 16, 8, by decide⟩ 0xFFFFFF _ hterminated (by decide) (by decide)
    (show -2 ^ 31 ≤ (-4 : Int) by decide) (by rw [← hlength]; decide)
    (show -2 ^ 31 ≤ (0 : Int) by decide) (by decide) (fun _ => 0) 4 (by decide)
  refine ⟨cells', hdraw, (hcells 0).1 ?_, (hcells 12).2 ?_⟩
  · exact ⟨0, 0x041F, rfl, by decide, by decide, by decide, by decide, by rw [HasInk]; decide,
      by decide, by decide⟩
  · rintro ⟨i, cp, hcp, -, -, hle, hlt, -⟩
    obtain - | - | i := i
    · exact absurd hlt (by decide)
    · exact absurd hlt (by decide)
    · cases hcp

end Paint

end TextDraw
