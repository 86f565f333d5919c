import Woos.Lib.Word

/-!
# UTF-8

The decoder with which the kernel draws text, `utf8_decode_char`, and the encoder and the counter
of characters with which the browser makes and measures it.  A string is read in memory, from its
first byte to a NUL.  The decoder inverts the encoder, and on any string, well formed or not, it
stops at the NUL after as many steps as the counter counts: `utf8_agreement`.
-/

namespace Word

/-- A tag above `j` bits, and the bits below it. -/
theorem toNat_tag_or {tag m : UInt32} {j : Nat} (x : UInt32) (hm : m.toNat = 2 ^ j - 1)
    (htag : tag.toNat % 2 ^ j = 0) (hle : tag.toNat + 2 ^ j ≤ 2 ^ 8) :
  (tag ||| (x &&& m)).toUInt8.toNat = tag.toNat + x.toNat % 2 ^ j
  := by
  have hlt : x.toNat % 2 ^ j < 2 ^ j := Nat.mod_lt _ (Nat.two_pow_pos j)
  have hor := Nat.two_pow_add_eq_or_of_lt hlt (tag.toNat / 2 ^ j)
  rw [Nat.mul_div_cancel' (Nat.dvd_of_mod_eq_zero htag)] at hor
  rw [UInt32.toNat_toUInt8, UInt32.toNat_or, UInt32.toNat_and, hm, Nat.and_two_pow_sub_one_eq_mod,
    ← hor]
  apply Nat.mod_eq_of_lt
  omega

/-- The low bits of a byte. -/
theorem toNat_byte_and {m : UInt32} {j : Nat} (b : UInt8) (hm : m.toNat = 2 ^ j - 1) :
  (b.toUInt32 &&& m).toNat = b.toNat % 2 ^ j
  := by
  rw [UInt32.toNat_and, hm, Nat.and_two_pow_sub_one_eq_mod, UInt8.toNat_toUInt32]

/-- A shift that loses no bit. -/
theorem toNat_shift {v : UInt32} {k : Nat} (hk : k < 32) (hv : v.toNat * 2 ^ k < 2 ^ 32) :
  (v <<< UInt32.ofNat k).toNat = v.toNat * 2 ^ k
  := by
  rw [UInt32.toNat_shiftLeft, UInt32.toNat_ofNat', Nat.mod_eq_of_lt (show k < 2 ^ 32 by omega),
    Nat.mod_eq_of_lt hk, Nat.shiftLeft_eq, Nat.mod_eq_of_lt hv]

/-- Bits that are put below the others. -/
theorem toNat_or_low {u w : UInt32} {k : Nat} (hu : 2 ^ k ∣ u.toNat) (hw : w.toNat < 2 ^ k) :
  (u ||| w).toNat = u.toNat + w.toNat
  := by
  have hor := Nat.two_pow_add_eq_or_of_lt hw (u.toNat / 2 ^ k)
  rw [Nat.mul_div_cancel' hu] at hor
  rw [UInt32.toNat_or, hor]

end Word

namespace Utf8

/-- `(char)(tag | (x & mask))` -/
def tagged (tag x mask : UInt32) : UInt8 := (tag ||| (x &&& mask)).toUInt8

/-- `utf8_encode_codepoint`: the bytes that it stores, as many as it returns. -/
def encodeCodepoint (cp : UInt32) : List UInt8 :=
  if cp ≤ 0x7F then
    [cp.toUInt8]
  else if cp ≤ 0x7FF then
    [tagged 0xC0 (cp >>> 6) 0x1F, tagged 0x80 cp 0x3F]
  else if cp ≤ 0xFFFF then
    [tagged 0xE0 (cp >>> 12) 0x0F, tagged 0x80 (cp >>> 6) 0x3F, tagged 0x80 cp 0x3F]
  else if cp ≤ 0x10FFFF then
    [tagged 0xF0 (cp >>> 18) 0x07, tagged 0x80 (cp >>> 12) 0x3F, tagged 0x80 (cp >>> 6) 0x3F,
      tagged 0x80 cp 0x3F]
  else
    []

/-- `utf8_decode_char`: the code point at `s`, and the pointer after it.  A sequence that the NUL
cuts off is decoded to its first byte. -/
def decodeChar (mem : Nat → UInt8) (s : Nat) : UInt32 × Nat :=
  if mem s = 0 then
    (0, s)
  else
    let cp := (mem s).toUInt32
    let s := s + 1
    if cp < 0x80 then
      (cp, s)
    else if cp &&& 0xE0 = 0xC0 then
      if mem s ≠ 0 then
        (((cp &&& 0x1F) <<< 6) ||| ((mem s).toUInt32 &&& 0x3F), s + 1)
      else
        (cp, s)
    else if cp &&& 0xF0 = 0xE0 then
      if mem s ≠ 0 then
        let b2 := (mem s).toUInt32
        if mem (s + 1) ≠ 0 then
          let b3 := (mem (s + 1)).toUInt32
          (((cp &&& 0x0F) <<< 12) ||| ((b2 &&& 0x3F) <<< 6) ||| (b3 &&& 0x3F), s + 2)
        else
          (cp, s + 1)
      else
        (cp, s)
    else if cp &&& 0xF8 = 0xF0 then
      if mem s ≠ 0 then
        let b2 := (mem s).toUInt32
        if mem (s + 1) ≠ 0 then
          let b3 := (mem (s + 1)).toUInt32
          if mem (s + 2) ≠ 0 then
            let b4 := (mem (s + 2)).toUInt32
            (((cp &&& 0x07) <<< 18) ||| ((b2 &&& 0x3F) <<< 12) ||| ((b3 &&& 0x3F) <<< 6)
              ||| (b4 &&& 0x3F), s + 3)
          else
            (cp, s + 2)
        else
          (cp, s + 1)
      else
        (cp, s)
    else
      (cp, s)

/-- By how much `utf8_charlen` advances over a character that begins with `c`. -/
def width (c : UInt8) : Nat :=
  if c < 0x80 then 1
  else if c &&& 0xE0 = 0xC0 then 2
  else if c &&& 0xF0 = 0xE0 then 3
  else if c &&& 0xF8 = 0xF0 then 4
  else 1

theorem width_pos (c : UInt8) :
  0 < width c
  := by
  rw [width]
  split_ifs
  all_goals decide

/-- The loop of `utf8_charlen`, from the byte `i` on. -/
def charlenFrom (mem : Nat → UInt8) (s maxLen i count : Nat) : Nat :=
  if i < maxLen ∧ mem (s + i) ≠ 0 then
    charlenFrom mem s maxLen (i + width (mem (s + i))) (count + 1)
  else
    count
termination_by maxLen - i
decreasing_by
  have := width_pos (mem (s + i))
  omega

/-- `utf8_charlen` -/
def charlen (mem : Nat → UInt8) (s maxLen : Nat) : Nat :=
  charlenFrom mem s maxLen 0 0

/-- `while (*text) { cp = utf8_decode_char(&text); … }`, for at most `fuel` rounds: the code points
and the pointer at the end. -/
def decodeText (mem : Nat → UInt8) : (fuel s : Nat) → List UInt32 × Nat
  | 0, s => ([], s)
  | fuel + 1, s =>
    if mem s ≠ 0 then
      let (cp, next) := decodeChar mem s
      let (cps, last) := decodeText mem fuel next
      (cp :: cps, last)
    else
      ([], s)

/-- The bytes of `l` are in memory from `s` on. -/
def Stored (mem : Nat → UInt8) : (s : Nat) → List UInt8 → Prop
  | _, [] => True
  | s, b :: l => mem s = b ∧ Stored mem (s + 1) l

/-- The string at `s` has `n` bytes before its NUL. -/
structure Terminated (mem : Nat → UInt8) (s n : Nat) : Prop where
  nonzero : ∀ i < n, mem (s + i) ≠ 0
  terminator : mem (s + n) = 0

/-! ### Lead bytes -/

theorem and_byte_iff (b : UInt8) :
  (b &&& 0xE0 = 0xC0 ↔ b.toNat / 32 = 6) ∧ (b &&& 0xF0 = 0xE0 ↔ b.toNat / 16 = 14)
    ∧ (b &&& 0xF8 = 0xF0 ↔ b.toNat / 8 = 30)
  := by
  have hall : ∀ n : Fin 256, (UInt8.ofNat n &&& 0xE0 = 0xC0 ↔ n.val / 32 = 6)
      ∧ (UInt8.ofNat n &&& 0xF0 = 0xE0 ↔ n.val / 16 = 14)
      ∧ (UInt8.ofNat n &&& 0xF8 = 0xF0 ↔ n.val / 8 = 30) := by decide +kernel
  have hb := hall ⟨b.toNat, b.toNat_lt⟩
  rwa [UInt8.ofNat_toNat] at hb

theorem and_toUInt32_eq_iff (b m c : UInt8) :
  b.toUInt32 &&& m.toUInt32 = c.toUInt32 ↔ b &&& m = c
  := by
  rw [← UInt8.toUInt32_and, UInt8.toUInt32_inj]

/-- The class of a lead byte, as the decoder tests it. -/
theorem lead_iff (b : UInt8) :
  (b.toUInt32 &&& 0xE0 = 0xC0 ↔ b.toNat / 32 = 6) ∧ (b.toUInt32 &&& 0xF0 = 0xE0 ↔ b.toNat / 16 = 14)
    ∧ (b.toUInt32 &&& 0xF8 = 0xF0 ↔ b.toNat / 8 = 30)
  := by
  obtain ⟨htwo, hthree, hfour⟩ := and_byte_iff b
  rw [← htwo, ← hthree, ← hfour]
  exact ⟨and_toUInt32_eq_iff b 0xE0 0xC0, and_toUInt32_eq_iff b 0xF0 0xE0,
    and_toUInt32_eq_iff b 0xF8 0xF0⟩

theorem ascii_iff (b : UInt8) :
  b.toUInt32 < 0x80 ↔ b.toNat < 128
  := by
  rw [UInt32.lt_iff_toNat_lt, UInt8.toNat_toUInt32]
  rfl
/-! ### Encoding and decoding -/

/-- The values of the lead byte and of the continuation bytes. -/
theorem tagged_toNat {tag mask : UInt32} {j k : Nat} (cp : UInt32) (hk : k < 32)
    (hmask : mask.toNat = 2 ^ j - 1) (htag : tag.toNat % 2 ^ j = 0)
    (hle : tag.toNat + 2 ^ j ≤ 2 ^ 8) :
  (tagged tag (cp >>> UInt32.ofNat k) mask).toNat = tag.toNat + cp.toNat / 2 ^ k % 2 ^ j
  := by
  rw [tagged, Word.toNat_tag_or _ hmask htag hle, UInt32.toNat_shiftRight, UInt32.toNat_ofNat',
    Nat.mod_eq_of_lt (show k < 2 ^ 32 by omega), Nat.mod_eq_of_lt hk, Nat.shiftRight_eq_div_pow]

theorem tagged_low_toNat (cp : UInt32) :
  (tagged 0x80 cp 0x3F).toNat = 128 + cp.toNat % 64
  := @Word.toNat_tag_or 0x80 0x3F 6 cp rfl rfl (by decide)

theorem ne_zero_of_toNat {b : UInt8} (h : 0 < b.toNat) :
  b ≠ 0
  := by
  rintro rfl
  cases h

/-- The bits of the byte at `s`, as the decoder puts them in place. -/
theorem bits_toNat {m : UInt32} {j k : Nat} (b : UInt8) (hm : m.toNat = 2 ^ j - 1)
    (hle : j + k < 32) :
  ((b.toUInt32 &&& m) <<< UInt32.ofNat k).toNat = b.toNat % 2 ^ j * 2 ^ k
  := by
  have hlt : b.toNat % 2 ^ j * 2 ^ k < 2 ^ 32 := by
    calc b.toNat % 2 ^ j * 2 ^ k
        < 2 ^ j * 2 ^ k := by
          apply Nat.mul_lt_mul_of_pos_right (Nat.mod_lt _ (Nat.two_pow_pos j)) (Nat.two_pow_pos k)
      _ = 2 ^ (j + k) := (Nat.pow_add 2 j k).symm
      _ ≤ 2 ^ 32 := by
          apply Nat.pow_le_pow_right
          · decide
          · omega
  rw [← Word.toNat_byte_and b hm] at hlt ⊢
  apply Word.toNat_shift _ hlt
  omega

/-- The lowest bits of a code point. -/
theorem or_low_toNat {u : UInt32} (b : UInt8) (hu : 2 ^ 6 ∣ u.toNat) :
  (u ||| b.toUInt32 &&& 0x3F).toNat = u.toNat + b.toNat % 2 ^ 6
  := by
  have hlow := @Word.toNat_byte_and 0x3F 6 b rfl
  have hlt : b.toNat % 2 ^ 6 < 2 ^ 6 := Nat.mod_lt _ (by decide)
  rw [← hlow] at hlt
  rw [Word.toNat_or_low hu hlt, hlow]

theorem not_ascii {b : UInt8} (h : 128 ≤ b.toNat) :
  b ≠ 0 ∧ ¬ b.toUInt32 < 0x80
  := by
  constructor
  · apply ne_zero_of_toNat
    omega
  · rw [ascii_iff]
    omega

/-- A sequence of two bytes. -/
theorem decodeChar_two {mem : Nat → UInt8} {s : Nat} (hlead : (mem s).toNat / 32 = 6)
    (hsecond : mem (s + 1) ≠ 0) :
  ∃ cp, decodeChar mem s = (cp, s + 2)
    ∧ cp.toNat = (mem s).toNat % 32 * 64 + (mem (s + 1)).toNat % 64
  := by
  obtain ⟨hne, hone⟩ := @not_ascii (mem s) (by omega)
  obtain ⟨htwo, -, -⟩ := lead_iff (mem s)
  use ((mem s).toUInt32 &&& 0x1F) <<< 6 ||| (mem (s + 1)).toUInt32 &&& 0x3F
  constructor
  · rw [decodeChar, if_neg hne]
    dsimp only
    rw [if_neg hone, if_pos (htwo.mpr hlead), if_pos hsecond]
  · have hfirst := @bits_toNat 0x1F 5 6 (mem s) rfl (by decide)
    have hvalue := or_low_toNat (mem (s + 1)) (hfirst ▸ Nat.dvd_mul_left _ _)
    rw [hfirst] at hvalue
    exact hvalue

/-- A sequence of three bytes. -/
theorem decodeChar_three {mem : Nat → UInt8} {s : Nat} (hlead : (mem s).toNat / 16 = 14)
    (hsecond : mem (s + 1) ≠ 0) (hthird : mem (s + 2) ≠ 0) :
  ∃ cp, decodeChar mem s = (cp, s + 3)
    ∧ cp.toNat = (mem s).toNat % 16 * 4096 + (mem (s + 1)).toNat % 64 * 64 + (mem (s + 2)).toNat % 64
  := by
  obtain ⟨hne, hone⟩ := @not_ascii (mem s) (by omega)
  obtain ⟨htwo, hthree, -⟩ := lead_iff (mem s)
  use (((mem s).toUInt32 &&& 0x0F) <<< 12 ||| ((mem (s + 1)).toUInt32 &&& 0x3F) <<< 6)
    ||| (mem (s + 2)).toUInt32 &&& 0x3F
  constructor
  · rw [decodeChar, if_neg hne]
    dsimp only
    rw [if_neg hone, if_neg (by rw [htwo]; omega), if_pos (hthree.mpr hlead), if_pos hsecond,
      if_pos hthird]
  · have hfirst := @bits_toNat 0x0F 4 12 (mem s) rfl (by decide)
    have hmiddle := @bits_toNat 0x3F 6 6 (mem (s + 1)) rfl (by decide)
    have hhigh := @Word.toNat_or_low _ (((mem (s + 1)).toUInt32 &&& 0x3F) <<< UInt32.ofNat 6) 12
      (hfirst ▸ Nat.dvd_mul_left _ _) (by omega)
    rw [hfirst, hmiddle] at hhigh
    have hvalue := or_low_toNat (mem (s + 2)) (by rw [hhigh]; omega)
    rw [hhigh] at hvalue
    exact hvalue

/-- A sequence of four bytes. -/
theorem decodeChar_four {mem : Nat → UInt8} {s : Nat} (hlead : (mem s).toNat / 8 = 30)
    (hsecond : mem (s + 1) ≠ 0) (hthird : mem (s + 2) ≠ 0) (hfourth : mem (s + 3) ≠ 0) :
  ∃ cp, decodeChar mem s = (cp, s + 4)
    ∧ cp.toNat = (mem s).toNat % 8 * 262144 + (mem (s + 1)).toNat % 64 * 4096
      + (mem (s + 2)).toNat % 64 * 64 + (mem (s + 3)).toNat % 64
  := by
  obtain ⟨hne, hone⟩ := @not_ascii (mem s) (by omega)
  obtain ⟨htwo, hthree, hfour⟩ := lead_iff (mem s)
  use ((((mem s).toUInt32 &&& 0x07) <<< 18 ||| ((mem (s + 1)).toUInt32 &&& 0x3F) <<< 12)
    ||| ((mem (s + 2)).toUInt32 &&& 0x3F) <<< 6) ||| (mem (s + 3)).toUInt32 &&& 0x3F
  constructor
  · rw [decodeChar, if_neg hne]
    dsimp only
    rw [if_neg hone, if_neg (by rw [htwo]; omega), if_neg (by rw [hthree]; omega),
      if_pos (hfour.mpr hlead), if_pos hsecond, if_pos hthird, if_pos hfourth]
  · have hfirst := @bits_toNat 0x07 3 18 (mem s) rfl (by decide)
    have hnext := @bits_toNat 0x3F 6 12 (mem (s + 1)) rfl (by decide)
    have hmiddle := @bits_toNat 0x3F 6 6 (mem (s + 2)) rfl (by decide)
    have hhigh := @Word.toNat_or_low _ (((mem (s + 1)).toUInt32 &&& 0x3F) <<< UInt32.ofNat 12) 18
      (hfirst ▸ Nat.dvd_mul_left _ _) (by omega)
    rw [hfirst, hnext] at hhigh
    have hupper := @Word.toNat_or_low _ (((mem (s + 2)).toUInt32 &&& 0x3F) <<< UInt32.ofNat 6) 12
      (by rw [hhigh]; omega) (by omega)
    rw [hhigh, hmiddle] at hupper
    have hvalue := or_low_toNat (mem (s + 3)) (by rw [hupper]; omega)
    rw [hupper] at hvalue
    exact hvalue

/-- A continuation byte. -/
theorem continuation_toNat (cp : UInt32) {k : Nat} (hk : k < 32) :
  (tagged 0x80 (cp >>> UInt32.ofNat k) 0x3F).toNat = 128 + cp.toNat / 2 ^ k % 64
  := @tagged_toNat 0x80 0x3F 6 k cp hk rfl rfl (by decide)

theorem continuation_ne_zero {b : UInt8} {n : Nat} (h : b.toNat = 128 + n) :
  b ≠ 0
  := by
  apply ne_zero_of_toNat
  omega

theorem decodeChar_encode_one {mem : Nat → UInt8} {s : Nat} {cp : UInt32} (hpos : 1 ≤ cp.toNat)
    (hlt : cp.toNat < 128) (hfirst : mem s = cp.toUInt8) :
  decodeChar mem s = (cp, s + 1) ∧ mem s ≠ 0
  := by
  have hvalue : (mem s).toUInt32 = cp := by
    rw [hfirst, ← UInt32.toNat_inj, UInt8.toNat_toUInt32, UInt32.toNat_toUInt8]
    apply Nat.mod_eq_of_lt
    omega
  have hne : mem s ≠ 0 := by
    intro hzero
    rw [hzero] at hvalue
    rw [← hvalue] at hpos
    cases hpos
  constructor
  · rw [decodeChar, if_neg hne]
    dsimp only
    rw [hvalue, if_pos (UInt32.lt_iff_toNat_lt.mpr hlt)]
  · exact hne

theorem decodeChar_encode_two {mem : Nat → UInt8} {s : Nat} {cp : UInt32} (hge : 128 ≤ cp.toNat)
    (hlt : cp.toNat < 2048) (hfirst : mem s = tagged 0xC0 (cp >>> 6) 0x1F)
    (hsecond : mem (s + 1) = tagged 0x80 cp 0x3F) :
  decodeChar mem s = (cp, s + 2) ∧ mem s ≠ 0
  := by
  have hlead : (mem s).toNat = 192 + cp.toNat / 2 ^ 6 % 2 ^ 5 :=
    hfirst ▸ @tagged_toNat 0xC0 0x1F 5 6 cp (by decide) rfl rfl (by decide)
  have hlast : (mem (s + 1)).toNat = 128 + cp.toNat % 64 := hsecond ▸ tagged_low_toNat cp
  obtain ⟨cp', hdecode, hvalue⟩ := decodeChar_two (by omega) (continuation_ne_zero hlast)
  have heq : cp' = cp := by
    rw [← UInt32.toNat_inj, hvalue, hlead, hlast]
    omega
  rw [hdecode, heq]
  use rfl, (not_ascii (by omega)).1

theorem decodeChar_encode_three {mem : Nat → UInt8} {s : Nat} {cp : UInt32}
    (hge : 2048 ≤ cp.toNat) (hlt : cp.toNat < 65536)
    (hfirst : mem s = tagged 0xE0 (cp >>> 12) 0x0F)
    (hsecond : mem (s + 1) = tagged 0x80 (cp >>> 6) 0x3F)
    (hthird : mem (s + 2) = tagged 0x80 cp 0x3F) :
  decodeChar mem s = (cp, s + 3) ∧ mem s ≠ 0
  := by
  have hlead : (mem s).toNat = 224 + cp.toNat / 2 ^ 12 % 2 ^ 4 :=
    hfirst ▸ @tagged_toNat 0xE0 0x0F 4 12 cp (by decide) rfl rfl (by decide)
  have hmiddle : (mem (s + 1)).toNat = 128 + cp.toNat / 2 ^ 6 % 64 :=
    hsecond ▸ @continuation_toNat cp 6 (by decide)
  have hlast : (mem (s + 2)).toNat = 128 + cp.toNat % 64 := hthird ▸ tagged_low_toNat cp
  obtain ⟨cp', hdecode, hvalue⟩ := decodeChar_three (by omega) (continuation_ne_zero hmiddle)
    (continuation_ne_zero hlast)
  have heq : cp' = cp := by
    rw [← UInt32.toNat_inj, hvalue, hlead, hmiddle, hlast]
    omega
  rw [hdecode, heq]
  use rfl, (not_ascii (by omega)).1

theorem decodeChar_encode_four {mem : Nat → UInt8} {s : Nat} {cp : UInt32}
    (hge : 65536 ≤ cp.toNat) (hlt : cp.toNat < 2097152)
    (hfirst : mem s = tagged 0xF0 (cp >>> 18) 0x07)
    (hsecond : mem (s + 1) = tagged 0x80 (cp >>> 12) 0x3F)
    (hthird : mem (s + 2) = tagged 0x80 (cp >>> 6) 0x3F)
    (hfourth : mem (s + 3) = tagged 0x80 cp 0x3F) :
  decodeChar mem s = (cp, s + 4) ∧ mem s ≠ 0
  := by
  have hlead : (mem s).toNat = 240 + cp.toNat / 2 ^ 18 % 2 ^ 3 :=
    hfirst ▸ @tagged_toNat 0xF0 0x07 3 18 cp (by decide) rfl rfl (by decide)
  have hnext : (mem (s + 1)).toNat = 128 + cp.toNat / 2 ^ 12 % 64 :=
    hsecond ▸ @continuation_toNat cp 12 (by decide)
  have hmiddle : (mem (s + 2)).toNat = 128 + cp.toNat / 2 ^ 6 % 64 :=
    hthird ▸ @continuation_toNat cp 6 (by decide)
  have hlast : (mem (s + 3)).toNat = 128 + cp.toNat % 64 := hfourth ▸ tagged_low_toNat cp
  obtain ⟨cp', hdecode, hvalue⟩ := decodeChar_four (by omega) (continuation_ne_zero hnext)
    (continuation_ne_zero hmiddle) (continuation_ne_zero hlast)
  have heq : cp' = cp := by
    rw [← UInt32.toNat_inj, hvalue, hlead, hnext, hmiddle, hlast]
    omega
  rw [hdecode, heq]
  use rfl, (not_ascii (by omega)).1

/-- The decoder reads back a code point that the encoder has stored. -/
theorem decodeChar_encode {mem : Nat → UInt8} {s : Nat} {cp : UInt32} (hpos : 1 ≤ cp.toNat)
    (hle : cp.toNat ≤ 0x10FFFF) (hstored : Stored mem s (encodeCodepoint cp)) :
  decodeChar mem s = (cp, s + (encodeCodepoint cp).length) ∧ mem s ≠ 0
  := by
  rw [encodeCodepoint] at hstored ⊢
  simp only [UInt32.le_iff_toNat_le] at hstored ⊢
  split_ifs at hstored ⊢ with hone htwo hthree
  · obtain ⟨hfirst, -⟩ := hstored
    apply decodeChar_encode_one hpos (Nat.lt_succ_of_le hone) hfirst
  · obtain ⟨hfirst, hsecond, -⟩ := hstored
    apply decodeChar_encode_two (Nat.lt_of_not_le hone) (Nat.lt_succ_of_le htwo) hfirst hsecond
  · obtain ⟨hfirst, hsecond, hthird, -⟩ := hstored
    apply decodeChar_encode_three (Nat.lt_of_not_le htwo) (Nat.lt_succ_of_le hthree) hfirst hsecond
      hthird
  · obtain ⟨hfirst, hsecond, hthird, hfourth, -⟩ := hstored
    apply decodeChar_encode_four (Nat.lt_of_not_le hthree) _ hfirst hsecond hthird hfourth
    apply hle.trans_lt
    decide
  · contradiction

theorem stored_append (mem : Nat → UInt8) (s : Nat) (l l' : List UInt8) :
  Stored mem s (l ++ l') ↔ Stored mem s l ∧ Stored mem (s + l.length) l'
  := by
  induction l generalizing s with
  | nil => simp [Stored]
  | cons b l ih =>
      rw [List.cons_append, Stored, Stored, ih, and_assoc, List.length_cons, Nat.add_assoc s 1,
        Nat.add_comm 1]

theorem encodeCodepoint_length_pos {cp : UInt32} (hle : cp.toNat ≤ 0x10FFFF) :
  0 < (encodeCodepoint cp).length
  := by
  rw [encodeCodepoint]
  split_ifs with hone htwo hthree hfour
  · apply Nat.zero_lt_succ
  · apply Nat.zero_lt_succ
  · apply Nat.zero_lt_succ
  · apply Nat.zero_lt_succ
  · exact absurd (UInt32.le_iff_toNat_le.mpr hle) hfour

/-- The decoder reads back a text that the encoder has stored. -/
theorem decodeText_encode (mem : Nat → UInt8) {cps : List UInt32}
    (hcps : ∀ cp ∈ cps, 1 ≤ cp.toNat ∧ cp.toNat ≤ 0x10FFFF) {s fuel : Nat}
    (hstored : Stored mem s (cps.flatMap encodeCodepoint ++ [0]))
    (hfuel : (cps.flatMap encodeCodepoint).length ≤ fuel) :
  decodeText mem fuel s = (cps, s + (cps.flatMap encodeCodepoint).length)
  := by
  induction cps generalizing s fuel with
  | nil =>
      obtain ⟨hzero, -⟩ := hstored
      cases fuel with
      | zero => rfl
      | succ fuel => rw [decodeText, if_neg (not_not_intro hzero), List.flatMap_nil, List.length_nil,
          Nat.add_zero]
  | cons cp cps ih =>
      obtain ⟨⟨hpos, hle⟩, htail⟩ := List.forall_mem_cons.mp hcps
      rw [List.flatMap_cons, List.append_assoc, stored_append] at hstored
      rw [List.flatMap_cons, List.length_append] at hfuel ⊢
      obtain ⟨hdecode, hne⟩ := decodeChar_encode hpos hle hstored.1
      have hlen := encodeCodepoint_length_pos hle
      cases fuel with
      | zero => omega
      | succ fuel =>
          rw [decodeText, if_pos hne, hdecode]
          dsimp only
          rw [ih htail hstored.2 (by omega), Nat.add_assoc]

/-! ### Counting -/

theorem Terminated.ne_zero_iff {mem : Nat → UInt8} {s n i : Nat} (h : Terminated mem s n)
    (hi : i ≤ n) :
  mem (s + i) ≠ 0 ↔ i < n
  := by
  constructor
  · intro hne
    apply Nat.lt_of_le_of_ne hi
    rintro rfl
    exact hne h.terminator
  · apply h.nonzero

theorem Terminated.drop {mem : Nat → UInt8} {s n i : Nat} (h : Terminated mem s n) (hi : i ≤ n) :
  Terminated mem (s + i) (n - i)
  := by
  constructor
  · intro j hj
    rw [Nat.add_assoc]
    apply h.nonzero
    omega
  · rw [Nat.add_assoc, Nat.add_sub_cancel' hi]
    exact h.terminator

/-- The decoder advances over a character as the counter does, but not past the NUL. -/
theorem decodeChar_next {mem : Nat → UInt8} {s n : Nat} (h : Terminated mem s n) (hn : 0 < n) :
  (decodeChar mem s).2 = s + min (width (mem s)) n
  := by
  have hfirst : mem s ≠ 0 := h.nonzero 0 hn
  have hsecond : mem (s + 1) ≠ 0 ↔ 1 < n := h.ne_zero_iff hn
  have hthird : 1 < n → (mem (s + 1 + 1) ≠ 0 ↔ 2 < n) := h.ne_zero_iff
  have hfourth : 2 < n → (mem (s + 1 + 2) ≠ 0 ↔ 3 < n) := by
    rw [Nat.add_assoc]
    apply h.ne_zero_iff
  obtain ⟨htwo, hthree, hfour⟩ := lead_iff (mem s)
  obtain ⟨htwo', hthree', hfour'⟩ := and_byte_iff (mem s)
  have hone : mem s < 0x80 ↔ (mem s).toNat < 128 := UInt8.lt_iff_toNat_lt
  rw [decodeChar, if_neg hfirst, width]
  simp only [ascii_iff, htwo, hthree, hfour, htwo', hthree', hfour', hone]
  split_ifs
  all_goals grind

/-- Decoding stops at the NUL, and never passes it. -/
theorem decodeText_last {mem : Nat → UInt8} {s n : Nat} (h : Terminated mem s n) (fuel : Nat) :
  (decodeText mem fuel s).2 ≤ s + n ∧ (n ≤ fuel → (decodeText mem fuel s).2 = s + n)
  := by
  induction fuel generalizing s n with
  | zero =>
      rw [decodeText]
      constructor
      · apply Nat.le_add_right
      · intro hn
        rw [Nat.le_zero.mp hn, Nat.add_zero]
  | succ fuel ih =>
      rw [decodeText]
      by_cases hn : 0 < n
      · have hfirst : mem s ≠ 0 := h.nonzero 0 hn
        have hwidth := width_pos (mem s)
        have hnext := decodeChar_next h hn
        obtain ⟨hle, heq⟩ := ih (h.drop (Nat.min_le_right (width (mem s)) n))
        rw [← hnext] at hle heq
        rw [if_pos hfirst]
        dsimp only
        constructor
        · omega
        · intro hfuel
          rw [heq (by omega)]
          omega
      · obtain rfl : n = 0 := by omega
        have hzero : mem s = 0 := h.terminator
        rw [if_neg (not_not_intro hzero)]
        use le_rfl
        intro _
        rfl

/-- The counter, from a byte at which it and the decoder are, or behind the end. -/
theorem charlenFrom_eq {mem : Nat → UInt8} {s n : Nat} (h : Terminated mem s n) {fuel i : Nat}
    (hfuel : n ≤ i + fuel) (count : Nat) :
  charlenFrom mem s n i count = (decodeText mem fuel (s + min i n)).1.length + count
  := by
  induction fuel generalizing i count with
  | zero =>
      rw [charlenFrom, if_neg (by omega), decodeText]
      rw [List.length_nil, Nat.zero_add]
  | succ fuel ih =>
      rw [charlenFrom, decodeText]
      by_cases hi : i < n
      · have hne : mem (s + i) ≠ 0 := h.nonzero i hi
        have hwidth := width_pos (mem (s + i))
        have hnext := decodeChar_next (h.drop hi.le) (Nat.sub_pos_of_lt hi)
        have hmin : s + i + min (width (mem (s + i))) (n - i)
            = s + min (i + width (mem (s + i))) n := by omega
        rw [Nat.min_eq_left hi.le, if_pos ⟨hi, hne⟩, if_pos hne, ih (by omega)]
        dsimp only
        rw [hnext, hmin, List.length_cons, Nat.add_assoc, Nat.add_comm 1]
      · rw [Nat.min_eq_right (Nat.le_of_not_lt hi), if_neg (by omega),
          if_neg (not_not_intro h.terminator), List.length_nil, Nat.zero_add]

theorem decodeText_length {mem : Nat → UInt8} {s n : Nat} (h : Terminated mem s n) {fuel : Nat}
    (hfuel : n ≤ fuel) :
  (decodeText mem fuel s).1.length = charlen mem s n
  := by
  have hcount := @charlenFrom_eq mem s n h fuel 0 (by omega) 0
  rw [Nat.zero_min, Nat.add_zero, Nat.add_zero] at hcount
  exact hcount.symm

/-- Decoding a text inverts encoding it; and decoding any string stays within it and takes as many
steps as the counter counts characters. -/
theorem utf8_agreement :
  (∀ (mem : Nat → UInt8) (s : Nat) (cps : List UInt32),
      (∀ cp ∈ cps, 1 ≤ cp.toNat ∧ cp.toNat ≤ 0x10FFFF) →
      Stored mem s (cps.flatMap encodeCodepoint ++ [0]) →
      ∀ fuel ≥ (cps.flatMap encodeCodepoint).length,
        decodeText mem fuel s = (cps, s + (cps.flatMap encodeCodepoint).length))
    ∧ ∀ (mem : Nat → UInt8) (s n : Nat), Terminated mem s n →
      (∀ fuel, (decodeText mem fuel s).2 ≤ s + n)
        ∧ ∀ fuel ≥ n, (decodeText mem fuel s).2 = s + n
          ∧ (decodeText mem fuel s).1.length = charlen mem s n
  := by
  constructor
  · intro mem s cps hcps hstored fuel hfuel
    apply decodeText_encode mem hcps hstored hfuel
  · intro mem s n h
    constructor
    · intro fuel
      apply (decodeText_last h fuel).1
    · intro fuel hfuel
      use (decodeText_last h fuel).2 hfuel, decodeText_length h hfuel

/-- The sign `€`, and a letter of two bytes before one that the NUL cuts off. -/
theorem utf8_agreement_cut :
  decodeText (fun a => [0xE2, 0x82, 0xAC].getD a 0) 3 0 = ([0x20AC], 3)
    ∧ (decodeText (fun a => [0xC3, 0xA9, 0xE2, 0x82].getD a 0) 4 0).1.length
      = charlen (fun a => [0xC3, 0xA9, 0xE2, 0x82].getD a 0) 0 4
  := by
  constructor
  · have hvalue : (0x20AC : UInt32).toNat = 0x20AC := rfl
    apply utf8_agreement.1 _ 0 [0x20AC]
    · intro cp hcp
      rw [List.mem_singleton.mp hcp, hvalue]
      omega
    · exact ⟨rfl, rfl, rfl, rfl, trivial⟩
    · exact Nat.le_refl 3
  · apply ((utf8_agreement.2 _ 0 4 ⟨by decide, rfl⟩).2 4 le_rfl).2

end Utf8
