import Mathlib.Data.Nat.Bitwise

/-!
# Four bytes in a word

`pack a r g b` is the 32-bit word with the bytes `a`, `r`, `g` and `b`, the first on top, as C code
packs the channels of a pixel.  `toNat_pack` is its value, `pack_bytes` takes a word apart and packs
it again, and `top_pack` to `low_pack` take apart what was packed.
-/

namespace Packing

/-- The word with four bytes. -/
def pack (a r g b : UInt32) : UInt32 := (a <<< 24) ||| (r <<< 16) ||| (g <<< 8) ||| b

theorem toNat_shiftLeft_or {a b s : UInt32} {k : Nat} (hs : s.toNat = k) (hk : k < 32)
    (ha : a.toNat < 2 ^ (32 - k)) (hb : b.toNat < 2 ^ k) :
  (a <<< s ||| b).toNat = a.toNat * 2 ^ k + b.toNat
  := by
  have hshift : s.toNat % 32 = k := by omega
  have hlt : a.toNat * 2 ^ k < 2 ^ 32 := by
    rw [← Nat.sub_add_cancel hk.le, Nat.pow_add]
    exact Nat.mul_lt_mul_of_pos_right ha (Nat.two_pow_pos k)
  rw [UInt32.toNat_or, UInt32.toNat_shiftLeft, hshift, Nat.shiftLeft_eq, Nat.mod_eq_of_lt hlt,
    ← Nat.shiftLeft_eq, Nat.shiftLeft_add_eq_or_of_lt hb]

variable {a r g b : UInt32}

theorem toNat_pack (ha : a.toNat < 256) (hr : r.toNat < 256) (hg : g.toNat < 256)
    (hb : b.toNat < 256) :
  (pack a r g b).toNat = ((a.toNat * 256 + r.toNat) * 256 + g.toNat) * 256 + b.toNat
  := by
  have hassoc : pack a r g b = (a <<< 24) ||| ((r <<< 16) ||| ((g <<< 8) ||| b)) := by
    rw [pack, UInt32.or_assoc, UInt32.or_assoc]
  have hlow : (g <<< 8 ||| b).toNat = g.toNat * 2 ^ 8 + b.toNat :=
    toNat_shiftLeft_or rfl (by decide) (by omega) (by omega)
  have hmid : (r <<< 16 ||| (g <<< 8 ||| b)).toNat = r.toNat * 2 ^ 16 + (g <<< 8 ||| b).toNat :=
    toNat_shiftLeft_or rfl (by decide) (by omega) (by omega)
  have hall : (a <<< 24 ||| (r <<< 16 ||| (g <<< 8 ||| b))).toNat
      = a.toNat * 2 ^ 24 + (r <<< 16 ||| (g <<< 8 ||| b)).toNat :=
    toNat_shiftLeft_or rfl (by decide) (by omega) (by omega)
  rw [hassoc, hall, hmid, hlow]
  omega

/-! ### The bytes of a word -/

theorem toNat_top (p : UInt32) :
  (p >>> 24).toNat = p.toNat / 2 ^ 24
  := by
  rw [UInt32.toNat_shiftRight, Nat.shiftRight_eq_div_pow]
  rfl

/-- A byte of a word: a shift and a mask. -/
theorem toNat_byte (p : UInt32) {s : UInt32} {k : Nat} (hs : s.toNat = k) (hk : k < 32) :
  (p >>> s &&& 0xFF).toNat = p.toNat / 2 ^ k % 256
  := by
  have hshift : s.toNat % 32 = k := by omega
  rw [UInt32.toNat_and, UInt32.toNat_shiftRight, hshift, Nat.shiftRight_eq_div_pow]
  apply Nat.and_two_pow_sub_one_eq_mod _ 8

theorem toNat_low (p : UInt32) :
  (p &&& 0xFF).toNat = p.toNat % 256
  := by
  rw [UInt32.toNat_and]
  apply Nat.and_two_pow_sub_one_eq_mod _ 8

/-- The bytes of a word, from the top. -/
theorem toNat_bytes (p : UInt32) :
  (p >>> 24).toNat = p.toNat / 2 ^ 24 ∧ (p >>> 16 &&& 0xFF).toNat = p.toNat / 2 ^ 16 % 256
    ∧ (p >>> 8 &&& 0xFF).toNat = p.toNat / 2 ^ 8 % 256 ∧ (p &&& 0xFF).toNat = p.toNat % 256
  := ⟨toNat_top p, toNat_byte p rfl (by decide), toNat_byte p rfl (by decide), toNat_low p⟩

/-- A word is packed from its bytes. -/
theorem pack_bytes (p : UInt32) :
  pack (p >>> 24) (p >>> 16 &&& 0xFF) (p >>> 8 &&& 0xFF) (p &&& 0xFF) = p
  := by
  have hlt := p.toNat_lt
  obtain ⟨htop, hsecond, hthird, hlow⟩ := toNat_bytes p
  apply UInt32.toNat_inj.mp
  rw [toNat_pack (by omega) (by omega) (by omega) (by omega), htop, hsecond, hthird, hlow]
  omega

/-- A word that is packed has the bytes it is packed from. -/
theorem bytes_pack (ha : a.toNat < 256) (hr : r.toNat < 256) (hg : g.toNat < 256)
    (hb : b.toNat < 256) :
  pack a r g b >>> 24 = a ∧ pack a r g b >>> 16 &&& 0xFF = r ∧ pack a r g b >>> 8 &&& 0xFF = g
    ∧ pack a r g b &&& 0xFF = b
  := by
  have hpack := toNat_pack ha hr hg hb
  obtain ⟨htop, hsecond, hthird, hlow⟩ := toNat_bytes (pack a r g b)
  refine ⟨UInt32.toNat_inj.mp ?_, UInt32.toNat_inj.mp ?_, UInt32.toNat_inj.mp ?_,
    UInt32.toNat_inj.mp ?_⟩
  · omega
  · omega
  · omega
  · omega

end Packing
