import Mathlib.Tactic.Use
import Mathlib.Tactic.Push
import Mathlib.Order.Nat
import Mathlib.Algebra.Group.Nat.Defs

/-!
# Chunked transfer coding

A `ChunkedBody` is a body in chunked transfer coding: chunks, each with its size in hexadecimal
digits, an extension and its data, a last chunk of size zero, and a trailer.  `unchunk` is what a
tolerant decoder makes of any bytes: it skips blanks before a size, takes as many bytes as there are
when a chunk is cut off, and stops where there is no size.  `unchunk_bytes` says that it decodes every
chunked body, and `length_unchunk_le` that it never makes more of the bytes than there are.
-/

namespace Http

/-- Carriage return. -/
def cr : UInt8 := 13

/-- Line feed. -/
def lf : UInt8 := 10

/-- The bytes that are skipped before a chunk size. -/
def isBlank (c : UInt8) : Bool := c = cr ∨ c = lf ∨ c = 32 ∨ c = 9

/-- The value of a hexadecimal digit of either case. -/
def hexValue (c : UInt8) : Option UInt32 :=
  if 48 ≤ c ∧ c ≤ 57 then some (c - 48).toUInt32
  else if 97 ≤ c ∧ c ≤ 102 then some (c - 97 + 10).toUInt32
  else if 65 ≤ c ∧ c ≤ 70 then some (c - 65 + 10).toUInt32
  else none

/-- Whether a byte is a hexadecimal digit. -/
def isHex (c : UInt8) : Bool := (hexValue c).isSome

/-- The number that hexadecimal digits stand for, after a number that has been read. -/
def hexNumber (n : Nat) : List UInt8 → Nat
  | [] => n
  | c :: cs => hexNumber (16 * n + ((hexValue c).getD 0).toNat) cs

/-- The same in 32 bits. -/
def hexWord (n : UInt32) : List UInt8 → UInt32
  | [] => n
  | c :: cs => hexWord (n <<< 4 ||| (hexValue c).getD 0) cs

theorem hexValue_lt {c : UInt8} {v : UInt32} (h : hexValue c = some v) :
  v.toNat < 16
  := by
  have hcases : ∀ n < 256, ((hexValue (UInt8.ofNat n)).getD 0).toNat < 16 := by decide +kernel
  have hvalue := hcases c.toNat c.toNat_lt
  rw [UInt8.ofNat_toNat, h] at hvalue
  exact hvalue

/-- A number in 32 bits, shifted by four bits, and a digit. -/
theorem toNat_shift_or (n v : UInt32) (h : v.toNat < 16) :
  (n <<< 4 ||| v).toNat = (16 * n.toNat + v.toNat) % 2 ^ 32
  := by
  have hshift : (n <<< 4).toNat = 2 ^ 4 * (n.toNat % 2 ^ 28) := by
    rw [UInt32.toNat_shiftLeft, Nat.shiftLeft_eq]
    change n.toNat * 2 ^ 4 % 2 ^ 32 = _
    omega
  rw [UInt32.toNat_or, hshift, ← Nat.two_pow_add_eq_or_of_lt h]
  omega

theorem hexNumber_mod (n : Nat) (cs : List UInt8) :
  hexNumber (n % 2 ^ 32) cs % 2 ^ 32 = hexNumber n cs % 2 ^ 32
  := by
  induction cs generalizing n with
  | nil => exact Nat.mod_mod _ _
  | cons c cs ih =>
      rw [hexNumber, hexNumber, ← ih (16 * n + _), ← ih (16 * (n % 2 ^ 32) + _)]
      congr 2
      omega

theorem toNat_hexWord (n : UInt32) (cs : List UInt8) :
  (hexWord n cs).toNat = hexNumber n.toNat cs % 2 ^ 32
  := by
  induction cs generalizing n with
  | nil => exact (Nat.mod_eq_of_lt n.toNat_lt).symm
  | cons c cs ih =>
      have hlt : ((hexValue c).getD 0).toNat < 16 := by
        cases hvalue : hexValue c with
        | none => decide
        | some v => exact hexValue_lt hvalue
      rw [hexWord, hexNumber, ih, toNat_shift_or _ _ hlt, hexNumber_mod]

/-! ### Decoding -/

/-- What comes after a byte, when it comes first. -/
def dropByte (c : UInt8) : List UInt8 → List UInt8
  | [] => []
  | d :: l => if d = c then l else d :: l

/-- The data of the next chunk and what comes after it, when there is a next chunk: as many bytes as
its size says, or as there are. -/
def nextChunk (l : List UInt8) : Option (List UInt8 × List UInt8) :=
  let l := l.dropWhile isBlank
  let digits := l.takeWhile isHex
  let l := dropByte lf ((l.drop digits.length).dropWhile (· ≠ lf))
  let size := (hexWord 0 digits).toNat
  if digits = [] ∨ size = 0 then none
  else some (l.take size, dropByte lf (dropByte cr (l.drop size)))

theorem length_dropByte_le (c : UInt8) (l : List UInt8) :
  (dropByte c l).length ≤ l.length
  := by
  cases l with
  | nil => exact le_rfl
  | cons d l =>
      rw [dropByte]
      split
      · exact Nat.le_succ _
      · exact le_rfl

theorem length_dropWhile_le (test : UInt8 → Bool) (l : List UInt8) :
  (l.dropWhile test).length ≤ l.length
  := (List.dropWhile_sublist test).length_le

/-- A chunk takes at least one byte more than it has data. -/
theorem nextChunk_length {l data rest : List UInt8} (h : nextChunk l = some (data, rest)) :
  data.length + rest.length < l.length
  := by
  unfold nextChunk at h
  extract_lets l₁ digits l₂ size at h
  split at h
  case isTrue => cases h
  case isFalse hnot =>
    obtain ⟨rfl, rfl⟩ := Prod.mk.inj (Option.some.inj h)
    push Not at hnot
    have hpos := List.length_pos_iff.mpr hnot.1
    have h₁ : l₁.length ≤ l.length := length_dropWhile_le isBlank l
    have h₂ : l₂.length ≤ l₁.length - digits.length := by
      apply (length_dropByte_le _ _).trans
      apply (length_dropWhile_le _ _).trans
      rw [List.length_drop]
    have hdigits : digits.length ≤ l₁.length := (List.takeWhile_sublist isHex).length_le
    have h₃ := length_dropByte_le lf (dropByte cr (l₂.drop size))
    have h₄ := length_dropByte_le cr (l₂.drop size)
    rw [List.length_drop] at h₄
    rw [List.length_take]
    omega

/-- The data of all chunks, one after the other. -/
def unchunk (l : List UInt8) : List UInt8 :=
  match _h : nextChunk l with
  | none => []
  | some (data, rest) => data ++ unchunk rest
termination_by l.length
decreasing_by
  have := nextChunk_length _h
  omega

theorem unchunk_none {l : List UInt8} (h : nextChunk l = none) :
  unchunk l = []
  := by
  rw [unchunk]
  split
  case h_1 => rfl
  case h_2 hsome =>
    rw [h] at hsome
    cases hsome

theorem unchunk_some {l data rest : List UInt8} (h : nextChunk l = some (data, rest)) :
  unchunk l = data ++ unchunk rest
  := by
  rw [unchunk]
  split
  case h_1 hnone =>
    rw [h] at hnone
    cases hnone
  case h_2 hsome =>
    rw [h] at hsome
    cases hsome
    rfl

/-- Decoding makes at most as many bytes as there are. -/
theorem length_unchunk_le (l : List UInt8) :
  (unchunk l).length ≤ l.length
  := by
  induction hn : l.length using Nat.strong_induction_on generalizing l with
  | h n ih =>
      cases h : nextChunk l with
      | none =>
          rw [unchunk_none h]
          exact Nat.zero_le _
      | some r =>
          obtain ⟨data, rest⟩ := r
          have hlength := nextChunk_length h
          have hrest := ih rest.length (by omega) rest rfl
          rw [unchunk_some h, List.length_append]
          omega

/-- Decoding makes fewer bytes than there are, when there are any. -/
theorem length_unchunk_lt {l : List UInt8} (h : l ≠ []) :
  (unchunk l).length < l.length
  := by
  cases hnext : nextChunk l with
  | none =>
      rw [unchunk_none hnext]
      exact List.length_pos_iff.mpr h
  | some r =>
      obtain ⟨data, rest⟩ := r
      have hlength := nextChunk_length hnext
      have hrest := length_unchunk_le rest
      rw [unchunk_some hnext, List.length_append]
      omega

/-! ### Encoding -/

/-- The line of a chunk size: digits, and an extension, which ends with the line and does not begin
with a digit. -/
structure SizeLine where
  digits : List UInt8
  extension : List UInt8
  hex : ∀ c ∈ digits, isHex c = true
  ne_nil : digits ≠ []
  line : ∀ c ∈ extension, c ≠ lf
  separate : ∀ c ∈ extension.head?, isHex c = false

namespace SizeLine

/-- The bytes of the line. -/
def bytes (l : SizeLine) : List UInt8 := l.digits ++ l.extension ++ [cr, lf]

/-- The number that the digits stand for. -/
def size (l : SizeLine) : Nat := hexNumber 0 l.digits

variable (l : SizeLine) (rest : List UInt8)

theorem not_isBlank_of_isHex {c : UInt8} (h : isHex c = true) :
  isBlank c = false
  := by
  rw [isBlank, decide_eq_false_iff_not]
  rintro (rfl | rfl | rfl | rfl)
  · cases h
  · cases h
  · cases h
  · cases h

theorem dropWhile_isBlank :
  (l.bytes ++ rest).dropWhile isBlank = l.bytes ++ rest
  := by
  obtain ⟨d, ds, hds⟩ := List.exists_cons_of_ne_nil l.ne_nil
  have hd : isBlank d = false := by
    apply not_isBlank_of_isHex
    apply l.hex
    rw [hds]
    exact List.mem_cons_self
  rw [bytes, hds, List.cons_append, List.cons_append, List.cons_append, List.dropWhile_cons_of_neg]
  rw [hd]
  exact Bool.false_ne_true

theorem takeWhile_isHex :
  (l.bytes ++ rest).takeWhile isHex = l.digits
  := by
  have hafter : (l.extension ++ [cr, lf] ++ rest).takeWhile isHex = [] := by
    cases hextension : l.extension with
    | nil => rfl
    | cons c cs =>
        have hc : isHex c = false := by
          apply l.separate
          rw [hextension]
          rfl
        rw [List.cons_append, List.cons_append, List.takeWhile_cons_of_neg]
        rw [hc]
        exact Bool.false_ne_true
  rw [bytes, List.append_assoc, List.append_assoc, List.takeWhile_append_of_pos l.hex,
    ← List.append_assoc, hafter, List.append_nil]

theorem drop_line :
  dropByte lf (((l.bytes ++ rest).drop l.digits.length).dropWhile (· ≠ lf)) = rest
  := by
  have hline : ∀ c ∈ l.extension ++ [cr], decide (c ≠ lf) = true := by
    intro c hc
    apply decide_eq_true
    rcases List.mem_append.mp hc with hc | hc
    · exact l.line c hc
    · rw [List.mem_singleton.mp hc]
      decide
  have hbytes : l.bytes ++ rest = l.digits ++ ((l.extension ++ [cr]) ++ (lf :: rest)) := by
    simp [bytes]
  rw [hbytes, List.drop_left, List.dropWhile_append_of_pos hline, List.dropWhile_cons_of_neg (by simp),
    dropByte, if_pos rfl]

end SizeLine

/-- A chunk: the line of its size, and its data. -/
structure Chunk where
  line : SizeLine
  data : List UInt8
  size : line.size = data.length
  ne_nil : data ≠ []

/-- The bytes of a chunk. -/
def Chunk.bytes (c : Chunk) : List UInt8 := c.line.bytes ++ c.data ++ [cr, lf]

theorem SizeLine.line_nil :
  ∀ c ∈ ([] : List UInt8), c ≠ lf
  := by
  decide +kernel

theorem SizeLine.separate_nil :
  ∀ c ∈ ([] : List UInt8).head?, isHex c = false
  := by
  decide +kernel

/-- The line `0`. -/
def SizeLine.zero : SizeLine :=
  ⟨[48], [], by decide +kernel, by decide, line_nil, separate_nil⟩

theorem SizeLine.size_zero :
  zero.size = 0
  := by
  decide

/-- A body in chunked transfer coding, with the line of the last chunk and the trailer. -/
structure ChunkedBody where
  chunks : List Chunk
  last : SizeLine
  trailer : List UInt8
  size : last.size = 0

namespace ChunkedBody

/-- The bytes of the body. -/
def bytes (b : ChunkedBody) : List UInt8 := b.chunks.flatMap Chunk.bytes ++ b.last.bytes ++ b.trailer

/-- What the body says. -/
def data (b : ChunkedBody) : List UInt8 := b.chunks.flatMap Chunk.data

end ChunkedBody

/-- A chunk whose size has 32 bits is decoded. -/
theorem nextChunk_bytes (c : Chunk) (rest : List UInt8) (h : c.data.length < 2 ^ 32) :
  nextChunk (c.bytes ++ rest) = some (c.data, rest)
  := by
  have hbytes : c.bytes ++ rest = c.line.bytes ++ (c.data ++ cr :: lf :: rest) := by
    simp [Chunk.bytes]
  have hsize : (hexWord 0 c.line.digits).toNat = c.data.length := by
    rw [toNat_hexWord, ← c.size]
    apply Nat.mod_eq_of_lt
    rw [← c.size] at h
    exact h
  have hne : ¬ (c.line.digits = [] ∨ c.data.length = 0) := by
    rintro (hnil | hnil)
    · exact c.line.ne_nil hnil
    · exact c.ne_nil (List.length_eq_zero_iff.mp hnil)
  unfold nextChunk
  rw [hbytes, SizeLine.dropWhile_isBlank]
  dsimp only
  rw [SizeLine.takeWhile_isHex, SizeLine.drop_line, hsize, if_neg hne, List.take_left, List.drop_left, dropByte, if_pos rfl, dropByte, if_pos rfl]

/-- The last chunk ends the body. -/
theorem nextChunk_last (l : SizeLine) (h : l.size = 0) (rest : List UInt8) :
  nextChunk (l.bytes ++ rest) = none
  := by
  unfold nextChunk
  rw [SizeLine.dropWhile_isBlank]
  dsimp only
  rw [SizeLine.takeWhile_isHex]
  apply if_pos
  right
  rw [toNat_hexWord]
  change hexNumber 0 l.digits % 2 ^ 32 = 0
  rw [← SizeLine.size, h, Nat.zero_mod]

/-- A chunked body of less than 4 GiB is decoded. -/
theorem unchunk_bytes (b : ChunkedBody) (h : b.bytes.length < 2 ^ 32) :
  unchunk b.bytes = b.data
  := by
  obtain ⟨chunks, last, trailer, hlast⟩ := b
  rw [ChunkedBody.bytes, ChunkedBody.data, List.append_assoc] at *
  dsimp only at *
  induction chunks with
  | nil => exact unchunk_none (nextChunk_last last hlast trailer)
  | cons c chunks ih =>
      rw [List.flatMap_cons, List.append_assoc, List.length_append] at h
      have hdata : c.data.length < 2 ^ 32 := by
        rw [Chunk.bytes, List.length_append, List.length_append] at h
        omega
      rw [List.flatMap_cons, List.flatMap_cons, List.append_assoc,
        unchunk_some (nextChunk_bytes c _ hdata), ih (by omega)]

end Http
