import Woos.Lib.Checked
import Woos.Lib.CString
import Woos.Lib.Numerals

/-!
# Bounded string builders

`str_cat`, `uint_cat`, `hex_cat` and `pad_spaces`, which write behind the string in a buffer, and the
functions of the same kind for the list of sockets.  A read or a write outside the buffer has no result.

`Call.render` is what a call adds to a string when there is room for all.  After any calls a buffer holds
the string that they build, cut to what fits with its terminating zero (`holds_run`).
-/

namespace NetString

open Checked

/-! ### The loops -/

/-- The loop that looks for the terminating zero; `rest` is `max_len - d_len`. -/
def findEnd (dst : Nat → UInt8) (n : Nat) : (rest len : Nat) → Option Nat
  | 0, len => (load dst n len).map (fun _ => len)
  | rest + 1, len =>
    (load dst n len).bind (fun c => if c = 0 then some len else findEnd dst n rest (len + 1))

/-- The loop of `str_cat` over the source. -/
def copyLoop (n : Nat) (maxLen : UInt32) : (src : List UInt8) → (len : Nat) → (dst : Nat → UInt8) →
    Option (Nat × (Nat → UInt8))
  | [], len, dst => some (len, dst)
  | c :: src, len, dst =>
    if (len + 1) % 2 ^ 32 < maxLen.toNat then (store dst n len c).bind (copyLoop n maxLen src (len + 1))
    else some (len, dst)

/-- The loop of `pad_spaces`; `rest` is `target_len - len`. -/
def padLoop (n : Nat) (maxLen : UInt32) : (rest len : Nat) → (dst : Nat → UInt8) →
    Option (Nat × (Nat → UInt8))
  | 0, len, dst => some (len, dst)
  | rest + 1, len, dst =>
    if (len + 1) % 2 ^ 32 < maxLen.toNat then (store dst n len 32).bind (padLoop n maxLen rest (len + 1))
    else some (len, dst)

/-! ### The functions, for a buffer of `n` bytes -/

/-- `str_cat` -/
def strCat (n : Nat) (maxLen : UInt32) (src : CString) (dst : Nat → UInt8) : Option (Nat → UInt8) := do
  let len ← findEnd dst n maxLen.toNat 0
  let (len, dst) ← copyLoop n maxLen src.bytes len dst
  store dst n len 0

/-- The digits that `uint_cat` writes to `buf` by way of `temp`, both of 16 bytes. -/
def uintDigits (val : UInt32) : List UInt8 :=
  if val = 0 then [48] else (Numeral.remainders 10 16 val.toNat).reverse.map (fun d => .ofNat (48 + d))

/-- `uint_cat` -/
def uintCat (n : Nat) (maxLen val : UInt32) (dst : Nat → UInt8) : Option (Nat → UInt8) :=
  strCat n maxLen (.ofBytes (uintDigits val)) dst

/-- `hex_chars` -/
def hexChars : List UInt8 := "0123456789abcdef".toList.map (fun c => c.toNat.toUInt8)

/-- `hex_cat` -/
def hexCat (n : Nat) (maxLen : UInt32) (byte : UInt8) (dst : Nat → UInt8) : Option (Nat → UInt8) :=
  strCat n maxLen (.ofBytes [hexChars.getD (byte >>> 4 &&& 0x0F).toNat 0,
    hexChars.getD (byte &&& 0x0F).toNat 0]) dst

/-- `pad_spaces` -/
def padSpaces (n : Nat) (maxLen targetLen : UInt32) (dst : Nat → UInt8) : Option (Nat → UInt8) := do
  let len ← findEnd dst n maxLen.toNat 0
  let (len, dst) ← padLoop n maxLen (targetLen.toNat - len) len dst
  store dst n len 0

/-- `sock_str_cat` -/
def sockStrCat (n : Nat) (maxLen : UInt32) (src : CString) (dst : Nat → UInt8) : Option (Nat → UInt8) :=
  strCat n maxLen src dst

/-- `sock_uint_cat` -/
def sockUintCat (n : Nat) (maxLen val : UInt32) (dst : Nat → UInt8) : Option (Nat → UInt8) :=
  sockStrCat n maxLen (.ofBytes (uintDigits val)) dst

/-- `sock_pad_spaces` -/
def sockPadSpaces (n : Nat) (maxLen targetLen : UInt32) (dst : Nat → UInt8) : Option (Nat → UInt8) :=
  padSpaces n maxLen targetLen dst

/-- A call on a buffer. -/
inductive Call where
  | strCat (src : CString)
  | uintCat (val : UInt32)
  | hexCat (byte : UInt8)
  | padSpaces (targetLen : UInt32)
  | sockStrCat (src : CString)
  | sockUintCat (val : UInt32)
  | sockPadSpaces (targetLen : UInt32)

def Call.exec (n : Nat) (maxLen : UInt32) : Call → (Nat → UInt8) → Option (Nat → UInt8)
  | .strCat src => NetString.strCat n maxLen src
  | .uintCat val => NetString.uintCat n maxLen val
  | .hexCat byte => NetString.hexCat n maxLen byte
  | .padSpaces targetLen => NetString.padSpaces n maxLen targetLen
  | .sockStrCat src => NetString.sockStrCat n maxLen src
  | .sockUintCat val => NetString.sockUintCat n maxLen val
  | .sockPadSpaces targetLen => NetString.sockPadSpaces n maxLen targetLen

/-- Calls one after the other. -/
def run (n : Nat) (maxLen : UInt32) : List Call → (Nat → UInt8) → Option (Nat → UInt8)
  | [], dst => some dst
  | c :: cs, dst => (c.exec n maxLen dst).bind (run n maxLen cs)

/-! ### What the calls build -/

/-- The byte of a digit. -/
def digit (d : Nat) : UInt8 := .ofNat (if d < 10 then 48 + d else 87 + d)

theorem digit_ne_zero {d : Nat} (h : d < 16) :
  digit d ≠ 0
  := by
  have hall : ∀ d < 16, digit d ≠ 0 := by decide
  exact hall d h

/-- A number in decimal. -/
def decimal (val : UInt32) : CString where
  bytes := (Numeral.numeral 10 val.toNat).map digit
  ne_zero b hb := by
    obtain ⟨d, hd, rfl⟩ := List.mem_map.mp hb
    have hlt := Numeral.lt_of_mem_numeral (by decide) hd
    exact digit_ne_zero (by omega)

/-- A byte as two hexadecimal digits. -/
def hex (byte : UInt8) : CString where
  bytes := [digit (byte.toNat / 16), digit (byte.toNat % 16)]
  ne_zero b hb := by
    have hlt := byte.toNat_lt
    rcases List.mem_cons.mp hb with rfl | hb
    · exact digit_ne_zero (by omega)
    · rw [List.mem_singleton.mp hb]
      exact digit_ne_zero (by omega)

/-- Spaces. -/
def spaces (k : Nat) : CString where
  bytes := List.replicate k 32
  ne_zero b hb := by
    rw [List.eq_of_mem_replicate hb]
    decide

/-- What a call adds to a string of this length. -/
def Call.render (length : Nat) : Call → CString
  | .strCat src | .sockStrCat src => src
  | .uintCat val | .sockUintCat val => decimal val
  | .hexCat byte => hex byte
  | .padSpaces targetLen | .sockPadSpaces targetLen => spaces (targetLen.toNat - length)

/-- The string that calls build from a string. -/
def build : List Call → CString → CString
  | [], s => s
  | c :: cs, s => build cs (s.append (c.render s.length))

/-- A buffer of `n` bytes holds a string with its terminating zero. -/
structure Holds (dst : Nat → UInt8) (n : Nat) (s : CString) : Prop where
  length_lt : s.length < n
  begins : Begins dst s.bytes
  zero : dst s.length = 0

theorem Holds.ne_zero {dst : Nat → UInt8} {n : Nat} {s : CString} (h : Holds dst n s) {i : Nat}
    (hi : i < s.length) :
  dst i ≠ 0
  := by
  rw [h.begins i hi]
  exact s.ne_zero _ (List.get_mem _ _)

/-! ### The string that is found -/

theorem findEnd_eq {dst : Nat → UInt8} {n rest len : Nat} {s : CString} (h : Holds dst n s)
    (hlen : len ≤ s.length) (hrest : s.length ≤ len + rest) :
  findEnd dst n rest len = some s.length
  := by
  have hlt := h.length_lt
  induction rest generalizing len with
  | zero =>
      have heq : len = s.length := Nat.le_antisymm hlen hrest
      rw [findEnd, load_of_lt _ (by omega), heq]
      rfl
  | succ rest ih =>
      rw [findEnd, load_of_lt _ (by omega), Option.bind_some]
      by_cases hend : len = s.length
      · rw [hend, if_pos h.zero]
      · rw [if_neg (h.ne_zero (by omega)), ih (by omega) (by omega)]

/-- The loop of `str_cat` copies as much as there is room for. -/
theorem copyLoop_spec {n : Nat} {maxLen : UInt32} (hn : maxLen.toNat = n) (src : List UInt8)
    {bs : List UInt8} {dst : Nat → UInt8} (hlt : bs.length < n) (h : Begins dst bs) :
  ∃ dst', copyLoop n maxLen src bs.length dst = some (((bs ++ src).take (n - 1)).length, dst')
    ∧ Begins dst' ((bs ++ src).take (n - 1))
  := by
  have hmax := maxLen.toNat_lt
  induction src generalizing bs dst with
  | nil =>
      have hfits : (bs ++ []).take (n - 1) = bs := by
        rw [List.append_nil, List.take_of_length_le (by omega)]
      rw [hfits]
      exact ⟨dst, rfl, h⟩
  | cons c src ih =>
      rw [copyLoop]
      by_cases hroom : bs.length + 1 < n
      · obtain ⟨dst', hrest, hbegins⟩ := @ih (bs ++ [c]) (Function.update dst bs.length c) (by
          rw [List.length_append, List.length_singleton]
          exact hroom) (h.snoc c)
        rw [List.append_assoc, List.singleton_append] at hrest hbegins
        rw [List.length_append, List.length_singleton] at hrest
        refine ⟨dst', ?_, hbegins⟩
        rw [if_pos (by omega), store_of_lt _ _ hlt, Option.bind_some, hrest]
      · have hfull : (bs ++ c :: src).take (n - 1) = bs := by
          have hlen : n - 1 = bs.length := by omega
          rw [hlen, List.take_left]
        rw [hfull, if_neg (by omega)]
        exact ⟨dst, rfl, h⟩

/-- The loop of `pad_spaces` is that of `str_cat` over spaces. -/
theorem padLoop_eq (n : Nat) (maxLen : UInt32) (rest len : Nat) (dst : Nat → UInt8) :
  padLoop n maxLen rest len dst = copyLoop n maxLen (spaces rest).bytes len dst
  := by
  induction rest generalizing len dst with
  | zero => rfl
  | succ rest ih =>
      have hcons : (spaces (rest + 1)).bytes = 32 :: (spaces rest).bytes := rfl
      rw [padLoop, hcons, copyLoop]
      congr 2
      funext dst
      exact ih (len + 1) dst

/-- A string is copied behind the one in the buffer, and a terminating zero. -/
theorem append_spec {n : Nat} {maxLen : UInt32} (hn : maxLen.toNat = n) (src : CString) {s : CString}
    {dst : Nat → UInt8} (h : Holds dst n s) :
  ∃ dst', (copyLoop n maxLen src.bytes s.length dst).bind (fun r => store r.2 n r.1 0) = some dst'
    ∧ Holds dst' n ((s.append src).truncate (n - 1))
  := by
  have hpos := h.length_lt
  obtain ⟨dst', hcopy, hbegins⟩ := copyLoop_spec hn src.bytes hpos h.begins
  have hlen : ((s.append src).truncate (n - 1)).length < n := by
    rw [CString.length_truncate]
    omega
  refine ⟨Function.update dst' ((s.append src).truncate (n - 1)).length 0, ?_, hlen, ?_, ?_⟩
  · rw [CString.length, hcopy, Option.bind_some]
    exact store_of_lt _ _ hlen
  · exact hbegins.update (Nat.le_refl _) 0
  · exact Function.update_self _ _ _

theorem strCat_spec {n : Nat} {maxLen : UInt32} (hn : maxLen.toNat = n) (src : CString) {s : CString}
    {dst : Nat → UInt8} (h : Holds dst n s) :
  ∃ dst', strCat n maxLen src dst = some dst' ∧ Holds dst' n ((s.append src).truncate (n - 1))
  := by
  obtain ⟨dst', happend, hholds⟩ := append_spec hn src h
  refine ⟨dst', ?_, hholds⟩
  rw [strCat, hn, findEnd_eq h (Nat.zero_le _) (by
    have hlt := h.length_lt
    omega)]
  exact happend

theorem padSpaces_spec {n : Nat} {maxLen : UInt32} (hn : maxLen.toNat = n) (targetLen : UInt32) {s : CString}
    {dst : Nat → UInt8} (h : Holds dst n s) :
  ∃ dst', padSpaces n maxLen targetLen dst = some dst'
    ∧ Holds dst' n ((s.append (spaces (targetLen.toNat - s.length))).truncate (n - 1))
  := by
  obtain ⟨dst', happend, hholds⟩ := append_spec hn (spaces (targetLen.toNat - s.length)) h
  refine ⟨dst', ?_, hholds⟩
  rw [padSpaces, hn, findEnd_eq h (Nat.zero_le _) (by
    have hlt := h.length_lt
    omega), Option.bind_eq_bind, Option.bind_some, padLoop_eq]
  exact happend

/-! ### The calls -/

/-- The digits of `uint_cat` are the decimal numeral. -/
theorem ofBytes_uintDigits (val : UInt32) :
  CString.ofBytes (uintDigits val) = decimal val
  := by
  have hdigits : uintDigits val = (decimal val).bytes := by
    have hdigit : ∀ d ∈ Numeral.numeral 10 val.toNat, UInt8.ofNat (48 + d) = digit d := by
      intro d hd
      rw [digit, if_pos (Numeral.lt_of_mem_numeral (by decide) hd)]
    show uintDigits val = (Numeral.numeral 10 val.toNat).map digit
    rw [uintDigits, ← List.map_congr_left hdigit]
    by_cases hzero : val = 0
    · rw [if_pos hzero, hzero]
      rfl
    · have hne : val.toNat ≠ 0 := fun h => hzero (UInt32.toNat_inj.mp h)
      have hlt : val.toNat < 10 ^ 16 := val.toNat_lt.trans (by decide)
      rw [if_neg hzero, Numeral.numeral_eq_remainders (by decide) hlt hne]
  rw [hdigits, CString.ofBytes_bytes]

/-- The characters of `hex_cat` are the two digits. -/
theorem ofBytes_hexChars (byte : UInt8) :
  CString.ofBytes [hexChars.getD (byte >>> 4 &&& 0x0F).toNat 0, hexChars.getD (byte &&& 0x0F).toNat 0]
    = hex byte
  := by
  have hlt := byte.toNat_lt
  have hchars : ∀ d < 16, hexChars.getD d 0 = digit d := by decide
  have hlow : (byte &&& 0x0F).toNat = byte.toNat % 16 := by
    rw [UInt8.toNat_and]
    exact Nat.and_two_pow_sub_one_eq_mod byte.toNat 4
  have hhigh : (byte >>> 4 &&& 0x0F).toNat = byte.toNat / 16 := by
    have hmask := Nat.and_two_pow_sub_one_eq_mod (byte.toNat / 2 ^ 4) 4
    rw [UInt8.toNat_and, UInt8.toNat_shiftRight]
    show byte.toNat >>> 4 &&& 15 = _
    rw [Nat.shiftRight_eq_div_pow]
    exact hmask.trans (Nat.mod_eq_of_lt (by omega))
  rw [hlow, hhigh, hchars _ (by omega), hchars _ (by omega)]
  exact CString.ofBytes_bytes (hex byte)

/-- A call adds its rendering, as much as there is room for. -/
theorem exec_spec {n : Nat} {maxLen : UInt32} (hn : maxLen.toNat = n) (c : Call) {s : CString}
    {dst : Nat → UInt8} (h : Holds dst n s) :
  ∃ dst', c.exec n maxLen dst = some dst' ∧ Holds dst' n ((s.append (c.render s.length)).truncate (n - 1))
  := by
  cases c with
  | strCat src | sockStrCat src => exact strCat_spec hn src h
  | uintCat val | sockUintCat val =>
      rw [Call.render, ← ofBytes_uintDigits]
      exact strCat_spec hn _ h
  | hexCat byte =>
      rw [Call.render, ← ofBytes_hexChars]
      exact strCat_spec hn _ h
  | padSpaces targetLen | sockPadSpaces targetLen => exact padSpaces_spec hn targetLen h

/-- What a call adds to a string that is cut already. -/
theorem truncate_render (c : Call) (s : CString) (k : Nat) :
  ((s.truncate k).append (c.render (s.truncate k).length)).truncate k
    = (s.append (c.render s.length)).truncate k
  := by
  by_cases h : s.bytes.length ≤ k
  · rw [CString.truncate_of_length_le h]
  · ext1
    have hle : k ≤ s.bytes.length := Nat.le_of_not_le h
    rw [CString.bytes_truncate, CString.bytes_truncate, CString.bytes_append, CString.bytes_append,
      List.take_append_of_le_length hle, CString.bytes_truncate,
      List.take_append_of_le_length (List.length_take_of_le hle).ge, List.take_take, Nat.min_self]

theorem run_spec {n : Nat} {maxLen : UInt32} (hn : maxLen.toNat = n) (cs : List Call) {s : CString}
    {dst : Nat → UInt8} (h : Holds dst n (s.truncate (n - 1))) :
  ∃ dst', run n maxLen cs dst = some dst' ∧ Holds dst' n ((build cs s).truncate (n - 1))
  := by
  induction cs generalizing s dst with
  | nil => exact ⟨dst, rfl, h⟩
  | cons c cs ih =>
      obtain ⟨dst₁, hexec, hholds⟩ := exec_spec hn c h
      rw [truncate_render] at hholds
      obtain ⟨dst', hrun, hholds'⟩ := ih hholds
      refine ⟨dst', ?_, hholds'⟩
      rw [run, hexec, Option.bind_some, hrun]

/-- Any calls on a buffer that starts with the empty string leave what they build, cut to the size of the
buffer less one, with its terminating zero. -/
theorem holds_run (maxLen : UInt32) (h : 1 ≤ maxLen) (cs : List Call) (dst : Nat → UInt8) (hempty : dst 0 = 0) :
  ∃ dst', run maxLen.toNat maxLen cs dst = some dst'
    ∧ Holds dst' maxLen.toNat ((build cs .empty).truncate (maxLen.toNat - 1))
  := by
  apply run_spec rfl
  have hpos : 1 ≤ maxLen.toNat := UInt32.le_iff_toNat_le.mp h
  have hnil : CString.empty.truncate (maxLen.toNat - 1) = .empty :=
    CString.truncate_of_length_le (Nat.zero_le _)
  rw [hnil]
  exact ⟨hpos, nofun, hempty⟩

theorem holds_run_ports :
  ∃ dst', run (16 : UInt32).toNat 16 [.strCat (.ofBytes [58]), .uintCat 4294967295, .padSpaces 14, .hexCat 0xA7]
      (fun _ => 0) = some dst'
    ∧ Holds dst' (16 : UInt32).toNat ((build [.strCat (.ofBytes [58]), .uintCat 4294967295, .padSpaces 14,
      .hexCat 0xA7] .empty).truncate ((16 : UInt32).toNat - 1))
  := holds_run 16 (by decide) _ _ rfl

end NetString
