import Woos.Lib.CString
import Woos.Lib.Codes
import Woos.Lib.Shift
import Woos.Text.Utf8

/-!
# The characters of a text in UTF-8

UTF-8 is a code with lead bytes: the words are what `utf8_encode_codepoint` stores for a scalar value,
the lead byte tells the length as `utf8_charlen` reads it, and the bytes that continue a word are those
that the editors test with `(c & 0xC0) == 0x80`.
-/

namespace Utf8

/-- A character of a C string: a scalar value other than NUL. -/
structure Scalar where
  cp : UInt32
  pos : 1 ≤ cp.toNat
  le : cp.toNat ≤ 0x10FFFF
  not_surrogate : ¬ (0xD800 ≤ cp.toNat ∧ cp.toNat ≤ 0xDFFF)

/-- A byte that continues a character. -/
def IsCont (b : UInt8) : Prop := b &&& 0xC0 = 0x80

instance : DecidablePred IsCont := fun b => inferInstanceAs (Decidable (b &&& 0xC0 = 0x80))

theorem isCont_iff (b : UInt8) :
  IsCont b ↔ b.toNat / 64 = 2
  := by
  have hall : ∀ n : Fin 256, (UInt8.ofNat n &&& 0xC0 = 0x80 ↔ n.val / 64 = 2) := by decide +kernel
  have hb := hall ⟨b.toNat, b.toNat_lt⟩
  rwa [UInt8.ofNat_toNat] at hb

/-! ### Words -/

theorem width_one {b : UInt8} (h : b.toNat < 128) :
  width b = 1
  := if_pos h

theorem width_two {b : UInt8} (h : b.toNat / 32 = 6) :
  width b = 2
  := by
  have hascii : ¬ b < 0x80 := by
    rw [UInt8.lt_iff_toNat_lt]
    change ¬ b.toNat < 128
    omega
  rw [width, if_neg hascii, if_pos ((and_byte_iff b).1.mpr h)]

theorem width_three {b : UInt8} (h : b.toNat / 16 = 14) :
  width b = 3
  := by
  have hascii : ¬ b < 0x80 := by
    rw [UInt8.lt_iff_toNat_lt]
    change ¬ b.toNat < 128
    omega
  have htwo : ¬ b &&& 0xE0 = 0xC0 := by
    rw [(and_byte_iff b).1]
    omega
  rw [width, if_neg hascii, if_neg htwo, if_pos ((and_byte_iff b).2.1.mpr h)]

theorem width_four {b : UInt8} (h : b.toNat / 8 = 30) :
  width b = 4
  := by
  have hascii : ¬ b < 0x80 := by
    rw [UInt8.lt_iff_toNat_lt]
    change ¬ b.toNat < 128
    omega
  have htwo : ¬ b &&& 0xE0 = 0xC0 := by
    rw [(and_byte_iff b).1]
    omega
  have hthree : ¬ b &&& 0xF0 = 0xE0 := by
    rw [(and_byte_iff b).2.1]
    omega
  rw [width, if_neg hascii, if_neg htwo, if_neg hthree, if_pos ((and_byte_iff b).2.2.mpr h)]

theorem tagged_isCont (cp : UInt32) {k : Nat} (hk : k < 32) :
  IsCont (tagged 0x80 (cp >>> UInt32.ofNat k) 0x3F)
  := by
  rw [isCont_iff, continuation_toNat cp hk]
  omega

theorem tagged_low_isCont (cp : UInt32) :
  IsCont (tagged 0x80 cp 0x3F)
  := by
  rw [isCont_iff, tagged_low_toNat]
  omega

/-- The lead byte of a character, and the bytes that continue it. -/
theorem encode_word (c : Scalar) :
  ∃ lead rest, encodeCodepoint c.cp = lead :: rest ∧ ¬ IsCont lead ∧ (∀ b ∈ rest, IsCont b)
    ∧ width lead = (encodeCodepoint c.cp).length ∧ lead ≠ 0
  := by
  have hlow := tagged_low_isCont c.cp
  rw [encodeCodepoint]
  simp only [UInt32.le_iff_toNat_le]
  split_ifs with hone htwo hthree hfour
  · have hcp : c.cp.toNat < 128 := Nat.lt_succ_of_le hone
    have hpos := c.pos
    have hvalue : c.cp.toUInt8.toNat = c.cp.toNat := by
      rw [UInt32.toNat_toUInt8]
      exact Nat.mod_eq_of_lt (hcp.trans (by decide))
    refine ⟨_, [], rfl, ?_, fun b hb => absurd hb List.not_mem_nil, width_one ?_,
      ne_zero_of_toNat ?_⟩
    · rw [isCont_iff]
      omega
    · omega
    · omega
  · have hcp : c.cp.toNat < 2048 := Nat.lt_succ_of_le htwo
    have hlead : (tagged 0xC0 (c.cp >>> 6) 0x1F).toNat = 192 + c.cp.toNat / 2 ^ 6 % 2 ^ 5 :=
      @tagged_toNat 0xC0 0x1F 5 6 c.cp (by decide) rfl rfl (by decide)
    refine ⟨_, _, rfl, ?_, ?_, width_two ?_, ne_zero_of_toNat ?_⟩
    · rw [isCont_iff, hlead]
      omega
    · simpa using hlow
    · rw [hlead]
      omega
    · rw [hlead]
      omega
  · have hcp : c.cp.toNat < 65536 := Nat.lt_succ_of_le hthree
    have hlead : (tagged 0xE0 (c.cp >>> 12) 0x0F).toNat = 224 + c.cp.toNat / 2 ^ 12 % 2 ^ 4 :=
      @tagged_toNat 0xE0 0x0F 4 12 c.cp (by decide) rfl rfl (by decide)
    refine ⟨_, _, rfl, ?_, ?_, width_three ?_, ne_zero_of_toNat ?_⟩
    · rw [isCont_iff, hlead]
      omega
    · simpa using ⟨tagged_isCont c.cp (show 6 < 32 by decide), hlow⟩
    · rw [hlead]
      omega
    · rw [hlead]
      omega
  · have hlead : (tagged 0xF0 (c.cp >>> 18) 0x07).toNat = 240 + c.cp.toNat / 2 ^ 18 % 2 ^ 3 :=
      @tagged_toNat 0xF0 0x07 3 18 c.cp (by decide) rfl rfl (by decide)
    refine ⟨_, _, rfl, ?_, ?_, width_four ?_, ne_zero_of_toNat ?_⟩
    · rw [isCont_iff, hlead]
      omega
    · simpa using ⟨tagged_isCont c.cp (show 12 < 32 by decide),
        tagged_isCont c.cp (show 6 < 32 by decide), hlow⟩
    · rw [hlead]
      omega
    · rw [hlead]
      omega
  · exact absurd c.le hfour

/-- UTF-8. -/
def code : Code Scalar UInt8 where
  word c := encodeCodepoint c.cp
  width := width
  cont := IsCont
  word_eq c := by
    obtain ⟨lead, rest, hword, hlead, hrest, hwidth, -⟩ := encode_word c
    exact ⟨lead, rest, hword, hlead, hrest, hwidth⟩

theorem isCont_ne_zero {b : UInt8} (h : IsCont b) :
  b ≠ 0
  := by
  rintro rfl
  exact absurd h (by decide)

theorem text_ne_zero (cs : List Scalar) :
  ∀ b ∈ code.text cs, b ≠ 0
  := by
  intro b hb
  obtain ⟨c, -, hc⟩ := List.mem_flatMap.mp hb
  obtain ⟨lead, rest, hword, -, hrest, -, hlead⟩ := encode_word c
  have hmem : b ∈ lead :: rest := by
    rw [← hword]
    exact hc
  rcases List.mem_cons.mp hmem with rfl | hb
  · exact hlead
  · exact isCont_ne_zero (hrest b hb)

/-- The lead bytes of characters of two bytes. -/
theorem width_eq_two_iff (b : UInt8) :
  width b = 2 ↔ b &&& 0xE0 = 0xC0
  := by
  have hall : ∀ n < 256, width (UInt8.ofNat n) = 2 ↔ UInt8.ofNat n &&& 0xE0 = 0xC0 := by
    decide +kernel
  have hb := hall b.toNat b.toNat_lt
  rwa [UInt8.ofNat_toNat] at hb

/-! ### Characters that are typed -/

/-- The bytes that the editors make of a Cyrillic code. -/
def cyrillic (ascii : Int) : List UInt8 :=
  let code := UInt32.ofNat ascii.toNat
  [tagged 0xC0 (code >>> 6) 0x1F, tagged 0x80 code 0x3F]

theorem exists_ascii {ascii : Int} (hle : 32 ≤ ascii) (hle' : ascii ≤ 126) :
  ∃ c, code.word c = [UInt8.ofNat ascii.toNat]
  := by
  have hvalue : (UInt32.ofNat ascii.toNat).toNat = ascii.toNat := by
    rw [UInt32.toNat_ofNat']
    omega
  refine ⟨⟨UInt32.ofNat ascii.toNat, by omega, by omega, by omega⟩, ?_⟩
  have hascii : UInt32.ofNat ascii.toNat ≤ 0x7F := by
    rw [UInt32.le_iff_toNat_le, hvalue]
    change ascii.toNat ≤ 127
    omega
  change encodeCodepoint _ = _
  rw [encodeCodepoint, if_pos hascii]
  congr 1
  apply UInt8.toNat_inj.mp
  rw [UInt32.toNat_toUInt8, hvalue, UInt8.toNat_ofNat']

theorem exists_cyrillic {ascii : Int} (hle : 0x0400 ≤ ascii) (hle' : ascii ≤ 0x04FF) :
  ∃ c, code.word c = cyrillic ascii
  := by
  have hvalue : (UInt32.ofNat ascii.toNat).toNat = ascii.toNat := by
    rw [UInt32.toNat_ofNat']
    omega
  refine ⟨⟨UInt32.ofNat ascii.toNat, by omega, by omega, by omega⟩, ?_⟩
  have hascii : ¬ UInt32.ofNat ascii.toNat ≤ 0x7F := by
    rw [UInt32.le_iff_toNat_le, hvalue]
    change ¬ ascii.toNat ≤ 127
    omega
  have htwo : UInt32.ofNat ascii.toNat ≤ 0x7FF := by
    rw [UInt32.le_iff_toNat_le, hvalue]
    change ascii.toNat ≤ 2047
    omega
  change encodeCodepoint _ = _
  rw [encodeCodepoint, if_neg hascii, if_pos htwo]
  rfl

/-! ### A text in a buffer, with a cursor -/

/-- The length of a string is that of the bytes before its NUL. -/
theorem strlen_entries {a : Nat → UInt8} {bytes : List UInt8} (hbytes : ∀ b ∈ bytes, b ≠ 0)
    (h : Shift.entries a (bytes.length + 1) = bytes ++ [0]) {n : Nat} (hn : bytes.length < n) :
  (CString.ofBytes (Shift.entries a n)).length = bytes.length
  := by
  have hcut : n = bytes.length + 1 + (n - (bytes.length + 1)) := by omega
  rw [hcut, Shift.entries_add, h, List.append_assoc]
  change (List.takeWhile (fun b => b != 0) _).length = bytes.length
  rw [List.takeWhile_append_of_pos (fun b hb => bne_iff_ne.mpr (hbytes b hb)), List.singleton_append,
    List.takeWhile_cons_of_neg (by decide), List.append_nil]

/-- The buffer holds the characters before the cursor, those after it, and a NUL. -/
structure Cursor (a : Nat → UInt8) (len cursor : Nat) (before after : List Scalar) : Prop where
  entries : Shift.entries a (len + 1) = code.text before ++ code.text after ++ [0]
  cursor : cursor = (code.text before).length

namespace Cursor

variable {a : Nat → UInt8} {len cursor : Nat} {before after : List Scalar} {c : Scalar}

theorem len_eq (h : Cursor a len cursor before after) :
  len = cursor + (code.text after).length
  := by
  have hlength := congrArg List.length h.entries
  rw [Shift.length_entries, List.length_append, List.length_append, List.length_singleton,
    ← h.cursor] at hlength
  omega

/-- A part of the text in the buffer. -/
theorem getElem (h : Cursor a len cursor before after) {u w v : List UInt8}
    (htext : code.text before ++ code.text after ++ [0] = u ++ w ++ v) {i : Nat} (hi : i < w.length) :
  w[i]? = some (a (u.length + i))
  := by
  have hentries := h.entries
  have hlength := congrArg List.length hentries
  rw [htext] at hentries hlength
  rw [Shift.length_entries] at hlength
  rw [hlength, Shift.entries_eq_iff] at hentries
  have hentry := hentries (u.length + i) (by rw [List.length_append, List.length_append]; omega)
  rw [List.append_assoc, List.getElem?_append_right (by omega), Nat.add_sub_cancel_left,
    List.getElem?_append_left hi] at hentry
  exact hentry

/-- What lies before and behind the cursor is determined by the buffer. -/
theorem split (h : Cursor a len cursor before after) {u v : List UInt8}
    (hentries : Shift.entries a (len + 1) = u ++ v ++ [0]) (hu : u.length = cursor) :
  code.text before = u ∧ code.text after = v
  := by
  rw [h.entries, List.append_assoc, List.append_assoc] at hentries
  obtain ⟨hbefore, hrest⟩ := List.append_inj hentries (h.cursor.symm.trans hu.symm)
  exact ⟨hbefore, List.append_cancel_right hrest⟩

/-! #### Moving the cursor -/

theorem left (h : Cursor a len cursor (before ++ [c]) after) :
  Cursor a len (cursor - (code.word c).length) before (c :: after)
  := by
  constructor
  · rw [h.entries, Code.text_concat, Code.text_cons]
    simp only [List.append_assoc]
  · have hcursor := h.cursor
    rw [Code.text_concat, List.length_append] at hcursor
    omega

theorem right (h : Cursor a len cursor before (c :: after)) :
  Cursor a len (cursor + (code.word c).length) (before ++ [c]) after
  := by
  constructor
  · rw [h.entries, Code.text_concat, Code.text_cons]
    simp only [List.append_assoc]
  · rw [Code.text_concat, List.length_append, h.cursor]

theorem home (h : Cursor a len cursor before after) :
  Cursor a len 0 [] (before ++ after)
  := by
  constructor
  · rw [h.entries, Code.text_append]
    rfl
  · rfl

theorem last (h : Cursor a len cursor before after) :
  Cursor a len len (before ++ after) []
  := by
  constructor
  · rw [h.entries, Code.text_append, Code.text_nil, List.append_nil]
  · rw [Code.text_append, List.length_append, ← h.cursor, h.len_eq]

/-! #### Bytes at the cursor -/

/-- The byte at the cursor leads the character there. -/
theorem lead (h : Cursor a len cursor before (c :: after)) :
  ¬ IsCont (a cursor) ∧ width (a cursor) = (code.word c).length
  := by
  obtain ⟨b, rest, hword, hlead, -, hwidth⟩ := code.word_eq c
  have htext : code.text before ++ code.text (c :: after) ++ [0]
      = code.text before ++ code.word c ++ (code.text after ++ [0]) := by
    rw [Code.text_cons]
    simp only [List.append_assoc]
  have hfirst := h.getElem htext (code.length_word_pos c)
  rw [Nat.add_zero, ← h.cursor, hword] at hfirst
  rw [← Option.some.inj hfirst]
  exact ⟨hlead, hwidth⟩

/-- The bytes behind it continue the character. -/
theorem continues (h : Cursor a len cursor before (c :: after)) {i : Nat} (hpos : 0 < i)
    (hi : i < (code.word c).length) :
  IsCont (a (cursor + i))
  := by
  obtain ⟨b, rest, hword, -, hrest, -⟩ := code.word_eq c
  have htext : code.text before ++ code.text (c :: after) ++ [0]
      = code.text before ++ code.word c ++ (code.text after ++ [0]) := by
    rw [Code.text_cons]
    simp only [List.append_assoc]
  have hbyte := h.getElem htext hi
  rw [← h.cursor, hword] at hbyte
  obtain ⟨j, rfl⟩ := Nat.exists_eq_succ_of_ne_zero (Nat.ne_of_gt hpos)
  exact hrest _ (List.mem_of_getElem? hbyte)

/-- The NUL behind the text. -/
theorem terminator (h : Cursor a len cursor before after) :
  a len = 0
  := by
  have hentries := h.last.entries
  rw [Shift.entries_succ, Code.text_nil, List.append_nil] at hentries
  exact List.singleton_inj.mp (List.append_inj' hentries rfl).2

/-- The byte at the cursor continues no character. -/
theorem not_isCont (h : Cursor a len cursor before after) :
  ¬ IsCont (a cursor)
  := by
  cases after with
  | nil =>
      have hlen := h.len_eq
      rw [Code.text_nil, List.length_nil, Nat.add_zero] at hlen
      rw [← hlen, h.terminator]
      decide
  | cons c after => exact h.lead.1

/-- There is a character in front of the cursor when it is not at the start. -/
theorem exists_before (h : Cursor a len cursor before after) (hpos : 0 < cursor) :
  ∃ cs c, before = cs ++ [c]
  := by
  rcases List.eq_nil_or_concat' before with rfl | ⟨cs, c, rfl⟩
  · rw [h.cursor] at hpos
    exact absurd hpos (Nat.lt_irrefl 0)
  · exact ⟨cs, c, rfl⟩

/-- There is a character at the cursor when it is not at the end. -/
theorem exists_after (h : Cursor a len cursor before after) (hlt : cursor < len) :
  ∃ c cs, after = c :: cs
  := by
  cases after with
  | nil =>
      have hlen := h.len_eq
      rw [Code.text_nil, List.length_nil] at hlen
      omega
  | cons c cs => exact ⟨c, cs, rfl⟩

theorem length_le_cursor (h : Cursor a len cursor (before ++ [c]) after) :
  (code.word c).length ≤ cursor
  := by
  rw [h.cursor, Code.text_concat, List.length_append]
  exact Nat.le_add_left _ _

theorem cursor_add_le (h : Cursor a len cursor before (c :: after)) :
  cursor + (code.word c).length ≤ len
  := by
  rw [h.len_eq, Code.text_cons, List.length_append]
  omega

/-- The bytes in front of the cursor continue a character up to its lead byte. -/
theorem isCont_back (h : Cursor a len cursor (before ++ [c]) after) {k : Nat} (hpos : 0 < k)
    (hk : k ≤ (code.word c).length) :
  IsCont (a (cursor - k)) ↔ k < (code.word c).length
  := by
  have hle := h.length_le_cursor
  rcases Nat.eq_or_lt_of_le hk with hend | hlt
  · rw [hend]
    exact iff_of_false h.left.lead.1 (Nat.lt_irrefl _)
  · have hindex : cursor - k = cursor - (code.word c).length + ((code.word c).length - k) := by omega
    rw [hindex]
    exact iff_of_true (h.left.continues (by omega) (by omega)) hlt

/-- The bytes behind the cursor continue a character up to the next one. -/
theorem isCont_forward (h : Cursor a len cursor before (c :: after)) {k : Nat} (hpos : 0 < k)
    (hk : k ≤ (code.word c).length) :
  IsCont (a (cursor + k)) ↔ k < (code.word c).length
  := by
  rcases Nat.eq_or_lt_of_le hk with hend | hlt
  · rw [hend]
    exact iff_of_false h.right.not_isCont (Nat.lt_irrefl _)
  · exact iff_of_true (h.continues hpos hlt) hlt

/-- The test of the editors for a character of two bytes or more in front of the cursor. -/
theorem isCont_before_iff (h : Cursor a len cursor (before ++ [c]) after) :
  2 ≤ cursor ∧ IsCont (a (cursor - 1)) ↔ 2 ≤ (code.word c).length
  := by
  have hle := h.length_le_cursor
  rw [h.isCont_back Nat.one_pos (code.length_word_pos c)]
  omega

/-- The test of the editors for a character of two bytes or more at the cursor. -/
theorem isCont_after_iff (h : Cursor a len cursor before (c :: after)) :
  cursor + 1 < len ∧ IsCont (a (cursor + 1)) ↔ 2 ≤ (code.word c).length
  := by
  have hle := h.cursor_add_le
  rw [h.isCont_forward Nat.one_pos (code.length_word_pos c)]
  omega

/-- The byte at the cursor leads a character of two bytes. -/
theorem lead_two_iff (h : Cursor a len cursor before (c :: after)) :
  cursor + 1 < len ∧ a cursor &&& 0xE0 = 0xC0 ↔ (code.word c).length = 2
  := by
  have hle := h.cursor_add_le
  rw [← width_eq_two_iff, h.lead.2]
  constructor
  · exact fun htwo => htwo.2
  · intro htwo
    exact ⟨by omega, htwo⟩

/-- The length of the string in the buffer. -/
theorem strlen (h : Cursor a len cursor before after) {n : Nat} (hn : len < n) :
  (CString.ofBytes (Shift.entries a n)).length = len
  := by
  have htext := h.home
  have hlength : (code.text (before ++ after)).length = len := by
    have hlen := htext.len_eq
    omega
  rw [← hlength] at hn ⊢
  apply strlen_entries (text_ne_zero _) _ hn
  rw [hlength]
  exact htext.entries

/-! #### Editing the text -/

theorem delete (h : Cursor a len cursor before (c :: after)) :
  Cursor (Shift.closeGap a cursor (code.word c).length len) (len - (code.word c).length) cursor before
    after
  := by
  have hpos := code.length_word_pos c
  have hlen := h.len_eq
  rw [Code.text_cons, List.length_append] at hlen
  have hentries := h.entries
  rw [Code.text_cons, List.append_assoc, List.append_assoc, ← List.append_assoc] at hentries
  have hlength : (code.text before ++ code.word c ++ (code.text after ++ [0])).length = len + 1 := by
    rw [← hentries, Shift.length_entries]
  have hclose := Shift.entries_closeGap (List.length_pos_iff.mp hpos) hlength hentries
  have hsize : (code.text before ++ (code.text after ++ [0])).length
      = len - (code.word c).length + 1 := by
    rw [List.length_append, List.length_append, List.length_singleton, ← h.cursor]
    omega
  rw [hsize, ← h.cursor, ← List.append_assoc] at hclose
  exact ⟨hclose, h.cursor⟩

/-- Only the last bytes of a character are deleted. -/
theorem entries_cut (h : Cursor a len cursor (before ++ [c]) after) {part d : List UInt8}
    (hword : code.word c = part ++ d) (hd : d ≠ []) :
  Shift.entries (Shift.closeGap a (cursor - d.length) d.length len) (len - d.length + 1)
      = code.text before ++ part ++ code.text after ++ [0]
    ∧ (code.text before ++ part).length = cursor - d.length
  := by
  have hentries := h.entries
  rw [Code.text_concat, hword, ← List.append_assoc, List.append_assoc _ _ [0]] at hentries
  have hlength : (code.text before ++ part ++ d ++ (code.text after ++ [0])).length = len + 1 := by
    rw [← hentries, Shift.length_entries]
  have hclose := Shift.entries_closeGap hd hlength hentries
  have hcursor := h.cursor
  rw [Code.text_concat, hword, ← List.append_assoc, List.length_append] at hcursor
  have hpart : (code.text before ++ part).length = cursor - d.length := by omega
  have hsize : (code.text before ++ part ++ (code.text after ++ [0])).length
      = len - d.length + 1 := by
    simp only [List.length_append, List.length_singleton] at hlength ⊢
    omega
  rw [hsize, hpart, ← List.append_assoc] at hclose
  exact ⟨hclose, hpart⟩

/-- Only the first bytes of a character are deleted. -/
theorem entries_behead (h : Cursor a len cursor before (c :: after)) {d rest : List UInt8}
    (hword : code.word c = d ++ rest) (hd : d ≠ []) :
  Shift.entries (Shift.closeGap a cursor d.length len) (len - d.length + 1)
    = code.text before ++ (rest ++ code.text after) ++ [0]
  := by
  have hentries := h.entries
  have hassoc : code.text before ++ code.text (c :: after) ++ [0]
      = code.text before ++ d ++ (rest ++ code.text after ++ [0]) := by
    rw [Code.text_cons, hword]
    simp only [List.append_assoc]
  rw [hassoc] at hentries
  have hlength : (code.text before ++ d ++ (rest ++ code.text after ++ [0])).length = len + 1 := by
    rw [← hentries, Shift.length_entries]
  have hclose := Shift.entries_closeGap hd hlength hentries
  have hsize : (code.text before ++ (rest ++ code.text after ++ [0])).length
      = len - d.length + 1 := by
    simp only [List.length_append, List.length_singleton] at hlength ⊢
    omega
  rw [hsize, ← h.cursor, ← List.append_assoc] at hclose
  exact hclose

theorem backspace (h : Cursor a len cursor (before ++ [c]) after) :
  Cursor (Shift.closeGap a (cursor - (code.word c).length) (code.word c).length len)
    (len - (code.word c).length) (cursor - (code.word c).length) before after
  := h.left.delete

theorem insert (h : Cursor a len cursor before after) {w : List UInt8} (hw : code.word c = w) :
  Cursor (Shift.copy (Shift.openGap a cursor w.length len) cursor w) (len + w.length)
    (cursor + w.length) (before ++ [c]) after
  := by
  have hentries := h.entries
  rw [List.append_assoc] at hentries
  have hlength : (code.text before ++ (code.text after ++ [0])).length = len + 1 := by
    rw [← hentries, Shift.length_entries]
  have hopen := Shift.entries_openGap w hlength hentries
  have hsize : (code.text before ++ w ++ (code.text after ++ [0])).length = len + w.length + 1 := by
    simp only [List.length_append, List.length_singleton] at hlength ⊢
    omega
  rw [hsize, ← h.cursor, ← List.append_assoc] at hopen
  constructor
  · rw [hopen, Code.text_concat, hw]
  · rw [Code.text_concat, hw, List.length_append, h.cursor]

/-! #### Cuts inside a character -/

/-- Inside the character before the cursor there is no boundary. -/
theorem not_left (h : Cursor a len cursor (before ++ [c]) after) {n : Nat} (hpos : 0 < n)
    (hn : n < (code.word c).length) (before' after' : List Scalar) :
  ¬ Cursor a len (cursor - n) before' after'
  := by
  obtain ⟨part, rest, hword, hpart, hrest, hlength, -⟩ :=
    @Code.exists_parts _ _ code c ((code.word c).length - n) (by omega) (by omega)
  intro hcursor
  have hentries := h.left.entries
  have hassoc : code.text before ++ code.text (c :: after) ++ [0]
      = code.text before ++ part ++ (rest ++ code.text after) ++ [0] := by
    rw [Code.text_cons, hword]
    simp only [List.append_assoc]
  rw [hassoc] at hentries
  have hle := h.length_le_cursor
  have hbefore := h.left.cursor
  have hsplit := hcursor.split hentries (by rw [List.length_append]; omega)
  exact Code.not_cut hword hpart hrest hsplit.1

/-- Inside the character at the cursor there is no boundary. -/
theorem not_right (h : Cursor a len cursor before (c :: after)) {n : Nat} (hpos : 0 < n)
    (hn : n < (code.word c).length) (before' after' : List Scalar) :
  ¬ Cursor a len (cursor + n) before' after'
  := by
  obtain ⟨part, rest, hword, hpart, hrest, hlength, -⟩ := Code.exists_parts hpos hn
  intro hcursor
  have hentries := h.entries
  have hassoc : code.text before ++ code.text (c :: after) ++ [0]
      = code.text before ++ part ++ (rest ++ code.text after) ++ [0] := by
    rw [Code.text_cons, hword]
    simp only [List.append_assoc]
  rw [hassoc] at hentries
  have hsplit := hcursor.split hentries (by rw [List.length_append, h.cursor, hlength])
  exact Code.not_cut hword hpart hrest hsplit.1

/-- Without its last bytes the character before the cursor is none. -/
theorem not_backspace (h : Cursor a len cursor (before ++ [c]) after) {n : Nat} (hpos : 0 < n)
    (hn : n < (code.word c).length) (before' after' : List Scalar) :
  ¬ Cursor (Shift.closeGap a (cursor - n) n len) (len - n) (cursor - n) before' after'
  := by
  obtain ⟨part, rest, hword, hpart, hrest, -, hlength⟩ :=
    @Code.exists_parts _ _ code c ((code.word c).length - n) (by omega) (by omega)
  intro hcursor
  have hn : rest.length = n := by omega
  obtain ⟨hentries, hsize⟩ := h.entries_cut hword hrest
  rw [hn] at hentries hsize
  exact Code.not_cut hword hpart hrest (hcursor.split hentries hsize).1

/-- Without its first bytes the character at the cursor is none. -/
theorem not_delete (h : Cursor a len cursor before (c :: after)) {n : Nat} (hpos : 0 < n)
    (hn : n < (code.word c).length) (before' after' : List Scalar) :
  ¬ Cursor (Shift.closeGap a cursor n len) (len - n) cursor before' after'
  := by
  obtain ⟨part, rest, hword, hpart, hrest, hlength, -⟩ := Code.exists_parts hpos hn
  intro hcursor
  have hentries := h.entries_behead hword hpart
  rw [hlength] at hentries
  have htext := (hcursor.split hentries h.cursor.symm).2
  -- what is left of the character begins with a byte that continues it
  obtain ⟨b, rest, rfl⟩ := List.exists_cons_of_ne_nil hrest
  obtain ⟨lead, tail, hlead, -, hcont, -⟩ := code.word_eq c
  obtain ⟨first, part, rfl⟩ := List.exists_cons_of_ne_nil hpart
  have htail : tail = part ++ b :: rest := by
    rw [hlead] at hword
    exact (List.cons.inj hword).2
  have hb : code.cont b := by
    apply hcont
    rw [htail]
    exact List.mem_append_right _ List.mem_cons_self
  exact Code.not_text_cont hb _ _ htext.symm

/-- The boundaries are the places of the bytes that continue no character. -/
theorem boundary_iff (h : Cursor a len cursor before after) {i : Nat} (hi : i ≤ len) :
  (∃ before' after', Cursor a len i before' after') ↔ ¬ IsCont (a i)
  := by
  constructor
  · rintro ⟨before', after', hcursor⟩
    exact hcursor.not_isCont
  · intro hlead
    have htext := h.home
    have hlen := htext.len_eq
    rw [Nat.zero_add] at hlen
    rw [hlen] at hi
    rcases Code.boundary_or_inside _ hi with
      ⟨before', after', hcs, hposition⟩ | ⟨before', c, after', n, hcs, hpos, hn, hposition⟩
    · refine ⟨before', after', ?_, hposition⟩
      rw [htext.entries, hcs, Code.text_append]
      rfl
    · have hinside : Cursor a len (code.text before').length before' (c :: after') := by
        refine ⟨?_, rfl⟩
        rw [htext.entries, hcs, Code.text_append]
        rfl
      rw [hposition] at hlead
      exact absurd (hinside.continues hpos hn) hlead

end Cursor

end Utf8
