import Woos.Notepad.Editing
import Woos.Ps2.Keyboard

/-!
# Typing and Backspace

A key of the keyboard that types something, followed by Backspace.  `undone_iff` says when the two
leave the rows and the cursor as they were: always, but for the letter `s` in a document with a name,
which saves it, and a Cyrillic letter in a row that has room for one byte only.
-/

namespace Notepad

namespace Editor

/-- The keyboard, with Ctrl up, sends an event that types something: Enter, a printable character or a
Cyrillic letter. -/
structure Types (k : Keyboard) (sc : UInt8) (ev : InputEvent) : Prop where
  ctrl : k.ctrl = false
  sent : (k.handleScancode sc).2 = some ev
  inserts : ev.x = 10 ∨ (32 ≤ ev.x ∧ ev.x ≤ 126) ∨ (0x0400 ≤ ev.x ∧ ev.x ≤ 0x04FF)

/-- A key, and then Backspace. -/
def undone (e : Editor) (ascii scancode : Int) (disk disk' : Disk) : Option Editor :=
  (e.handleKey ascii scancode disk).bind (fun e => e.handleKey 8 0x0E disk')

/-- No dialog is open, and neither the row of the cursor nor the document is full. -/
structure Room (e : Editor) : Prop where
  closed : e.dialog.active = false
  row_lt : (e.doc.rows e.cy).len < maxCols - 2
  rows_lt : e.doc.numRows < maxRows - 1

/-- The rows, their number and the cursor are those of the other state. -/
structure Restored (e e' : Editor) : Prop where
  lines_eq : e'.doc.lines = e.doc.lines
  numRows_eq : e'.doc.numRows = e.doc.numRows
  cy_eq : e'.cy = e.cy
  cx_eq : e'.cx = e.cx

/-- Backspace finds nothing before the cursor that it could remove. -/
def Stuck (e : Editor) : Prop :=
  e.cx = 0 ∧ (e.cy = 0 ∨ maxCols - 1 ≤ (e.doc.rows (e.cy - 1)).len + (e.doc.rows e.cy).len)

/-- The letter `s` needs a document without a name, or one where Backspace does nothing; a Cyrillic letter
needs room for its two bytes. -/
def Undoes (e : Editor) (ascii : UInt16) : Prop :=
  if ascii = 115 then e.isUntitled = true ∨ e.Stuck
  else if 0x0400 ≤ ascii then (e.doc.rows e.cy).len < maxCols - 3
  else True

/-! ### The keyboard -/

/-- The key that types a code point. -/
def typedKey (ascii : UInt16) : Key :=
  if ascii = 115 then .save else if ascii = 10 then .enter else if ascii ≤ 126 then .printable else .cyrillic

/-- With Ctrl up the code point is an entry of a table. -/
theorem codepoint_mem {k : Keyboard} (h : k.ctrl = false) (sc : UInt8) :
  ∃ table ∈ [Keyboard.usLower, Keyboard.usUpper, Keyboard.ruLower, Keyboard.ruUpper],
    k.codepoint sc = table.getD sc.toNat 0
  := by
  have hcased (isLetter : Bool) (lower upper : List UInt16) :
      k.cased isLetter (Keyboard.entry lower sc) (Keyboard.entry upper sc) = lower.getD sc.toNat 0
      ∨ k.cased isLetter (Keyboard.entry lower sc) (Keyboard.entry upper sc) = upper.getD sc.toNat 0 := by
    by_cases hupper : (if isLetter then k.shift ^^ k.capsLock else k.shift) = true
    · exact Or.inr (if_pos hupper)
    · exact Or.inl (if_neg hupper)
  rw [Keyboard.codepoint, h, if_neg Bool.false_ne_true]
  dsimp only
  split
  · rcases hcased _ Keyboard.ruLower Keyboard.ruUpper with hentry | hentry
    · exact ⟨_, .tail _ (.tail _ (.head _)), hentry⟩
    · exact ⟨_, .tail _ (.tail _ (.tail _ (.head _))), hentry⟩
  · rcases hcased _ Keyboard.usLower Keyboard.usUpper with hentry | hentry
    · exact ⟨_, .head _, hentry⟩
    · exact ⟨_, .tail _ (.head _), hentry⟩

/-- An event with a code point comes from a key without prefix. -/
theorem event_eq {k : Keyboard} {sc : UInt8} {ev : InputEvent} (hsent : (k.handleScancode sc).2 = some ev)
    (hzero : ev.x ≠ 0) :
  ev.x = k.codepoint sc ∧ ev.y = sc.toUInt16
  := by
  rw [Keyboard.handleScancode] at hsent
  by_cases hE0 : sc = 0xE0
  · rw [if_pos hE0] at hsent
    cases hsent
  rw [if_neg hE0] at hsent
  by_cases hshift : sc = 0x2A ∨ sc = 0x36
  · rw [if_pos hshift] at hsent
    cases hsent
    exact absurd rfl hzero
  rw [if_neg hshift] at hsent
  by_cases hshiftUp : sc = 0xAA ∨ sc = 0xB6
  · rw [if_pos hshiftUp] at hsent
    cases hsent
  rw [if_neg hshiftUp] at hsent
  by_cases halt : sc = 0x38
  · rw [if_pos halt] at hsent
    cases hsent
    exact absurd rfl hzero
  rw [if_neg halt] at hsent
  by_cases haltUp : sc = 0xB8
  · rw [if_pos haltUp] at hsent
    cases hsent
  rw [if_neg haltUp] at hsent
  by_cases hctrl : sc = 0x1D
  · rw [if_pos hctrl] at hsent
    cases hsent
  rw [if_neg hctrl] at hsent
  by_cases hctrlUp : sc = 0x9D
  · rw [if_pos hctrlUp] at hsent
    cases hsent
  rw [if_neg hctrlUp] at hsent
  by_cases hcaps : sc = 0x3A
  · rw [if_pos hcaps] at hsent
    cases hsent
  rw [if_neg hcaps] at hsent
  by_cases hpressed : sc &&& 0x80 = 0
  · rw [if_pos hpressed] at hsent
    have hevent := (Option.ite_none_right_eq_some.mp hsent).2
    by_cases hextended : k.extended
    · rw [if_pos hextended] at hevent
      cases hevent
      exact absurd rfl hzero
    · rw [if_neg hextended] at hevent
      cases hevent
      exact ⟨rfl, rfl⟩
  · rw [if_neg hpressed] at hsent
    cases hsent

/-- The notepad takes an event that types something for the key that types it. -/
theorem keyOf_of_types {k : Keyboard} {sc : UInt8} {ev : InputEvent} (h : Types k sc ev) :
  keyOf ev.x.toNat ev.y.toNat = typedKey ev.x
  := by
  have hzero : ev.x ≠ 0 := by
    intro hx
    have hinserts := h.inserts
    rw [hx] at hinserts
    revert hinserts
    decide
  obtain ⟨hx, hy⟩ := event_eq h.sent hzero
  obtain ⟨table, htable, hcode⟩ := codepoint_mem h.ctrl sc
  have hlength : ∀ table ∈ [Keyboard.usLower, Keyboard.usUpper, Keyboard.ruLower, Keyboard.ruUpper],
      table.length ≤ 68 := by decide
  have hlt : sc.toNat < 68 := by
    by_contra hge
    apply hzero
    rw [hx, hcode, List.getD_eq_default _ _ ((hlength table htable).trans (Nat.le_of_not_lt hge))]
  have hall : ∀ table ∈ [Keyboard.usLower, Keyboard.usUpper, Keyboard.ruLower, Keyboard.ruUpper],
      ∀ sc < 68, (table.getD sc 0 = 10 ∨ (32 ≤ table.getD sc 0 ∧ table.getD sc 0 ≤ 126)
        ∨ (0x0400 ≤ table.getD sc 0 ∧ table.getD sc 0 ≤ 0x04FF)) →
      keyOf (table.getD sc 0).toNat sc = typedKey (table.getD sc 0) := by
    decide +kernel
  have hkey := hall table htable sc.toNat hlt
  rw [← hcode, ← hx] at hkey
  rw [hy, UInt8.toNat_toUInt16]
  exact hkey h.inserts

/-! ### Backspace -/

/-- A state with the same lines. -/
theorem restored_of_lines {e e' : Editor} (hlines : e'.doc.lines = e.doc.lines) (hcy : e'.cy = e.cy)
    (hcx : e'.cx = e.cx) :
  Restored e e'
  := by
  exact ⟨hlines, Document.numRows_of_lines hlines, hcy, hcx⟩

/-- Backspace behind a byte that does not continue a letter. -/
theorem keyBackspace_one {e : Editor} (hrow : e.cy < maxRows) (hpos : 0 < e.cx) (hcx : e.cx ≤ maxCols)
    (hchar : (e.doc.rows e.cy).chars (e.cx - 1) &&& 0xC0 ≠ 0x80) :
  e.keyBackspace
    = some { e with doc := e.doc.rowDeleteChar e.cy (e.cx - 1), cx := e.cx - 1 }
  := by
  rw [keyBackspace]
  by_cases htwo : e.cx ≥ 2
  · rw [if_pos htwo, if_pos (by omega), row?, if_pos hrow, Option.map_some, if_neg hchar]
    rfl
  · rw [if_neg htwo, if_pos hpos]
    rfl

/-- Backspace behind a byte that continues a letter. -/
theorem keyBackspace_two {e : Editor} (hrow : e.cy < maxRows) (htwo : 2 ≤ e.cx) (hcx : e.cx ≤ maxCols)
    (hchar : (e.doc.rows e.cy).chars (e.cx - 1) &&& 0xC0 = 0x80) :
  e.keyBackspace
    = some { e with
        doc := (e.doc.rowDeleteChar e.cy (e.cx - 1)).rowDeleteChar e.cy (e.cx - 1 - 1)
        cx := e.cx - 1 - 1 }
  := by
  rw [keyBackspace, if_pos htwo, if_pos (by omega), row?, if_pos hrow, Option.map_some, if_pos hchar]
  rfl

/-- Backspace at the start of a row joins it with the row before it. -/
theorem keyBackspace_join {e : Editor} (hrow : e.cy < maxRows) (hcx : e.cx = 0) (hcy : 0 < e.cy)
    (hlen : (e.doc.rows (e.cy - 1)).len + (e.doc.rows e.cy).len < maxCols - 1) :
  e.keyBackspace
    = some { e with
        doc := (e.doc.setRow (e.cy - 1)
          ((e.doc.rows (e.cy - 1)).append (e.doc.rows e.cy))).deleteRow e.cy
        cy := e.cy - 1
        cx := (e.doc.rows (e.cy - 1)).len }
  := by
  rw [keyBackspace, if_neg (by omega), if_neg (by omega), if_pos hcy, row?, if_pos hrow, Option.map_some,
    if_pos hlen]

/-- Backspace that finds nothing to remove. -/
theorem keyBackspace_stuck {e : Editor} (hrow : e.cy < maxRows) (h : e.Stuck) :
  e.keyBackspace = some e
  := by
  obtain ⟨hcx, hcy⟩ := h
  rw [keyBackspace, if_neg (by omega), if_neg (by omega)]
  by_cases hzero : e.cy = 0
  · rw [if_neg (by omega)]
  · rw [if_pos (Nat.pos_of_ne_zero hzero), row?, if_pos hrow, Option.map_some, if_neg]
    have hlen := hcy.resolve_left hzero
    omega

/-- Backspace that finds something moves the cursor. -/
theorem keyBackspace_moves {e e' : Editor} (hrow : e.cy < maxRows) (hcx : e.cx ≤ maxCols)
    (hstuck : ¬ e.Stuck) (h : e.keyBackspace = some e') :
  e'.cy ≠ e.cy ∨ e'.cx ≠ e.cx
  := by
  by_cases hpos : 0 < e.cx
  · right
    by_cases hchar : (e.doc.rows e.cy).chars (e.cx - 1) &&& 0xC0 = 0x80
    · by_cases htwo : 2 ≤ e.cx
      · rw [keyBackspace_two hrow htwo hcx hchar] at h
        cases h
        dsimp only
        omega
      · rw [keyBackspace, if_neg htwo, if_pos hpos] at h
        cases h
        show e.cx - 1 ≠ e.cx
        omega
    · rw [keyBackspace_one hrow hpos hcx hchar] at h
      cases h
      dsimp only
      omega
  · left
    rw [Stuck, not_and, not_or] at hstuck
    obtain ⟨hcy, hlen⟩ := hstuck (by omega)
    rw [keyBackspace_join hrow (by omega) (Nat.pos_of_ne_zero hcy) (by omega)] at h
    cases h
    dsimp only
    omega

/-! ### Typing -/

/-- One byte is typed. -/
def typeByte (e : Editor) (c : UInt8) : Editor :=
  { e with doc := e.doc.rowInsertChar e.cy e.cx c, cx := e.cx + 1 }

theorem keyPrintable_eq (e : Editor) (ascii : Int) :
  e.keyPrintable ascii = e.typeByte (UInt8.ofNat ascii.toNat)
  := rfl

theorem keyCyrillic_eq (e : Editor) (ascii : Int) :
  e.keyCyrillic ascii = (e.typeByte (cyrillicBytes ascii).1).typeByte (cyrillicBytes ascii).2
  := rfl

section

variable {e : Editor} (h : e.Valid) (hlen : (e.doc.rows e.cy).len < maxCols - 2) (c : UInt8)
include h hlen

theorem typeByte_len :
  ((e.typeByte c).doc.rows e.cy).len = (e.doc.rows e.cy).len + 1
  := by
  rw [typeByte, Document.rowInsertChar_eq _ (Nat.lt_trans h.cy_lt h.docOk.lt), Document.setRow_rows_self,
    Row.insertChar_len, if_pos hlen]

/-- What has been typed is before the cursor. -/
theorem typeByte_char :
  ((e.typeByte c).doc.rows e.cy).chars e.cx = c
  := by
  have hcx := h.cx_le
  rw [typeByte, Document.rowInsertChar_eq _ (Nat.lt_trans h.cy_lt h.docOk.lt), Document.setRow_rows_self,
    Row.insertChar, if_neg (by omega)]
  dsimp only
  rw [if_neg (by omega), Function.update_of_ne (by omega), Function.update_self]

theorem typeByte_lines :
  (e.typeByte c).doc.lines = e.doc.lines.modify e.cy (·.insertIdx e.cx c)
  := Document.rowInsertChar_lines h.cy_lt (Nat.lt_trans h.cy_lt h.docOk.lt) h.cx_le hlen c

theorem typeByte_valid :
  (e.typeByte c).Valid
  := by
  have hcx := h.cx_le
  refine ⟨h.docOk.rowInsertChar _ _ _, ?_, ?_⟩
  · rw [← Document.length_lines, typeByte_lines h hlen, List.length_modify, Document.length_lines]
    exact h.cy_lt
  · show e.cx + 1 ≤ ((e.typeByte c).doc.rows e.cy).len
    rw [typeByte_len h hlen]
    omega

end

/-- The deletion of what has been inserted. -/
theorem modify_insert_erase (ls : List (List UInt8)) (r col : Nat) (c : UInt8) :
  (ls.modify r (·.insertIdx col c)).modify r (·.eraseIdx col) = ls
  := by
  have hid : (fun l : List UInt8 => l.eraseIdx col) ∘ (·.insertIdx col c) = id := by
    funext l
    exact List.eraseIdx_insertIdx_self c
  rw [List.modify_modify_eq, hid, List.modify_id]

/-- The byte that has been typed is deleted. -/
theorem deleteChar_typeByte {e : Editor} (h : e.Valid) (hlen : (e.doc.rows e.cy).len < maxCols - 2)
    (c : UInt8) :
  ((e.typeByte c).doc.rowDeleteChar e.cy e.cx).lines = e.doc.lines
  := by
  have hcx := h.cx_le
  rw [Document.rowDeleteChar_lines, typeByte_lines h hlen, modify_insert_erase]
  · exact (typeByte_valid h hlen c).cy_lt
  · rw [typeByte_len h hlen]
    omega

/-! ### One key and Backspace -/

theorem typed_printable {e : Editor} (h : e.Valid) (hroom : e.Room) {ascii : UInt16} (hle : ascii ≤ 126) :
  ∃ e', (e.keyPrintable ascii.toNat).keyBackspace = some e' ∧ Restored e e'
  := by
  have hrow : e.cy < maxRows := Nat.lt_trans h.cy_lt h.docOk.lt
  have hlen := hroom.row_lt
  have hcols : maxCols = 256 := rfl
  have hcx := h.cx_le
  have hbyte : UInt8.ofNat ascii.toNat &&& 0xC0 ≠ 0x80 := by
    have hall : ∀ n < 127, UInt8.ofNat n &&& 0xC0 ≠ 0x80 := by decide
    exact hall ascii.toNat (Nat.lt_succ_of_le (UInt16.le_iff_toNat_le.mp hle))
  rw [keyPrintable_eq, Int.toNat_natCast]
  generalize UInt8.ofNat ascii.toNat = c at hbyte
  have hchar : ((e.typeByte c).doc.rows e.cy).chars (e.cx + 1 - 1) &&& 0xC0 ≠ 0x80 := by
    rw [Nat.add_sub_cancel, typeByte_char h hlen]
    exact hbyte
  have hle : e.cx + 1 ≤ maxCols := by omega
  refine ⟨_, keyBackspace_one hrow (Nat.succ_pos _) hle hchar, ?_⟩
  exact restored_of_lines (deleteChar_typeByte h hlen c) rfl rfl

/-- The second byte of a Cyrillic letter continues it. -/
theorem cyrillicBytes_continues {ascii : UInt16} (hle : 0x0400 ≤ ascii) (hle' : ascii ≤ 0x04FF) :
  (cyrillicBytes ascii.toNat).2 &&& 0xC0 = 0x80
  := by
  have hall : ∀ n < 256, (cyrillicBytes ((0x0400 + n : Nat) : Int)).2 &&& 0xC0 = 0x80 := by decide +kernel
  have hlow := UInt16.le_iff_toNat_le.mp hle
  have hhigh := UInt16.le_iff_toNat_le.mp hle'
  have hnum : (0x0400 : UInt16).toNat = 0x0400 ∧ (0x04FF : UInt16).toNat = 0x04FF := ⟨rfl, rfl⟩
  have hletter := hall (ascii.toNat - 0x0400) (by omega)
  rw [Nat.add_sub_cancel' (by omega)] at hletter
  exact hletter

/-- There is room for both bytes. -/
theorem typed_cyrillic {e : Editor} (h : e.Valid) {ascii : UInt16} (hle : 0x0400 ≤ ascii)
    (hle' : ascii ≤ 0x04FF) (hlen : (e.doc.rows e.cy).len < maxCols - 3) :
  ∃ e', (e.keyCyrillic ascii.toNat).keyBackspace = some e' ∧ Restored e e'
  := by
  have hrow : e.cy < maxRows := Nat.lt_trans h.cy_lt h.docOk.lt
  have hcols : maxCols = 256 := rfl
  have hcx := h.cx_le
  have hbyte := cyrillicBytes_continues hle hle'
  rw [keyCyrillic_eq]
  generalize (cyrillicBytes ascii.toNat).1 = b₁
  generalize (cyrillicBytes ascii.toNat).2 = b₂ at hbyte
  have hlen₀ : (e.doc.rows e.cy).len < maxCols - 2 := by omega
  have hlen₁ : ((e.typeByte b₁).doc.rows e.cy).len < maxCols - 2 := by
    rw [typeByte_len h hlen₀]
    omega
  have h₁ := typeByte_valid h hlen₀ b₁
  have h₂ := typeByte_valid h₁ hlen₁ b₂
  have hchar : (((e.typeByte b₁).typeByte b₂).doc.rows e.cy).chars (e.cx + 2 - 1) &&& 0xC0 = 0x80 := by
    have hlast : (((e.typeByte b₁).typeByte b₂).doc.rows e.cy).chars (e.cx + 2 - 1) = b₂ :=
      typeByte_char h₁ hlen₁ b₂
    rw [hlast]
    exact hbyte
  have hle : e.cx + 2 ≤ maxCols := by omega
  refine ⟨_, keyBackspace_two hrow (Nat.le_add_left 2 _) hle hchar, ?_⟩
  refine restored_of_lines ?_ rfl rfl
  have hsecond : (((e.typeByte b₁).typeByte b₂).doc.rowDeleteChar e.cy (e.cx + 1)).lines
      = (e.typeByte b₁).doc.lines := deleteChar_typeByte h₁ hlen₁ b₂
  have hnum := Document.numRows_of_lines hsecond
  have hcol : e.cx < ((((e.typeByte b₁).typeByte b₂).doc.rowDeleteChar e.cy (e.cx + 1)).rows e.cy).len := by
    rw [Document.len_of_lines hsecond (hnum ▸ h₁.cy_lt)]
    exact h₁.cx_le
  have hfirst := Document.rowDeleteChar_lines (hnum ▸ h₁.cy_lt) hcol
  apply hfirst.trans
  rw [hsecond, typeByte_lines h hlen₀, modify_insert_erase]

/-- The second byte finds no room, and Backspace does not find the letter. -/
theorem not_typed_cyrillic {e e' : Editor} (h : e.Valid) (hroom : e.Room) {ascii : UInt16}
    (hlen : ¬ (e.doc.rows e.cy).len < maxCols - 3)
    (hback : (e.keyCyrillic ascii.toNat).keyBackspace = some e') :
  ¬ Restored e e'
  := by
  have hrow : e.cy < maxRows := Nat.lt_trans h.cy_lt h.docOk.lt
  have hcols : maxCols = 256 := rfl
  have hcx := h.cx_le
  have hlen₀ := hroom.row_lt
  rw [keyCyrillic_eq] at hback
  generalize (cyrillicBytes ascii.toNat).1 = b₁ at hback
  generalize (cyrillicBytes ascii.toNat).2 = b₂ at hback
  have h₁ := typeByte_valid h hlen₀ b₁
  have hlen₁ := typeByte_len h hlen₀ b₁
  have hfull : ((e.typeByte b₁).typeByte b₂).doc.rows e.cy = (e.typeByte b₁).doc.rows e.cy := by
    show ((e.typeByte b₁).doc.rowInsertChar e.cy (e.cx + 1) b₂).rows e.cy = _
    rw [Document.rowInsertChar_eq _ hrow, Document.setRow_rows_self, Row.insertChar, if_pos (by omega)]
  have hnum : ((e.typeByte b₁).typeByte b₂).doc.numRows = (e.typeByte b₁).doc.numRows := by
    show ((e.typeByte b₁).doc.rowInsertChar e.cy (e.cx + 1) b₂).numRows = _
    rw [Document.rowInsertChar_eq _ hrow, Document.setRow_numRows]
  have hlast := (h₁.docOk.rowsOk e.cy hrow).terminated
  have hle : e.cx + 2 ≤ maxCols := by omega
  have hcy : e.cy < ((e.typeByte b₁).typeByte b₂).doc.numRows := hnum ▸ h₁.cy_lt
  intro hrestored
  by_cases hchar : (((e.typeByte b₁).typeByte b₂).doc.rows e.cy).chars (e.cx + 2 - 1) &&& 0xC0 = 0x80
  · -- two bytes are deleted, of which one was there before
    have htwo := @keyBackspace_two ((e.typeByte b₁).typeByte b₂) hrow (Nat.le_add_left 2 _) hle hchar
    rw [htwo] at hback
    cases hback
    have hinside : e.cx + 1 < ((e.typeByte b₁).doc.rows e.cy).len := by
      rw [hfull] at hchar
      apply Nat.lt_of_le_of_ne h₁.cx_le
      intro hend
      have hindex : e.cx + 2 - 1 = ((e.typeByte b₁).doc.rows e.cy).len := hend
      rw [hindex, hlast] at hchar
      exact absurd hchar (by decide)
    have hdeleted := Document.rowDeleteChar_len hcy (e.cx + 1)
    have hcy' : e.cy < (((e.typeByte b₁).typeByte b₂).doc.rowDeleteChar e.cy (e.cx + 1)).numRows := by
      rw [Document.rowDeleteChar_eq _ hcy]
      exact hcy
    have hdeleted' := Document.rowDeleteChar_len hcy' e.cx
    have hsame : ((((e.typeByte b₁).typeByte b₂).doc.rowDeleteChar e.cy (e.cx + 1)).rowDeleteChar e.cy
        e.cx).lines = e.doc.lines := hrestored.lines_eq
    rw [Document.len_of_lines hsame (Document.numRows_of_lines hsame ▸ h.cy_lt), hdeleted, hfull,
      if_pos hinside, if_pos (by omega)] at hdeleted'
    omega
  · have hone := @keyBackspace_one ((e.typeByte b₁).typeByte b₂) hrow (Nat.succ_pos _) hle hchar
    rw [hone] at hback
    cases hback
    have hcursor : e.cx + 2 - 1 = e.cx := hrestored.cx_eq
    omega

/-! ### Enter -/

theorem set_insertIdx_self {ls : List (List UInt8)} {r : Nat} (hr : r < ls.length) (b : List UInt8) :
  (ls.insertIdx (r + 1) b).set r ls[r] = ls.insertIdx (r + 1) b
  := by
  have hlt : r < (ls.insertIdx (r + 1) b).length := by
    rw [List.length_insertIdx_of_le_length hr]
    exact Nat.lt_succ_of_lt hr
  have hsame := List.getElem_insertIdx_of_lt (Nat.lt_succ_self r) hlt
  rw [← hsame, List.set_getElem_self]

/-- A row is split at the cursor. -/
theorem keyEnter_lines {e : Editor} (h : e.Valid) (hroom : e.Room) :
  ∃ d, e.keyEnter = some { e with doc := d, cy := e.cy + 1, cx := 0 }
    ∧ d.lines = (e.doc.lines.insertIdx (e.cy + 1) ((e.doc.rows e.cy).text.drop e.cx)).set e.cy
      ((e.doc.rows e.cy).text.take e.cx)
  := by
  have hlen := hroom.row_lt
  have hcols : maxCols = 256 := rfl
  have htext : (e.doc.rows e.cy).text.length = (e.doc.rows e.cy).len := Row.length_text _
  have hlines : e.cy < e.doc.lines.length := by
    rw [Document.length_lines]
    exact h.cy_lt
  rw [keyEnter, h.row?, Option.map_some]
  refine ⟨_, rfl, ?_⟩
  split
  · rename_i hend
    rw [Document.insertRow_lines hroom.rows_lt h.cy_lt (by decide), List.drop_of_length_le (by omega),
      List.take_of_length_le (by omega), ← e.doc.getElem_lines hlines, set_insertIdx_self hlines]
  · rename_i hmiddle
    rw [Document.setRow_lines, Document.insertRow_lines hroom.rows_lt h.cy_lt
      (by rw [List.length_drop]; omega), Document.insertRow_rows_lt (Nat.lt_succ_self _),
      Row.truncate_text h.cx_le]

/-- A row that has been split is joined again. -/
theorem typed_enter {e : Editor} (h : e.Valid) (hroom : e.Room) :
  ∃ e₁ e', e.keyEnter = some e₁ ∧ e₁.dialog = e.dialog ∧ e₁.keyBackspace = some e' ∧ Restored e e'
  := by
  obtain ⟨d, henter, hsplit⟩ := keyEnter_lines h hroom
  have hlen := hroom.row_lt
  have hcols : maxCols = 256 := rfl
  have hcx := h.cx_le
  have hlines : e.cy < e.doc.lines.length := by
    rw [Document.length_lines]
    exact h.cy_lt
  have hnum : d.numRows = e.doc.numRows + 1 := by
    rw [← Document.length_lines, hsplit, List.length_set, List.length_insertIdx_of_le_length hlines,
      Document.length_lines]
  have hrows : e.doc.numRows < maxRows - 1 := hroom.rows_lt
  have hcy := h.cy_lt
  have hfirst : (d.rows e.cy).text = (e.doc.rows e.cy).text.take e.cx := by
    have hline := d.getElem?_lines (r := e.cy) (by omega)
    rw [hsplit, List.getElem?_set_self (by
      rw [List.length_insertIdx_of_le_length hlines]; omega)] at hline
    exact (Option.some.inj hline).symm
  have hsecond : (d.rows (e.cy + 1)).text = (e.doc.rows e.cy).text.drop e.cx := by
    have hline := d.getElem?_lines (r := e.cy + 1) (by omega)
    rw [hsplit, List.getElem?_set_ne (by omega), List.getElem?_insertIdx_self,
      if_pos (Nat.succ_le_of_lt hlines)] at hline
    exact (Option.some.inj hline).symm
  have hlenFirst : (d.rows e.cy).len = e.cx := by
    rw [← Row.length_text, hfirst, List.length_take, Row.length_text]
    omega
  have hlenSecond : (d.rows (e.cy + 1)).len = (e.doc.rows e.cy).len - e.cx := by
    rw [← Row.length_text, hsecond, List.length_drop, Row.length_text]
  have hjoin := @keyBackspace_join { e with doc := d, cy := e.cy + 1, cx := 0 }
    (by show e.cy + 1 < maxRows; omega) rfl (Nat.succ_pos _)
    (by show (d.rows e.cy).len + (d.rows (e.cy + 1)).len < maxCols - 1; omega)
  refine ⟨_, _, henter, rfl, hjoin, restored_of_lines ?_ rfl hlenFirst⟩
  show ((d.setRow e.cy ((d.rows e.cy).append (d.rows (e.cy + 1)))).deleteRow (e.cy + 1)).lines = _
  rw [Document.deleteRow_lines (by rw [Document.setRow_numRows]; omega)
    (by rw [Document.setRow_numRows]; omega), Document.setRow_lines, Row.append_text, hfirst, hsecond,
    List.take_append_drop, hsplit, List.set_set, ← e.doc.getElem_lines hlines, set_insertIdx_self hlines,
    List.eraseIdx_insertIdx_self]

/-! ### All keys -/

/-- Backspace after a key that has saved the document. -/
theorem saved_iff {e e₁ : Editor} (h : e.Valid) (hdoc : e₁.doc = e.doc) (hcy : e₁.cy = e.cy)
    (hcx : e₁.cx = e.cx) :
  (∃ e', e₁.keyBackspace = some e' ∧ Restored e e') ↔ e.Stuck
  := by
  have h₁ : e₁.Valid := h.congr hdoc hcy hcx
  have hrow : e₁.cy < maxRows := Nat.lt_trans h₁.cy_lt h₁.docOk.lt
  have hle : e₁.cx ≤ maxCols := by
    have hlen := (h₁.docOk.rowsOk e₁.cy hrow).len_le
    have hcx₁ := h₁.cx_le
    omega
  have hstuck : e₁.Stuck ↔ e.Stuck := by rw [Stuck, Stuck, hdoc, hcy, hcx]
  rw [← hstuck]
  constructor
  · rintro ⟨e', hback, hrestored⟩
    by_contra hnot
    rcases keyBackspace_moves hrow hle hnot hback with hmoved | hmoved
    · exact hmoved (hrestored.cy_eq.trans hcy.symm)
    · exact hmoved (hrestored.cx_eq.trans hcx.symm)
  · intro hstays
    exact ⟨e₁, keyBackspace_stuck hrow hstays, restored_of_lines (by rw [hdoc]) hcy hcx⟩

/-- Backspace without an open dialog. -/
theorem handleKey_backspace {e : Editor} (h : e.dialog.active = false) (disk : Disk) :
  e.handleKey 8 0x0E disk = e.keyBackspace
  := by
  have hkey : keyOf 8 0x0E = .backspace := by decide
  rw [handleKey, h, if_neg Bool.false_ne_true, hkey, pressKey]

/-- Backspace in the dialog leaves the document alone. -/
theorem handleKey_dialog {e : Editor} (h : e.dialog.active = true) (disk : Disk) :
  ∃ dialog, e.handleKey 8 0x0E disk = some { e with dialog := dialog }
  := by
  have hno := @Dialog.handleKey_ne_ok e.dialog 8 0x0E (by decide)
  rw [handleKey, if_pos h, finishDialog, if_neg hno]
  exact ⟨_, rfl⟩

/-- A key that types something and Backspace leave the rows and the cursor as they were exactly when the
key is neither an `s` that saves a document in which Backspace does something, nor a Cyrillic letter
without room for its second byte. -/
theorem undone_iff {e : Editor} (h : e.Valid) (hroom : e.Room) {k : Keyboard} {sc : UInt8} {ev : InputEvent}
    (htypes : Types k sc ev) (disk disk' : Disk) :
  (∃ e', e.undone ev.x.toNat ev.y.toNat disk disk' = some e' ∧ Restored e e') ↔ e.Undoes ev.x
  := by
  have hclosed := hroom.closed
  rw [undone, handleKey, hclosed, if_neg Bool.false_ne_true, keyOf_of_types htypes, typedKey, Undoes]
  by_cases hs : ev.x = 115
  · rw [if_pos hs, if_pos hs, pressKey, Option.bind_some]
    by_cases huntitled : e.isUntitled = true
    · rw [if_pos huntitled]
      obtain ⟨dialog, hdialog⟩ :=
        @handleKey_dialog { e with dialog := .openWith .saveAs e.filename } rfl disk'
      exact ⟨fun _ => Or.inl huntitled, fun _ => ⟨_, hdialog, restored_of_lines rfl rfl rfl⟩⟩
    · have hdialog : (e.saveFile disk.write).dialog = e.dialog ∧ (e.saveFile disk.write).cy = e.cy
          ∧ (e.saveFile disk.write).cx = e.cx := by
        rw [saveFile]
        split
        · exact ⟨rfl, rfl, rfl⟩
        · exact ⟨rfl, rfl, rfl⟩
      rw [if_neg huntitled, handleKey_backspace (hdialog.1 ▸ hclosed), or_iff_right huntitled]
      exact saved_iff h (saveFile_doc e _) hdialog.2.1 hdialog.2.2
  rw [if_neg hs, if_neg hs]
  by_cases henter : ev.x = 10
  · have hsmall : ¬ (0x0400 : UInt16) ≤ ev.x := by
      rw [henter]
      decide
    obtain ⟨e₁, e', hfirst, hdialog, hback, hrestored⟩ := typed_enter h hroom
    rw [if_pos henter, if_neg hsmall, pressKey, hfirst, Option.bind_some,
      handleKey_backspace (hdialog ▸ hclosed)]
    exact iff_of_true ⟨e', hback, hrestored⟩ trivial
  rw [if_neg henter]
  by_cases hascii : ev.x ≤ 126
  · have hsmall : ¬ (0x0400 : UInt16) ≤ ev.x := by
      intro hlarge
      exact absurd (UInt16.le_trans hlarge hascii) (by decide)
    obtain ⟨e', hback, hrestored⟩ := typed_printable h hroom hascii
    rw [if_pos hascii, if_neg hsmall, pressKey, Option.bind_some,
      handleKey_backspace (e := e.keyPrintable _) hclosed]
    exact iff_of_true ⟨e', hback, hrestored⟩ trivial
  · obtain ⟨hlow, hhigh⟩ := (htypes.inserts.resolve_left henter).resolve_left (fun hp => hascii hp.2)
    rw [if_neg hascii, if_pos hlow, pressKey, Option.bind_some,
      handleKey_backspace (e := e.keyCyrillic _) hclosed]
    constructor
    · rintro ⟨e', hback, hrestored⟩
      by_contra hlen
      exact not_typed_cyrillic h hroom hlen hback hrestored
    · intro hlen
      exact typed_cyrillic h hlow hhigh hlen

/-- A document with a name, and the cursor behind a letter. -/
def named : Editor :=
  { boot with
    doc := { rows := fun _ => { chars := fun i => if i = 0 then 97 else 0, len := 1 }, numRows := 1 }
    cx := 1
    isUntitled := false }

theorem named_valid :
  named.Valid ∧ named.Room
  := by
  refine ⟨⟨⟨fun r _ => ⟨?_, rfl⟩, by decide, by decide⟩, by decide, by decide⟩, rfl, by decide, by decide⟩
  show 1 ≤ maxCols - 2
  decide

/-- The letter `a`. -/
theorem undone_iff_letter :
  ∃ e', named.undone 97 0x1E ⟨none, true⟩ ⟨none, true⟩ = some e' ∧ Restored named e'
  := by
  have htypes : Types Keyboard.init 0x1E (Keyboard.init.keyDown 97 0x1E) := ⟨rfl, by decide, by decide⟩
  apply (undone_iff named_valid.1 named_valid.2 htypes ⟨none, true⟩ ⟨none, true⟩).mpr
  rw [Undoes, if_neg (by decide), if_neg (by decide)]
  trivial

/-- The letter `s` saves, and Backspace deletes the letter that was there before. -/
theorem not_undone :
  ¬ ∀ (e : Editor) (k : Keyboard) (sc : UInt8) (ev : InputEvent) (disk disk' : Disk), e.Valid → e.Room →
    Types k sc ev → ∃ e', e.undone ev.x.toNat ev.y.toNat disk disk' = some e' ∧ Restored e e'
  := by
  intro hall
  have htypes : Types Keyboard.init 0x1F (Keyboard.init.keyDown 115 0x1F) := ⟨rfl, by decide, by decide⟩
  obtain ⟨e', hback, hrestored⟩ :=
    hall named _ _ _ ⟨none, true⟩ ⟨none, true⟩ named_valid.1 named_valid.2 htypes
  have hcode : (named.undone 115 0x1F ⟨none, true⟩ ⟨none, true⟩).map (·.cx) = some 0 := by decide
  have hcx := congrArg (Option.map (·.cx)) hback
  rw [Option.map_some, hrestored.cx_eq] at hcx
  exact absurd (hcx.symm.trans hcode) (by decide)

end Editor

end Notepad
