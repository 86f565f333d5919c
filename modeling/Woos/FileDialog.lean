import Woos.Lib.Run
import Woos.Notepad.Dialog
import Woos.Text.Characters

/-!
# The text field of the file dialog

The dialog that the programs share keeps its text in a buffer of 128 bytes.  `runs_valid_iff` says in
which runs of keys and clicks the text stays UTF-8 with the cursor between two characters: those in which
no key and no click meets the inside of a character.  The text ends with a NUL and is shorter than the
buffer there.
-/

open Utf8 Notepad

/-- The fields of `woos_file_dialog_t` that the keys and the clicks use. -/
structure FileDialog where
  active : Bool
  input : Nat → UInt8
  inputLen : Nat
  cursorPos : Nat

namespace FileDialog

/-! ### The calls -/

/-- `strncpy(dest, src, n)` -/
def strncpy (dest : Nat → UInt8) (src : List UInt8) (n i : Nat) : UInt8 :=
  if i < n then src.getD i 0 else dest i

/-- `woos_dialog_open` with a default text, over what the buffer held. -/
def openWith (buffer : Nat → UInt8) (defaultText : CString) : FileDialog :=
  let input := Function.update buffer 0 0
  let input := if defaultText.bytes ≠ [] then strncpy input defaultText.bytes 127 else input
  let input := Function.update input 127 0
  let inputLen := (CString.ofBytes (Shift.entries input 128)).length
  ⟨true, input, inputLen, inputLen⟩

/-- The column of the input box that a click meets, or none outside the box: `char_idx` in the branch
of `woos_dialog_handle_click` for a click inside it. -/
def charIdx (d : FileDialog) (winW winH mx my : Int) : Option Nat :=
  let dx := (winW - 380).tdiv 2
  let dy := (winH - 124).tdiv 2
  let bx := dx + 16
  let bY := dy + 52
  let bw : Int := 380 - 32
  let bh : Int := 24
  if mx ≥ bx ∧ mx ≤ bx + bw ∧ my ≥ bY ∧ my ≤ bY + bh then
    let maxVisChars := (bw - 12).tdiv 8
    let scroll := if (d.cursorPos : Int) ≥ maxVisChars then d.cursorPos - maxVisChars + 1 else 0
    let relX := if mx - (bx + 6) < 0 then 0 else mx - (bx + 6)
    let charIdx := scroll + (relX + 4).tdiv 8
    let charIdx := if charIdx < 0 then 0 else charIdx
    let charIdx := if charIdx > d.inputLen then (d.inputLen : Int) else charIdx
    some charIdx.toNat
  else none

/-- The result of a click on a button of the dialog. -/
def clickedButton (winW winH mx my : Int) : DialogResult :=
  let dw : Int := 380
  let dh : Int := 124
  let dx := (winW - dw).tdiv 2
  let dy := (winH - dh).tdiv 2
  let closeX := dx + dw - 20
  let closeY := dy + 4
  let btnW : Int := 68
  let btnH : Int := 22
  let btnY := dy + dh - 32
  let cancelX := dx + dw - 80
  let okX := dx + dw - 156
  if mx ≥ closeX ∧ mx ≤ closeX + 16 ∧ my ≥ closeY ∧ my ≤ closeY + 16 then .cancel
  else if mx ≥ cancelX ∧ mx ≤ cancelX + btnW ∧ my ≥ btnY ∧ my ≤ btnY + btnH then .cancel
  else if mx ≥ okX ∧ mx ≤ okX + btnW ∧ my ≥ btnY ∧ my ≤ btnY + btnH then .ok
  else .none

/-- `woos_dialog_handle_click` -/
def handleClick (d : FileDialog) (winW winH mx my : Int) : FileDialog × DialogResult :=
  if d.active = false then (d, .none)
  else
    match clickedButton winW winH mx my with
    | .cancel => ({ d with active := false }, .cancel)
    | .ok => ({ d with active := false }, .ok)
    | .none =>
      match d.charIdx winW winH mx my with
      | some charIdx => ({ d with cursorPos := charIdx }, .none)
      | none => (d, .none)

/-- Backspace. -/
def backspace (d : FileDialog) : FileDialog :=
  if d.cursorPos > 0 ∧ d.inputLen > 0 then
    let del := if 2 ≤ d.cursorPos ∧ IsCont (d.input (d.cursorPos - 1)) then 2 else 1
    { d with
      input := Function.update (Shift.closeGap d.input (d.cursorPos - del) del d.inputLen)
        (d.inputLen - del) 0
      inputLen := d.inputLen - del
      cursorPos := d.cursorPos - del }
  else d

/-- Delete. -/
def delete (d : FileDialog) : FileDialog :=
  if d.cursorPos < d.inputLen then
    { d with
      input := Function.update (Shift.closeGap d.input d.cursorPos 1 d.inputLen) (d.inputLen - 1) 0
      inputLen := d.inputLen - 1 }
  else d

/-- Bytes are inserted at the cursor when the buffer has room for them. -/
def insert (d : FileDialog) (bytes : List UInt8) : FileDialog :=
  if d.inputLen + bytes.length < 128 then
    { d with
      input := Function.update
        (Shift.copy (Shift.openGap d.input d.cursorPos bytes.length d.inputLen) d.cursorPos bytes)
        (d.inputLen + bytes.length) 0
      inputLen := d.inputLen + bytes.length
      cursorPos := d.cursorPos + bytes.length }
  else d

/-- `woos_dialog_handle_key` -/
def handleKey (d : FileDialog) (ascii scancode : Int) : FileDialog × DialogResult :=
  if d.active = false then (d, .none)
  else if scancode = 0x1C ∨ ascii = 10 ∨ ascii = 13 then ({ d with active := false }, .ok)
  else if scancode = 0x01 then ({ d with active := false }, .cancel)
  else if scancode = 0x0E ∨ ascii = 8 ∨ ascii = 127 then (d.backspace, .none)
  else if scancode = 0x53 then (d.delete, .none)
  else if scancode = 0x4B then
    (if d.cursorPos > 0 then { d with cursorPos := d.cursorPos - 1 } else d, .none)
  else if scancode = 0x4D then
    (if d.cursorPos < d.inputLen then { d with cursorPos := d.cursorPos + 1 } else d, .none)
  else if scancode = 0x47 then ({ d with cursorPos := 0 }, .none)
  else if scancode = 0x4F then ({ d with cursorPos := d.inputLen }, .none)
  else if ascii ≥ 32 ∧ ascii ≤ 126 then (d.insert [UInt8.ofNat ascii.toNat], .none)
  else if ascii ≥ 0x0400 ∧ ascii ≤ 0x04FF then (d.insert (cyrillic ascii), .none)
  else (d, .none)

/-- What is sent to the dialog. -/
inductive Action where
  | key (ascii scancode : Int)
  | click (winW winH mx my : Int)

/-- The dialog after an action. -/
def step (d : FileDialog) : Action → FileDialog
  | .key ascii scancode => (d.handleKey ascii scancode).1
  | .click winW winH mx my => (d.handleClick winW winH mx my).1

/-! ### Texts -/

/-- The text is UTF-8 and shorter than the buffer, a NUL ends it, and the cursor lies between two of its
characters. -/
def Valid (d : FileDialog) : Prop :=
  d.inputLen < 128 ∧ ∃ before after, Cursor d.input d.inputLen d.cursorPos before after

/-- The default text, cut to the buffer, is UTF-8. -/
def DefaultFits (defaultText : CString) : Prop := ∃ cs, defaultText.bytes.take 127 = code.text cs

/-- Backspace fits when the character before the cursor has at most two bytes, Delete and the arrows when
the character that they take has one, and a click when it meets no byte that continues a character. -/
def Fits (d : FileDialog) : Action → Prop
  | .key ascii scancode =>
      d.active = false ∨ (scancode = 0x1C ∨ ascii = 10 ∨ ascii = 13) ∨ scancode = 0x01 ∨
      if scancode = 0x0E ∨ ascii = 8 ∨ ascii = 127 then
        d.cursorPos ≤ 2 ∨ ¬ IsCont (d.input (d.cursorPos - 1)) ∨ ¬ IsCont (d.input (d.cursorPos - 2))
      else if scancode = 0x53 ∨ scancode = 0x4D then
        d.inputLen ≤ d.cursorPos ∨ ¬ IsCont (d.input (d.cursorPos + 1))
      else if scancode = 0x4B then d.cursorPos = 0 ∨ ¬ IsCont (d.input (d.cursorPos - 1))
      else True
  | .click winW winH mx my =>
      d.active = false ∨ clickedButton winW winH mx my ≠ .none
        ∨ ∀ i, d.charIdx winW winH mx my = some i → ¬ IsCont (d.input i)

variable {d : FileDialog} {before after : List Scalar} {c : Scalar}

/-! ### Keys that take a character -/

/-- The NUL is there already when the loop has moved it. -/
theorem update_closeGap {p k : Nat} (hzero : d.input d.inputLen = 0) (hk : 0 < k)
    (hp : p + k ≤ d.inputLen) :
  Function.update (Shift.closeGap d.input p k d.inputLen) (d.inputLen - k) 0
    = Shift.closeGap d.input p k d.inputLen
  := by
  have hlast := Shift.closeGap_last d.input hk hp
  rw [hzero] at hlast
  rw [← hlast]
  exact Function.update_eq_self _ _

/-- How many bytes Backspace takes for a character. -/
def taken (c : Scalar) : Nat := if 2 ≤ (code.word c).length then 2 else 1

theorem taken_pos (c : Scalar) :
  0 < taken c ∧ taken c ≤ (code.word c).length
  := by
  have hpos := code.length_word_pos c
  rw [taken]
  split
  · omega
  · omega

theorem backspace_eq (h : Cursor d.input d.inputLen d.cursorPos (before ++ [c]) after) :
  d.backspace = { d with
    input := Shift.closeGap d.input (d.cursorPos - taken c) (taken c) d.inputLen
    inputLen := d.inputLen - taken c
    cursorPos := d.cursorPos - taken c }
  := by
  have hword := code.length_word_pos c
  have hle := h.length_le_cursor
  have hlen := h.len_eq
  obtain ⟨hpos, htaken⟩ := taken_pos c
  have hupdate := @update_closeGap d (d.cursorPos - taken c) (taken c) h.terminator hpos (by omega)
  rw [backspace, if_pos ⟨by omega, by omega⟩]
  simp only [h.isCont_before_iff]
  rw [← taken, hupdate]

theorem backspace_iff (h : Cursor d.input d.inputLen d.cursorPos before after)
    (hroom : d.inputLen < 128) :
  d.backspace.Valid ↔ d.cursorPos ≤ 2 ∨ ¬ IsCont (d.input (d.cursorPos - 1))
    ∨ ¬ IsCont (d.input (d.cursorPos - 2))
  := by
  rcases List.eq_nil_or_concat' before with rfl | ⟨cs, c, rfl⟩
  · have hstart : d.cursorPos = 0 := h.cursor
    rw [backspace, if_neg (fun hcond => Nat.ne_of_gt hcond.1 hstart)]
    exact iff_of_true ⟨hroom, [], after, h⟩ (Or.inl (by omega))
  · have hword := code.length_word_pos c
    have hle := h.length_le_cursor
    rw [backspace_eq h, h.isCont_back Nat.one_pos hword]
    by_cases hshort : (code.word c).length ≤ 2
    · have htaken : taken c = (code.word c).length := by
        rw [taken]
        split
        · omega
        · omega
      refine iff_of_true ⟨Nat.lt_of_le_of_lt (Nat.sub_le _ _) hroom, cs, after, ?_⟩ ?_
      · rw [htaken]
        exact h.backspace
      · by_cases htwo : 2 ≤ (code.word c).length
        · rw [h.isCont_back Nat.two_pos htwo]
          omega
        · omega
    · have hlong := Nat.not_le.mp hshort
      have htaken : taken c = 2 := if_pos (Nat.le_of_lt hlong)
      rw [htaken, h.isCont_back Nat.two_pos (Nat.le_of_lt hlong)]
      refine iff_of_false ?_ (by omega)
      rintro ⟨-, before', after', hcursor⟩
      exact h.not_backspace Nat.two_pos hlong before' after' hcursor

theorem delete_iff (h : Cursor d.input d.inputLen d.cursorPos before after)
    (hroom : d.inputLen < 128) :
  d.delete.Valid ↔ d.inputLen ≤ d.cursorPos ∨ ¬ IsCont (d.input (d.cursorPos + 1))
  := by
  by_cases hend : d.inputLen ≤ d.cursorPos
  · rw [delete, if_neg (Nat.not_lt.mpr hend)]
    exact iff_of_true ⟨hroom, before, after, h⟩ (Or.inl hend)
  · have hlt := Nat.not_le.mp hend
    obtain ⟨c, cs, rfl⟩ := h.exists_after hlt
    have hword := code.length_word_pos c
    have hupdate := @update_closeGap d d.cursorPos 1 h.terminator Nat.one_pos hlt
    rw [delete, if_pos hlt, hupdate, h.isCont_forward Nat.one_pos hword]
    by_cases hone : (code.word c).length = 1
    · refine iff_of_true ⟨Nat.lt_of_le_of_lt (Nat.sub_le _ _) hroom, before, cs, ?_⟩ (by omega)
      have hdelete := h.delete
      rw [hone] at hdelete
      exact hdelete
    · refine iff_of_false ?_ (by omega)
      rintro ⟨-, before', after', hcursor⟩
      exact h.not_delete Nat.one_pos (by omega) before' after' hcursor

theorem left_iff (h : Cursor d.input d.inputLen d.cursorPos before after)
    (hroom : d.inputLen < 128) :
  (if d.cursorPos > 0 then { d with cursorPos := d.cursorPos - 1 } else d).Valid
    ↔ d.cursorPos = 0 ∨ ¬ IsCont (d.input (d.cursorPos - 1))
  := by
  by_cases hstart : d.cursorPos = 0
  · rw [if_neg (Nat.not_lt.mpr (Nat.le_of_eq hstart))]
    exact iff_of_true ⟨hroom, before, after, h⟩ (Or.inl hstart)
  · have hpos := Nat.pos_of_ne_zero hstart
    obtain ⟨cs, c, rfl⟩ := h.exists_before hpos
    have hword := code.length_word_pos c
    rw [if_pos hpos, h.isCont_back Nat.one_pos hword]
    by_cases hone : (code.word c).length = 1
    · refine iff_of_true ⟨hroom, cs, c :: after, ?_⟩ (by omega)
      have hleft := h.left
      rw [hone] at hleft
      exact hleft
    · refine iff_of_false ?_ (by omega)
      rintro ⟨-, before', after', hcursor⟩
      exact h.not_left Nat.one_pos (by omega) before' after' hcursor

theorem right_iff (h : Cursor d.input d.inputLen d.cursorPos before after)
    (hroom : d.inputLen < 128) :
  (if d.cursorPos < d.inputLen then { d with cursorPos := d.cursorPos + 1 } else d).Valid
    ↔ d.inputLen ≤ d.cursorPos ∨ ¬ IsCont (d.input (d.cursorPos + 1))
  := by
  by_cases hend : d.inputLen ≤ d.cursorPos
  · rw [if_neg (Nat.not_lt.mpr hend)]
    exact iff_of_true ⟨hroom, before, after, h⟩ (Or.inl hend)
  · have hlt := Nat.not_le.mp hend
    obtain ⟨c, cs, rfl⟩ := h.exists_after hlt
    have hword := code.length_word_pos c
    rw [if_pos hlt, h.isCont_forward Nat.one_pos hword]
    by_cases hone : (code.word c).length = 1
    · refine iff_of_true ⟨hroom, before ++ [c], cs, ?_⟩ (by omega)
      have hright := h.right
      rw [hone] at hright
      exact hright
    · refine iff_of_false ?_ (by omega)
      rintro ⟨-, before', after', hcursor⟩
      exact h.not_right Nat.one_pos (by omega) before' after' hcursor

theorem insert_valid (h : Cursor d.input d.inputLen d.cursorPos before after)
    (hroom : d.inputLen < 128) {bytes : List UInt8} (hbytes : ∃ c, code.word c = bytes) :
  (d.insert bytes).Valid
  := by
  obtain ⟨c, hword⟩ := hbytes
  rw [insert]
  split
  case isTrue hlt =>
    have hinsert := h.insert hword
    refine ⟨hlt, before ++ [c], after, ?_⟩
    have hupdate := Function.update_eq_self (d.inputLen + bytes.length)
      (Shift.copy (Shift.openGap d.input d.cursorPos bytes.length d.inputLen) d.cursorPos bytes)
    rw [hinsert.terminator] at hupdate
    dsimp only
    rw [hupdate]
    exact hinsert
  case isFalse => exact ⟨hroom, before, after, h⟩

/-! ### Steps -/

theorem key_iff (h : d.Valid) (ascii scancode : Int) :
  (d.handleKey ascii scancode).1.Valid ↔ d.Fits (.key ascii scancode)
  := by
  obtain ⟨hroom, before, after, hcursor⟩ := h
  have hsame : d.Valid := ⟨hroom, before, after, hcursor⟩
  rw [handleKey, Fits]
  by_cases hactive : d.active = false
  · rw [if_pos hactive]
    exact iff_of_true hsame (Or.inl hactive)
  rw [if_neg hactive, or_iff_right hactive]
  by_cases henter : scancode = 0x1C ∨ ascii = 10 ∨ ascii = 13
  · rw [if_pos henter]
    exact iff_of_true hsame (Or.inl henter)
  rw [if_neg henter, or_iff_right henter]
  by_cases hescape : scancode = 0x01
  · rw [if_pos hescape]
    exact iff_of_true hsame (Or.inl hescape)
  rw [if_neg hescape, or_iff_right hescape]
  by_cases hback : scancode = 0x0E ∨ ascii = 8 ∨ ascii = 127
  · rw [if_pos hback, if_pos hback]
    exact backspace_iff hcursor hroom
  rw [if_neg hback, if_neg hback]
  by_cases hdelete : scancode = 0x53
  · rw [if_pos hdelete, if_pos (Or.inl hdelete)]
    exact delete_iff hcursor hroom
  rw [if_neg hdelete]
  by_cases hleft : scancode = 0x4B
  · have hother : ¬ (scancode = 0x53 ∨ scancode = 0x4D) := by omega
    rw [if_pos hleft, if_neg hother, if_pos hleft]
    exact left_iff hcursor hroom
  rw [if_neg hleft]
  by_cases hright : scancode = 0x4D
  · rw [if_pos hright, if_pos (Or.inr hright)]
    exact right_iff hcursor hroom
  rw [if_neg hright, if_neg (not_or.mpr ⟨hdelete, hright⟩), if_neg hleft, iff_true]
  by_cases hhome : scancode = 0x47
  · rw [if_pos hhome]
    exact ⟨hroom, [], before ++ after, hcursor.home⟩
  rw [if_neg hhome]
  by_cases hend : scancode = 0x4F
  · rw [if_pos hend]
    exact ⟨hroom, before ++ after, [], hcursor.last⟩
  rw [if_neg hend]
  by_cases hascii : ascii ≥ 32 ∧ ascii ≤ 126
  · rw [if_pos hascii]
    exact insert_valid hcursor hroom (exists_ascii hascii.1 hascii.2)
  rw [if_neg hascii]
  by_cases hcyrillic : ascii ≥ 0x0400 ∧ ascii ≤ 0x04FF
  · rw [if_pos hcyrillic]
    exact insert_valid hcursor hroom (exists_cyrillic hcyrillic.1 hcyrillic.2)
  rw [if_neg hcyrillic]
  exact hsame

/-- A click sets the cursor inside the text. -/
theorem charIdx_le {winW winH mx my : Int} {i : Nat} (h : d.charIdx winW winH mx my = some i) :
  i ≤ d.inputLen
  := by
  have hcut (x : Int) : (if x > d.inputLen then (d.inputLen : Int) else x).toNat ≤ d.inputLen := by
    split
    · omega
    · omega
  rw [charIdx] at h
  dsimp only at h
  split at h
  · cases h
    exact hcut _
  · cases h

theorem click_iff (h : d.Valid) (winW winH mx my : Int) :
  (d.handleClick winW winH mx my).1.Valid ↔ d.Fits (.click winW winH mx my)
  := by
  obtain ⟨hroom, before, after, hcursor⟩ := h
  have hsame : d.Valid := ⟨hroom, before, after, hcursor⟩
  rw [handleClick, Fits]
  by_cases hactive : d.active = false
  · rw [if_pos hactive]
    exact iff_of_true hsame (Or.inl hactive)
  rw [if_neg hactive, or_iff_right hactive]
  cases clickedButton winW winH mx my with
  | cancel => exact iff_of_true hsame (Or.inl (by decide))
  | ok => exact iff_of_true hsame (Or.inl (by decide))
  | none =>
      rw [or_iff_right (fun hne => hne rfl)]
      cases hidx : d.charIdx winW winH mx my with
      | none => exact iff_of_true hsame (fun i hi => by cases hi)
      | some i =>
          have hboundary := hcursor.boundary_iff (charIdx_le hidx)
          constructor
          · rintro ⟨-, hvalid⟩ j hj
            cases hj
            exact hboundary.mp hvalid
          · exact fun hall => ⟨hroom, hboundary.mpr (hall i rfl)⟩

theorem step_iff (h : d.Valid) (a : Action) :
  (d.step a).Valid ↔ d.Fits a
  := by
  cases a with
  | key ascii scancode => exact key_iff h ascii scancode
  | click winW winH mx my => exact click_iff h winW winH mx my

/-! ### The default text -/

/-- What a dialog that has been opened holds of the default text. -/
theorem input_openWith (buffer : Nat → UInt8) (defaultText : CString) {i : Nat} (hi : i < 127) :
  (openWith buffer defaultText).input i = if defaultText.bytes = [] ∧ i ≠ 0 then buffer i
    else defaultText.bytes.getD i 0
  := by
  rw [openWith]
  dsimp only
  rw [Function.update_of_ne (Nat.ne_of_lt hi)]
  by_cases hnil : defaultText.bytes = []
  · rw [if_neg (not_not.mpr hnil)]
    by_cases hzero : i = 0
    · rw [if_neg (fun hcond => hcond.2 hzero), hzero, Function.update_self, hnil]
      rfl
    · rw [if_pos ⟨hnil, hzero⟩, Function.update_of_ne hzero]
  · rw [if_pos hnil, if_neg (fun hcond => hnil hcond.1), strncpy, if_pos hi]

theorem entries_openWith (buffer : Nat → UInt8) (defaultText : CString) :
  Shift.entries (openWith buffer defaultText).input ((defaultText.bytes.take 127).length + 1)
    = defaultText.bytes.take 127 ++ [0]
  := by
  have hlast : (openWith buffer defaultText).input 127 = 0 := by
    simp only [openWith, Function.update_self]
  have hle : (defaultText.bytes.take 127).length ≤ 127 := List.length_take_le 127 _
  have hsize : (defaultText.bytes.take 127 ++ [0]).length = (defaultText.bytes.take 127).length + 1 := by
    rw [List.length_append, List.length_singleton]
  rw [← hsize, Shift.entries_eq_iff]
  intro i hi
  rw [hsize] at hi
  rcases Nat.lt_or_eq_of_le (Nat.le_of_lt_succ hi) with hlt | rfl
  · have hnil : defaultText.bytes ≠ [] := by
      rintro hnil
      rw [hnil] at hlt
      exact absurd hlt (Nat.not_lt_zero i)
    have hindex : i < defaultText.bytes.length := by
      rw [List.length_take] at hlt
      omega
    rw [List.getElem?_append_left hlt, List.getElem?_take_of_lt (by omega),
      input_openWith _ _ (by omega), if_neg (fun hcond => hnil hcond.1), List.getD_eq_getElem?_getD,
      List.getElem?_eq_getElem hindex]
    rfl
  · rw [List.getElem?_append_right (Nat.le_refl _), Nat.sub_self]
    by_cases hfull : (defaultText.bytes.take 127).length = 127
    · rw [hfull, hlast]
      rfl
    · have hlength : defaultText.bytes.length = (defaultText.bytes.take 127).length := by
        rw [List.length_take] at hfull ⊢
        omega
      rw [input_openWith _ _ (by omega), ← hlength, if_neg, List.getD_eq_getElem?_getD,
        List.getElem?_eq_none (Nat.le_refl _)]
      · rfl
      · rintro ⟨hnil, hne⟩
        rw [hnil] at hne
        exact hne rfl

theorem inputLen_openWith (buffer : Nat → UInt8) (defaultText : CString) :
  (openWith buffer defaultText).inputLen = (defaultText.bytes.take 127).length
  := by
  have hle : (defaultText.bytes.take 127).length ≤ 127 := List.length_take_le 127 _
  exact strlen_entries (fun b hb => defaultText.ne_zero b (List.mem_of_mem_take hb))
    (entries_openWith buffer defaultText) (Nat.lt_succ_of_le hle)

theorem openWith_iff (buffer : Nat → UInt8) (defaultText : CString) :
  (openWith buffer defaultText).Valid ↔ DefaultFits defaultText
  := by
  have hlen := inputLen_openWith buffer defaultText
  have hentries := entries_openWith buffer defaultText
  have hle : (defaultText.bytes.take 127).length ≤ 127 := List.length_take_le 127 _
  have hcursor : (openWith buffer defaultText).cursorPos = (openWith buffer defaultText).inputLen := rfl
  rw [Valid, hcursor, hlen]
  constructor
  · rintro ⟨-, before, after, h⟩
    have hsplit := @Cursor.split _ _ _ _ _ h (defaultText.bytes.take 127) []
      (by rw [List.append_nil, hentries]) rfl
    exact ⟨before, hsplit.1.symm⟩
  · rintro ⟨cs, hcs⟩
    refine ⟨Nat.lt_succ_of_le hle, cs, [], ?_, ?_⟩
    · rw [hentries, hcs, Code.text_nil, List.append_nil]
    · rw [hcs]

/-! ### Runs -/

/-- In a run of keys and clicks the text stays valid all the way exactly when the default text fits and
every key and click does. -/
theorem runs_valid_iff (buffer : Nat → UInt8) (defaultText : CString) (actions : List Action) :
  (∀ p, p <+: actions → (p.foldl step (openWith buffer defaultText)).Valid)
    ↔ DefaultFits defaultText ∧ Run.Guarded (fun d a => some (step d a)) Fits
        (openWith buffer defaultText) actions
  := by
  have hkeep (d : FileDialog) (a : Action) (hd : d.Valid) (hfits : d.Fits a) : (d.step a).Valid :=
    (step_iff hd a).mpr hfits
  have hbreak (d : FileDialog) (a : Action) (hd : d.Valid) (hfits : ¬ d.Fits a) : ¬ (d.step a).Valid :=
    fun hvalid => hfits ((step_iff hd a).mp hvalid)
  have hrun (h : (openWith buffer defaultText).Valid) :=
    Run.foldl_invariant_iff hkeep hbreak h actions
  constructor
  · intro hall
    have hopen := hall [] List.nil_prefix
    exact ⟨(openWith_iff buffer defaultText).mp hopen, (hrun hopen).mp hall⟩
  · rintro ⟨hdefault, hguarded⟩
    exact (hrun ((openWith_iff buffer defaultText).mpr hdefault)).mpr hguarded

/-- The letter `a` with an umlaut. -/
def umlaut : Scalar := ⟨0xE4, by decide, by decide, by decide⟩

/-- The left arrow behind a letter of two bytes stops inside it. -/
theorem not_runs_valid :
  ¬ ∀ (buffer : Nat → UInt8) (defaultText : CString) (actions : List Action),
    DefaultFits defaultText →
      ∀ p, p <+: actions → (p.foldl step (openWith buffer defaultText)).Valid
  := by
  intro hall
  let defaultText : CString := .ofBytes [0xC3, 0xA4]
  have hdefault : DefaultFits defaultText := ⟨[umlaut], by decide⟩
  have hleft := hall (fun _ => 0) defaultText [.key 0 0x4B] hdefault _ List.prefix_rfl
  obtain ⟨hroom, before, after, h⟩ := (openWith_iff (fun _ => 0) defaultText).mpr hdefault
  have hfits := (left_iff h hroom).mp hleft
  have hcont : ¬ ((openWith (fun _ => 0) defaultText).cursorPos = 0
      ∨ ¬ IsCont ((openWith (fun _ => 0) defaultText).input
        ((openWith (fun _ => 0) defaultText).cursorPos - 1))) := by decide
  exact hcont hfits

end FileDialog
