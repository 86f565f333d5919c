import Woos.Text.Utf8

/-!
# The file dialog

The dialog in which the notepad asks for a file name: a text of 127 bytes at most with a cursor,
and the mouse clicks and keys that edit it, confirm it or dismiss it.
-/

namespace Notepad

/-- `DIALOG_MODE_NONE`, `DIALOG_MODE_SAVE_AS` and `DIALOG_MODE_OPEN` -/
inductive DialogMode where
  | none
  | saveAs
  | openFile
deriving DecidableEq

/-- `WOOS_DIALOG_RES_NONE`, `WOOS_DIALOG_RES_OK` and `WOOS_DIALOG_RES_CANCEL` -/
inductive DialogResult where
  | none
  | ok
  | cancel
deriving DecidableEq

/-- `woos_file_dialog_t`; the length of `input` is `input_len`. -/
structure Dialog where
  active : Bool
  mode : DialogMode
  input : List UInt8
  cursorPos : Nat

/-- The two bytes that a key between `0x0400` and `0x04FF` types. -/
def cyrillicBytes (ascii : Int) : UInt8 × UInt8 :=
  let code := UInt32.ofNat ascii.toNat
  (Utf8.tagged 0xC0 (code >>> 6) 0x1F, Utf8.tagged 0x80 code 0x3F)

namespace Dialog

/-- `woos_dialog_open` -/
def openWith (mode : DialogMode) (defaultText : List UInt8) : Dialog where
  active := true
  mode := mode
  input := defaultText.take 127
  cursorPos := (defaultText.take 127).length

/-- `woos_dialog_handle_click` -/
def handleClick (d : Dialog) (winW winH mx my : Int) : Dialog × DialogResult :=
  let dw : Int := 380
  let dh : Int := 124
  let dx := (winW - dw).tdiv 2
  let dy := (winH - dh).tdiv 2
  let closeX := dx + dw - 20
  let closeY := dy + 4
  let btnW : Int := 68
  let btnH : Int := 22
  let btnY := dy + dh - 32
  let cancelX := dx + dw - 80
  let okX := dx + dw - 156
  let bx := dx + 16
  let bY := dy + 52
  let bw := dw - 32
  let bh : Int := 24
  if mx ≥ closeX ∧ mx ≤ closeX + 16 ∧ my ≥ closeY ∧ my ≤ closeY + 16 then
    ({ d with active := false }, .cancel)
  else if mx ≥ cancelX ∧ mx ≤ cancelX + btnW ∧ my ≥ btnY ∧ my ≤ btnY + btnH then
    ({ d with active := false }, .cancel)
  else if mx ≥ okX ∧ mx ≤ okX + btnW ∧ my ≥ btnY ∧ my ≤ btnY + btnH then
    ({ d with active := false }, .ok)
  else if mx ≥ bx ∧ mx ≤ bx + bw ∧ my ≥ bY ∧ my ≤ bY + bh then
    let maxVisChars := (bw - 12).tdiv 8
    let scroll := if (d.cursorPos : Int) ≥ maxVisChars then d.cursorPos - maxVisChars + 1 else 0
    let relX := if mx - (bx + 6) < 0 then 0 else mx - (bx + 6)
    let charIdx := scroll + (relX + 4).tdiv 8
    let charIdx := if charIdx < 0 then 0 else charIdx
    let charIdx := if charIdx > d.input.length then (d.input.length : Int) else charIdx
    ({ d with cursorPos := charIdx.toNat }, .none)
  else
    (d, .none)

/-- `woos_dialog_handle_key` -/
def handleKey (d : Dialog) (ascii scancode : Int) : Dialog × DialogResult :=
  if scancode = 0x1C ∨ ascii = 10 ∨ ascii = 13 then
    ({ d with active := false }, .ok)
  else if scancode = 0x01 then
    ({ d with active := false }, .cancel)
  else if scancode = 0x0E ∨ ascii = 8 ∨ ascii = 127 then
    if d.cursorPos > 0 ∧ d.input.length > 0 then
      let del := if d.cursorPos ≥ 2 ∧ d.input.getD (d.cursorPos - 1) 0 &&& 0xC0 = 0x80 then 2 else 1
      ({ d with
        input := d.input.take (d.cursorPos - del) ++ d.input.drop d.cursorPos
        cursorPos := d.cursorPos - del }, .none)
    else
      (d, .none)
  else if scancode = 0x53 then
    if d.cursorPos < d.input.length then
      ({ d with input := d.input.eraseIdx d.cursorPos }, .none)
    else
      (d, .none)
  else if scancode = 0x4B then
    (if d.cursorPos > 0 then { d with cursorPos := d.cursorPos - 1 } else d, .none)
  else if scancode = 0x4D then
    (if d.cursorPos < d.input.length then { d with cursorPos := d.cursorPos + 1 } else d, .none)
  else if scancode = 0x47 then
    ({ d with cursorPos := 0 }, .none)
  else if scancode = 0x4F then
    ({ d with cursorPos := d.input.length }, .none)
  else if ascii ≥ 32 ∧ ascii ≤ 126 then
    if d.input.length + 1 < 128 then
      ({ d with
        input := d.input.insertIdx d.cursorPos (UInt8.ofNat ascii.toNat)
        cursorPos := d.cursorPos + 1 }, .none)
    else
      (d, .none)
  else if ascii ≥ 0x0400 ∧ ascii ≤ 0x04FF then
    if d.input.length + 2 < 128 then
      let (b1, b2) := cyrillicBytes ascii
      ({ d with
        input := d.input.take d.cursorPos ++ b1 :: b2 :: d.input.drop d.cursorPos
        cursorPos := d.cursorPos + 2 }, .none)
    else
      (d, .none)
  else
    (d, .none)

end Dialog

end Notepad
