import Woos.Lib.Run
import Woos.Notepad.Dialog
import Woos.Notepad.Files

/-!
# The notepad

The state of the notepad and what each message of its window does to it: keys, mouse clicks and
moves, the wheel, a new size, and the request to open a file.  A step has no result when the code
reads or writes outside an array: a row that the table does not have, a byte behind a row, or a file
name that is too long for its buffer.
-/

namespace Notepad

/-- What the storage does: the file that is opened for reading, if there is one, and whether a file
can be opened for writing. -/
structure Disk where
  read : Option File
  write : Bool

/-- The global variables of the notepad. -/
structure Editor where
  doc : Document
  cx : Nat
  cy : Nat
  rowOff : Int
  colOff : Int
  winW : Int
  winH : Int
  filename : List UInt8
  isUntitled : Bool
  dialog : Dialog
  isDraggingScrollbar : Bool
  scrollbarDragStartY : Int
  scrollbarDragStartRow : Int

/-- The messages of the window.  `redraw` is the drawing that follows the messages. -/
inductive Message where
  | openFile (path : List UInt8) (disk : Disk)
  | click (x y : Int) (disk : Disk)
  | mouseMove (y : Int)
  | mouseUp
  | keyDown (ascii scancode : Int) (disk : Disk)
  | scroll (dz : Int)
  | resize (newW newH : Int)
  | redraw

/-- The keys that the notepad distinguishes. -/
inductive Key where
  | save
  | enter
  | delete
  | backspace
  | up
  | down
  | left
  | right
  | home
  | endKey
  | pageUp
  | pageDown
  | printable
  | cyrillic
  | other
deriving DecidableEq

/-- The tests of `handle_key`, in their order. -/
def keyOf (ascii scancode : Int) : Key :=
  if ascii = 19 ∨ (ascii = 115 ∧ scancode = 0x1F) then .save
  else if ascii = 10 ∨ ascii = 13 ∨ scancode = 0x1C then .enter
  else if scancode = 0x53 then .delete
  else if ascii = 8 ∨ scancode = 0x0E then .backspace
  else if scancode = 0x48 then .up
  else if scancode = 0x50 then .down
  else if scancode = 0x4B then .left
  else if scancode = 0x4D then .right
  else if scancode = 0x47 then .home
  else if scancode = 0x4F then .endKey
  else if scancode = 0x49 then .pageUp
  else if scancode = 0x51 then .pageDown
  else if ascii ≥ 32 ∧ ascii ≤ 126 then .printable
  else if ascii ≥ 0x0400 ∧ ascii ≤ 0x04FF then .cyrillic
  else .other

/-- `/DESKTOP/` -/
def desktop : List UInt8 := "/DESKTOP/".toList.map (fun c => c.toNat.toUInt8)

/-- `/DESKTOP/UNTITLED.TXT` -/
def untitled : List UInt8 := desktop ++ "UNTITLED.TXT".toList.map (fun c => c.toNat.toUInt8)

/-- The size of `g_filename` and of `open_path`. -/
def pathSize : Nat := 64

namespace Editor

/-- `visible_rows` -/
def visibleRows (e : Editor) : Int := (e.winH - 24 - 20).tdiv 12

/-- `visible_cols` -/
def visibleCols (e : Editor) : Int := (e.winW - 44 - 4).tdiv 8

/-- The largest offset of the rows. -/
def maxScroll (e : Editor) : Int :=
  if (e.doc.numRows : Int) > e.visibleRows then e.doc.numRows - e.visibleRows else 0

/-- `g_rows[i]` and `g_row_len[i]`, when `i` is within the table. -/
def row? (e : Editor) (i : Nat) : Option Row :=
  if i < maxRows then some (e.doc.rows i) else none

/-! ### Files -/

/-- `load_file` -/
def loadFile (e : Editor) (path : List UInt8) (file : Option File) : Editor :=
  match file with
  | none =>
    { e with
      doc := Document.insertRow { e.doc with numRows := 0 } 0 []
      filename := path.take (pathSize - 1) }
  | some file =>
    { e with
      doc := e.doc.load file
      filename := path.take (pathSize - 1)
      cx := 0
      cy := 0
      rowOff := 0
      colOff := 0
      isUntitled := false }

/-- `new_file` -/
def newFile (e : Editor) : Editor :=
  { e with
    doc := Document.insertRow { e.doc with numRows := 0 } 0 []
    cx := 0
    cy := 0
    rowOff := 0
    colOff := 0
    isUntitled := true
    filename := untitled }

/-- `save_file`; what it writes is `e.doc.saved`. -/
def saveFile (e : Editor) (writable : Bool) : Editor :=
  if writable then { e with isUntitled := false } else e

/-- The path that the dialog names, when it fits in its buffer. -/
def dialogPath (e : Editor) : Option (List UInt8) :=
  if e.dialog.input.head? ≠ some 47 then
    if (desktop ++ e.dialog.input).length < pathSize then some (desktop ++ e.dialog.input) else none
  else
    some (e.dialog.input.take (pathSize - 1))

/-- `apply_dialog_result` -/
def applyDialogResult (e : Editor) (disk : Disk) : Option Editor :=
  if e.dialog.input = [] then
    some e
  else
    match e.dialog.mode with
    | .saveAs => e.dialogPath.map fun path =>
      { e with filename := path, isUntitled := false }.saveFile disk.write
    | .openFile => e.dialogPath.map fun path => e.loadFile path disk.read
    | .none => some e

/-- What follows a click or a key in the dialog. -/
def finishDialog (e : Editor) (r : Dialog × DialogResult) (disk : Disk) : Option Editor :=
  if r.2 = .ok then
    applyDialogResult { e with dialog := r.1 } disk
  else
    some { e with dialog := r.1 }

/-! ### The mouse -/

/-- A click on the toolbar. -/
def clickToolbar (e : Editor) (x : Int) (disk : Disk) : Editor :=
  if x ≥ 6 ∧ x ≤ 52 then
    if e.isUntitled then { e with dialog := .openWith .saveAs e.filename } else e.saveFile disk.write
  else if x ≥ 56 ∧ x ≤ 122 then
    { e with dialog := .openWith .saveAs e.filename }
  else if x ≥ 126 ∧ x ≤ 172 then
    { e with dialog := .openWith .openFile desktop }
  else if x ≥ 176 ∧ x ≤ 232 then
    e.loadFile e.filename disk.read
  else
    e

/-- A click on the scroll bar. -/
def clickScrollbar (e : Editor) (y : Int) : Editor :=
  let editorH := e.winH - 24 - 20
  let thumbH := (editorH * e.visibleRows).tdiv e.doc.numRows
  let thumbH := if thumbH < 20 then 20 else thumbH
  let thumbY := 24 + (e.rowOff * (editorH - thumbH)).tdiv e.maxScroll
  if y ≥ thumbY ∧ y ≤ thumbY + thumbH then
    { e with
      isDraggingScrollbar := true
      scrollbarDragStartY := y
      scrollbarDragStartRow := e.rowOff }
  else if y < thumbY then
    let rowOff := e.rowOff - (e.visibleRows - 2)
    { e with rowOff := if rowOff < 0 then 0 else rowOff }
  else
    let rowOff := e.rowOff + (e.visibleRows - 2)
    { e with rowOff := if rowOff > e.maxScroll then e.maxScroll else rowOff }

/-- A click on the text. -/
def clickText (e : Editor) (x y : Int) : Option Editor :=
  if e.doc.numRows = 0 then
    some { e with cx := 0, cy := 0 }
  else
    let clickedRow := e.rowOff + (y - 24).tdiv 12
    let clickedRow := if clickedRow < 0 then 0 else clickedRow
    let cy := if clickedRow ≥ e.doc.numRows then e.doc.numRows - 1 else clickedRow.toNat
    (e.row? cy).map fun row =>
      let textX := x - (44 + 4)
      let clickedCol := if textX > 0 then e.colOff + (textX + 4).tdiv 8 else 0
      let clickedCol := if clickedCol < 0 then 0 else clickedCol
      let cx := if clickedCol > row.len then row.len else clickedCol.toNat
      { e with cx := cx, cy := cy }

/-- `handle_click` -/
def handleClick (e : Editor) (x y : Int) (disk : Disk) : Option Editor :=
  if e.dialog.active then
    e.finishDialog (e.dialog.handleClick e.winW e.winH x y) disk
  else if y < 24 then
    some (e.clickToolbar x disk)
  else if y < e.winH - 20 then
    if e.maxScroll > 0 ∧ x ≥ e.winW - 16 then some (e.clickScrollbar y) else e.clickText x y
  else
    some e

/-- `handle_mouse_move` -/
def handleMouseMove (e : Editor) (y : Int) : Editor :=
  if e.isDraggingScrollbar then
    let editorH := e.winH - 24 - 20
    let thumbH := (editorH * e.visibleRows).tdiv (if e.doc.numRows > 0 then e.doc.numRows else 1)
    let thumbH := if thumbH < 20 then 20 else thumbH
    let trackAvail := editorH - thumbH
    if trackAvail > 0 ∧ e.maxScroll > 0 then
      let dy := y - e.scrollbarDragStartY
      let newRow := e.scrollbarDragStartRow + (dy * e.maxScroll).tdiv trackAvail
      let newRow := if newRow < 0 then 0 else newRow
      { e with rowOff := if newRow > e.maxScroll then e.maxScroll else newRow }
    else
      e
  else
    e

/-! ### Keys -/

/-- The row `cy`, with the column moved to the end of the row when it is behind it. -/
def moveTo (e : Editor) (cy : Nat) : Option Editor :=
  (e.row? cy).map fun row => { e with cy := cy, cx := if e.cx > row.len then row.len else e.cx }

def keyEnter (e : Editor) : Option Editor :=
  (e.row? e.cy).map fun row =>
    let doc :=
      if e.cx ≥ row.len then
        e.doc.insertRow (e.cy + 1) []
      else
        let doc := e.doc.insertRow (e.cy + 1) (row.text.drop e.cx)
        doc.setRow e.cy ((doc.rows e.cy).truncate e.cx)
    { e with doc := doc, cy := e.cy + 1, cx := 0 }

def keyDelete (e : Editor) : Option Editor :=
  (e.row? e.cy).map fun row =>
    if e.cx < row.len then
      { e with doc := e.doc.rowDeleteChar e.cy e.cx }
    else if e.cy < e.doc.numRows - 1 then
      let next := e.doc.rows (e.cy + 1)
      if row.len + next.len < maxCols - 1 then
        { e with doc := (e.doc.setRow e.cy (row.append next)).deleteRow (e.cy + 1) }
      else
        e
    else
      e

/-- The loop of the key Backspace, which deletes `k` bytes before the cursor. -/
def deleteBefore (e : Editor) : (k : Nat) → Editor
  | 0 => e
  | k + 1 =>
    deleteBefore { e with doc := e.doc.rowDeleteChar e.cy (e.cx - 1), cx := e.cx - 1 } k

def keyBackspace (e : Editor) : Option Editor :=
  if e.cx ≥ 2 then
    -- the byte before the cursor tells whether the letter has two
    if e.cx - 1 < maxCols then
      (e.row? e.cy).map fun row =>
        e.deleteBefore (if row.chars (e.cx - 1) &&& 0xC0 = 0x80 then 2 else 1)
    else
      none
  else if e.cx > 0 then
    some (e.deleteBefore 1)
  else if e.cy > 0 then
    (e.row? e.cy).map fun cur =>
      let prev := e.doc.rows (e.cy - 1)
      if prev.len + cur.len < maxCols - 1 then
        { e with
          doc := (e.doc.setRow (e.cy - 1) (prev.append cur)).deleteRow e.cy
          cy := e.cy - 1
          cx := prev.len }
      else
        e
  else
    some e

def keyLeft (e : Editor) : Option Editor :=
  if e.cx > 0 then
    some { e with cx := e.cx - 1 }
  else if e.cy > 0 then
    (e.row? (e.cy - 1)).map fun row => { e with cy := e.cy - 1, cx := row.len }
  else
    some e

def keyRight (e : Editor) : Option Editor :=
  (e.row? e.cy).map fun row =>
    if e.cx < row.len then { e with cx := e.cx + 1 }
    else if e.cy < e.doc.numRows - 1 then { e with cy := e.cy + 1, cx := 0 }
    else e

def keyEnd (e : Editor) : Option Editor :=
  (e.row? e.cy).map fun row => { e with cx := row.len }

def keyPageUp (e : Editor) : Option Editor :=
  let cy := (e.cy : Int) - e.visibleRows
  e.moveTo (if cy < 0 then 0 else cy.toNat)

def keyPageDown (e : Editor) : Option Editor :=
  let cy := (e.cy : Int) + e.visibleRows
  if cy ≥ e.doc.numRows then
    e.moveTo (e.doc.numRows - 1)
  else if cy < 0 then
    none
  else
    e.moveTo cy.toNat

def keyPrintable (e : Editor) (ascii : Int) : Editor :=
  { e with doc := e.doc.rowInsertChar e.cy e.cx (UInt8.ofNat ascii.toNat), cx := e.cx + 1 }

def keyCyrillic (e : Editor) (ascii : Int) : Editor :=
  let (b1, b2) := cyrillicBytes ascii
  { e with
    doc := (e.doc.rowInsertChar e.cy e.cx b1).rowInsertChar e.cy (e.cx + 1) b2
    cx := e.cx + 2 }

/-- `handle_key` when no dialog is open. -/
def pressKey (e : Editor) (ascii : Int) (disk : Disk) : Key → Option Editor
  | .save =>
    some (if e.isUntitled then { e with dialog := .openWith .saveAs e.filename }
      else e.saveFile disk.write)
  | .enter => e.keyEnter
  | .delete => e.keyDelete
  | .backspace => e.keyBackspace
  | .up => e.moveTo (if e.cy > 0 then e.cy - 1 else e.cy)
  | .down => e.moveTo (if e.cy < e.doc.numRows - 1 then e.cy + 1 else e.cy)
  | .left => e.keyLeft
  | .right => e.keyRight
  | .home => some { e with cx := 0 }
  | .endKey => e.keyEnd
  | .pageUp => e.keyPageUp
  | .pageDown => e.keyPageDown
  | .printable => some (e.keyPrintable ascii)
  | .cyrillic => some (e.keyCyrillic ascii)
  | .other => some e

/-- `handle_key` -/
def handleKey (e : Editor) (ascii scancode : Int) (disk : Disk) : Option Editor :=
  if e.dialog.active then
    e.finishDialog (e.dialog.handleKey ascii scancode) disk
  else
    e.pressKey ascii disk (keyOf ascii scancode)

/-! ### Messages -/

/-- `scroll` -/
def scroll (e : Editor) : Editor :=
  let rowOff := if (e.cy : Int) < e.rowOff then (e.cy : Int) else e.rowOff
  let rowOff := if e.cy ≥ rowOff + e.visibleRows then e.cy - e.visibleRows + 1 else rowOff
  let colOff := if (e.cx : Int) < e.colOff then (e.cx : Int) else e.colOff
  let colOff := if e.cx ≥ colOff + e.visibleCols then e.cx - e.visibleCols + 1 else colOff
  { e with rowOff := rowOff, colOff := colOff }

/-- What the loop of `_start` does for a message. -/
def step (e : Editor) : Message → Option Editor
  | .openFile path disk => some (e.loadFile path disk.read)
  | .click x y disk => e.handleClick x y disk
  | .mouseMove y => some (e.handleMouseMove y)
  | .mouseUp => some { e with isDraggingScrollbar := false }
  | .keyDown ascii scancode disk => e.handleKey ascii scancode disk
  | .scroll dz =>
    let rowOff := if e.rowOff - dz * 3 < 0 then 0 else e.rowOff - dz * 3
    some { e with rowOff := if rowOff > e.maxScroll then e.maxScroll else rowOff }
  | .resize newW newH =>
    if newW > 0 ∧ newH > 0 then
      some { e with
        winW := if newW > 1280 then 1280 else newW
        winH := if newH > 1024 then 1024 else newH }
    else
      some e
  | .redraw => some e.scroll

/-- The variables when the program starts. -/
def boot : Editor where
  doc := { rows := fun _ => { chars := fun _ => 0, len := 0 }, numRows := 0 }
  cx := 0
  cy := 0
  rowOff := 0
  colOff := 0
  winW := 580
  winH := 380
  filename := untitled
  isUntitled := true
  dialog := { active := false, mode := .none, input := [], cursorPos := 0 }
  isDraggingScrollbar := false
  scrollbarDragStartY := 0
  scrollbarDragStartRow := 0

/-- The editor when its loop begins: with the file that it was asked to open, or a new one. -/
def start : Option (List UInt8 × Disk) → Editor
  | some (path, disk) => boot.loadFile path disk.read
  | none => boot.newFile

end Editor

end Notepad
