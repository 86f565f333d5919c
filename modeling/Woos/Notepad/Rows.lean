import Woos.Lib.Shift

/-!
# The rows of the notepad

The table in which the notepad keeps its document: `MAX_ROWS` rows of `MAX_COLS` bytes with their
lengths, and the operations on it that every key uses.  `Document.lines` is the document that the
table holds, a list of lines, and each operation is an operation on this list.
-/

namespace Notepad

open Shift

/-- `MAX_ROWS` -/
def maxRows : Nat := 1000

/-- `MAX_COLS` -/
def maxCols : Nat := 256

/-- `g_rows[i]` and `g_row_len[i]` -/
structure Row where
  chars : Nat → UInt8
  len : Nat

/-- `g_rows`, `g_row_len` and `g_num_rows` -/
structure Document where
  rows : Nat → Row
  numRows : Nat

namespace Row

/-- The bytes of a row before its NUL. -/
def text (row : Row) : List UInt8 := entries row.chars row.len

/-- The row that `row_insert_char` leaves. -/
def insertChar (row : Row) (atCol : Nat) (c : UInt8) : Row :=
  if row.len ≥ maxCols - 2 then
    row
  else
    let atCol := if atCol > row.len then row.len else atCol
    let chars := Function.update (shiftUp row.chars atCol row.len) atCol c
    { chars := Function.update chars (row.len + 1) 0, len := row.len + 1 }

/-- The row that `row_delete_char` leaves. -/
def deleteChar (row : Row) (atCol : Nat) : Row :=
  if atCol ≥ row.len then
    row
  else
    let chars := shiftDown row.chars atCol (row.len - 1 - atCol)
    { chars := Function.update chars (row.len - 1) 0, len := row.len - 1 }

/-- A row to which the bytes of another are appended, as the keys do that join two rows. -/
def append (row next : Row) : Row :=
  let chars := copy row.chars row.len next.text
  { chars := Function.update chars (row.len + next.len) 0, len := row.len + next.len }

/-- A row that is cut off at `atCol`. -/
def truncate (row : Row) (atCol : Nat) : Row :=
  { chars := Function.update row.chars atCol 0, len := atCol }

/-- The row that `insert_row` fills with the bytes of `s`. -/
def fill (row : Row) (s : List UInt8) : Row :=
  let len := if s.length ≥ maxCols then maxCols - 1 else s.length
  { chars := Function.update (copy row.chars 0 (s.take len)) len 0, len := len }

/-- The length is two less than the capacity at most, and a NUL is behind the last byte. -/
structure Ok (row : Row) : Prop where
  len_le : row.len ≤ maxCols - 2
  terminated : row.chars row.len = 0

end Row

namespace Document

/-- The table with another row at `r`. -/
def setRow (d : Document) (r : Nat) (row : Row) : Document :=
  { d with rows := Function.update d.rows r row }

/-- `row_insert_char` -/
def rowInsertChar (d : Document) (atRow atCol : Nat) (c : UInt8) : Document :=
  if atRow ≥ maxRows then
    d
  else
    d.setRow atRow ((d.rows atRow).insertChar atCol c)

/-- `row_delete_char` -/
def rowDeleteChar (d : Document) (atRow atCol : Nat) : Document :=
  if atRow ≥ d.numRows then
    d
  else
    d.setRow atRow ((d.rows atRow).deleteChar atCol)

/-- `insert_row` -/
def insertRow (d : Document) (atRow : Nat) (s : List UInt8) : Document :=
  if d.numRows ≥ maxRows - 1 ∨ atRow > d.numRows then
    d
  else
    let rows := shiftUp d.rows atRow d.numRows
    { rows := Function.update rows atRow ((rows atRow).fill s), numRows := d.numRows + 1 }

/-- `delete_row` -/
def deleteRow (d : Document) (atRow : Nat) : Document :=
  if atRow ≥ d.numRows then
    d
  else
    let d : Document :=
      { rows := shiftDown d.rows atRow (d.numRows - 1 - atRow), numRows := d.numRows - 1 }
    if d.numRows = 0 then d.insertRow 0 [] else d

/-- The document that the table holds. -/
def lines (d : Document) : List (List UInt8) := (entries d.rows d.numRows).map Row.text

/-- Every row of the table is well formed. -/
def RowsOk (d : Document) : Prop := ∀ r < maxRows, (d.rows r).Ok

/-- The rows are well formed, and their number is within the table. -/
structure Ok (d : Document) : Prop where
  rowsOk : d.RowsOk
  pos : 0 < d.numRows
  lt : d.numRows < maxRows

end Document

/-! ### Rows -/

namespace Row

@[simp]
theorem length_text (row : Row) :
  row.text.length = row.len
  := length_entries row.chars row.len

theorem insertChar_text {row : Row} (hlen : row.len < maxCols - 2) (atCol : Nat) (c : UInt8) :
  (row.insertChar atCol c).text = row.text.insertIdx (min atCol row.len) c
  := by
  have hmin : (if atCol > row.len then row.len else atCol) = min atCol row.len := by
    split
    · omega
    · omega
  rw [insertChar, if_neg (by omega), text]
  dsimp only
  rw [hmin, entries_update_ge _ (Nat.le_refl _)]
  apply entries_shiftUp _ (Nat.min_le_right atCol row.len)

theorem insertChar_len (row : Row) (atCol : Nat) (c : UInt8) :
  (row.insertChar atCol c).len = if row.len < maxCols - 2 then row.len + 1 else row.len
  := by
  rw [insertChar]
  by_cases h : row.len < maxCols - 2
  · rw [if_neg (by omega), if_pos h]
  · rw [if_pos (by omega), if_neg h]

theorem Ok.insertChar {row : Row} (h : row.Ok) (atCol : Nat) (c : UInt8) :
  (row.insertChar atCol c).Ok
  := by
  rw [Row.insertChar]
  split
  · exact h
  · constructor
    · dsimp only
      omega
    · apply Function.update_self

theorem deleteChar_text {row : Row} {atCol : Nat} (h : atCol < row.len) :
  (row.deleteChar atCol).text = row.text.eraseIdx atCol
  := by
  rw [deleteChar, if_neg (by omega), text]
  dsimp only
  rw [entries_update_ge _ (Nat.le_refl _)]
  apply entries_shiftDown _ h

theorem deleteChar_len (row : Row) (atCol : Nat) :
  (row.deleteChar atCol).len = if atCol < row.len then row.len - 1 else row.len
  := by
  rw [deleteChar]
  split
  · rw [if_neg (by omega)]
  · rw [if_pos (by omega)]

theorem Ok.deleteChar {row : Row} (h : row.Ok) (atCol : Nat) :
  (row.deleteChar atCol).Ok
  := by
  have hle := h.len_le
  rw [Row.deleteChar]
  split
  · exact h
  · constructor
    · dsimp only
      omega
    · apply Function.update_self

theorem append_text (row next : Row) :
  (row.append next).text = row.text ++ next.text
  := by
  rw [append, text]
  dsimp only
  rw [entries_update_ge _ (Nat.le_refl _), ← next.length_text, entries_copy]
  rfl

theorem Ok.append {row next : Row} (hlen : row.len + next.len < maxCols - 1) :
  (row.append next).Ok
  := by
  constructor
  · exact Nat.le_of_lt_succ hlen
  · apply Function.update_self

theorem truncate_text {row : Row} {atCol : Nat} (h : atCol ≤ row.len) :
  (row.truncate atCol).text = row.text.take atCol
  := by
  have hsplit := entries_add row.chars atCol (row.len - atCol)
  rw [Nat.add_sub_cancel' h] at hsplit
  rw [truncate, text, text, hsplit, entries_update_ge _ (Nat.le_refl _),
    List.take_left' (length_entries _ _)]

theorem Ok.truncate {row : Row} (h : row.Ok) {atCol : Nat} (hle : atCol ≤ row.len) :
  (row.truncate atCol).Ok
  := by
  constructor
  · exact Nat.le_trans hle h.len_le
  · apply Function.update_self

theorem fill_text (row : Row) {s : List UInt8} (h : s.length < maxCols) :
  (row.fill s).text = s
  := by
  rw [fill, if_neg (by omega), text]
  dsimp only
  rw [entries_update_ge _ (Nat.le_refl _), List.take_length]
  have hcopy := entries_copy row.chars 0 s
  rw [Nat.zero_add] at hcopy
  exact hcopy

theorem Ok.fill (row : Row) {s : List UInt8} (h : s.length ≤ maxCols - 2) :
  (row.fill s).Ok
  := by
  have hlt : s.length < maxCols := Nat.lt_of_le_of_lt h (by decide)
  rw [Row.fill, if_neg (Nat.not_le_of_lt hlt)]
  constructor
  · exact h
  · apply Function.update_self

end Row

namespace Document

@[simp]
theorem length_lines (d : Document) :
  d.lines.length = d.numRows
  := by
  simp [lines]

theorem getElem_lines (d : Document) {r : Nat} (h : r < d.lines.length) :
  d.lines[r] = (d.rows r).text
  := by
  simp [lines]

theorem getElem?_lines (d : Document) {r : Nat} (h : r < d.numRows) :
  d.lines[r]? = some (d.rows r).text
  := by
  have hlines : r < d.lines.length := by simpa using h
  rw [List.getElem?_eq_getElem hlines, getElem_lines]

theorem numRows_of_lines {d d' : Document} (h : d.lines = d'.lines) :
  d.numRows = d'.numRows
  := by rw [← length_lines, h, length_lines]

/-- The rows of a document have the lengths of its lines. -/
theorem len_of_lines {d d' : Document} (h : d.lines = d'.lines) {r : Nat} (hr : r < d.numRows) :
  (d.rows r).len = (d'.rows r).len
  := by
  have htext := d.getElem?_lines hr
  rw [h, d'.getElem?_lines (numRows_of_lines h ▸ hr)] at htext
  rw [← Row.length_text, ← Row.length_text, Option.some.inj htext]

/-! ### One row -/

@[simp]
theorem setRow_numRows (d : Document) (r : Nat) (row : Row) :
  (d.setRow r row).numRows = d.numRows
  := rfl

@[simp]
theorem setRow_rows_self (d : Document) (r : Nat) (row : Row) :
  (d.setRow r row).rows r = row
  := by
  dsimp only [setRow]
  rw [Function.update_self]

theorem setRow_rows_of_ne (d : Document) {r j : Nat} (row : Row) (h : j ≠ r) :
  (d.setRow r row).rows j = d.rows j
  := by
  dsimp only [setRow]
  rw [Function.update_of_ne h]

theorem setRow_lines (d : Document) (r : Nat) (row : Row) :
  (d.setRow r row).lines = d.lines.set r row.text
  := by
  rw [lines, setRow, entries_update, List.map_set]
  rfl

theorem RowsOk.setRow {d : Document} (h : d.RowsOk) {r : Nat} {row : Row} (hrow : row.Ok) :
  (d.setRow r row).RowsOk
  := by
  intro j hj
  by_cases hjr : j = r
  · rw [hjr, setRow_rows_self]
    exact hrow
  · rw [setRow_rows_of_ne d row hjr]
    apply h j hj

theorem Ok.setRow {d : Document} (h : d.Ok) {r : Nat} {row : Row} (hrow : row.Ok) :
  (d.setRow r row).Ok
  := ⟨h.rowsOk.setRow hrow, h.pos, h.lt⟩

theorem rowInsertChar_eq (d : Document) {atRow : Nat} (h : atRow < maxRows) (atCol : Nat)
    (c : UInt8) :
  d.rowInsertChar atRow atCol c = d.setRow atRow ((d.rows atRow).insertChar atCol c)
  := if_neg (by omega)

theorem rowDeleteChar_eq (d : Document) {atRow : Nat} (h : atRow < d.numRows) (atCol : Nat) :
  d.rowDeleteChar atRow atCol = d.setRow atRow ((d.rows atRow).deleteChar atCol)
  := if_neg (by omega)

theorem Ok.rowInsertChar {d : Document} (h : d.Ok) (atRow atCol : Nat) (c : UInt8) :
  (d.rowInsertChar atRow atCol c).Ok
  := by
  rw [Document.rowInsertChar]
  split
  · exact h
  · apply h.setRow
    apply Row.Ok.insertChar
    apply h.rowsOk
    omega

theorem Ok.rowDeleteChar {d : Document} (h : d.Ok) (atRow atCol : Nat) :
  (d.rowDeleteChar atRow atCol).Ok
  := by
  have hlt := h.lt
  rw [Document.rowDeleteChar]
  split
  · exact h
  · apply h.setRow
    apply Row.Ok.deleteChar
    apply h.rowsOk
    omega

theorem set_text (d : Document) {r : Nat} (h : r < d.numRows) (f : List UInt8 → List UInt8) :
  d.lines.set r (f (d.rows r).text) = d.lines.modify r f
  := by
  rw [List.modify_eq_set, getElem?_lines d h]
  rfl

theorem rowDeleteChar_len {d : Document} {atRow : Nat} (h : atRow < d.numRows) (atCol : Nat) :
  ((d.rowDeleteChar atRow atCol).rows atRow).len
    = if atCol < (d.rows atRow).len then (d.rows atRow).len - 1 else (d.rows atRow).len
  := by
  rw [rowDeleteChar_eq d h, setRow_rows_self, Row.deleteChar_len]

/-- A byte is inserted in a line that is not full. -/
theorem rowInsertChar_lines {d : Document} {atRow : Nat} (h : atRow < d.numRows) (hlt : atRow < maxRows)
    {atCol : Nat} (hcol : atCol ≤ (d.rows atRow).len) (hlen : (d.rows atRow).len < maxCols - 2) (c : UInt8) :
  (d.rowInsertChar atRow atCol c).lines = d.lines.modify atRow (·.insertIdx atCol c)
  := by
  rw [rowInsertChar_eq d hlt, setRow_lines, Row.insertChar_text hlen, Nat.min_eq_left hcol,
    d.set_text h (·.insertIdx atCol c)]

/-- A byte is deleted from a line. -/
theorem rowDeleteChar_lines {d : Document} {atRow : Nat} (h : atRow < d.numRows) {atCol : Nat}
    (hcol : atCol < (d.rows atRow).len) :
  (d.rowDeleteChar atRow atCol).lines = d.lines.modify atRow (·.eraseIdx atCol)
  := by
  rw [rowDeleteChar_eq d h, setRow_lines, Row.deleteChar_text hcol, d.set_text h (·.eraseIdx atCol)]

/-! ### All rows -/

theorem insertRow_refused {d : Document} {atRow : Nat} {s : List UInt8}
    (h : d.numRows ≥ maxRows - 1 ∨ atRow > d.numRows) :
  d.insertRow atRow s = d
  := if_pos h

section InsertRow

variable {d : Document} {atRow : Nat} {s : List UInt8}

theorem insertRow_numRows (hroom : d.numRows < maxRows - 1) (hat : atRow ≤ d.numRows) :
  (d.insertRow atRow s).numRows = d.numRows + 1
  := by
  rw [insertRow, if_neg (by omega)]

theorem insertRow_rows (hroom : d.numRows < maxRows - 1) (hat : atRow ≤ d.numRows) :
  (d.insertRow atRow s).rows
    = Function.update (shiftUp d.rows atRow d.numRows) atRow
      ((shiftUp d.rows atRow d.numRows atRow).fill s)
  := by
  rw [insertRow, if_neg (by omega)]

theorem insertRow_rows_lt {r : Nat} (hr : r < atRow) :
  (d.insertRow atRow s).rows r = d.rows r
  := by
  rw [insertRow]
  split
  · rfl
  · dsimp only
    rw [Function.update_of_ne (by omega), shiftUp_apply, if_neg (by omega)]

theorem insertRow_lines (hroom : d.numRows < maxRows - 1) (hat : atRow ≤ d.numRows)
    (hlen : s.length < maxCols) :
  (d.insertRow atRow s).lines = d.lines.insertIdx atRow s
  := by
  rw [lines, insertRow_numRows hroom hat, insertRow_rows hroom hat, entries_shiftUp _ hat,
    List.map_insertIdx, Row.fill_text _ hlen]
  rfl

theorem RowsOk.insertRow (h : d.RowsOk) (hlen : s.length ≤ maxCols - 2) :
  (d.insertRow atRow s).RowsOk
  := by
  intro j hj
  rw [Document.insertRow]
  split
  · apply h j hj
  · dsimp only
    by_cases hat : j = atRow
    · rw [hat, Function.update_self]
      apply Row.Ok.fill _ hlen
    · rw [Function.update_of_ne hat, shiftUp_apply]
      split
      · apply h
        omega
      · apply h j hj

theorem Ok.insertRow (h : d.Ok) (hlen : s.length ≤ maxCols - 2) :
  (d.insertRow atRow s).Ok
  := by
  constructor
  · apply h.rowsOk.insertRow hlen
  · rw [Document.insertRow]
    split
    · exact h.pos
    · apply Nat.succ_pos
  · rw [Document.insertRow]
    split
    · exact h.lt
    · dsimp only
      omega

end InsertRow

theorem RowsOk.shiftDown {d : Document} (h : d.RowsOk) (hlt : d.numRows < maxRows) (atRow n : Nat) :
  RowsOk { rows := Shift.shiftDown d.rows atRow (d.numRows - 1 - atRow), numRows := n }
  := by
  intro j hj
  dsimp only
  rw [shiftDown_apply]
  split
  · apply h
    omega
  · apply h j hj

theorem Ok.deleteRow {d : Document} (h : d.Ok) (atRow : Nat) :
  (d.deleteRow atRow).Ok
  := by
  have hrows := h.rowsOk.shiftDown h.lt atRow (d.numRows - 1)
  have hlt := h.lt
  rw [Document.deleteRow]
  dsimp only
  split
  · exact h
  · split
    · rename_i hzero
      rw [hzero] at hrows ⊢
      have hroom : 0 < maxRows - 1 := by decide
      constructor
      · apply hrows.insertRow
        decide
      · rw [insertRow_numRows hroom (Nat.zero_le _)]
        apply Nat.succ_pos
      · rw [insertRow_numRows hroom (Nat.zero_le _)]
        exact Nat.succ_lt_succ hroom
    · constructor
      · exact hrows
      · exact Nat.pos_of_ne_zero ‹_›
      · dsimp only
        omega

/-- The deletion of one row of several. -/
theorem deleteRow_eq {d : Document} {atRow : Nat} (h : atRow < d.numRows) (hmore : 1 < d.numRows) :
  d.deleteRow atRow
    = { rows := Shift.shiftDown d.rows atRow (d.numRows - 1 - atRow), numRows := d.numRows - 1 }
  := by
  rw [deleteRow, if_neg (by omega)]
  dsimp only
  rw [if_neg (by omega)]

theorem deleteRow_lines {d : Document} {atRow : Nat} (h : atRow < d.numRows) (hmore : 1 < d.numRows) :
  (d.deleteRow atRow).lines = d.lines.eraseIdx atRow
  := by
  rw [deleteRow_eq h hmore, lines, entries_shiftDown _ h, ← List.eraseIdx_map]
  rfl

end Document

end Notepad
