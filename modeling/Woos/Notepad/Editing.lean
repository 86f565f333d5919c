import Mathlib.Data.List.Flatten
import Woos.Notepad.Table

/-!
# Editing

In every run whose steps meet the condition `Editor.Guard` the cursor stays within the document, and
only Backspace, Delete and the loading of a file remove text: `Editor.editing_state`.  The condition
rules out the typing at the end of a full row, Enter in a full document, a file that cannot be opened
while the cursor is elsewhere than at the start, a window without a row to turn pages by, and a file
name that is too long for its buffer.
-/

namespace Notepad

/-! ### Text -/

namespace Document

/-- A line that grows. -/
theorem flatMap_sublist_set {ls : List (List UInt8)} {r : Nat} (hr : r < ls.length) {t : List UInt8}
    (ht : ls[r].Sublist t) :
  (ls.flatMap (· ++ [10])).Sublist ((ls.set r t).flatMap (· ++ [10]))
  := by
  induction ls generalizing r with
  | nil => cases hr
  | cons l ls ih =>
      cases r with
      | zero =>
          rw [List.set_cons_zero, List.flatMap_cons, List.flatMap_cons]
          apply List.Sublist.append_right
          apply ht.append_right
      | succ r =>
          rw [List.set_cons_succ, List.flatMap_cons, List.flatMap_cons]
          apply List.Sublist.append_left
          apply ih (Nat.lt_of_succ_lt_succ hr) ht

/-- A line that is split in two. -/
theorem flatMap_sublist_split {ls : List (List UInt8)} {r : Nat} (hr : r < ls.length) (c : Nat) :
  (ls.flatMap (· ++ [10])).Sublist
    (((ls.insertIdx (r + 1) (ls[r].drop c)).set r (ls[r].take c)).flatMap (· ++ [10]))
  := by
  induction ls generalizing r with
  | nil => cases hr
  | cons l ls ih =>
      rw [List.insertIdx_succ_cons]
      cases r with
      | zero =>
          rw [List.insertIdx_zero, List.set_cons_zero, List.getElem_cons_zero, List.flatMap_cons,
            List.flatMap_cons, List.flatMap_cons, ← List.append_assoc]
          apply List.Sublist.append_right
          have hsplit : l ++ [10] = l.take c ++ (l.drop c ++ [10]) := by
            rw [← List.append_assoc, List.take_append_drop]
          rw [hsplit]
          apply List.Sublist.append
          · apply List.sublist_append_left
          · apply List.Sublist.refl
      | succ r =>
          rw [List.set_cons_succ, List.flatMap_cons, List.flatMap_cons]
          apply List.Sublist.append_left
          apply ih (Nat.lt_of_succ_lt_succ hr)

theorem insertChar_sublist (row : Row) (atCol : Nat) (c : UInt8) :
  row.text.Sublist (row.insertChar atCol c).text
  := by
  by_cases hlen : row.len < maxCols - 2
  · rw [Row.insertChar_text hlen]
    apply List.sublist_insertIdx
  · rw [Row.insertChar, if_pos (Nat.le_of_not_lt hlen)]

theorem rowInsertChar_saved {d : Document} (h : d.Ok) {atRow : Nat} (hrow : atRow < d.numRows)
    (atCol : Nat) (c : UInt8) :
  d.saved.Sublist (d.rowInsertChar atRow atCol c).saved
  := by
  rw [rowInsertChar_eq d (Nat.lt_trans hrow h.lt), saved_eq, saved_eq, setRow_lines]
  apply flatMap_sublist_set (by simpa using hrow)
  rw [getElem_lines]
  apply insertChar_sublist

theorem insertRow_saved (d : Document) (atRow : Nat) :
  d.saved.Sublist (d.insertRow atRow []).saved
  := by
  by_cases h : d.numRows ≥ maxRows - 1 ∨ atRow > d.numRows
  · rw [insertRow_refused h]
  · rw [saved_eq, saved_eq, insertRow_lines (by omega) (by omega) (by decide)]
    apply List.Sublist.flatMap
    apply List.sublist_insertIdx

/-- Splitting a row keeps the text when there is room for one more row. -/
theorem split_saved {d : Document} (h : d.Ok) {cy cx : Nat} (hcy : cy < d.numRows)
    (hcx : cx ≤ (d.rows cy).len) (hroom : d.numRows < maxRows - 1) :
  d.saved.Sublist
    ((d.insertRow (cy + 1) ((d.rows cy).text.drop cx)).setRow cy ((d.rows cy).truncate cx)).saved
  := by
  have hlen : ((d.rows cy).text.drop cx).length < maxCols := by
    have hle := (h.rowsOk cy (Nat.lt_trans hcy h.lt)).len_le
    rw [List.length_drop, Row.length_text]
    have hcols : maxCols - 2 < maxCols := by decide
    omega
  have hlines : cy < d.lines.length := by simpa using hcy
  rw [saved_eq, saved_eq, setRow_lines, insertRow_lines hroom hcy hlen, Row.truncate_text hcx,
    ← d.getElem_lines hlines]
  apply flatMap_sublist_split hlines

end Document

/-! ### The dialog -/

namespace Dialog

/-- A click keeps the text of the dialog. -/
theorem handleClick_input (d : Dialog) (winW winH mx my : Int) :
  (d.handleClick winW winH mx my).1.input = d.input
    ∧ (d.handleClick winW winH mx my).1.mode = d.mode
  := by
  unfold handleClick
  extract_lets
  split
  · exact ⟨rfl, rfl⟩
  split
  · exact ⟨rfl, rfl⟩
  split
  · exact ⟨rfl, rfl⟩
  split
  · exact ⟨rfl, rfl⟩
  · exact ⟨rfl, rfl⟩

/-- No other key than Enter confirms the dialog. -/
theorem handleKey_ne_ok (d : Dialog) {ascii scancode : Int}
    (h : ¬ (scancode = 0x1C ∨ ascii = 10 ∨ ascii = 13)) :
  (d.handleKey ascii scancode).2 ≠ .ok
  := by
  have hite {c : Prop} [Decidable c] {a b : Dialog × DialogResult} (ha : a.2 ≠ .ok)
      (hb : b.2 ≠ .ok) : (if c then a else b).2 ≠ .ok := by
    split
    · exact ha
    · exact hb
  have hcancel : DialogResult.cancel ≠ .ok := nofun
  have hnone : DialogResult.none ≠ .ok := nofun
  rw [handleKey, if_neg h]
  apply hite hcancel
  apply hite (hite hnone hnone)
  apply hite (hite hnone hnone)
  apply hite hnone
  apply hite hnone
  apply hite hnone
  apply hite hnone
  apply hite (hite hnone hnone)
  exact hite (hite hnone hnone) hnone

/-- The key that confirms the dialog keeps its text. -/
theorem handleKey_ok {d : Dialog} {ascii scancode : Int} (h : (d.handleKey ascii scancode).2 = .ok) :
  (d.handleKey ascii scancode).1.input = d.input ∧ (d.handleKey ascii scancode).1.mode = d.mode
  := by
  by_cases henter : scancode = 0x1C ∨ ascii = 10 ∨ ascii = 13
  · rw [handleKey, if_pos henter]
    exact ⟨rfl, rfl⟩
  · exact absurd h (handleKey_ne_ok d henter)

end Dialog

namespace Editor

/-! ### The cursor -/

/-- The table is well formed and the cursor is within the document. -/
structure Valid (e : Editor) : Prop where
  docOk : e.doc.Ok
  cy_lt : e.cy < e.doc.numRows
  cx_le : e.cx ≤ (e.doc.rows e.cy).len

theorem row?_of_lt {e : Editor} (h : e.doc.Ok) {i : Nat} (hi : i < e.doc.numRows) :
  e.row? i = some (e.doc.rows i)
  := row?_eq_some.mpr ⟨Nat.lt_trans hi h.lt, rfl⟩

theorem Valid.row? {e : Editor} (h : e.Valid) :
  e.row? e.cy = some (e.doc.rows e.cy)
  := row?_of_lt h.docOk h.cy_lt

theorem Valid.moveTo {e : Editor} (h : e.Valid) {cy : Nat} (hcy : cy < e.doc.numRows) :
  ∃ e', e.moveTo cy = some e' ∧ e'.Valid
  := by
  use { e with cy := cy, cx := if e.cx > (e.doc.rows cy).len then (e.doc.rows cy).len else e.cx }
  constructor
  · rw [Editor.moveTo, row?_of_lt h.docOk hcy]
    rfl
  · constructor
    · exact h.docOk
    · exact hcy
    · dsimp only
      split
      · apply Nat.le_refl
      · omega

theorem loadFile_valid {e : Editor} (h : e.doc.RowsOk) (path : List UInt8) {file : Option File}
    (hopen : file ≠ none ∨ e.cx = 0 ∧ e.cy = 0) :
  (e.loadFile path file).Valid
  := by
  have hok := loadFile_docOk h path file
  have hcursor : (e.loadFile path file).cx = 0 ∧ (e.loadFile path file).cy = 0 := by
    cases file with
    | none =>
        cases hopen with
        | inl hne => contradiction
        | inr hzero => exact hzero
    | some file => exact ⟨rfl, rfl⟩
  constructor
  · exact hok
  · rw [hcursor.2]
    exact hok.pos
  · rw [hcursor.1]
    apply Nat.zero_le

/-! ### Keys -/

theorem Valid.keyEnter {e : Editor} (h : e.Valid)
    (hroom : e.doc.numRows < maxRows - 1
      ∨ (e.doc.rows e.cy).len ≤ e.cx ∧ e.cy + 1 < e.doc.numRows) :
  ∃ e', e.keyEnter = some e' ∧ e'.Valid ∧ e.doc.saved.Sublist e'.doc.saved
  := by
  obtain ⟨e', he'⟩ : ∃ e', e.keyEnter = some e' := by
    rw [Editor.keyEnter, h.row?]
    exact ⟨_, rfl⟩
  have hok := keyEnter_docOk h.docOk he'
  use e', he'
  rw [Editor.keyEnter, h.row?] at he'
  cases he'
  dsimp only at hok ⊢
  constructor
  · constructor
    · exact hok
    · dsimp only
      split
      · rw [Document.insertRow]
        split
        · rename_i hcond
          cases hroom with
          | inl hlt =>
              have hcy := h.cy_lt
              omega
          | inr hfull => exact hfull.2
        · exact Nat.succ_lt_succ h.cy_lt
      · rename_i hcx
        have hlt : e.doc.numRows < maxRows - 1 := by omega
        rw [Document.setRow_numRows, Document.insertRow_numRows hlt h.cy_lt]
        exact Nat.succ_lt_succ h.cy_lt
    · apply Nat.zero_le
  · split
    · apply Document.insertRow_saved
    · rename_i hcx
      have hlt : e.doc.numRows < maxRows - 1 := by omega
      rw [Document.insertRow_rows_lt (Nat.lt_succ_self _)]
      apply Document.split_saved h.docOk h.cy_lt h.cx_le hlt

/-- A byte is deleted from the row of the cursor. -/
theorem Valid.rowDeleteChar {e : Editor} (h : e.Valid) {atCol cx : Nat}
    (hat : atCol < (e.doc.rows e.cy).len) (hcx : cx < (e.doc.rows e.cy).len) :
  Valid { e with doc := e.doc.rowDeleteChar e.cy atCol, cx := cx }
  := by
  rw [Document.rowDeleteChar_eq _ h.cy_lt]
  constructor
  · apply h.docOk.setRow
    apply Row.Ok.deleteChar
    apply h.docOk.rowsOk _ (Nat.lt_trans h.cy_lt h.docOk.lt)
  · exact h.cy_lt
  · dsimp only
    rw [Document.setRow_rows_self, Row.deleteChar_len, if_pos hat]
    omega

/-- A row is joined with the row before it. -/
theorem Valid.join {e : Editor} (h : e.doc.Ok) {cy : Nat} (hcy : cy + 1 < e.doc.numRows) {cx : Nat}
    (hcx : cx ≤ (e.doc.rows cy).len)
    (hlen : (e.doc.rows cy).len + (e.doc.rows (cy + 1)).len < maxCols - 1) :
  Valid { e with
    doc := (e.doc.setRow cy ((e.doc.rows cy).append (e.doc.rows (cy + 1)))).deleteRow (cy + 1)
    cy := cy
    cx := cx }
  := by
  have hjoined := h.setRow (r := cy) (Row.Ok.append hlen)
  have hmore : 1 < e.doc.numRows := by omega
  have hdelete := @Document.deleteRow_eq
    (e.doc.setRow cy ((e.doc.rows cy).append (e.doc.rows (cy + 1)))) (cy + 1) hcy hmore
  constructor
  · apply hjoined.deleteRow
  · dsimp only
    rw [hdelete]
    exact Nat.lt_sub_of_add_lt hcy
  · dsimp only
    rw [hdelete]
    dsimp only
    rw [Shift.shiftDown_apply, if_neg (by omega), Document.setRow_rows_self]
    exact Nat.le_trans hcx (Nat.le_add_right _ _)

theorem Valid.keyDelete {e : Editor} (h : e.Valid) :
  ∃ e', e.keyDelete = some e' ∧ e'.Valid
  := by
  rw [Editor.keyDelete, h.row?]
  refine ⟨_, rfl, ?_⟩
  dsimp only
  split
  · apply h.rowDeleteChar ‹_› ‹_›
  · split
    · split
      · apply Valid.join h.docOk _ h.cx_le ‹_›
        omega
      · exact h
    · exact h

theorem Valid.deleteBefore {e : Editor} (h : e.Valid) {k : Nat} (hk : k ≤ e.cx) :
  (e.deleteBefore k).Valid
  := by
  induction k generalizing e with
  | zero => exact h
  | succ k ih =>
      have hcx := h.cx_le
      rw [Editor.deleteBefore]
      apply ih
      · apply h.rowDeleteChar
        · omega
        · omega
      · dsimp only
        omega

theorem Valid.keyBackspace {e : Editor} (h : e.Valid) :
  ∃ e', e.keyBackspace = some e' ∧ e'.Valid
  := by
  have hcx := h.cx_le
  have hlen := (h.docOk.rowsOk e.cy (Nat.lt_trans h.cy_lt h.docOk.lt)).len_le
  rw [Editor.keyBackspace]
  by_cases htwo : e.cx ≥ 2
  · have hcols : maxCols - 2 < maxCols := by decide
    rw [if_pos htwo, if_pos (by omega), h.row?]
    refine ⟨_, rfl, ?_⟩
    apply h.deleteBefore
    split
    · exact htwo
    · omega
  rw [if_neg htwo]
  by_cases hone : e.cx > 0
  · rw [if_pos hone]
    refine ⟨_, rfl, ?_⟩
    apply h.deleteBefore hone
  rw [if_neg hone]
  by_cases hcy : e.cy > 0
  · rw [if_pos hcy, h.row?]
    refine ⟨_, rfl, ?_⟩
    dsimp only
    split
    · have hback : e.cy - 1 + 1 = e.cy := Nat.sub_add_cancel hcy
      have hjoin := @Valid.join e h.docOk (e.cy - 1) (by rw [hback]; exact h.cy_lt)
        (e.doc.rows (e.cy - 1)).len (Nat.le_refl _) (by rwa [hback])
      rw [hback] at hjoin
      exact hjoin
    · exact h
  · rw [if_neg hcy]
    exact ⟨e, rfl, h⟩

/-- A byte is typed in front of the last place of a row. -/
theorem Valid.keyPrintable {e : Editor} (h : e.Valid) (hcx : e.cx < maxCols - 2) (ascii : Int) :
  (e.keyPrintable ascii).Valid ∧ e.doc.saved.Sublist (e.keyPrintable ascii).doc.saved
  := by
  have hle := h.cx_le
  constructor
  · constructor
    · apply h.docOk.rowInsertChar
    · dsimp only [Editor.keyPrintable]
      rw [Document.rowInsertChar_eq _ (Nat.lt_trans h.cy_lt h.docOk.lt)]
      exact h.cy_lt
    · dsimp only [Editor.keyPrintable]
      rw [Document.rowInsertChar_eq _ (Nat.lt_trans h.cy_lt h.docOk.lt), Document.setRow_rows_self,
        Row.insertChar_len]
      split
      · omega
      · omega
  · apply Document.rowInsertChar_saved h.docOk h.cy_lt

/-- A letter of two bytes is typed in front of the last two places of a row. -/
theorem Valid.keyCyrillic {e : Editor} (h : e.Valid) (hcx : e.cx + 1 < maxCols - 2) (ascii : Int) :
  (e.keyCyrillic ascii).Valid ∧ e.doc.saved.Sublist (e.keyCyrillic ascii).doc.saved
  := by
  have hle := h.cx_le
  have hcy := Nat.lt_trans h.cy_lt h.docOk.lt
  rcases hbytes : cyrillicBytes ascii with ⟨b1, b2⟩
  have hfirst : (e.doc.rowInsertChar e.cy e.cx b1).Ok := h.docOk.rowInsertChar _ _ _
  have hnum : (e.doc.rowInsertChar e.cy e.cx b1).numRows = e.doc.numRows := by
    rw [Document.rowInsertChar_eq _ hcy]
    rfl
  rw [Editor.keyCyrillic, hbytes]
  dsimp only
  constructor
  · constructor
    · apply hfirst.rowInsertChar
    · dsimp only
      rw [Document.rowInsertChar_eq _ hcy, Document.setRow_numRows, hnum]
      exact h.cy_lt
    · dsimp only
      rw [Document.rowInsertChar_eq _ hcy, Document.setRow_rows_self, Row.insertChar_len,
        Document.rowInsertChar_eq _ hcy, Document.setRow_rows_self, Row.insertChar_len]
      split_ifs
      all_goals omega
  · apply (Document.rowInsertChar_saved h.docOk h.cy_lt e.cx b1).trans
    apply Document.rowInsertChar_saved hfirst
    rw [hnum]
    exact h.cy_lt

/-! ### The condition -/

/-- The file can be opened, or the cursor is where a loaded file has it. -/
def LoadOk (e : Editor) (disk : Disk) : Prop := disk.read ≠ none ∨ e.cx = 0 ∧ e.cy = 0

/-- The file name in the dialog fits in its buffer. -/
def NameFits (e : Editor) : Prop :=
  e.dialog.input.head? = some 47 ∨ (desktop ++ e.dialog.input).length < pathSize

/-- The condition on a dialog that returns `result`. -/
def DialogOk (e : Editor) (result : DialogResult) (disk : Disk) : Prop :=
  result = .ok → e.dialog.input ≠ [] →
    (e.dialog.mode ≠ .none → e.NameFits) ∧ (e.dialog.mode = .openFile → e.LoadOk disk)

/-- The condition on a key in the document. -/
def KeyOk (e : Editor) : Key → Prop
  | .enter =>
    e.doc.numRows < maxRows - 1 ∨ (e.doc.rows e.cy).len ≤ e.cx ∧ e.cy + 1 < e.doc.numRows
  | .pageUp => (e.cy : Int) - e.visibleRows < e.doc.numRows
  | .pageDown => 0 ≤ (e.cy : Int) + e.visibleRows
  | .printable => e.cx < maxCols - 2
  | .cyrillic => e.cx + 1 < maxCols - 2
  | _ => True

/-- The condition on a message. -/
def Guard (e : Editor) : Message → Prop
  | .openFile _ disk => e.LoadOk disk
  | .click x y disk =>
    if e.dialog.active then e.DialogOk (e.dialog.handleClick e.winW e.winH x y).2 disk
    else y < 24 → 176 ≤ x → x ≤ 232 → e.LoadOk disk
  | .keyDown ascii scancode disk =>
    if e.dialog.active then e.DialogOk (e.dialog.handleKey ascii scancode).2 disk
    else e.KeyOk (keyOf ascii scancode)
  | _ => True

/-- The dialog asks for a file to load, and its text is not empty. -/
def Confirms (e : Editor) (result : DialogResult) : Prop :=
  result = .ok ∧ e.dialog.input ≠ [] ∧ e.dialog.mode = .openFile

/-- The message loads a file, or it is Backspace or Delete in the document. -/
def Removes (e : Editor) : Message → Prop
  | .openFile _ _ => True
  | .click x y _ =>
    if e.dialog.active then e.Confirms (e.dialog.handleClick e.winW e.winH x y).2
    else y < 24 ∧ 176 ≤ x ∧ x ≤ 232
  | .keyDown ascii scancode _ =>
    if e.dialog.active then e.Confirms (e.dialog.handleKey ascii scancode).2
    else keyOf ascii scancode = .delete ∨ keyOf ascii scancode = .backspace
  | _ => False

/-- What a step keeps: the cursor is within the document, and the text is still there unless the
step may remove it. -/
def Kept (e e' : Editor) (removes : Prop) : Prop :=
  e'.Valid ∧ (¬ removes → e.doc.saved.Sublist e'.doc.saved)

theorem Kept.of_doc {e e' : Editor} (h : e'.Valid) (hdoc : e'.doc = e.doc) (removes : Prop) :
  Kept e e' removes
  := by
  use h
  intro _
  rw [hdoc]

/-- Other variables than the document and the cursor do not matter. -/
theorem Valid.congr {e e' : Editor} (h : e.Valid) (hdoc : e'.doc = e.doc) (hcy : e'.cy = e.cy)
    (hcx : e'.cx = e.cx) :
  e'.Valid
  := by
  obtain ⟨hok, hlt, hle⟩ := h
  constructor
  · rw [hdoc]
    exact hok
  · rw [hdoc, hcy]
    exact hlt
  · rw [hdoc, hcy, hcx]
    exact hle

theorem Valid.kept {e e' : Editor} (h : e.Valid) (hdoc : e'.doc = e.doc) (hcy : e'.cy = e.cy)
    (hcx : e'.cx = e.cx) (removes : Prop) :
  Kept e e' removes
  := Kept.of_doc (h.congr hdoc hcy hcx) hdoc removes

theorem Valid.cursor {e : Editor} (h : e.Valid) {cy cx : Nat} (hcy : cy < e.doc.numRows)
    (hcx : cx ≤ (e.doc.rows cy).len) (removes : Prop) :
  Kept e { e with cy := cy, cx := cx } removes
  := by
  apply Kept.of_doc _ rfl
  exact ⟨h.docOk, hcy, hcx⟩

theorem saveFile_valid {e : Editor} (h : e.Valid) (writable : Bool) :
  (e.saveFile writable).Valid
  := by
  rw [saveFile]
  split
  · exact h.congr rfl rfl rfl
  · exact h

theorem pressKey_kept {e : Editor} (h : e.Valid) (ascii : Int) (disk : Disk) {key : Key}
    (hguard : e.KeyOk key) :
  ∃ e', e.pressKey ascii disk key = some e' ∧ Kept e e' (key = .delete ∨ key = .backspace)
  := by
  have hmove (cy : Nat) (hcy : cy < e.doc.numRows) (removes : Prop) :
      ∃ e', e.moveTo cy = some e' ∧ Kept e e' removes := by
    obtain ⟨e', he', hvalid⟩ := h.moveTo hcy
    use e', he'
    apply Kept.of_doc hvalid (moveTo_doc he')
  have hcy := h.cy_lt
  cases key with
  | save =>
      refine ⟨_, rfl, ?_⟩
      split
      · apply Kept.of_doc _ rfl
        exact h.congr rfl rfl rfl
      · apply Kept.of_doc (saveFile_valid h _) (saveFile_doc e _)
  | enter =>
      obtain ⟨e', he', hvalid, hsaved⟩ := h.keyEnter hguard
      use e', he', hvalid
      intro _
      exact hsaved
  | delete =>
      obtain ⟨e', he', hvalid⟩ := h.keyDelete
      use e', he', hvalid
      intro hnot
      exact absurd (Or.inl rfl) hnot
  | backspace =>
      obtain ⟨e', he', hvalid⟩ := h.keyBackspace
      use e', he', hvalid
      intro hnot
      exact absurd (Or.inr rfl) hnot
  | up =>
      apply hmove
      split
      · omega
      · exact hcy
  | down =>
      apply hmove
      split
      · omega
      · exact hcy
  | left =>
      rw [pressKey, keyLeft]
      split
      · refine ⟨_, rfl, ?_⟩
        apply h.cursor hcy
        exact Nat.le_trans (Nat.sub_le _ _) h.cx_le
      · split
        · have hprev : e.cy - 1 < e.doc.numRows := by omega
          rw [row?_of_lt h.docOk hprev]
          refine ⟨_, rfl, ?_⟩
          apply h.cursor hprev (Nat.le_refl _)
        · refine ⟨_, rfl, ?_⟩
          apply Kept.of_doc h rfl
  | right =>
      rw [pressKey, keyRight, h.row?]
      refine ⟨_, rfl, ?_⟩
      dsimp only
      split
      · apply h.cursor hcy
        assumption
      · split
        · have hnext : e.cy + 1 < e.doc.numRows := by omega
          apply h.cursor hnext (Nat.zero_le _)
        · apply Kept.of_doc h rfl
  | home =>
      refine ⟨_, rfl, ?_⟩
      apply h.cursor hcy (Nat.zero_le _)
  | endKey =>
      rw [pressKey, keyEnd, h.row?]
      refine ⟨_, rfl, ?_⟩
      apply h.cursor hcy (Nat.le_refl _)
  | pageUp =>
      apply hmove
      rw [KeyOk] at hguard
      split
      · exact h.docOk.pos
      · omega
  | pageDown =>
      rw [KeyOk] at hguard
      rw [pressKey, keyPageDown]
      split
      · apply hmove
        have hpos := h.docOk.pos
        omega
      · rw [if_neg (by omega)]
        apply hmove
        omega
  | printable =>
      obtain ⟨hvalid, hsaved⟩ := h.keyPrintable hguard ascii
      refine ⟨_, rfl, hvalid, ?_⟩
      intro _
      exact hsaved
  | cyrillic =>
      obtain ⟨hvalid, hsaved⟩ := h.keyCyrillic hguard ascii
      refine ⟨_, rfl, hvalid, ?_⟩
      intro _
      exact hsaved
  | other =>
      refine ⟨_, rfl, ?_⟩
      apply Kept.of_doc h rfl

theorem dialogPath_of_fits {e : Editor} (h : e.NameFits) :
  ∃ path, e.dialogPath = some path
  := by
  rw [dialogPath]
  split
  · rename_i hrelative
    rw [if_pos (h.resolve_left hrelative)]
    exact ⟨_, rfl⟩
  · exact ⟨_, rfl⟩

theorem finishDialog_kept {e : Editor} (h : e.Valid) {r : Dialog × DialogResult} {disk : Disk}
    (hinput : r.2 = .ok → r.1.input = e.dialog.input ∧ r.1.mode = e.dialog.mode)
    (hguard : e.DialogOk r.2 disk) :
  ∃ e', e.finishDialog r disk = some e' ∧ Kept e e' (e.Confirms r.2)
  := by
  have hsame : Valid { e with dialog := r.1 } := h.congr rfl rfl rfl
  rw [finishDialog]
  split
  · rename_i hok
    obtain ⟨hinput, hmode⟩ := hinput hok
    rw [applyDialogResult]
    dsimp only
    rw [hinput, hmode]
    split
    · exact ⟨_, rfl, Kept.of_doc hsame rfl _⟩
    · rename_i hne
      obtain ⟨hname, hload⟩ := hguard hok hne
      have hfits (hmode : e.dialog.mode ≠ .none) :
          ∃ path, dialogPath { e with dialog := r.1 } = some path := by
        apply dialogPath_of_fits
        rw [NameFits]
        dsimp only
        rw [hinput]
        apply hname hmode
      split
      · rename_i hsave
        obtain ⟨path, hpath⟩ := hfits (by rw [hsave]; decide)
        rw [hpath]
        refine ⟨_, rfl, ?_⟩
        apply Kept.of_doc
        · apply saveFile_valid
          exact h.congr rfl rfl rfl
        · apply saveFile_doc
      · rename_i hopen
        obtain ⟨path, hpath⟩ := hfits (by rw [hopen]; decide)
        rw [hpath]
        refine ⟨_, rfl, ?_, ?_⟩
        · exact @loadFile_valid { e with dialog := r.1 } h.docOk.rowsOk path _ (hload hopen)
        · intro hnot
          exact absurd ⟨hok, hne, hopen⟩ hnot
      · exact ⟨_, rfl, Kept.of_doc hsame rfl _⟩
  · exact ⟨_, rfl, Kept.of_doc hsame rfl _⟩

/-! ### Runs -/

theorem clickText_kept {e : Editor} (h : e.Valid) (x y : Int) (removes : Prop) :
  ∃ e', e.clickText x y = some e' ∧ Kept e e' removes
  := by
  have hpos := h.docOk.pos
  rw [clickText, if_neg (Nat.ne_of_gt hpos)]
  dsimp only
  generalize hrow : (if (if e.rowOff + (y - 24).tdiv 12 < 0 then 0 else e.rowOff + (y - 24).tdiv 12)
      ≥ e.doc.numRows then e.doc.numRows - 1
    else (if e.rowOff + (y - 24).tdiv 12 < 0 then 0 else e.rowOff + (y - 24).tdiv 12).toNat) = cy
  have hcy : cy < e.doc.numRows := by
    rw [← hrow]
    split_ifs
    all_goals omega
  rw [row?_of_lt h.docOk hcy]
  refine ⟨_, rfl, ?_⟩
  apply h.cursor hcy
  split_ifs
  all_goals omega

theorem clickToolbar_kept {e : Editor} (h : e.Valid) {x : Int} {disk : Disk}
    (hload : 176 ≤ x → x ≤ 232 → e.LoadOk disk) :
  Kept e (e.clickToolbar x disk) (176 ≤ x ∧ x ≤ 232)
  := by
  have hsame (dialog : Dialog) : Kept e { e with dialog := dialog } (176 ≤ x ∧ x ≤ 232) := by
    apply Kept.of_doc _ rfl
    exact h.congr rfl rfl rfl
  rw [clickToolbar]
  split_ifs with hsave huntitled hsaveAs hopen hreload
  · apply hsame
  · apply Kept.of_doc (saveFile_valid h _) (saveFile_doc _ _)
  · apply hsame
  · apply hsame
  · constructor
    · apply loadFile_valid h.docOk.rowsOk
      exact hload hreload.1 hreload.2
    · intro hnot
      exact absurd hreload hnot
  · apply Kept.of_doc h rfl

theorem clickScrollbar_kept {e : Editor} (h : e.Valid) (y : Int) (removes : Prop) :
  Kept e (e.clickScrollbar y) removes
  := by
  apply Kept.of_doc _ (clickScrollbar_doc e y)
  unfold clickScrollbar
  extract_lets
  split
  · exact h.congr rfl rfl rfl
  split
  · exact h.congr rfl rfl rfl
  · exact h.congr rfl rfl rfl

theorem handleMouseMove_kept {e : Editor} (h : e.Valid) (y : Int) (removes : Prop) :
  Kept e (e.handleMouseMove y) removes
  := by
  apply Kept.of_doc _ (handleMouseMove_doc e y)
  unfold handleMouseMove
  split
  · extract_lets
    split
    · exact h.congr rfl rfl rfl
    · exact h
  · exact h

/-- A step that meets the condition has a result, and keeps the cursor within the document and the
text. -/
theorem step_kept {e : Editor} (h : e.Valid) {m : Message} (hguard : e.Guard m) :
  ∃ e', e.step m = some e' ∧ Kept e e' (e.Removes m)
  := by
  cases m with
  | openFile path disk =>
      refine ⟨_, rfl, loadFile_valid h.docOk.rowsOk path hguard, ?_⟩
      intro hnot
      exact absurd trivial hnot
  | click x y disk =>
      rw [Guard] at hguard
      rw [step, handleClick, Removes]
      by_cases hactive : e.dialog.active
      · rw [if_pos hactive] at hguard
        rw [if_pos hactive, if_pos hactive]
        apply finishDialog_kept h _ hguard
        intro _
        apply Dialog.handleClick_input
      · rw [if_neg hactive] at hguard
        rw [if_neg hactive, if_neg hactive]
        by_cases htoolbar : y < 24
        · rw [if_pos htoolbar]
          obtain ⟨hvalid, hsaved⟩ := clickToolbar_kept h (hguard htoolbar)
          refine ⟨_, rfl, hvalid, ?_⟩
          intro hnot
          apply hsaved
          intro hreload
          exact hnot ⟨htoolbar, hreload⟩
        · rw [if_neg htoolbar]
          by_cases htext : y < e.winH - 20
          · rw [if_pos htext]
            split
            · exact ⟨_, rfl, clickScrollbar_kept h y _⟩
            · apply clickText_kept h
          · rw [if_neg htext]
            exact ⟨_, rfl, Kept.of_doc h rfl _⟩
  | mouseMove y => exact ⟨_, rfl, handleMouseMove_kept h y _⟩
  | mouseUp =>
      refine ⟨_, rfl, ?_⟩
      apply h.kept
      all_goals rfl
  | keyDown ascii scancode disk =>
      rw [Guard] at hguard
      rw [step, handleKey, Removes]
      by_cases hactive : e.dialog.active
      · rw [if_pos hactive] at hguard
        rw [if_pos hactive, if_pos hactive]
        apply finishDialog_kept h Dialog.handleKey_ok hguard
      · rw [if_neg hactive] at hguard
        rw [if_neg hactive, if_neg hactive]
        apply pressKey_kept h ascii disk hguard
  | scroll dz =>
      refine ⟨_, rfl, ?_⟩
      apply h.kept
      all_goals rfl
  | resize newW newH =>
      rw [step]
      split
      · refine ⟨_, rfl, ?_⟩
        apply h.kept
        all_goals rfl
      · exact ⟨_, rfl, Kept.of_doc h rfl _⟩
  | redraw =>
      refine ⟨_, rfl, ?_⟩
      apply h.kept
      all_goals rfl

theorem start_valid (request : Option (List UInt8 × Disk)) :
  (start request).Valid
  := by
  cases request with
  | none => exact ⟨start_docOk none, Nat.zero_lt_succ 0, Nat.zero_le _⟩
  | some request => exact loadFile_valid (fun _ _ => ⟨Nat.zero_le _, rfl⟩) _ (Or.inr ⟨rfl, rfl⟩)

/-- The cursor is on a row and not behind its end, every row is shorter than its array and has its
NUL, and the table has not too many rows. -/
structure EditingState (e : Editor) : Prop where
  cursorRow : e.cy < e.doc.numRows
  cursorCol : e.cx ≤ (e.doc.rows e.cy).len
  rowLength : ∀ r < e.doc.numRows, (e.doc.rows r).len < maxCols
  terminated : ∀ r < e.doc.numRows, (e.doc.rows r).chars (e.doc.rows r).len = 0
  rowCount : e.doc.numRows ≤ maxRows

/-- No step but one that may remove text does so. -/
def TextKept (e : Editor) (m : Message) : Prop :=
  ¬ e.Removes m → ∀ e', e.step m = some e' → e.doc.saved.Sublist e'.doc.saved

theorem Valid.editingState {e : Editor} (h : e.Valid) :
  e.EditingState
  := by
  have hcols : maxCols - 2 < maxCols := by decide
  constructor
  · exact h.cy_lt
  · exact h.cx_le
  · intro r hr
    exact Nat.lt_of_le_of_lt (h.docOk.rowsOk r (Nat.lt_trans hr h.docOk.lt)).len_le hcols
  · intro r hr
    exact (h.docOk.rowsOk r (Nat.lt_trans hr h.docOk.lt)).terminated
  · exact Nat.le_of_lt h.docOk.lt

/-- In every run whose steps meet the condition, no step reads or writes outside an array, the
cursor and the rows are as they should be in every state, and the next step that meets the condition
removes text only by Backspace, by Delete or by loading a file. -/
theorem editing_state (request : Option (List UInt8 × Disk)) {ms : List Message}
    (hguard : Run.Guarded step Guard (start request) ms) :
  ∃ e, Run.exec step (start request) ms = some e ∧ e.EditingState
    ∧ ∀ m, e.Guard m → e.TextKept m
  := by
  have hkept (e : Editor) (m : Message) (h : e.Valid) (hm : e.Guard m) :
      ∃ e', e.step m = some e' ∧ e'.Valid := by
    obtain ⟨e', he', hvalid, -⟩ := step_kept h hm
    use e', he'
  obtain ⟨e, he, hvalid⟩ := Run.exec_invariant hkept (start_valid request) hguard
  use e, he, hvalid.editingState
  intro m hm hnot e' he'
  obtain ⟨e'', he'', -, hsaved⟩ := step_kept hvalid hm
  rw [he'] at he''
  cases he''
  apply hsaved hnot

/-- A letter is typed, and a new row begun. -/
theorem editing_state_typed :
  ∃ e, Run.exec step (start none)
      [.keyDown 97 0x1E ⟨none, true⟩, .keyDown 13 0x1C ⟨none, true⟩] = some e
    ∧ e.EditingState ∧ ∀ m, e.Guard m → e.TextKept m
  := by
  apply editing_state none
  apply Run.guarded_cons _ rfl
  · apply Run.guarded_cons _ rfl
    · trivial
    · exact Or.inl (by decide)
  · show 0 < maxCols - 2
    decide

/-- A letter is typed, and the file is loaded again although there is none. -/
theorem not_editing_state :
  ¬ ∀ (request : Option (List UInt8 × Disk)) (ms : List Message) (e : Editor),
    Run.exec step (start request) ms = some e → e.EditingState ∧ ∀ m, e.TextKept m
  := by
  intro hall
  have hstate := hall none [.keyDown 97 0x1E ⟨none, true⟩, .click 180 10 ⟨none, true⟩] _ rfl
  have hcol := hstate.1.cursorCol
  revert hcol
  decide

end Editor

end Notepad
