import Mathlib.Tactic.SplitIfs
import Woos.Notepad.Editor

/-!
# The table in a run of the notepad

Whatever the keys, the mouse and the files do, and wherever the cursor is, the table of the rows stays
well formed: `Editor.exec_docOk`.
-/

namespace Notepad

namespace Editor

theorem row?_eq_some {e : Editor} {i : Nat} {row : Row} :
  e.row? i = some row ↔ i < maxRows ∧ e.doc.rows i = row
  := by
  rw [row?]
  split
  · rw [Option.some_inj, and_iff_right ‹_›]
  · constructor
    · intro h
      cases h
    · rintro ⟨h, -⟩
      contradiction

theorem loadFile_docOk {e : Editor} (h : e.doc.RowsOk) (path : List UInt8) (file : Option File) :
  (e.loadFile path file).doc.Ok
  := by
  cases file with
  | none => exact h.empty
  | some file => exact h.load file

theorem moveTo_doc {e e' : Editor} {cy : Nat} (h : e.moveTo cy = some e') :
  e'.doc = e.doc
  := by
  obtain ⟨row, -, rfl⟩ := Option.map_eq_some_iff.mp h
  rfl

theorem keyEnter_docOk {e e' : Editor} (h : e.doc.Ok) (hstep : e.keyEnter = some e') :
  e'.doc.Ok
  := by
  obtain ⟨row, hrow, rfl⟩ := Option.map_eq_some_iff.mp hstep
  obtain ⟨hcy, rfl⟩ := row?_eq_some.mp hrow
  have hok := h.rowsOk e.cy hcy
  dsimp only
  split
  · apply h.insertRow (Nat.zero_le _)
  · rename_i hcx
    have hlen : ((e.doc.rows e.cy).text.drop e.cx).length ≤ maxCols - 2 := by
      rw [List.length_drop, Row.length_text]
      exact Nat.le_trans (Nat.sub_le _ _) hok.len_le
    apply (h.insertRow hlen).setRow
    rw [Document.insertRow_rows_lt (Nat.lt_succ_self _)]
    apply hok.truncate
    omega

theorem saveFile_doc (e : Editor) (writable : Bool) :
  (e.saveFile writable).doc = e.doc
  := by
  rw [saveFile]
  split
  · rfl
  · rfl

theorem clickScrollbar_doc (e : Editor) (y : Int) :
  (e.clickScrollbar y).doc = e.doc
  := by
  rw [clickScrollbar]
  dsimp only
  split_ifs
  all_goals rfl

theorem handleMouseMove_doc (e : Editor) (y : Int) :
  (e.handleMouseMove y).doc = e.doc
  := by
  rw [handleMouseMove]
  dsimp only
  split_ifs
  all_goals rfl

theorem start_docOk (request : Option (List UInt8 × Disk)) :
  (start request).doc.Ok
  := by
  have hboot : boot.doc.RowsOk := fun _ _ => ⟨Nat.zero_le _, rfl⟩
  cases request with
  | none => exact hboot.empty
  | some request => exact loadFile_docOk hboot _ _

end Editor

end Notepad
