import Mathlib.Data.List.Basic
import Woos.Notepad.Rows

/-!
# Loading and saving

How the notepad writes its document to a file, and how it reads a file back: in blocks of 4096
bytes, with carriage returns left out, control characters and bytes above 126 replaced, lines
wrapped at 72 bytes, and no more rows than the table has.
-/

namespace Notepad

/-- A file that has been opened for reading: its size, and the bytes that a read of `n` bytes at the
position `pos` returns. -/
structure File where
  size : Nat
  read : (pos n : Nat) → List UInt8

/-- A file that holds the given bytes. -/
def File.ofBytes (bytes : List UInt8) : File where
  size := bytes.length
  read pos n := (bytes.drop pos).take n

/-- The block that the next read gives when `remaining` bytes are left. -/
def File.block (file : File) (remaining pos : Nat) : List UInt8 :=
  let toRead := if remaining > 4096 then 4096 else remaining
  (file.read pos toRead).take toRead

/-- What is stored for a byte of the file. -/
def convert (c : UInt8) : UInt8 :=
  if c = 0 then 46
  else if c < 32 ∧ c ≠ 9 then 46
  else if c > 126 then 63
  else c

namespace Document

/-- The bytes of one block, with the line that has been begun. -/
def loadBytes : Document → (line bytes : List UInt8) → Document × List UInt8
  | d, line, [] => (d, line)
  | d, line, c :: bytes =>
    if c = 13 then
      d.loadBytes line bytes
    else if c = 10 then
      let d := d.insertRow d.numRows line
      if d.numRows ≥ maxRows - 1 then (d, []) else d.loadBytes [] bytes
    else
      let line := if line.length < maxCols - 2 then line ++ [convert c] else line
      -- lines are wrapped at 72 bytes
      if line.length ≥ 72 then
        let d := d.insertRow d.numRows line
        if d.numRows ≥ maxRows - 1 then (d, []) else d.loadBytes [] bytes
      else
        d.loadBytes line bytes

/-- The blocks of a file, from the position `pos` on. -/
def loadBlocks (file : File) (remaining pos : Nat) (d : Document) (line : List UInt8) :
  Document × List UInt8 :=
  if remaining > 0 then
    let bytes := file.block remaining pos
    if bytes = [] then
      (d, line)
    else
      let r := d.loadBytes line bytes
      if r.1.numRows ≥ maxRows - 1 then
        r
      else
        loadBlocks file (remaining - bytes.length) (pos + bytes.length) r.1 r.2
  else
    (d, line)
termination_by remaining
decreasing_by
  rename_i hne _
  have hpos := List.length_pos_iff.mpr hne
  exact Nat.sub_lt ‹_› hpos

/-- The document of `load_file` when the file could be opened. -/
def load (d : Document) (file : File) : Document :=
  let (d, line) := loadBlocks file file.size 0 { d with numRows := 0 } []
  if line.length > 0 ∨ d.numRows = 0 then d.insertRow d.numRows line else d

/-- The calls of `woos_vfs_write` that `save_file` makes. -/
def writes (d : Document) : List (List UInt8) :=
  (List.range d.numRows).flatMap fun i =>
    if (d.rows i).len > 0 then [(d.rows i).text, [10]] else [[10]]

/-- The bytes that `save_file` writes. -/
def saved (d : Document) : List UInt8 := d.writes.flatten

/-- Each line is saved with a newline behind it. -/
theorem saved_eq (d : Document) :
  d.saved = d.lines.flatMap (· ++ [10])
  := by
  rw [saved, writes, lines, Shift.entries, List.map_map, List.flatMap_map, List.flatten_eq_flatMap,
    List.flatMap_assoc]
  apply List.flatMap_congr
  intro i _
  split
  · rfl
  · rename_i hlen
    rw [Function.comp_apply, List.eq_nil_of_length_eq_zero (l := (d.rows i).text)]
    · rfl
    · rw [Row.length_text]
      omega

/-! ### The invariant of loading -/

/-- The table with the line that has been begun. -/
structure Loading (d : Document) (line : List UInt8) : Prop where
  rowsOk : d.RowsOk
  numRows_lt : d.numRows < maxRows
  line_lt : line.length < 72

theorem Loading.insertRow {d : Document} {line : List UInt8} (h : Loading d line) {s : List UInt8}
    (hs : s.length ≤ 72) :
  Loading (d.insertRow d.numRows s) []
  := by
  constructor
  · apply h.rowsOk.insertRow (Nat.le_trans hs (by decide))
  · have hlt := h.numRows_lt
    rw [Document.insertRow]
    split
    · exact hlt
    · dsimp only
      omega
  · decide

theorem Loading.loadBytes {d : Document} {line : List UInt8} (h : Loading d line)
    (bytes : List UInt8) :
  Loading (d.loadBytes line bytes).1 (d.loadBytes line bytes).2
  := by
  induction bytes generalizing d line with
  | nil => exact h
  | cons c bytes ih =>
      have hnew := h.insertRow (Nat.le_of_lt h.line_lt)
      have hmore : (if line.length < maxCols - 2 then line ++ [convert c] else line).length ≤ 72 := by
        split
        · rw [List.length_append]
          exact h.line_lt
        · exact Nat.le_of_lt h.line_lt
      rw [Document.loadBytes]
      dsimp only
      generalize (if line.length < maxCols - 2 then line ++ [convert c] else line) = line' at hmore ⊢
      have hwrapped := h.insertRow hmore
      split
      · apply ih h
      · split
        · split
          · exact hnew
          · apply ih hnew
        · split
          · split
            · exact hwrapped
            · apply ih hwrapped
          · apply ih
            exact ⟨h.rowsOk, h.numRows_lt, by omega⟩

/-- One round of the loop over the blocks. -/
theorem loadBlocks_block {file : File} {remaining pos : Nat} (d : Document) (line : List UInt8)
    (hpos : remaining > 0) (hne : file.block remaining pos ≠ []) :
  loadBlocks file remaining pos d line
    = if (d.loadBytes line (file.block remaining pos)).1.numRows ≥ maxRows - 1 then
        d.loadBytes line (file.block remaining pos)
      else
        loadBlocks file (remaining - (file.block remaining pos).length)
          (pos + (file.block remaining pos).length)
          (d.loadBytes line (file.block remaining pos)).1
          (d.loadBytes line (file.block remaining pos)).2
  := by
  rw [loadBlocks, if_pos hpos]
  dsimp only
  rw [if_neg hne]

/-- The loop ends when nothing is left or a read gives nothing. -/
theorem loadBlocks_end {file : File} {remaining pos : Nat} (d : Document) (line : List UInt8)
    (h : remaining > 0 → file.block remaining pos = []) :
  loadBlocks file remaining pos d line = (d, line)
  := by
  rw [loadBlocks]
  split
  · rename_i hpos
    dsimp only
    rw [if_pos (h hpos)]
  · rfl

theorem Loading.loadBlocks (file : File) {remaining pos : Nat} {d : Document} {line : List UInt8}
    (h : Loading d line) :
  Loading (loadBlocks file remaining pos d line).1 (loadBlocks file remaining pos d line).2
  := by
  induction remaining, pos, d, line using loadBlocks.induct file with
  | case1 remaining pos d line hpos bytes hnil =>
      rw [loadBlocks_end d line (fun _ => hnil)]
      exact h
  | case2 remaining pos d line hpos bytes hne r hfull =>
      rw [loadBlocks_block d line hpos hne, if_pos hfull]
      apply h.loadBytes
  | case3 remaining pos d line hpos bytes hne r hroom ih =>
      rw [loadBlocks_block d line hpos hne, if_neg hroom]
      apply ih (h.loadBytes bytes)
  | case4 remaining pos d line hzero =>
      rw [loadBlocks_end d line (fun hpos => absurd hpos hzero)]
      exact h

/-- The document that is loaded has at least one row, whatever the reads give. -/
theorem RowsOk.load {d : Document} (h : d.RowsOk) (file : File) :
  (d.load file).Ok
  := by
  have hloading : Loading { d with numRows := 0 } [] := by
    constructor
    · exact h
    · exact Nat.zero_lt_succ 999
    · decide
  have hloaded := @Loading.loadBlocks file file.size 0 _ _ hloading
  rw [Document.load]
  generalize Document.loadBlocks file file.size 0 { d with numRows := 0 } [] = r at hloaded ⊢
  obtain ⟨d', line⟩ := r
  dsimp only at hloaded ⊢
  have hlast := hloaded.insertRow (Nat.le_of_lt hloaded.line_lt)
  split
  · rename_i hcond
    constructor
    · exact hlast.rowsOk
    · rw [Document.insertRow]
      split
      · rename_i hfull
        have hroom : 0 < maxRows - 1 := by decide
        omega
      · apply Nat.succ_pos
    · exact hlast.numRows_lt
  · constructor
    · exact hloaded.rowsOk
    · omega
    · exact hloaded.numRows_lt

/-- The document when the file could not be opened. -/
theorem RowsOk.empty {d : Document} (h : d.RowsOk) :
  (Document.insertRow { d with numRows := 0 } 0 []).Ok
  := by
  have hroom : 0 < maxRows - 1 := by decide
  have hnew : RowsOk (Document.insertRow { d with numRows := 0 } 0 []) := by
    apply RowsOk.insertRow
    · exact h
    · decide
  have hone := @insertRow_numRows { d with numRows := 0 } 0 [] hroom (Nat.zero_le 0)
  constructor
  · exact hnew
  · rw [hone]
    apply Nat.succ_pos
  · rw [hone]
    exact Nat.succ_lt_succ hroom

end Document

end Notepad
