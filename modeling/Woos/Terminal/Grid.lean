import Woos.Lib.Memory
import Woos.Lib.Wrapping
import Mathlib.Data.List.Induction

/-!
# The grid of the terminal

The terminal keeps 22 rows of 80 characters in its linear memory.  `termPutc` writes one character:
it wraps a row that is full only when another character comes, and scrolls when the cursor leaves the
last row.  `puts_shows` says that of a text that is written after `term_clear` the last 22 rows are
shown.
-/

namespace Terminal

/-! ### Linear memory -/

/-- The bytes, and the addresses of the stores, the latest one first. -/
structure Linear where
  bytes : Memory
  stored : List Nat

namespace Linear

/-- `i32.store8` -/
def store8 (m : Linear) (a : Nat) (v : UInt8) : Linear :=
  ⟨Function.update m.bytes a v, a :: m.stored⟩

/-- `$memcpy` -/
def memcpy (m : Linear) (dst src : Nat) : (len : Nat) → Linear
  | 0 => m
  | i + 1 => (m.memcpy dst src i).store8 (dst + i) ((m.memcpy dst src i).bytes (src + i))

/-- `$memset` -/
def memset (m : Linear) (dst : Nat) (val : UInt8) : (len : Nat) → Linear
  | 0 => m
  | i + 1 => (m.memset dst val i).store8 (dst + i) val

theorem bytes_memcpy (m : Linear) (dst src len : Nat) :
  (m.memcpy dst src len).bytes = m.bytes.copy dst src len
  := by
  induction len with
  | zero => rfl
  | succ i ih => rw [memcpy, store8, Memory.copy, ih]

theorem bytes_memset (m : Linear) (dst : Nat) (val : UInt8) (len : Nat) :
  (m.memset dst val len).bytes = m.bytes.fill dst val len
  := by
  induction len with
  | zero => rfl
  | succ i ih => rw [memset, store8, Memory.fill, ih]

/-- All stores have been made from `start` on and below `stop`. -/
def Within (start stop : Nat) (m : Linear) : Prop := ∀ a ∈ m.stored, start ≤ a ∧ a < stop

variable {start stop : Nat} {m : Linear}

theorem Within.store8 (h : m.Within start stop) {a : Nat} (v : UInt8) (hle : start ≤ a)
    (hlt : a < stop) :
  (m.store8 a v).Within start stop
  := by
  intro x hx
  rcases List.mem_cons.mp hx with rfl | hx
  · exact ⟨hle, hlt⟩
  · exact h x hx

theorem Within.memcpy (h : m.Within start stop) {dst len : Nat} (src : Nat) (hle : start ≤ dst)
    (hlt : dst + len ≤ stop) :
  (m.memcpy dst src len).Within start stop
  := by
  induction len with
  | zero => exact h
  | succ i ih => exact (ih (by omega)).store8 _ (by omega) (by omega)

theorem Within.memset (h : m.Within start stop) {dst len : Nat} (val : UInt8) (hle : start ≤ dst)
    (hlt : dst + len ≤ stop) :
  (m.memset dst val len).Within start stop
  := by
  induction len with
  | zero => exact h
  | succ i ih => exact (ih (by omega)).store8 _ (by omega) (by omega)

end Linear

end Terminal

/-! ### Characters -/

/-- The memory and the globals that the grid uses. -/
structure Terminal where
  mem : Terminal.Linear
  cursorRow : Nat
  cursorCol : Nat
  inputLen : Nat

namespace Terminal

/-- `$term_clear` -/
def termClear (t : Terminal) : Terminal :=
  { mem := t.mem.memset 10000 32 1760
    cursorRow := 0
    cursorCol := 0
    inputLen := 0 }

/-- `$term_scroll_up` -/
def termScrollUp (t : Terminal) : Terminal :=
  { t with
    mem := (t.mem.memcpy 10000 10080 1680).memset 11680 32 80
    cursorRow := 21
    cursorCol := 0 }

/-- `$term_newline` -/
def termNewline (t : Terminal) : Terminal :=
  let t := { t with cursorCol := 0, cursorRow := t.cursorRow + 1 }
  if 22 ≤ t.cursorRow then t.termScrollUp else t

/-- The byte that is stored for a character. -/
def byte (c : Int32) : UInt8 := c.toUInt32.toUInt8

/-- Store a character at the cursor and move on. -/
def putCell (t : Terminal) (c : Int32) : Terminal :=
  { t with
    mem := t.mem.store8 (10000 + t.cursorRow * 80 + t.cursorCol) (byte c)
    cursorCol := t.cursorCol + 1 }

/-- `$term_putc` -/
def termPutc (t : Terminal) (c : Int32) : Terminal :=
  if c = 10 then t.termNewline
  else if c = 13 then { t with cursorCol := 0 }
  else if c = 8 then
    if 0 < t.cursorCol then
      let t := { t with cursorCol := t.cursorCol - 1 }
      { t with mem := t.mem.store8 (10000 + t.cursorRow * 80 + t.cursorCol) 32 }
    else t
  else if 32 ≤ c ∧ c ≤ 126 then
    (if 80 ≤ t.cursorCol then t.termNewline else t).putCell c
  else t

/-! ### What is shown -/

/-- The cell at row `i` and column `j` when the last 22 of the rows are shown. -/
def cell (rows : List (List Int32)) (i j : Nat) : UInt8 :=
  byte (((rows.drop (rows.length - 22)).getD i []).getD j 32)

/-- The rows `above` and the row `last` have been written. -/
structure Shown (t : Terminal) (above : List (List Int32)) (last : List Int32) : Prop where
  row : t.cursorRow = min above.length 21
  col : t.cursorCol = last.length
  inside : t.mem.Within 10000 11760
  cells : ∀ i < 22, ∀ j < 80, t.mem.bytes (10000 + i * 80 + j) = cell (above ++ [last]) i j

theorem cell_eq (rows : List (List Int32)) (i j : Nat) :
  cell rows i j = byte ((rows.getD (rows.length - 22 + i) []).getD j 32)
  := by
  simp only [cell, List.getD_eq_getElem?_getD, List.getElem?_drop]

/-- The cell when a row is the last one. -/
theorem cell_concat (above : List (List Int32)) (last : List Int32) {i : Nat} (hi : i < 22)
    (j : Nat) :
  cell (above ++ [last]) i j = byte (if i = min above.length 21 then last.getD j 32
    else (above.getD (above.length - 21 + i) []).getD j 32)
  := by
  rw [cell_eq, List.length_append, List.length_singleton, Wrapping.getD_concat]
  by_cases hlast : i = min above.length 21
  · have hk : above.length + 1 - 22 + i = above.length := by omega
    rw [if_pos hk, if_pos hlast]
  · have hk : above.length + 1 - 22 + i ≠ above.length := by omega
    have hsub : above.length + 1 - 22 = above.length - 21 := by omega
    rw [if_neg hk, if_neg hlast, hsub]

/-- When the last row is empty, the rows above it are shown, and blanks. -/
theorem cell_concat_nil (rows : List (List Int32)) {i : Nat} (hi : i < 22) (j : Nat) :
  cell (rows ++ [[]]) i j = byte ((rows.getD (rows.length - 21 + i) []).getD j 32)
  := by
  rw [cell_concat _ _ hi]
  split
  case isTrue hlast =>
    rw [List.getD_eq_default rows]
    omega
  case isFalse => rfl

variable {t : Terminal} {above : List (List Int32)} {last : List Int32}

theorem length_concat (above : List (List Int32)) (last : List Int32) :
  (above ++ [last]).length = above.length + 1
  := by
  rw [List.length_append, List.length_singleton]

/-- Scrolling moves every row up and blanks the last one. -/
theorem bytes_termScrollUp (t : Terminal) {i j : Nat} (hi : i < 22) (hj : j < 80) :
  t.termScrollUp.mem.bytes (10000 + i * 80 + j)
    = if i = 21 then 32 else t.mem.bytes (10000 + (i + 1) * 80 + j)
  := by
  rw [termScrollUp, Linear.bytes_memset, Linear.bytes_memcpy]
  split
  case isTrue hlast =>
    have haddr : 10000 + i * 80 + j = 11680 + j := by omega
    rw [haddr, Memory.fill_apply _ _ hj]
  case isFalse hlast =>
    have haddr : 10000 + i * 80 + j = 10000 + (i * 80 + j) := by omega
    have hsource : 10080 + (i * 80 + j) = 10000 + (i + 1) * 80 + j := by omega
    rw [Memory.fill_apply_outside _ _ (by omega), haddr,
      Memory.copy_apply_down _ (by omega) (by decide), hsource]

theorem Shown.newline (h : t.Shown above last) :
  t.termNewline.Shown (above ++ [last]) []
  := by
  have hrow := h.row
  let next : Terminal := { t with cursorCol := 0, cursorRow := t.cursorRow + 1 }
  by_cases hscroll : 22 ≤ t.cursorRow + 1
  · have hnewline : t.termNewline = next.termScrollUp := if_pos hscroll
    rw [hnewline]
    refine ⟨?_, rfl, ?_, ?_⟩
    · rw [length_concat, termScrollUp]
      show 21 = _
      omega
    · exact (h.inside.memcpy 10080 (by decide) (by decide)).memset 32 (by decide) (by decide)
    · intro i hi j hj
      rw [bytes_termScrollUp next hi hj, cell_concat_nil _ hi, length_concat]
      split
      case isTrue hlast =>
        have hk : (above ++ [last]).length ≤ above.length + 1 - 21 + i := by
          rw [length_concat]
          omega
        rw [List.getD_eq_default _ _ hk]
        rfl
      case isFalse hlast =>
        have hk : above.length + 1 - 22 + (i + 1) = above.length + 1 - 21 + i := by omega
        rw [h.cells (i + 1) (by omega) j hj, cell_eq, length_concat, hk]
  · have hnewline : t.termNewline = next := if_neg hscroll
    rw [hnewline]
    refine ⟨?_, rfl, h.inside, ?_⟩
    · rw [length_concat]
      show t.cursorRow + 1 = _
      omega
    · intro i hi j hj
      have hk : above.length + 1 - 22 + i = above.length + 1 - 21 + i := by omega
      rw [cell_concat_nil _ hi, length_concat, ← hk, ← length_concat above last, ← cell_eq]
      exact h.cells i hi j hj

theorem Shown.putCell (h : t.Shown above last) (hroom : last.length < 80) (c : Int32) :
  (t.putCell c).Shown above (last ++ [c])
  := by
  have hrow := h.row
  have hcol := h.col
  refine ⟨h.row, ?_, ?_, ?_⟩
  · rw [Terminal.putCell, hcol, List.length_append, List.length_singleton]
  · exact h.inside.store8 _ (by omega) (by omega)
  · intro i hi j hj
    have hcell := h.cells i hi j hj
    rw [cell_concat _ _ hi] at hcell
    rw [Terminal.putCell, Linear.store8, cell_concat _ _ hi, Wrapping.getD_concat]
    dsimp only
    by_cases hat : i = min above.length 21 ∧ j = last.length
    · have haddr : 10000 + i * 80 + j = 10000 + t.cursorRow * 80 + t.cursorCol := by omega
      rw [haddr, Function.update_self, if_pos hat.1, if_pos hat.2]
    · rw [Function.update_of_ne (by omega), hcell]
      by_cases hi' : i = min above.length 21
      · rw [if_pos hi', if_pos hi', if_neg (fun hj' => hat ⟨hi', hj'⟩)]
      · rw [if_neg hi', if_neg hi']

/-- A printable character goes behind the last row or, when that is full, starts another one. -/
theorem Shown.printable (h : t.Shown above last) (hlength : last.length ≤ 80) {c : Int32}
    (hle : 32 ≤ c) (hle' : c ≤ 126) :
  if last.length < 80 then (t.termPutc c).Shown above (last ++ [c])
    else (t.termPutc c).Shown (above ++ [last]) [c]
  := by
  have hcol := h.col
  have hputc : t.termPutc c = (if 80 ≤ t.cursorCol then t.termNewline else t).putCell c := by
    rw [termPutc, if_neg, if_neg, if_neg, if_pos ⟨hle, hle'⟩]
    · rintro rfl
      exact absurd hle (by decide)
    · rintro rfl
      exact absurd hle (by decide)
    · rintro rfl
      exact absurd hle (by decide)
  rw [hputc]
  split
  case isTrue hlt =>
    rw [if_neg (by omega)]
    exact h.putCell hlt c
  case isFalse hfull =>
    rw [if_pos (by omega)]
    exact h.newline.putCell (by decide) c

/-- A cleared terminal shows one empty row. -/
theorem shown_termClear (t : Terminal) (hstored : t.mem.stored = []) :
  t.termClear.Shown [] []
  := by
  refine ⟨rfl, rfl, ?_, ?_⟩
  · have hnone : t.mem.Within 10000 11760 := by
      rw [Linear.Within, hstored]
      exact fun a ha => absurd ha List.not_mem_nil
    exact hnone.memset 32 (by decide) (by decide)
  · intro i hi j hj
    have haddr : 10000 + i * 80 + j = 10000 + (i * 80 + j) := by omega
    rw [termClear, Linear.bytes_memset, haddr, Memory.fill_apply _ _ (by omega), cell_concat_nil _ hi]
    rfl

/-- The characters that are written in a text. -/
def Writable (c : Int32) : Prop := c = 10 ∨ 32 ≤ c ∧ c ≤ 126

theorem shown_text (t : Terminal) (hstored : t.mem.stored = []) {text : List Int32}
    (htext : ∀ c ∈ text, Writable c) :
  ∃ above last, Wrapping.LastRow 80 (Wrapping.rows 80 10 text) above last
    ∧ (text.foldl termPutc t.termClear).Shown above last
  := by
  induction text using List.reverseRecOn with
  | nil => exact ⟨[], [], ⟨Wrapping.rows_nil 80 10, Nat.zero_le 80⟩, shown_termClear t hstored⟩
  | append_singleton text c ih =>
      obtain ⟨above, last, hlast, hshown⟩ := ih (fun d hd => htext d (List.mem_append_left _ hd))
      obtain ⟨above', last', hlast', hsep, hchar⟩ :=
        Wrapping.rows_append (Nat.zero_lt_succ 79) 10 text
      obtain ⟨rfl, hsame⟩ := List.append_inj' (hlast.eq_concat.symm.trans hlast'.eq_concat) rfl
      obtain rfl := List.singleton_inj.mp hsame
      rw [List.foldl_append, List.foldl_cons, List.foldl_nil]
      rcases htext c (List.mem_append_right _ List.mem_cons_self) with rfl | ⟨hle, hle'⟩
      · exact ⟨above ++ [last], [], hsep, hshown.newline⟩
      · have hne : c ≠ 10 := by
          rintro rfl
          exact absurd hle (by decide)
        have hrow := hchar c hne
        have hputc := hshown.printable hlast.length_le hle hle'
        by_cases hroom : last.length < 80
        · rw [if_pos hroom] at hrow hputc
          exact ⟨above, last ++ [c], hrow, hputc⟩
        · rw [if_neg hroom] at hrow hputc
          exact ⟨above ++ [last], [c], hrow, hputc⟩

/-- A text that is written after `term_clear` keeps the cursor and every store inside the grid, and the
grid shows its last 22 rows, and blanks. -/
theorem puts_shows (bytes : Memory) (row col len : Nat) {text : List Int32}
    (htext : ∀ c ∈ text, Writable c) :
  let t := text.foldl termPutc (termClear ⟨⟨bytes, []⟩, row, col, len⟩)
  t.cursorRow ≤ 21 ∧ t.cursorCol ≤ 80 ∧ t.mem.Within 10000 11760
    ∧ ∀ i < 22, ∀ j < 80, t.mem.bytes (10000 + i * 80 + j) = cell (Wrapping.rows 80 10 text) i j
  := by
  obtain ⟨above, last, hlast, hshown⟩ := shown_text ⟨⟨bytes, []⟩, row, col, len⟩ rfl htext
  have hcol := hlast.length_le
  rw [← hshown.col] at hcol
  refine ⟨?_, hcol, hshown.inside, ?_⟩
  · rw [hshown.row]
    exact Nat.min_le_right _ _
  · rw [hlast.eq_concat]
    exact hshown.cells

/-- The text `a`, newline, `b`. -/
theorem puts_shows_two :
  let t := [97, 10, 98].foldl termPutc (termClear ⟨⟨fun _ => 0, []⟩, 5, 7, 0⟩)
  t.cursorRow ≤ 21 ∧ t.cursorCol ≤ 80 ∧ t.mem.Within 10000 11760
    ∧ ∀ i < 22, ∀ j < 80,
      t.mem.bytes (10000 + i * 80 + j) = cell (Wrapping.rows 80 10 [97, 10, 98]) i j
  := by
  apply puts_shows
  intro c hc
  simp only [List.mem_cons, List.not_mem_nil, or_false] at hc
  rcases hc with rfl | rfl | rfl
  · exact Or.inr (by decide)
  · exact Or.inl rfl
  · exact Or.inr (by decide)

end Terminal
