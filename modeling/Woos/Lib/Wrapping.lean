import Mathlib.Data.List.GetD
import Mathlib.Tactic.Use

/-!
# Lines in rows

A text is cut into lines at a separator, and each line into rows of a given width: `rows`.  What a
character that is appended does to the rows is `rows_append`: a separator starts another row, and any
other character goes behind the last row or, when that is full, starts another one.
-/

namespace Wrapping

variable {α : Type*}

/-- A line as full rows and the rest.  An empty line is an empty row. -/
def wrap (width : Nat) (line : List α) : List (List α) :=
  if width = 0 ∨ line.length ≤ width then [line]
  else line.take width :: wrap width (line.drop width)
termination_by line.length
decreasing_by
  rw [List.length_drop]
  omega

/-- The rows of a text. -/
def rows [BEq α] (width : Nat) (sep : α) (text : List α) : List (List α) :=
  (text.splitOn sep).flatMap (wrap width)

/-- A list of rows ends in `last`, with those before `above`. -/
structure LastRow (width : Nat) (rows above : List (List α)) (last : List α) : Prop where
  eq_concat : rows = above ++ [last]
  length_le : last.length ≤ width

/-- An entry of a list with one more at its end. -/
theorem getD_concat (as : List α) (a d : α) (k : Nat) :
  (as ++ [a]).getD k d = if k = as.length then a else as.getD k d
  := by
  rcases Nat.lt_trichotomy k as.length with hlt | heq | hgt
  · rw [if_neg (Nat.ne_of_lt hlt), List.getD_append _ _ _ _ hlt]
  · rw [if_pos heq, List.getD_append_right _ _ _ _ (Nat.le_of_eq heq.symm), heq, Nat.sub_self]
    rfl
  · have hbehind : (as ++ [a]).length ≤ k := by
      rw [List.length_append, List.length_singleton]
      exact hgt
    rw [if_neg (Nat.ne_of_gt hgt), List.getD_eq_default _ _ hbehind,
      List.getD_eq_default _ _ (Nat.le_of_lt hgt)]

/-! ### A line -/

theorem wrap_of_le {width : Nat} {line : List α} (h : line.length ≤ width) :
  wrap width line = [line]
  := by
  rw [wrap, if_pos (Or.inr h)]

/-- A character goes behind the last row of a line, or starts another row when that row is full. -/
theorem wrap_append {width : Nat} (hwidth : 0 < width) (line : List α) :
  ∃ above last, LastRow width (wrap width line) above last
    ∧ ∀ c, wrap width (line ++ [c])
      = if last.length < width then above ++ [last ++ [c]] else above ++ [last, [c]]
  := by
  induction line using wrap.induct width with
  | case1 line hle =>
      have hline : line.length ≤ width := by omega
      refine ⟨[], line, ⟨wrap_of_le hline, hline⟩, fun c => ?_⟩
      split
      case isTrue hlt =>
        apply wrap_of_le
        rw [List.length_append, List.length_singleton]
        omega
      case isFalse hfull =>
        have hlength : line.length = width := by omega
        have hone : [c].length ≤ width := hwidth
        have hlong : ¬ (width = 0 ∨ (line ++ [c]).length ≤ width) := by
          rw [List.length_append, List.length_singleton]
          omega
        rw [wrap, if_neg hlong, ← hlength, List.take_left, List.drop_left, hlength, wrap_of_le hone]
        rfl
  | case2 line hlong ih =>
      obtain ⟨above, last, hlast, happend⟩ := ih
      have hlonger (c : α) : ¬ (width = 0 ∨ (line ++ [c]).length ≤ width) := by
        rw [List.length_append, List.length_singleton]
        omega
      refine ⟨line.take width :: above, last, ⟨?_, hlast.length_le⟩, fun c => ?_⟩
      · rw [wrap, if_neg hlong, hlast.eq_concat]
        rfl
      · rw [wrap, if_neg (hlonger c), List.take_append_of_le_length (by omega),
          List.drop_append_of_le_length (by omega), happend]
        split
        · rfl
        · rfl

/-! ### A text -/

section

variable [BEq α]

theorem rows_nil (width : Nat) (sep : α) :
  rows width sep [] = [[]]
  := by
  rw [rows, List.splitOn_nil, List.flatMap_singleton, wrap_of_le (Nat.zero_le width)]

variable [LawfulBEq α]

/-- The separator starts another line, and any other character goes behind the last one. -/
theorem splitOn_append (sep : α) (text : List α) :
  ∃ lines line, text.splitOn sep = lines ++ [line]
    ∧ (text ++ [sep]).splitOn sep = lines ++ [line, []]
    ∧ ∀ c ≠ sep, (text ++ [c]).splitOn sep = lines ++ [line ++ [c]]
  := by
  induction text with
  | nil =>
      refine ⟨[], [], List.splitOn_nil sep, ?_, fun c hc => ?_⟩
      · simp [List.splitOn_cons_eq_if_modifyHead]
      · simp [List.splitOn_cons_eq_if_modifyHead, hc]
  | cons x text ih =>
      obtain ⟨lines, line, htext, hsep, hchar⟩ := ih
      by_cases hx : x = sep
      · refine ⟨[] :: lines, line, ?_, ?_, fun c hc => ?_⟩
        · simp [List.splitOn_cons_eq_if_modifyHead, hx, htext]
        · simp [List.splitOn_cons_eq_if_modifyHead, hx, hsep]
        · simp [List.splitOn_cons_eq_if_modifyHead, hx, hchar c hc]
      · cases lines with
        | nil =>
            refine ⟨[], x :: line, ?_, ?_, fun c hc => ?_⟩
            · simp [List.splitOn_cons_eq_if_modifyHead, hx, htext]
            · simp [List.splitOn_cons_eq_if_modifyHead, hx, hsep]
            · simp [List.splitOn_cons_eq_if_modifyHead, hx, hchar c hc]
        | cons first lines =>
            refine ⟨(x :: first) :: lines, line, ?_, ?_, fun c hc => ?_⟩
            · simp [List.splitOn_cons_eq_if_modifyHead, hx, htext]
            · simp [List.splitOn_cons_eq_if_modifyHead, hx, hsep]
            · simp [List.splitOn_cons_eq_if_modifyHead, hx, hchar c hc]

/-- What an appended character does to the rows of a text. -/
theorem rows_append {width : Nat} (hwidth : 0 < width) (sep : α) (text : List α) :
  ∃ above last, LastRow width (rows width sep text) above last
    ∧ LastRow width (rows width sep (text ++ [sep])) (above ++ [last]) []
    ∧ ∀ c ≠ sep, if last.length < width
        then LastRow width (rows width sep (text ++ [c])) above (last ++ [c])
        else LastRow width (rows width sep (text ++ [c])) (above ++ [last]) [c]
  := by
  obtain ⟨lines, line, htext, hsep, hchar⟩ := splitOn_append sep text
  obtain ⟨above, last, hlast, happend⟩ := wrap_append hwidth line
  refine ⟨lines.flatMap (wrap width) ++ above, last, ⟨?_, hlast.length_le⟩,
    ⟨?_, Nat.zero_le width⟩, fun c hc => ?_⟩
  · rw [rows, htext, List.flatMap_append, List.flatMap_singleton, hlast.eq_concat, List.append_assoc]
  · rw [rows, hsep, List.flatMap_append, List.flatMap_cons, List.flatMap_singleton, hlast.eq_concat,
      wrap_of_le (Nat.zero_le width)]
    simp
  · have hrows : rows width sep (text ++ [c])
        = lines.flatMap (wrap width) ++ wrap width (line ++ [c]) := by
      rw [rows, hchar c hc, List.flatMap_append, List.flatMap_singleton]
    rw [happend] at hrows
    split
    case isTrue hlt =>
      rw [if_pos hlt, ← List.append_assoc] at hrows
      refine ⟨hrows, ?_⟩
      rw [List.length_append]
      exact hlt
    case isFalse hfull =>
      rw [if_neg hfull] at hrows
      refine ⟨?_, hwidth⟩
      rw [hrows]
      simp

end

end Wrapping
