import Mathlib.Data.List.InsertIdx
import Mathlib.Logic.Function.Basic
import Mathlib.Tactic.Use

/-!
# Insertion and deletion in an array

The loops with which C code opens a gap in an array and closes it again, `shiftUp` and `shiftDown` for
one entry and `openGap` and `closeGap` for a block, and the copy of a block, `copy`.  An array is a
function from indices; `entries a n` is the list of its first `n` entries, and on these lists the loops
insert and delete.
-/

namespace Shift

variable {α : Type*}

/-- `for (i = n; i > p; i--) a[i] = a[i - 1];` -/
def shiftUp (a : Nat → α) (p : Nat) : (n : Nat) → Nat → α
  | 0 => a
  | i + 1 => if p < i + 1 then shiftUp (Function.update a (i + 1) (a i)) p i else a

/-- `for (i = p; i < p + k; i++) a[i] = a[i + 1];` -/
def shiftDown (a : Nat → α) (p : Nat) : (k : Nat) → Nat → α
  | 0 => a
  | k + 1 => shiftDown (Function.update a p (a (p + 1))) (p + 1) k

/-- The loop of `closeGap`, for so many rounds. -/
def closeLoop (a : Nat → α) (k : Nat) : (p rounds : Nat) → Nat → α
  | _, 0 => a
  | p, m + 1 => closeLoop (Function.update a p (a (p + k))) k (p + 1) m

/-- `for (i = p; i + k <= n; i++) a[i] = a[i + k];` -/
def closeGap (a : Nat → α) (p k n : Nat) : Nat → α := closeLoop a k p (n + 1 - (p + k))

/-- The loop of `openGap`, for so many rounds. -/
def openLoop (a : Nat → α) (k p : Nat) : (rounds : Nat) → Nat → α
  | 0 => a
  | m + 1 => openLoop (Function.update a (p + m + k) (a (p + m))) k p m

/-- `for (i = n; i >= p; i--) a[i + k] = a[i];` -/
def openGap (a : Nat → α) (p k n : Nat) : Nat → α := openLoop a k p (n + 1 - p)

/-- `memcpy(&a[p], s, length of s)` -/
def copy (a : Nat → α) : (p : Nat) → (s : List α) → Nat → α
  | _, [] => a
  | p, x :: s => copy (Function.update a p x) (p + 1) s

/-- The first `n` entries. -/
def entries (a : Nat → α) (n : Nat) : List α := (List.range n).map a

theorem shiftUp_apply (a : Nat → α) (p n j : Nat) :
  shiftUp a p n j = if p < j ∧ j ≤ n then a (j - 1) else a j
  := by
  induction n generalizing a with
  | zero =>
      rw [shiftUp, if_neg (by omega)]
  | succ i ih =>
      rw [shiftUp]
      split
      · rw [ih]
        by_cases hj : j = i + 1
        · rw [hj, if_neg (by omega), if_pos (by omega), Function.update_self, Nat.add_sub_cancel]
        · rw [Function.update_of_ne hj]
          by_cases hin : p < j ∧ j ≤ i
          · rw [if_pos hin, if_pos (by omega), Function.update_of_ne (by omega)]
          · rw [if_neg hin, if_neg (by omega)]
      · rw [if_neg (by omega)]

theorem shiftDown_apply (a : Nat → α) (p k j : Nat) :
  shiftDown a p k j = if p ≤ j ∧ j < p + k then a (j + 1) else a j
  := by
  induction k generalizing a p with
  | zero =>
      rw [shiftDown, if_neg (by omega)]
  | succ k ih =>
      rw [shiftDown, ih]
      by_cases hin : p + 1 ≤ j ∧ j < p + 1 + k
      · rw [if_pos hin, if_pos (by omega), Function.update_of_ne (by omega)]
      · rw [if_neg hin]
        by_cases hj : j = p
        · rw [hj, if_pos (by omega), Function.update_self]
        · rw [Function.update_of_ne hj, if_neg (by omega)]

theorem closeLoop_apply (a : Nat → α) {k : Nat} (hk : 0 < k) (p m j : Nat) :
  closeLoop a k p m j = if p ≤ j ∧ j < p + m then a (j + k) else a j
  := by
  induction m generalizing a p with
  | zero => rw [closeLoop, if_neg (by omega)]
  | succ m ih =>
      rw [closeLoop, ih]
      by_cases hin : p + 1 ≤ j ∧ j < p + 1 + m
      · rw [if_pos hin, if_pos (by omega), Function.update_of_ne (by omega)]
      · rw [if_neg hin]
        by_cases hj : j = p
        · rw [hj, if_pos (by omega), Function.update_self]
        · rw [Function.update_of_ne hj, if_neg (by omega)]

theorem openLoop_apply (a : Nat → α) (k p m j : Nat) :
  openLoop a k p m j = if p + k ≤ j ∧ j < p + k + m then a (j - k) else a j
  := by
  induction m generalizing a with
  | zero => rw [openLoop, if_neg (by omega)]
  | succ m ih =>
      rw [openLoop, ih]
      by_cases hin : p + k ≤ j ∧ j < p + k + m
      · rw [if_pos hin, if_pos (by omega), Function.update_of_ne (by omega)]
      · rw [if_neg hin]
        by_cases hj : j = p + m + k
        · have hsource : p + m + k - k = p + m := Nat.add_sub_cancel _ _
          rw [hj, if_pos (by omega), Function.update_self, hsource]
        · rw [Function.update_of_ne hj, if_neg (by omega)]

/-! ### Lists of entries -/

@[simp]
theorem length_entries (a : Nat → α) (n : Nat) :
  (entries a n).length = n
  := by
  rw [entries, List.length_map, List.length_range]

@[simp]
theorem getElem_entries (a : Nat → α) (n : Nat) {i : Nat} (h : i < (entries a n).length) :
  (entries a n)[i] = a i
  := by
  simp [entries]

theorem entries_congr {a b : Nat → α} {n : Nat} (h : ∀ i < n, a i = b i) :
  entries a n = entries b n
  := by
  apply List.map_congr_left
  intro i hi
  apply h i (List.mem_range.mp hi)

theorem entries_succ (a : Nat → α) (n : Nat) :
  entries a (n + 1) = entries a n ++ [a n]
  := by
  rw [entries, List.range_succ, List.map_append]
  rfl

theorem entries_add (a : Nat → α) (n k : Nat) :
  entries a (n + k) = entries a n ++ entries (fun i => a (n + i)) k
  := by
  induction k with
  | zero => exact (List.append_nil _).symm
  | succ k ih => rw [← Nat.add_assoc, entries_succ, entries_succ, ih, List.append_assoc]

theorem entries_update_ge (a : Nat → α) {n p : Nat} (hp : n ≤ p) (x : α) :
  entries (Function.update a p x) n = entries a n
  := by
  apply entries_congr
  intro i hi
  rw [Function.update_of_ne (by omega)]

theorem entries_update (a : Nat → α) (n p : Nat) (x : α) :
  entries (Function.update a p x) n = (entries a n).set p x
  := by
  apply List.ext_getElem
  · simp
  · intro i h h'
    rw [getElem_entries, List.getElem_set]
    split
    · rename_i hi
      rw [← hi, Function.update_self]
    · rw [Function.update_of_ne (by omega), getElem_entries]

/-- Opening a gap and filling it inserts an entry. -/
theorem entries_shiftUp (a : Nat → α) {n p : Nat} (hp : p ≤ n) (x : α) :
  entries (Function.update (shiftUp a p n) p x) (n + 1) = (entries a n).insertIdx p x
  := by
  apply List.ext_getElem
  · rw [length_entries, List.length_insertIdx_of_le_length (by simpa using hp), length_entries]
  · intro i h h'
    rw [length_entries] at h
    rw [getElem_entries, List.getElem_insertIdx]
    split
    · rw [Function.update_of_ne (by omega), shiftUp_apply, if_neg (by omega), getElem_entries]
    · split
      · rename_i hi
        rw [hi, Function.update_self]
      · rw [Function.update_of_ne (by omega), shiftUp_apply, if_pos (by omega), getElem_entries]

/-- Closing the gap deletes the entry. -/
theorem entries_shiftDown (a : Nat → α) {n p : Nat} (hp : p < n) :
  entries (shiftDown a p (n - 1 - p)) (n - 1) = (entries a n).eraseIdx p
  := by
  apply List.ext_getElem
  · rw [length_entries, List.length_eraseIdx_of_lt (by simpa using hp), length_entries]
  · intro i h h'
    rw [length_entries] at h
    rw [getElem_entries, List.getElem_eraseIdx, shiftDown_apply]
    by_cases hi : i < p
    · rw [if_neg (by omega), dif_pos hi, getElem_entries]
    · rw [if_pos (by omega), dif_neg hi, getElem_entries]

/-- A block that is copied behind the first `p` entries is appended to them. -/
theorem entries_copy (a : Nat → α) (p : Nat) (s : List α) :
  entries (copy a p s) (p + s.length) = entries a p ++ s
  := by
  induction s generalizing a p with
  | nil => exact (List.append_nil _).symm
  | cons x s ih =>
      have hlen : p + (x :: s).length = p + 1 + s.length := by
        rw [List.length_cons]
        omega
      rw [copy, hlen, ih, entries_succ, entries_update_ge _ (Nat.le_refl p), Function.update_self,
        List.append_assoc]
      rfl

/-- The entries of an array are a list. -/
theorem entries_eq_iff (a : Nat → α) (l : List α) :
  entries a l.length = l ↔ ∀ i < l.length, l[i]? = some (a i)
  := by
  constructor
  · intro h i hi
    rw [← h, List.getElem?_eq_getElem (by simpa using hi), getElem_entries]
  · intro h
    apply List.ext_getElem (length_entries a l.length)
    intro i hi hi'
    rw [getElem_entries]
    have hentry := h i hi'
    rw [List.getElem?_eq_getElem hi'] at hentry
    exact (Option.some.inj hentry).symm

/-- The last entry moves when a gap is closed. -/
theorem closeGap_last (a : Nat → α) {p k n : Nat} (hk : 0 < k) (hn : p + k ≤ n) :
  closeGap a p k n (n - k) = a n
  := by
  have hindex : n - k + k = n := by omega
  rw [closeGap, closeLoop_apply a hk, if_pos (by omega), hindex]

/-- Closing a gap deletes the block in it. -/
theorem entries_closeGap {a : Nat → α} {u d v : List α} {n : Nat} (hd : d ≠ [])
    (hn : (u ++ d ++ v).length = n + 1) (h : entries a (n + 1) = u ++ d ++ v) :
  entries (closeGap a u.length d.length n) (u ++ v).length = u ++ v
  := by
  have hpos : 0 < d.length := List.length_pos_iff.mpr hd
  rw [← hn, entries_eq_iff] at h
  rw [entries_eq_iff]
  simp only [List.length_append] at h hn ⊢
  intro i hi
  rw [closeGap, closeLoop_apply a hpos, List.getElem?_append]
  by_cases hfirst : i < u.length
  · have hentry := h i (by omega)
    rw [List.append_assoc, List.getElem?_append_left hfirst] at hentry
    rw [if_pos hfirst, if_neg (by omega), hentry]
  · have hentry := h (i + d.length) (by omega)
    have hindex : i + d.length - (u ++ d).length = i - u.length := by
      rw [List.length_append]
      omega
    rw [List.getElem?_append_right (by rw [List.length_append]; omega), hindex] at hentry
    rw [if_neg hfirst, if_pos (by omega), hentry]

theorem copy_outside (a : Nat → α) {p : Nat} {s : List α} {j : Nat} (h : j < p ∨ p + s.length ≤ j) :
  copy a p s j = a j
  := by
  induction s generalizing a p with
  | nil => rfl
  | cons x s ih =>
      rw [List.length_cons] at h
      rw [copy, ih _ (by omega), Function.update_of_ne (by omega)]

/-- Opening a gap and filling it inserts a block. -/
theorem entries_openGap {a : Nat → α} {u v : List α} {n : Nat} (w : List α)
    (hn : (u ++ v).length = n + 1) (h : entries a (n + 1) = u ++ v) :
  entries (copy (openGap a u.length w.length n) u.length w) (u ++ w ++ v).length = u ++ w ++ v
  := by
  have hblock := entries_copy (openGap a u.length w.length n) u.length w
  have hfirst : entries (openGap a u.length w.length n) u.length = u := by
    rw [← hn, entries_eq_iff] at h
    rw [entries_eq_iff]
    intro i hi
    have hentry := h i (by rw [List.length_append]; omega)
    rw [List.getElem?_append_left hi] at hentry
    rw [openGap, openLoop_apply, if_neg (by omega), hentry]
  have hlength : (u ++ w ++ v).length = u.length + w.length + v.length := by
    rw [List.length_append, List.length_append]
  rw [hlength, entries_add, hblock, hfirst]
  congr 1
  rw [← hn, entries_eq_iff] at h
  rw [entries_eq_iff]
  rw [List.length_append] at hn
  intro i hi
  have hentry := h (u.length + i) (by rw [List.length_append]; omega)
  rw [List.getElem?_append_right (by omega), Nat.add_sub_cancel_left] at hentry
  have hindex : u.length + w.length + i - w.length = u.length + i := by omega
  rw [copy_outside _ (by omega), openGap, openLoop_apply, if_pos (by omega), hindex, hentry]

end Shift
