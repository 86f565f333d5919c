import Mathlib.Logic.Function.Basic
import Mathlib.Tactic.Use
import Mathlib.Algebra.Group.Nat.Defs
import Mathlib.Algebra.Group.Int.Defs

/-!
# Checked arithmetic and loops over a grid

`int` and `word` check that a value fits into a signed or an unsigned 32-bit word, and `load` and
`store` that an index lies inside an array: the result is `none` when it does not.

`upTo n body` runs the body of a loop for `0` to `n - 1`, and `upTo_invariant` is its induction rule.
`raster` writes every cell of a grid, row after row, and `raster_some` is what it leaves when no check
fails.
-/

namespace Checked

/-- A value that is not negative, in a signed word. -/
def int (v : Nat) : Option Nat := if v < 2 ^ 31 then some v else none

/-- A value in an unsigned word. -/
def word (v : Nat) : Option Nat := if v < 2 ^ 32 then some v else none

/-- A value in a signed word. -/
def sint (v : Int) : Option Int := if -2 ^ 31 ≤ v ∧ v < 2 ^ 31 then some v else none

theorem sint_some {v : Int} (hle : -2 ^ 31 ≤ v) (hlt : v < 2 ^ 31) :
  sint v = some v
  := if_pos ⟨hle, hlt⟩

theorem sint_none {v : Int} (h : ¬ (-2 ^ 31 ≤ v ∧ v < 2 ^ 31)) :
  sint v = none
  := if_neg h

theorem int_of_lt {v : Nat} (h : v < 2 ^ 31) :
  int v = some v
  := if_pos h

theorem word_of_lt {v : Nat} (h : v < 2 ^ 32) :
  word v = some v
  := if_pos h

variable {α ρ σ : Type*}

/-- The cell of an array of `n` cells. -/
def load (cells : Nat → α) (n i : Nat) : Option α := if i < n then some (cells i) else none

/-- Write a cell of an array of `n` cells. -/
def store (cells : Nat → α) (n i : Nat) (c : α) : Option (Nat → α) :=
  if i < n then some (Function.update cells i c) else none

theorem load_of_lt (cells : Nat → α) {n i : Nat} (h : i < n) :
  load cells n i = some (cells i)
  := if_pos h

theorem store_of_lt (cells : Nat → α) {n i : Nat} (c : α) (h : i < n) :
  store cells n i c = some (Function.update cells i c)
  := if_pos h

/-- The cell of an array of `n` cells, by a signed index. -/
def loadAt (cells : Nat → α) (n : Nat) (i : Int) : Option α :=
  if 0 ≤ i ∧ i < n then some (cells i.toNat) else none

/-- Write a cell of an array of `n` cells, by a signed index. -/
def storeAt (cells : Nat → α) (n : Nat) (i : Int) (c : α) : Option (Nat → α) :=
  if 0 ≤ i ∧ i < n then some (Function.update cells i.toNat c) else none

theorem loadAt_some (cells : Nat → α) {n : Nat} {i : Int} (hle : 0 ≤ i) (hlt : i < n) :
  loadAt cells n i = some (cells i.toNat)
  := if_pos ⟨hle, hlt⟩

theorem storeAt_some (cells : Nat → α) {n : Nat} {i : Int} (c : α) (hle : 0 ≤ i) (hlt : i < n) :
  storeAt cells n i c = some (Function.update cells i.toNat c)
  := if_pos ⟨hle, hlt⟩

/-- The first cells are those of a list. -/
def Begins (cells : Nat → α) (l : List α) : Prop := ∀ i, ∀ h : i < l.length, cells i = l.get ⟨i, h⟩

/-- The cell behind the list is written. -/
theorem Begins.snoc {cells : Nat → α} {l : List α} (h : Begins cells l) (c : α) :
  Begins (Function.update cells l.length c) (l ++ [c])
  := by
  intro i hi
  rw [List.length_append, List.length_singleton] at hi
  by_cases hlast : i = l.length
  · subst hlast
    simp
  · rw [Function.update_of_ne hlast, h i (by omega)]
    simp [List.getElem_append_left (show i < l.length by omega)]

/-- A write behind the list. -/
theorem Begins.update {cells : Nat → α} {l : List α} (h : Begins cells l) {i : Nat} (hi : l.length ≤ i) (c : α) :
  Begins (Function.update cells i c) l
  := by
  intro j hj
  rw [Function.update_of_ne (by omega)]
  exact h j hj

/-! ### Loops -/

/-- Run the body for `0` to `n - 1`. -/
def upTo (body : Nat → σ → Option σ) : Nat → σ → Option σ
  | 0, s => some s
  | n + 1, s => (upTo body n s).bind (body n)

theorem upTo_invariant
    {body : Nat → σ → Option σ} (Inv : Nat → σ → Prop) {n : Nat} {s : σ}
    (hstep : ∀ i < n, ∀ s, Inv i s → ∃ s', body i s = some s' ∧ Inv (i + 1) s') (h : Inv 0 s) :
  ∃ s', upTo body n s = some s' ∧ Inv n s'
  := by
  induction n with
  | zero => exact ⟨s, rfl, h⟩
  | succ n ih =>
      obtain ⟨t, ht, hinv⟩ := ih (fun i hi => hstep i (Nat.lt_succ_of_lt hi))
      obtain ⟨s', hs', hinv'⟩ := hstep n (Nat.lt_succ_self n) t hinv
      use s'
      rw [upTo, ht, Option.bind_some]
      use hs', hinv'

/-- A loop fails when its first pass fails. -/
theorem upTo_none {body : Nat → σ → Option σ} {n : Nat} {s : σ} (hpos : 0 < n)
    (h : body 0 s = none) :
  upTo body n s = none
  := by
  induction n with
  | zero => exact absurd hpos (Nat.lt_irrefl 0)
  | succ n ih =>
      rw [upTo]
      by_cases hzero : n = 0
      · rw [hzero, upTo, Option.bind_some, h]
      · rw [ih (Nat.pos_of_ne_zero hzero), Option.bind_none]

/-- Run the body for `first` to `stop - 1`. -/
def fromTo (first stop : Int) (body : Int → σ → Option σ) (s : σ) : Option σ :=
  upTo (fun k => body (first + k)) (stop - first).toNat s

theorem fromTo_empty {first stop : Int} (body : Int → σ → Option σ) (s : σ) (h : stop ≤ first) :
  fromTo first stop body s = some s
  := by
  rw [fromTo, Int.toNat_of_nonpos (by omega), upTo]

theorem fromTo_none {first stop : Int} {body : Int → σ → Option σ} {s : σ} (hlt : first < stop)
    (h : body first s = none) :
  fromTo first stop body s = none
  := by
  apply upTo_none
  · omega
  · rw [Int.natCast_zero, Int.add_zero, h]

/-! ### Grids -/

/-- Write the cells of a row of a grid of `w` columns and `h` rows.  What `row` computes for the row is
given to `cell`, which computes the cell of a column. -/
def rasterRow (w h : Nat) (row : Nat → Option ρ) (cell : ρ → Nat → Option α) (y : Nat)
    (cells : Nat → α) : Option (Nat → α) :=
  (row y).bind (fun r => (int (y * w)).bind (fun start =>
    upTo (fun x cells => (cell r x).bind (store cells (w * h) (start + x))) w cells))

/-- Write the cells of a grid. -/
def raster (w h : Nat) (row : Nat → Option ρ) (cell : ρ → Nat → Option α) (cells : Nat → α) :
    Option (Nat → α) :=
  upTo (rasterRow w h row cell) h cells

/-- The first `n` cells of a grid meet the condition for their row and column, and the others are those
of `before`. -/
structure Filled (w : Nat) (P : Nat → Nat → α → Prop) (before : Nat → α) (n : Nat) (cells : Nat → α) :
    Prop where
  inside : ∀ i < n, P (i / w) (i % w) (cells i)
  outside : ∀ i, n ≤ i → cells i = before i

section Raster

variable {w h : Nat} {row : Nat → Option ρ} {cell : ρ → Nat → Option α} {P : Nat → Nat → α → Prop}

theorem row_end_le {y : Nat} (hy : y < h) :
  y * w + w ≤ w * h
  := by
  rw [← Nat.succ_mul, Nat.mul_comm w]
  exact Nat.mul_le_mul_right w hy

/-- The place of a cell lies inside the grid. -/
theorem row_lt {y x : Nat} (hy : y < h) (hx : x < w) :
  y * w + x < w * h
  := Nat.lt_of_lt_of_le (Nat.add_lt_add_left hx _) (row_end_le hy)

theorem div_row {y x : Nat} (hx : x < w) :
  (y * w + x) / w = y ∧ (y * w + x) % w = x
  := by
  constructor
  · rw [Nat.mul_comm, Nat.mul_add_div (Nat.zero_lt_of_lt hx), Nat.div_eq_of_lt hx, Nat.add_zero]
  · rw [Nat.mul_add_mod_self_right, Nat.mod_eq_of_lt hx]

/-- A cell by its row and column. -/
theorem Filled.meets {before cells : Nat → α} (h' : Filled w P before (w * h) cells) {y x : Nat}
    (hy : y < h) (hx : x < w) :
  P y x (cells (y * w + x))
  := by
  obtain ⟨hdiv, hmod⟩ := div_row (y := y) hx
  have hcell := h'.inside _ (row_lt hy hx)
  rwa [hdiv, hmod] at hcell

theorem Filled.update
    {y x : Nat} {before cells : Nat → α} {c : α} (hx : x < w) (hc : P y x c)
    (h : Filled w P before (y * w + x) cells) :
  Filled w P before (y * w + (x + 1)) (Function.update cells (y * w + x) c)
  := by
  obtain ⟨hdiv, hmod⟩ := div_row (y := y) hx
  constructor
  · intro i hi
    by_cases hlast : i = y * w + x
    · rw [hlast, Function.update_self, hdiv, hmod]
      exact hc
    · rw [Function.update_of_ne hlast]
      exact h.inside i (by omega)
  · intro i hi
    rw [Function.update_of_ne (by omega)]
    exact h.outside i (by omega)

theorem rasterRow_some
    {before cells : Nat → α} {y : Nat} (hy : y < h) (hsize : w * h < 2 ^ 31)
    (hrow : ∃ r, row y = some r ∧ ∀ x < w, ∃ c, cell r x = some c ∧ P y x c)
    (hcells : Filled w P before (y * w) cells) :
  ∃ cells', rasterRow w h row cell y cells = some cells' ∧ Filled w P before ((y + 1) * w) cells'
  := by
  obtain ⟨r, hr, hcell⟩ := hrow
  have hend := row_end_le (w := w) hy
  rw [rasterRow, hr, Option.bind_some, int_of_lt (by omega), Option.bind_some, Nat.succ_mul]
  apply upTo_invariant (fun x => Filled w P before (y * w + x)) _ hcells
  intro x hx cells hfilled
  obtain ⟨c, hc, hmeets⟩ := hcell x hx
  rw [hc, Option.bind_some, store_of_lt _ _ (by omega)]
  exact ⟨_, rfl, hfilled.update hx hmeets⟩

/-- When no check of a row or a cell fails, every cell of the grid is written, and no other. -/
theorem raster_some
    (cells : Nat → α) (hsize : w * h < 2 ^ 31)
    (hrow : ∀ y < h, ∃ r, row y = some r ∧ ∀ x < w, ∃ c, cell r x = some c ∧ P y x c) :
  ∃ cells', raster w h row cell cells = some cells' ∧ Filled w P cells (w * h) cells'
  := by
  rw [raster, Nat.mul_comm w h]
  apply upTo_invariant (fun y => Filled w P cells (y * w))
  · intro y hy cells' hfilled
    exact rasterRow_some hy hsize (hrow y hy) hfilled
  · constructor
    · intro i hi
      rw [Nat.zero_mul] at hi
      exact absurd hi (Nat.not_lt_zero i)
    · intro i _
      rfl

end Raster

end Checked
