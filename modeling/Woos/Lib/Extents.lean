import Mathlib.Data.List.Basic
import Mathlib.Data.List.Range
import Mathlib.Logic.Function.Basic
import Mathlib.Tactic.Use

/-!
# Extents

A table gives for every cell the next cell of its chain, or the mark `last`.  An extent is a block of
cells one behind the other whose chain goes through them in order (`Linked`); `follow` finds them from the
first cell (`follow_linked`).  Extents that tile a range of cells are disjoint, and each cell of the
range lies in one of them (`Tiles`).
-/

/-- A block of cells with its contents. -/
structure Extent (α : Type*) where
  start : Nat
  count : Nat
  contents : List α

namespace Extent

variable {α : Type*} {last : Nat}

/-- The cells of a chain, when it ends within so many cells. -/
def follow (next : Nat → Nat) (isLast : Nat → Bool) : (fuel c : Nat) → Option (List Nat)
  | 0, _ => none
  | fuel + 1, c =>
    if isLast (next c) then some [c] else (follow next isLast fuel (next c)).map (c :: ·)

/-- The chain of the cells from `a` to `b`. -/
def link (last : Nat) (next : Nat → Nat) (a b : Nat) : Nat → Nat :=
  fun c => if a ≤ c ∧ c < b then (if c + 1 = b then last else c + 1) else next c

/-- The chain of an extent goes through its cells in order. -/
def Linked (last : Nat) (next : Nat → Nat) (x : Extent α) : Prop :=
  ∀ c, x.start ≤ c → c < x.start + x.count → next c = if c + 1 = x.start + x.count then last else c + 1

/-- The extents fill the cells from `a` to `b` one behind the other. -/
def Tiles : Nat → List (Extent α) → Nat → Prop
  | a, [], b => a = b
  | a, x :: xs, b => x.start = a ∧ 0 < x.count ∧ Tiles (a + x.count) xs b

/-- The chain from a cell on to the end of its extent. -/
theorem follow_range {next : Nat → Nat} {isLast : Nat → Bool} (hlast : isLast last = true) {b : Nat}
    (hcell : ∀ c < b, isLast c = false) {n c fuel : Nat} (hend : c + n + 1 = b)
    (hnext : ∀ d, c ≤ d → d < b → next d = if d + 1 = b then last else d + 1) (hfuel : n < fuel) :
  follow next isLast fuel c = some (List.range' c (n + 1))
  := by
  induction n generalizing c fuel with
  | zero =>
      obtain ⟨fuel, rfl⟩ := Nat.exists_eq_add_of_lt hfuel
      rw [Nat.zero_add, follow, hnext c (Nat.le_refl c) (by omega), if_pos hend, if_pos hlast]
      rfl
  | succ n ih =>
      obtain ⟨fuel, rfl⟩ := Nat.exists_eq_add_of_lt hfuel
      have hstep : next c = c + 1 := by
        rw [hnext c (Nat.le_refl c) (by omega), if_neg (by omega)]
      have hno : isLast (c + 1) = false := hcell (c + 1) (by omega)
      rw [follow, hstep, hno, if_neg Bool.false_ne_true, ih (by omega)
        (fun d hd hlt => hnext d (by omega) hlt) (by omega), Option.map_some, List.range'_succ (n := n + 1)]

/-- A chain ends in a mark. -/
theorem follow_ends {next : Nat → Nat} {isLast : Nat → Bool} {fuel c : Nat} {cells : List Nat}
    (h : follow next isLast fuel c = some cells) :
  ∃ l, cells.getLast? = some l ∧ isLast (next l) = true
  := by
  induction fuel generalizing c cells with
  | zero => cases h
  | succ fuel ih =>
      rw [follow] at h
      by_cases hmark : isLast (next c) = true
      · rw [if_pos hmark] at h
        cases h
        exact ⟨c, rfl, hmark⟩
      · rw [if_neg hmark] at h
        obtain ⟨rest, hrest, rfl⟩ := Option.map_eq_some_iff.mp h
        obtain ⟨l, hl, hend⟩ := ih hrest
        refine ⟨l, ?_, hend⟩
        rw [List.getLast?_cons, hl, Option.getD_some]

/-- The chain of an extent. -/
theorem follow_linked {next : Nat → Nat} {isLast : Nat → Bool} (hlast : isLast last = true)
    {x : Extent α} (hlinked : x.Linked last next) (hpos : 0 < x.count)
    (hcell : ∀ c < x.start + x.count, isLast c = false) {fuel : Nat} (hfuel : x.count ≤ fuel) :
  follow next isLast fuel x.start = some (List.range' x.start x.count)
  := by
  have hchain := @follow_range last next isLast hlast (x.start + x.count) hcell (x.count - 1) x.start fuel
    (by omega) hlinked (by omega)
  rwa [Nat.sub_add_cancel hpos] at hchain

/-! ### New chains -/

@[simp]
theorem link_empty (next : Nat → Nat) (b : Nat) :
  link last next b b = next
  := by
  funext c
  rw [link, if_neg (by omega)]

/-- The first cell is linked, and then the others. -/
theorem link_step (next : Nat → Nat) {a b : Nat} (h : a < b) :
  link last (Function.update next a (if a + 1 = b then last else a + 1)) (a + 1) b = link last next a b
  := by
  funext c
  rw [link, link]
  by_cases hc : c = a
  · rw [hc, if_neg (by omega), Function.update_self, if_pos (⟨Nat.le_refl a, h⟩ : a ≤ a ∧ a < b)]
  · rw [Function.update_of_ne hc]
    by_cases hin : a + 1 ≤ c ∧ c < b
    · rw [if_pos hin, if_pos (by omega : a ≤ c ∧ c < b)]
    · rw [if_neg hin, if_neg (by omega : ¬ (a ≤ c ∧ c < b))]

theorem linked_link (next : Nat → Nat) (x : Extent α) :
  x.Linked last (link last next x.start (x.start + x.count))
  := by
  intro c hle hlt
  exact if_pos ⟨hle, hlt⟩

/-- A new chain behind an extent leaves its chain alone. -/
theorem Linked.link {next : Nat → Nat} {x : Extent α} (h : x.Linked last next) {a : Nat}
    (hle : x.start + x.count ≤ a) (b : Nat) :
  x.Linked last (link last next a b)
  := by
  intro c hc hlt
  rw [Extent.link, if_neg (by omega)]
  exact h c hc hlt

/-! ### Tilings -/

theorem Tiles.le {a b : Nat} {xs : List (Extent α)} (h : Tiles a xs b) :
  a ≤ b
  := by
  induction xs generalizing a with
  | nil => exact Nat.le_of_eq h
  | cons x xs ih =>
      obtain ⟨-, -, hrest⟩ := h
      have hle := ih hrest
      omega

theorem tiles_append {a b : Nat} {xs ys : List (Extent α)} :
  Tiles a (xs ++ ys) b ↔ ∃ c, Tiles a xs c ∧ Tiles c ys b
  := by
  induction xs generalizing a with
  | nil => exact ⟨fun h => ⟨a, rfl, h⟩, fun ⟨c, hc, h⟩ => hc ▸ h⟩
  | cons x xs ih =>
      rw [List.cons_append, Tiles, ih]
      constructor
      · rintro ⟨hstart, hpos, c, hxs, hys⟩
        exact ⟨c, ⟨hstart, hpos, hxs⟩, hys⟩
      · rintro ⟨c, ⟨hstart, hpos, hxs⟩, hys⟩
        exact ⟨hstart, hpos, c, hxs, hys⟩

theorem Tiles.concat {a b : Nat} {xs : List (Extent α)} (h : Tiles a xs b) {n : Nat} (hn : 0 < n)
    (contents : List α) :
  Tiles a (xs ++ [⟨b, n, contents⟩]) (b + n)
  := tiles_append.mpr ⟨b, h, rfl, hn, rfl⟩

/-- The contents do not matter. -/
theorem Tiles.replace {a b : Nat} {xs ys : List (Extent α)} {x : Extent α} (h : Tiles a (xs ++ x :: ys) b)
    (contents : List α) :
  Tiles a (xs ++ { x with contents } :: ys) b
  := by
  obtain ⟨c, hxs, hx⟩ := tiles_append.mp h
  exact tiles_append.mpr ⟨c, hxs, hx⟩

/-- An extent of a tiling lies in the range. -/
theorem Tiles.mem {a b : Nat} {xs : List (Extent α)} (h : Tiles a xs b) {x : Extent α} (hx : x ∈ xs) :
  a ≤ x.start ∧ 0 < x.count ∧ x.start + x.count ≤ b
  := by
  induction xs generalizing a with
  | nil => cases hx
  | cons y xs ih =>
      obtain ⟨hstart, hpos, hrest⟩ := h
      rcases List.mem_cons.mp hx with rfl | hx
      · have hle := hrest.le
        omega
      · obtain ⟨hle, hlt⟩ := ih hrest hx
        omega

/-- Each extent of a tiling ends before the later ones begin. -/
theorem Tiles.pairwise {a b : Nat} {xs : List (Extent α)} (h : Tiles a xs b) :
  xs.Pairwise (fun x y => x.start + x.count ≤ y.start)
  := by
  induction xs generalizing a with
  | nil => exact .nil
  | cons x xs ih =>
      obtain ⟨hstart, -, hrest⟩ := h
      refine .cons (fun y hy => ?_) (ih hrest)
      rw [hstart]
      exact (hrest.mem hy).1

/-- Each cell of the range lies in an extent. -/
theorem Tiles.exists_mem {a b : Nat} {xs : List (Extent α)} (h : Tiles a xs b) {c : Nat} (hle : a ≤ c)
    (hlt : c < b) :
  ∃ x ∈ xs, x.start ≤ c ∧ c < x.start + x.count
  := by
  induction xs generalizing a with
  | nil =>
      have hab : a = b := h
      omega
  | cons x xs ih =>
      obtain ⟨hstart, -, hrest⟩ := h
      by_cases hin : c < a + x.count
      · exact ⟨x, List.mem_cons_self, by omega, by omega⟩
      · obtain ⟨y, hy, hcell⟩ := ih hrest (Nat.le_of_not_lt hin)
        exact ⟨y, List.mem_cons_of_mem x hy, hcell⟩

/-- In a tiling with linked extents the cells of the range are those that are not zero. -/
theorem next_ne_zero {next : Nat → Nat} (hlast : last ≠ 0) {a b : Nat} {xs : List (Extent α)}
    (htiles : Tiles a xs b) (hlinked : ∀ x ∈ xs, x.Linked last next) {c : Nat} (hle : a ≤ c) (hlt : c < b) :
  next c ≠ 0
  := by
  obtain ⟨x, hx, hin, hbefore⟩ := htiles.exists_mem hle hlt
  rw [hlinked x hx c hin hbefore]
  split
  · exact hlast
  · exact Nat.succ_ne_zero c

end Extent
