import Woos.Lib.Radix
import Woos.Lib.Word
import Mathlib.Tactic.NormNum

/-!
# Four-level paging

The walk of an x86-64 processor through four levels of page tables.  The tables are a function `T`
from the address of a table and an index to an entry; level 3 is that of the root, and the entries of
level 0 point to pages.  An entry of level 1 or 2 with the page-size bit maps a large page; at level 3
the bit is reserved, and the walk faults.

`translate_eq_node` says what the walk yields at an address whose entries have no page-size bit, in
terms of the table that the path of the address reaches, and `translate_congr` that only the tables
along the path count.
-/

namespace Paging

/-- The present bit. -/
def present (e : UInt64) : Bool := e &&& 1 != 0

/-- The page-size bit. -/
def large (e : UInt64) : Bool := e &&& 0x80 != 0

/-- The address in an entry. -/
def frame (e : UInt64) : UInt64 := e &&& 0x000FFFFFFFFFF000

/-- The table that an entry points to. -/
def table (e : UInt64) : Option UInt64 := if present e && !large e then some (frame e) else none

/-- The index of an address at a level. -/
def index (v : UInt64) (level : Nat) : Fin 512 :=
  ⟨v.toNat / 2 ^ (12 + 9 * level) % 512, Nat.mod_lt _ (Nat.succ_pos 511)⟩

/-- The offset of an address in a page of a level. -/
def offsetMask (level : Nat) : UInt64 := UInt64.ofNat (2 ^ (12 + 9 * level) - 1)

/-- The address that an entry for a page of a level translates to. -/
def pageAddress (e v : UInt64) (level : Nat) : UInt64 :=
  (frame e &&& ~~~offsetMask level) ||| (v &&& offsetMask level)

/-- The walk from a table of a level on. -/
def walk (T : UInt64 → Fin 512 → UInt64) (v : UInt64) : Nat → UInt64 → Option UInt64
  | 0, t =>
      let e := T t (index v 0)
      if present e then some (pageAddress e v 0) else none
  | k + 1, t =>
      let e := T t (index v (k + 1))
      if !present e then none
      else if large e then if k = 2 then none else some (pageAddress e v (k + 1))
      else walk T v k (frame e)

/-- The physical address that an address is translated to. -/
def translate (T : UInt64 → Fin 512 → UInt64) (root v : UInt64) : Option UInt64 := walk T v 3 root

/-- The sign bit goes on to the top. -/
def Canonical (v : UInt64) : Prop := v.toNat < 2 ^ 47 ∨ 2 ^ 64 - 2 ^ 47 ≤ v.toNat

instance (v : UInt64) : Decidable (Canonical v) := inferInstanceAs (Decidable (_ ∨ _))

/-! ### Paths -/

/-- The table that an entry of a table points to. -/
def next (T : UInt64 → Fin 512 → UInt64) (p : UInt64) (i : Fin 512) : Option UInt64 := table (T p i)

/-- The indices by which the walk goes from a table of a level to one of level 0. -/
def pathFrom (v : UInt64) : Nat → List (Fin 512)
  | 0 => []
  | k + 1 => index v (k + 1) :: pathFrom v k

/-- The path of an address from the root. -/
def path (v : UInt64) : List (Fin 512) := pathFrom v 3

@[simp]
theorem length_pathFrom (v : UInt64) (k : Nat) :
  (pathFrom v k).length = k
  := by
  induction k with
  | zero => rfl
  | succ k ih => rw [pathFrom, List.length_cons, ih]

/-- Two canonical addresses with the same indices are in the same page. -/
theorem page_eq_iff {v w : UInt64} (hv : Canonical v) (hw : Canonical w) :
  (path v = path w ∧ index v 0 = index w 0) ↔ v.toNat / 4096 = w.toNat / 4096
  := by
  have hvlt := v.toNat_lt
  have hwlt := w.toNat_lt
  simp only [path, pathFrom, index, List.cons.injEq, and_true, Fin.mk.injEq]
  simp only [Canonical] at hv hw
  norm_num at hv hw ⊢
  omega

/-- The entry of a table that an address selects last. -/
def leaf (e v : UInt64) : Option UInt64 := if present e then some (pageAddress e v 0) else none

theorem leaf_of_not_present {e : UInt64} (h : present e = false) (v : UInt64) :
  leaf e v = none
  := by
  rw [leaf, h]
  rfl

theorem not_present_zero :
  present 0 = false
  := by decide

variable {T T' : UInt64 → Fin 512 → UInt64} {v t : UInt64} {k : Nat}

/-- No entry along the path maps a large page. -/
def NoLarge (T : UInt64 → Fin 512 → UInt64) (v t : UInt64) (k : Nat) : Prop :=
  ∀ js i, js ++ [i] <+: pathFrom v k → ∀ p, Radix.node (next T) t js = some p → present (T p i)
    → large (T p i) = false

theorem table_of_present {e : UInt64} (hp : present e) (hl : large e = false) :
  table e = some (frame e)
  := by
  rw [table, hp, hl]
  rfl

theorem table_of_not_present {e : UInt64} (hp : present e = false) :
  table e = none
  := by
  rw [table, hp]
  rfl

theorem table_eq_some {e p : UInt64} (h : table e = some p) :
  present e ∧ large e = false ∧ p = frame e
  := by
  rw [table] at h
  split at h
  case isTrue hand =>
    rw [Bool.and_eq_true, Bool.not_eq_true'] at hand
    cases h
    exact ⟨hand.1, hand.2, rfl⟩
  case isFalse => cases h

theorem NoLarge.step {e : UInt64} (h : NoLarge T v t (k + 1)) (he : T t (index v (k + 1)) = e)
    (hp : present e) :
  large e = false ∧ NoLarge T v (frame e) k
  := by
  have hlarge : large e = false := by
    rw [← he] at hp ⊢
    exact h [] (index v (k + 1)) (List.prefix_append [index v (k + 1)] (pathFrom v k)) t rfl hp
  use hlarge
  intro js i hjs p hnode
  apply h (index v (k + 1) :: js) i
  · exact (List.prefix_cons_inj _).mpr hjs
  · rw [Radix.node, next, he, table_of_present hp hlarge]
    exact hnode

theorem walk_eq_node (h : NoLarge T v t k) :
  walk T v k t = (Radix.node (next T) t (pathFrom v k)).bind (fun p => leaf (T p (index v 0)) v)
  := by
  induction k generalizing t with
  | zero => rfl
  | succ k ih =>
      rw [walk, pathFrom, Radix.node, next]
      cases hp : present (T t (index v (k + 1))) with
      | false =>
          rw [table_of_not_present hp]
          rfl
      | true =>
          obtain ⟨hlarge, hrest⟩ := h.step rfl hp
          rw [table_of_present hp hlarge, hlarge]
          exact ih hrest

/-- What the walk yields at an address without large pages. -/
theorem translate_eq_node (h : NoLarge T v t 3) :
  translate T t v = (Radix.node (next T) t (path v)).bind (fun p => leaf (T p (index v 0)) v)
  := walk_eq_node h

/-- Two walks that read the same entry, and go on alike. -/
theorem walk_congr_entry {t' : UInt64} (hentry : T' t' (index v (k + 1)) = T t (index v (k + 1)))
    (hrest : ∀ p, next T t (index v (k + 1)) = some p → walk T' v k p = walk T v k p) :
  walk T' v (k + 1) t' = walk T v (k + 1) t
  := by
  rw [walk, walk, hentry]
  cases hp : present (T t (index v (k + 1))) with
  | false => rfl
  | true =>
      cases hl : large (T t (index v (k + 1))) with
      | true => rfl
      | false => exact hrest _ (table_of_present hp hl)

/-- A walk goes on from the table that an entry points to. -/
theorem walk_of_next {p : UInt64} (h : next T t (index v (k + 1)) = some p) :
  walk T v (k + 1) t = walk T v k p
  := by
  obtain ⟨hp, hl, rfl⟩ := table_eq_some h
  rw [walk, hp, hl]
  rfl

theorem walk_congr
    (h : ∀ js, js <+: pathFrom v k → ∀ p, Radix.node (next T) t js = some p → ∀ i, T' p i = T p i) :
  walk T' v k t = walk T v k t
  := by
  have hself := h [] List.nil_prefix t rfl
  induction k generalizing t with
  | zero => rw [walk, walk, hself]
  | succ k ih =>
      apply walk_congr_entry (hself _)
      intro p hp
      have hrest : ∀ js, js <+: pathFrom v k → ∀ q, Radix.node (next T) p js = some q
          → ∀ i, T' q i = T q i := by
        intro js hjs q hq
        apply h (index v (k + 1) :: js)
        · exact (List.prefix_cons_inj _).mpr hjs
        · rw [Radix.node, hp]
          exact hq
      exact ih hrest (hrest [] List.nil_prefix p rfl)

/-- Only the tables along the path count. -/
theorem translate_congr
    (h : ∀ js, js <+: path v → ∀ p, Radix.node (next T) t js = some p → ∀ i, T' p i = T p i) :
  translate T' t v = translate T t v
  := walk_congr h

end Paging
