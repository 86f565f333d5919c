import Mathlib.Logic.Function.Basic
import Mathlib.Data.List.Range
import Mathlib.Data.Nat.ModEq

/-!
# Circular buffers with a count

The entries of a circular buffer of `cap` slots that keeps the index `head` of its oldest entry
and the number `count` of entries.  The next entry is written to the slot `head + count`, wrapped
around, so that all slots can be in use.

The slots are a function on `ℕ`, so that they may be those of an array or bytes of a memory.
`CountedRing.contents` lists the entries, the oldest first.
-/

namespace CountedRing

variable {α : Type*} {cap : Nat}

/-- The entries, the oldest first. -/
def contents (slots : Nat → α) (cap head count : Nat) : List α :=
  (List.range count).map (fun i => slots ((head + i) % cap))

@[simp]
theorem contents_zero (slots : Nat → α) (head : Nat) :
  contents slots cap head 0 = []
  := rfl

@[simp]
theorem length_contents (slots : Nat → α) (head count : Nat) :
  (contents slots cap head count).length = count
  := by
  simp [contents]

/-- Only the slots of the entries count. -/
theorem contents_congr {slots slots' : Nat → α} {head count : Nat}
    (h : ∀ i < count, slots' ((head + i) % cap) = slots ((head + i) % cap)) :
  contents slots' cap head count = contents slots cap head count
  := by
  apply List.map_congr_left
  intro i hi
  apply h i (List.mem_range.mp hi)

/-- Different places of the ring are different slots. -/
theorem slot_inj {head i j : Nat} (hi : i < cap) (hj : j < cap)
    (h : (head + i) % cap = (head + j) % cap) :
  i = j
  := by
  have hmod : Nat.ModEq cap i j := Nat.ModEq.add_left_cancel' head h
  rwa [Nat.ModEq, Nat.mod_eq_of_lt hi, Nat.mod_eq_of_lt hj] at hmod

/-- Writing the slot behind the entries appends an entry. -/
theorem contents_push {slots slots' : Nat → α} {head count : Nat} (x : α) (hroom : count < cap)
    (hnew : slots' ((head + count) % cap) = x)
    (hold : ∀ k < cap, k ≠ (head + count) % cap → slots' k = slots k) :
  contents slots' cap head (count + 1) = contents slots cap head count ++ [x]
  := by
  have hsame : contents slots' cap head count = contents slots cap head count := by
    apply contents_congr
    intro i hi
    apply hold
    · apply Nat.mod_lt
      omega
    · intro heq
      have hcount := slot_inj (lt_trans hi hroom) hroom heq
      omega
  rw [← hsame, contents, List.range_succ, List.map_append, List.map_singleton, hnew]
  rfl

/-- Advancing the head drops the oldest entry. -/
theorem contents_pop (slots : Nat → α) (head count : Nat) :
  contents slots cap head (count + 1)
    = slots (head % cap) :: contents slots cap ((head + 1) % cap) count
  := by
  rw [contents, List.range_succ_eq_map, List.map_cons, List.map_map]
  congr 1
  apply List.map_congr_left
  intro i _
  rw [Function.comp_apply, Nat.mod_add_mod]
  congr 2
  omega

end CountedRing
