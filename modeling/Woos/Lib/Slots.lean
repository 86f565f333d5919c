import Mathlib.Data.List.FinRange
import Mathlib.Data.List.Perm.Basic
import Mathlib.Logic.Function.Basic

/-!
# Tables of slots

A table of `n` slots, some of which are live, each with a list of things that it refers to.
`Slots.collect live f` lists what the live slots refer to, in the order of the slots.

`collect_perm` says how the list changes with one slot, up to the order of its elements: what the
slot referred to before goes, and what it refers to now comes.
-/

namespace Slots

variable {n : Nat} {α : Type*}

/-- What slot `i` contributes. -/
def part (live : Fin n → Bool) (f : Fin n → List α) (i : Fin n) : List α :=
  if live i then f i else []

/-- What the live slots refer to. -/
def collect (live : Fin n → Bool) (f : Fin n → List α) : List α :=
  (List.finRange n).flatMap (part live f)

theorem part_of_live {live : Fin n → Bool} (f : Fin n → List α) {i : Fin n} (h : live i) :
  part live f i = f i
  := if_pos h

theorem part_of_not_live {live : Fin n → Bool} (f : Fin n → List α) {i : Fin n} (h : live i = false) :
  part live f i = []
  := by
  apply if_neg
  rw [h]
  decide

theorem mem_collect {live : Fin n → Bool} {f : Fin n → List α} {x : α} :
  x ∈ collect live f ↔ ∃ i, live i ∧ x ∈ f i
  := by
  rw [collect, List.mem_flatMap]
  constructor
  · rintro ⟨i, -, hx⟩
    by_cases hi : live i
    · rw [part_of_live f hi] at hx
      exact ⟨i, hi, hx⟩
    · rw [part, if_neg hi] at hx
      cases hx
  · rintro ⟨i, hi, hx⟩
    use i, List.mem_finRange i
    rw [part_of_live f hi]
    exact hx

/-- What is not changed contributes the same. -/
theorem collect_congr {live live' : Fin n → Bool} {f f' : Fin n → List α}
    (h : ∀ i, part live' f' i = part live f i) :
  collect live' f' = collect live f
  := by
  apply List.flatMap_congr
  intro i _
  apply h

/-- A list of slots without repetition in which one of them changes. -/
theorem flatMap_perm {is : List (Fin n)} (his : is.Nodup) {g g' : Fin n → List α} {i : Fin n}
    (hi : i ∈ is) (h : ∀ j, j ≠ i → g' j = g j) :
  (g i ++ is.flatMap g').Perm (g' i ++ is.flatMap g)
  := by
  induction is with
  | nil => cases hi
  | cons j is ih =>
      obtain ⟨hj, his⟩ := List.nodup_cons.mp his
      rw [List.flatMap_cons, List.flatMap_cons]
      rcases eq_or_ne j i with rfl | hne
      · have hrest : is.flatMap g' = is.flatMap g := by
          apply List.flatMap_congr
          intro k hk
          apply h
          rintro rfl
          exact hj hk
        rw [hrest]
        apply List.perm_append_comm_assoc
      · have hmem := (List.mem_cons.mp hi).resolve_left (Ne.symm hne)
        rw [h j hne]
        apply (List.perm_append_comm_assoc _ _ _).trans
        apply ((ih his hmem).append_left (g j)).trans
        apply List.perm_append_comm_assoc

/-- Only slot `i` changes. -/
theorem collect_perm {live live' : Fin n → Bool} {f f' : Fin n → List α} {i : Fin n}
    (h : ∀ j, j ≠ i → part live' f' j = part live f j) :
  (part live f i ++ collect live' f').Perm (part live' f' i ++ collect live f)
  := flatMap_perm (List.nodup_finRange n) (List.mem_finRange i) h

/-- Elements of different slots are different when each slot refers to one of its own. -/
theorem collect_singleton_nodup {live : Fin n → Bool} {g : Fin n → α} (hg : Function.Injective g) :
  (collect live (fun i => [g i])).Nodup
  := by
  have heq : collect live (fun i => [g i]) = ((List.finRange n).filter live).map g := by
    rw [collect]
    induction List.finRange n with
    | nil => rfl
    | cons i is ih =>
        rw [List.flatMap_cons, ih]
        by_cases hi : live i
        · rw [part_of_live _ hi, List.filter_cons_of_pos hi, List.map_cons]
          rfl
        · rw [part, if_neg hi, List.filter_cons_of_neg hi]
          rfl
  rw [heq]
  apply List.Nodup.map hg
  apply List.Nodup.filter
  apply List.nodup_finRange

end Slots
