import Mathlib.Data.List.Basic
import Mathlib.Data.List.Perm.Basic

/-!
# Exchange sort

The sort of two nested loops: for every place, what stands there is compared with everything
behind it and exchanged at once with what belongs before it.  `belongs a b` says that `b` behind
`a` is to be exchanged with it.  `exchangeLoop` is the loop for one place, `exchangeSort` the
outer loop.

What is sorted is a permutation (`exchangeSort_perm`), and no exchange is left to do, when
`belongs` is a strict order whose complement is transitive (`pairwise_exchangeSort`).
-/

namespace Exchange

variable {α : Type*}

/-- The loop for one place: what it finds there at the end, and what stands behind it. -/
def exchangeLoop (belongs : α → α → Bool) : α → List α → α × List α
  | a, [] => (a, [])
  | a, b :: l =>
    if belongs a b then
      let r := exchangeLoop belongs b l
      (r.1, a :: r.2)
    else
      let r := exchangeLoop belongs a l
      (r.1, b :: r.2)

/-- The outer loop, for the first places. -/
def exchangeRounds (belongs : α → α → Bool) : Nat → List α → List α
  | _, [] => []
  | 0, a :: l => a :: l
  | n + 1, a :: l =>
    let r := exchangeLoop belongs a l
    r.1 :: exchangeRounds belongs n r.2

/-- Every place but the last has a round. -/
def exchangeSort (belongs : α → α → Bool) (l : List α) : List α :=
  exchangeRounds belongs (l.length - 1) l

variable {belongs : α → α → Bool}

theorem exchangeLoop_cons (a b : α) (l : List α) :
  exchangeLoop belongs a (b :: l)
    = if belongs a b then
        ((exchangeLoop belongs b l).1, a :: (exchangeLoop belongs b l).2)
      else ((exchangeLoop belongs a l).1, b :: (exchangeLoop belongs a l).2)
  := rfl

theorem exchangeRounds_succ (n : Nat) (a : α) (l : List α) :
  exchangeRounds belongs (n + 1) (a :: l)
    = (exchangeLoop belongs a l).1 :: exchangeRounds belongs n (exchangeLoop belongs a l).2
  := rfl

/-! ### Permutation -/

theorem exchangeLoop_perm (a : α) (l : List α) :
  ((exchangeLoop belongs a l).1 :: (exchangeLoop belongs a l).2).Perm (a :: l)
  := by
  induction l generalizing a with
  | nil => exact List.Perm.refl _
  | cons b l ih =>
      rw [exchangeLoop_cons]
      split
      · apply (List.Perm.swap a _ _).trans
        apply (ih b).cons a
      · apply (List.Perm.swap b _ _).trans
        apply ((ih a).cons b).trans
        apply List.Perm.swap

theorem length_exchangeLoop (a : α) (l : List α) :
  (exchangeLoop belongs a l).2.length = l.length
  := by
  have h := (@exchangeLoop_perm _ belongs a l).length_eq
  rw [List.length_cons, List.length_cons] at h
  apply Nat.add_right_cancel h

theorem exchangeRounds_perm (n : Nat) (l : List α) :
  (exchangeRounds belongs n l).Perm l
  := by
  induction n generalizing l with
  | zero => cases l <;> exact List.Perm.refl _
  | succ n ih =>
      cases l with
      | nil => exact List.Perm.refl _
      | cons a l =>
          rw [exchangeRounds_succ]
          apply ((ih _).cons _).trans
          apply exchangeLoop_perm

theorem exchangeSort_perm (l : List α) :
  (exchangeSort belongs l).Perm l
  := exchangeRounds_perm _ l

/-! ### Order -/

section Order

variable (hasymm : ∀ a b, belongs a b = true → belongs b a = false)
  (htrans : ∀ a b c, belongs a b = false → belongs b c = false → belongs a c = false)

include hasymm htrans

/-- Nothing behind the place belongs before what the loop leaves there. -/
theorem exchangeLoop_first (a : α) (l : List α) :
  belongs (exchangeLoop belongs a l).1 a = false
    ∧ ∀ c ∈ l, belongs (exchangeLoop belongs a l).1 c = false
  := by
  induction l generalizing a with
  | nil =>
      have hirrefl : belongs a a = false := by
        by_contra h
        rw [Bool.not_eq_false] at h
        rw [hasymm a a h] at h
        cases h
      simpa [exchangeLoop] using hirrefl
  | cons b l ih =>
      rw [exchangeLoop_cons]
      split
      case isTrue h =>
        obtain ⟨hb, hl⟩ := ih b
        use htrans _ b _ hb (hasymm a b h)
        intro c hc
        rcases List.mem_cons.mp hc with rfl | hc
        · exact hb
        · apply hl c hc
      case isFalse h =>
        obtain ⟨ha, hl⟩ := ih a
        use ha
        intro c hc
        rcases List.mem_cons.mp hc with rfl | hc
        · apply htrans _ a _ ha
          rwa [Bool.not_eq_true] at h
        · apply hl c hc

theorem pairwise_exchangeRounds {n : Nat} {l : List α} (h : l.length ≤ n + 1) :
  (exchangeRounds belongs n l).Pairwise (fun a b => belongs a b = false)
  := by
  induction n generalizing l with
  | zero =>
      match l, h with
      | [], _ => exact List.Pairwise.nil
      | [a], _ => exact List.pairwise_singleton _ _
  | succ n ih =>
      cases l with
      | nil => exact List.Pairwise.nil
      | cons a l =>
          rw [exchangeRounds_succ]
          apply List.Pairwise.cons
          · intro c hc
            obtain ⟨ha, hl⟩ := exchangeLoop_first hasymm htrans a l
            -- what stands behind the place after its round stood there before, or at the place
            have hmem : c ∈ a :: l := by
              apply (exchangeLoop_perm a l).mem_iff.mp
              apply List.mem_cons_of_mem
              apply (exchangeRounds_perm n _).mem_iff.mp hc
            rcases List.mem_cons.mp hmem with rfl | hmem
            · exact ha
            · apply hl c hmem
          · apply ih
            rw [length_exchangeLoop]
            apply Nat.le_of_succ_le_succ h

/-- No exchange is left to do. -/
theorem pairwise_exchangeSort (l : List α) :
  (exchangeSort belongs l).Pairwise (fun a b => belongs a b = false)
  := pairwise_exchangeRounds hasymm htrans (Nat.le_add_of_sub_le (Nat.le_refl _))

end Order

end Exchange
