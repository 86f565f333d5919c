import Mathlib.Data.List.Pairwise

/-!
# The top of a stack is marked

A stack is a list, the topmost element last, of elements some of which are hidden and some of
which are marked.  `MarksTop` says that the topmost element that is not hidden is marked and
no other is, and `MarksAtMostTop` that no other is.  The second survives operations that break
the first, which is then restored by marking.
-/

namespace Marking

variable {α : Type*} (hidden marked : α → Prop)

/-- No element is marked but the topmost one that is not hidden. -/
structure MarksAtMostTop (l : List α) : Prop where
  above : l.Pairwise (fun v w => marked v → hidden w)
  visible : ∀ v ∈ l, marked v → ¬ hidden v

/-- The topmost element that is not hidden is marked, and no other is. -/
structure MarksTop (l : List α) : Prop extends MarksAtMostTop hidden marked l where
  some : (∃ v ∈ l, ¬ hidden v) → ∃ v ∈ l, marked v

variable {hidden marked : α → Prop} {l : List α}

theorem marksAtMostTop_of_unmarked (h : ∀ v ∈ l, ¬ marked v) :
  MarksAtMostTop hidden marked l
  := by
  constructor
  · rw [List.pairwise_iff_getElem]
    intro i j hi _ _ hmarked
    exact absurd hmarked (h _ (List.getElem_mem hi))
  · intro v hv hmarked
    exact absurd hmarked (h v hv)

theorem MarksAtMostTop.eraseIdx (h : MarksAtMostTop hidden marked l) (i : Nat) :
  MarksAtMostTop hidden marked (l.eraseIdx i)
  := by
  constructor
  · exact h.above.eraseIdx i
  · intro v hv
    exact h.visible v (List.mem_of_mem_eraseIdx hv)

/-- An element is hidden and loses its mark. -/
theorem MarksAtMostTop.hide (h : MarksAtMostTop hidden marked l) {f : α → α}
    (hhidden : ∀ v, hidden (f v)) (hmarked : ∀ v, ¬ marked (f v)) (i : Nat) :
  MarksAtMostTop hidden marked (l.modify i f)
  := by
  constructor
  · rw [List.pairwise_iff_getElem]
    intro a b ha hb hab
    rw [List.length_modify] at ha hb
    simp only [List.getElem_modify]
    split
    · intro hcon
      exact absurd hcon (hmarked _)
    · intro hmark
      split
      · exact hhidden _
      · exact List.pairwise_iff_getElem.mp h.above a b ha hb hab hmark
  · intro v hv hmark
    obtain ⟨a, ha, rfl⟩ := List.getElem_of_mem hv
    rw [List.length_modify] at ha
    simp only [List.getElem_modify] at hmark ⊢
    split at hmark
    · exact absurd hmark (hmarked _)
    case isFalse hne =>
      rw [if_neg hne]
      exact h.visible _ (List.getElem_mem ha) hmark

/-- The topmost element that is not hidden is marked. -/
theorem MarksAtMostTop.mark (h : MarksAtMostTop hidden marked l) {f : α → α}
    (hhidden : ∀ v, hidden (f v) ↔ hidden v) (hmarked : ∀ v, marked (f v)) {i : Nat}
    (hi : i < l.length) (hvisible : ¬ hidden l[i])
    (habove : ∀ j (hj : j < l.length), i < j → hidden l[j]) :
  MarksTop hidden marked (l.modify i f)
  := by
  constructor
  · constructor
    · rw [List.pairwise_iff_getElem]
      intro a b ha hb hab
      rw [List.length_modify] at ha hb
      simp only [List.getElem_modify]
      by_cases hai : i = a
      · subst hai
        intro _
        rw [if_neg (Nat.ne_of_lt hab)]
        exact habove b hb hab
      · intro hmark
        rw [if_neg hai] at hmark
        have hold := List.pairwise_iff_getElem.mp h.above a b ha hb hab hmark
        split
        · exact (hhidden _).mpr hold
        · exact hold
    · intro v hv hmark
      obtain ⟨a, ha, rfl⟩ := List.getElem_of_mem hv
      rw [List.length_modify] at ha
      simp only [List.getElem_modify] at hmark ⊢
      by_cases hai : i = a
      · subst hai
        rw [if_pos rfl, hhidden]
        exact hvisible
      · rw [if_neg hai] at hmark ⊢
        exact h.visible _ (List.getElem_mem ha) hmark
  · intro _
    have hi' : i < (l.modify i f).length := by
      rw [List.length_modify]
      exact hi
    use (l.modify i f)[i], List.getElem_mem hi'
    rw [List.getElem_modify, if_pos rfl]
    apply hmarked

/-- A marked element is put on top of unmarked ones. -/
theorem marksTop_concat {v : α} (h : ∀ u ∈ l, ¬ marked u) (hmarked : marked v)
    (hvisible : ¬ hidden v) :
  MarksTop hidden marked (l ++ [v])
  := by
  constructor
  · constructor
    · rw [List.pairwise_append]
      use (marksAtMostTop_of_unmarked h).above, List.pairwise_singleton _ _
      intro u hu _ _ hmark
      exact absurd hmark (h u hu)
    · intro u hu hmark
      rcases List.mem_append.mp hu with hold | hnew
      · exact absurd hmark (h u hold)
      · rw [List.mem_singleton.mp hnew]
        exact hvisible
  · intro _
    exact ⟨v, List.mem_append_right l (List.mem_singleton_self v), hmarked⟩

/-- There is nothing to mark. -/
theorem MarksAtMostTop.of_hidden (h : MarksAtMostTop hidden marked l) (hall : ∀ v ∈ l, hidden v) :
  MarksTop hidden marked l
  := by
  constructor
  · exact h
  · rintro ⟨v, hv, hvisible⟩
    exact absurd (hall v hv) hvisible

/-- The mark of a stack that is not hidden altogether is at one place. -/
theorem MarksTop.unique (h : MarksTop hidden marked l) (hvisible : ∃ v ∈ l, ¬ hidden v) :
  ∃ i, ∃ hi : i < l.length, marked l[i] ∧ ¬ hidden l[i]
    ∧ ∀ j (hj : j < l.length), marked l[j] → j = i
  := by
  obtain ⟨v, hv, hmark⟩ := h.some hvisible
  obtain ⟨i, hi, rfl⟩ := List.getElem_of_mem hv
  use i, hi, hmark, h.visible _ hv hmark
  intro j hj hmark'
  have hpairs := List.pairwise_iff_getElem.mp h.above
  by_contra hne
  rcases Nat.lt_or_gt_of_ne hne with hlt | hlt
  · exact h.visible _ hv hmark (hpairs j i hj hi hlt hmark')
  · exact h.visible _ (List.getElem_mem hj) hmark' (hpairs i j hi hj hlt hmark)

/-- Nothing is marked in a stack that is hidden altogether. -/
theorem MarksAtMostTop.unmarked (h : MarksAtMostTop hidden marked l) (hall : ∀ v ∈ l, hidden v)
    {v : α} (hv : v ∈ l) :
  ¬ marked v
  := by
  intro hmark
  exact h.visible v hv hmark (hall v hv)

end Marking
