import Woos.Compositor.Capture

/-!
# What the mouse makes dirty

The cursor is drawn into the screen when a rectangle is presented.  When nothing else has to be drawn,
the compositor presents only the rectangle that the movements of the mouse have made dirty.
`round_presents` shows that this is enough: a round presents every pixel of the cursor at the places
where it has been and where it has come.
-/

namespace Compositor

/-- The pixels of the screen that `fb_draw_cursor_crosshair` changes for a cursor at `cx` and `cy`. -/
def UnderCursor (cx cy px py : Int) : Prop :=
  (0 ≤ px ∧ px < 1280 ∧ 0 ≤ py ∧ py < 1024)
    ∧ ((cx - 5 ≤ px ∧ px < cx + 6 ∧ cy - 1 ≤ py ∧ py ≤ cy + 1)
      ∨ (cx - 1 ≤ px ∧ px ≤ cx + 1 ∧ cy - 5 ≤ py ∧ py < cy + 6))

/-- A pixel is in the rectangle that is presented. -/
def Presented (r : Int × Int × Int × Int) (px py : Int) : Prop :=
  r.1 ≤ px ∧ px < r.1 + r.2.2.1 ∧ r.2.1 ≤ py ∧ py < r.2.1 + r.2.2.2

/-- A pixel is dirty. -/
def Dirty.Has (d : Dirty) (px py : Int) : Prop :=
  d.minX ≤ px ∧ px < d.maxX ∧ d.minY ≤ py ∧ py < d.maxY

theorem Dirty.Has.move {d : Dirty} {px py : Int} (h : d.Has px py) (oldX oldY x y : Int) :
  (d.move oldX oldY x y).Has px py
  := by
  rw [Dirty.Has, Dirty.move] at *
  dsimp only
  omega

/-- A movement makes the cursor dirty where it was and where it is. -/
theorem Dirty.move_has (d : Dirty) {oldX oldY x y px py : Int}
    (h : UnderCursor oldX oldY px py ∨ UnderCursor x y px py) :
  (d.move oldX oldY x y).Has px py
  := by
  rw [UnderCursor, UnderCursor] at h
  rw [Dirty.Has, Dirty.move]
  dsimp only
  omega

namespace Shell

/-- A pixel has become dirty since the screen was presented. -/
def Damaged (s : Shell) (px py : Int) : Prop := s.mouseHasMoved = true ∧ s.dirty.Has px py

section

variable {s t : Shell} {a : Answers} {px py : Int}

theorem Damaged.of_damage (h : s.Damaged px py) (heq : t.damage = s.damage) :
  t.Damaged px py
  := by
  obtain ⟨hdirty, hmoved⟩ := Prod.mk.inj heq
  rw [Damaged, hdirty, hmoved]
  exact h

theorem mouseMove_damage (s : Shell) (a : Answers) (x y : UInt16) (buttons : UInt8) :
  (s.mouseMove a x y buttons).shell.damage = (s.moveCursor x y).damage
  := by
  rw [mouseMove]
  dsimp only
  split_ifs
  · rfl
  · rfl
  · rfl
  · rfl
  · exact (quiet_hover _).damage
  · rfl

/-- Only movements of the mouse make pixels dirty. -/
theorem handle_damage (s : Shell) (a : Answers) {e : Input}
    (he : ∀ x y buttons, e ≠ .mouseMove x y buttons) :
  (s.handle a e).shell.damage = s.damage
  := by
  cases e with
  | mouseMove x y buttons => exact absurd rfl (he x y buttons)
  | mouseButton x y buttons =>
      rcases mouseButton_cases s a x y buttons with hquiet | hclicks
      · exact hquiet.damage
      · exact hclicks.2
  | mouseRelease buttons => rfl
  | timerTick => exact (quiet_timerTick a s).damage
  | keyDown ascii scancode buttons => exact (quiet_keyDown a s ascii scancode buttons).damage
  | windowChange => rfl
  | mouseWheel x y buttons => exact (quiet_mouseWheel a s x y buttons).damage
  | other => rfl

/-- What is dirty stays dirty until the screen is presented. -/
theorem Damaged.handle (h : s.Damaged px py) (a : Answers) (e : Input) :
  (s.handle a e).shell.Damaged px py
  := by
  by_cases he : ∃ x y buttons, e = .mouseMove x y buttons
  · obtain ⟨x, y, buttons, rfl⟩ := he
    have hmoved : (s.moveCursor x y).Damaged px py := ⟨rfl, h.2.move _ _ _ _⟩
    exact hmoved.of_damage (mouseMove_damage s a x y buttons)
  · push Not at he
    exact h.of_damage (handle_damage s a he)

theorem Damaged.serve (h : s.Damaged px py) (batch : List (Answers × Input)) :
  (s.serve batch).shell.Damaged px py
  := by
  induction batch generalizing s with
  | nil => exact h
  | cons ae batch ih => exact ih (h.handle ae.1 ae.2)

/-- Handling two lists of events one after the other. -/
theorem serve_append (s : Shell) (pre post : List (Answers × Input)) :
  (s.serve (pre ++ post)).shell = ((s.serve pre).shell.serve post).shell
  := by
  induction pre generalizing s with
  | nil => rfl
  | cons ae pre ih => exact ih _

/-- A movement among the events of a round makes the cursor dirty where it was and where it is. -/
theorem serve_damaged (s : Shell) (pre post : List (Answers × Input)) (a : Answers) (x y : UInt16)
    (buttons : UInt8)
    (h : UnderCursor (s.serve pre).shell.desktop.cursorX (s.serve pre).shell.desktop.cursorY px py
      ∨ UnderCursor x.toNat y.toNat px py) :
  (s.serve (pre ++ (a, .mouseMove x y buttons) :: post)).shell.Damaged px py
  := by
  rw [serve_append]
  have hmoved : ((s.serve pre).shell.moveCursor x y).Damaged px py := ⟨rfl, Dirty.move_has _ h⟩
  have hhandled := hmoved.of_damage (mouseMove_damage (s.serve pre).shell a x y buttons)
  exact hhandled.serve post

/-- Dirty pixels of the screen are presented. -/
theorem Damaged.present (h : s.Damaged px py) (hscreen : 0 ≤ px ∧ px < 1280 ∧ 0 ≤ py ∧ py < 1024)
    (redraw : Bool) :
  ∃ r, (s.present redraw).2 = some r ∧ Presented r px py
  := by
  obtain ⟨hmoved, hx, hx', hy, hy'⟩ := h
  rw [Shell.present]
  dsimp only
  split_ifs with hredraw hsize
  · refine ⟨_, rfl, ?_⟩
    rw [Presented]
    dsimp only
    omega
  · refine ⟨_, rfl, ?_⟩
    rw [Presented, dirtyRect]
    dsimp only
    omega
  · rw [dirtyRect] at hsize
    dsimp only at hsize
    omega

end

/-- A round of the main loop presents every pixel of the cursor, at the place where it was before each
movement and at the place to which it was moved. -/
theorem round_presents (s : Shell) (pre post : List (Answers × Input)) (a : Answers) (x y : UInt16)
    (buttons : UInt8) {px py : Int}
    (h : UnderCursor (s.serve pre).shell.desktop.cursorX (s.serve pre).shell.desktop.cursorY px py
      ∨ UnderCursor x.toNat y.toNat px py) :
  ∃ r, (s.round (pre ++ (a, .mouseMove x y buttons) :: post)).2 = some r ∧ Presented r px py
  := by
  apply (serve_damaged s pre post a x y buttons h).present
  rcases h with h | h
  · exact h.1
  · exact h.1

/-- The mouse moves from the middle of the screen to its corner. -/
theorem round_presents_corner :
  ∃ r, ((start none).round [(⟨[], [], none, -1, -1, none⟩, .mouseMove 0 0 0)]).2 = some r
    ∧ Presented r 0 3
  := by
  apply round_presents (start none) [] []
  right
  rw [UnderCursor]
  decide

end Shell

end Compositor
