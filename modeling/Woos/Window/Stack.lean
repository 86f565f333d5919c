import Woos.Lib.CString
import Mathlib.Data.List.Perm.Basic

/-!
# The window stack

`WindowStack` is the table of windows of `fb.c`, in the order in which they lie on the
screen, the topmost last.  The functions here are the parts of the window calls between
`irq_save` and `irq_restore` that work on the table alone; the calls themselves, which also
use the kernel heap, are in `Woos.Window.Buffers`.
-/

/-- `woos_window_t` -/
structure Window where
  id : UInt32
  threadId : UInt32
  x : Int32
  y : Int32
  w : UInt32
  h : UInt32
  flags : UInt32
  savedX : Int32
  savedY : Int32
  savedW : UInt32
  savedH : UInt32
  title : CString
  active : UInt32
  buffer : UInt64
  deriving DecidableEq

/-- `g_windows` and `g_next_window_id`; the length of the list is `g_window_count`. -/
structure WindowStack where
  windows : List Window
  nextWindowId : UInt32
  deriving DecidableEq

/-- The part of `video_info_t` that the window calls read. -/
structure ScreenInfo where
  width : UInt16
  height : UInt16
  deriving DecidableEq, Repr

namespace WindowStack

/-- `MAX_WINDOWS` -/
def maxWindows : Nat := 8

/-- `WOOS_WIN_FLAG_MINIMIZED` -/
def flagMinimized : UInt32 := 1

/-- `WOOS_WIN_FLAG_MAXIMIZED` -/
def flagMaximized : UInt32 := 2

/-- `WOOS_WIN_FLAG_FOCUSED` -/
def flagFocused : UInt32 := 8

/-- The stack at boot. -/
def init : WindowStack := ⟨[], 1⟩

/-- The lowest window with the given id, and its position. -/
def find (s : WindowStack) (windowId : UInt32) : Option (Nat × Window) := do
  let i ← s.windows.findIdx? (fun v => v.id == windowId)
  let v ← s.windows[i]?
  some (i, v)

/-- Change the window at a position. -/
def modify (s : WindowStack) (i : Nat) (f : Window → Window) : WindowStack :=
  { s with windows := s.windows.modify i f }

/-! ### Focus -/

/-- A window without the focus flag. -/
def clearFocus (v : Window) : Window := { v with flags := v.flags &&& ~~~flagFocused }

/-- A window with the focus flag. -/
def setFocus (v : Window) : Window := { v with flags := v.flags ||| flagFocused }

/-- Give the focus to the topmost window. -/
def focusTop (s : WindowStack) : WindowStack :=
  s.modify (s.windows.length - 1) setFocus

/-- A window without the minimized flag. -/
def clearMinimized (v : Window) : Window := { v with flags := v.flags &&& ~~~flagMinimized }

/-! ### Creation and destruction -/

/-- The bytes of "Application". -/
def applicationTitle : CString where
  bytes := [65, 112, 112, 108, 105, 99, 97, 116, 105, 111, 110]
  ne_zero := by simp

/-- The bytes of "Calculator". -/
def calculatorTitle : CString where
  bytes := [67, 97, 108, 99, 117, 108, 97, 116, 111, 114]
  ne_zero := by simp

/-- The title of a new window: at most 31 bytes of the title asked for, if any. -/
def newTitle : Option CString → CString
  | none => applicationTitle
  | some title => if title = CString.empty then applicationTitle else title.truncate 31

/-- The window that `woos_graphics_create_window_ex` puts on the stack for the thread
`threadId`. -/
def newWindow (id threadId w h flags : UInt32) (title : Option CString) (buffer : UInt64) :
    Window where
  id := id
  threadId := threadId
  x := (80 + (id * 35) % 400).toInt32
  y := (70 + (id * 25) % 250).toInt32
  w := w
  h := h
  flags := flags ||| flagFocused
  savedX := (80 + (id * 35) % 400).toInt32
  savedY := (70 + (id * 25) % 250).toInt32
  savedW := w
  savedH := h
  title := newTitle title
  active := 1
  buffer := buffer

/-- The table part of `woos_graphics_create_window_ex`: `none` when the table is full. -/
def insert (s : WindowStack) (threadId w h flags : UInt32) (title : Option CString)
    (buffer : UInt64) : Option WindowStack :=
  if maxWindows ≤ s.windows.length then
    none
  else
    some {
      windows := s.windows.map clearFocus
        ++ [newWindow s.nextWindowId threadId w h flags title buffer]
      nextWindowId := s.nextWindowId + 1 }

/-- The table part of `woos_graphics_destroy_window`: the window and the rest of the
stack, `none` when there is no such window. -/
def remove (s : WindowStack) (windowId : UInt32) : Option (Window × WindowStack) := do
  let (i, v) ← s.find windowId
  some (v, focusTop { s with windows := s.windows.eraseIdx i })

/-- The id of the topmost window of a thread that `woos_graphics_destroy_thread_windows`
finds, `0` when there is none. -/
def topOfThread (s : WindowStack) (threadId : UInt32) : UInt32 :=
  match s.windows.reverse.find? (fun v => v.threadId == threadId) with
  | some v => v.id
  | none => 0

/-! ### Order -/

/-- The table part of `woos_graphics_bring_to_front`: `none` when there is no such
window. -/
def bringToFront (s : WindowStack) (windowId : UInt32) : Option WindowStack := do
  let (i, _) ← s.find windowId
  let vs := (s.modify i clearMinimized).windows.map clearFocus
  let v ← vs[i]?
  some (focusTop { s with windows := vs.eraseIdx i ++ [v] })

/-- The id of the lowest window of a thread that `woos_graphics_bring_thread_to_front` finds,
`0` when there is none. -/
def bottomOfThread (s : WindowStack) (threadId : UInt32) : UInt32 :=
  match s.windows.find? (fun v => v.threadId == threadId) with
  | some v => v.id
  | none => 0

/-- The position of the topmost window that is not minimized. -/
def topVisible (s : WindowStack) : Option Nat :=
  (s.windows.reverse.findIdx? (fun v => v.flags &&& flagMinimized == 0)).map
    (fun j => s.windows.length - 1 - j)

/-- A window that has been minimized. -/
def setMinimized (v : Window) : Window :=
  { v with flags := (v.flags ||| flagMinimized) &&& ~~~flagFocused }

/-- The table part of `woos_graphics_toggle_minimize` for a window that is not minimized. -/
def minimize (s : WindowStack) (i : Nat) : WindowStack :=
  let s := s.modify i setMinimized
  match s.topVisible with
  | some j => s.modify j setFocus
  | none => s

/-- The table part of `woos_graphics_toggle_minimize`: `none` when there is no such
window. -/
def toggleMinimize (s : WindowStack) (windowId : UInt32) : Option WindowStack := do
  let (i, v) ← s.find windowId
  if v.flags &&& flagMinimized ≠ 0 then
    s.bringToFront windowId
  else
    some (s.minimize i)

/-! ### Geometry -/

/-- The window when `woos_graphics_toggle_maximize` has changed its geometry and flags,
before its buffer is reallocated. -/
def maximizeGeometry (info : Option ScreenInfo) (v : Window) : Window :=
  if v.flags &&& flagMaximized ≠ 0 then
    { v with
      x := v.savedX
      y := v.savedY
      w := v.savedW
      h := v.savedH
      flags := v.flags &&& ~~~flagMaximized }
  else
    let v := { v with savedX := v.x, savedY := v.y, savedW := v.w, savedH := v.h, x := 0, y := 22 }
    let v := match info with
      | some screen =>
          if 0 < screen.width ∧ 58 < screen.height then
            { v with w := screen.width.toUInt32, h := screen.height.toUInt32 - 58 }
          else v
      | none => v
    { v with flags := v.flags ||| flagMaximized }

/-- The table part of `woos_graphics_set_window_pos`: `none` when there is no such
window. -/
def setWindowPos (s : WindowStack) (windowId : UInt32) (x y : Int32) : Option WindowStack := do
  let (i, _) ← s.find windowId
  some (s.modify i (fun v => { v with x := x, y := y }))

/-! ### Title and flags -/

/-- The table part of `woos_graphics_set_window_title`: `none` when there is no such
window. -/
def setWindowTitle (s : WindowStack) (windowId : UInt32) (title : Option CString) :
    Option WindowStack := do
  let (i, _) ← s.find windowId
  some (s.modify i (fun v => { v with title := (title.getD CString.empty).truncate 31 }))

/-- The table part of `woos_graphics_set_window_flags`: `none` when there is no such
window. -/
def setWindowFlags (s : WindowStack) (windowId flags : UInt32) : Option WindowStack := do
  let (i, _) ← s.find windowId
  some (s.modify i (fun v => { v with flags := flags }))

/-! ### What the operations keep

A function `g` of windows that does not look at the flags has the same values on the windows of
a stack before and after the operations that change only flags and order. -/

theorem find_spec {s : WindowStack} {windowId : UInt32} {i : Nat} {v : Window}
    (h : s.find windowId = some (i, v)) :
  ∃ hi : i < s.windows.length, s.windows[i] = v ∧ v.id = windowId
  := by
  obtain ⟨j, hj, hrest⟩ := Option.bind_eq_some_iff.mp h
  obtain ⟨u, hu, heq⟩ := Option.bind_eq_some_iff.mp hrest
  cases heq
  obtain ⟨hi, hid, -⟩ := List.findIdx?_eq_some_iff_getElem.mp hj
  rw [List.getElem?_eq_getElem hi] at hu
  cases hu
  exact ⟨hi, rfl, eq_of_beq hid⟩

theorem find_isSome {s : WindowStack} {v : Window} (hv : v ∈ s.windows) :
  (s.find v.id).isSome
  := by
  have hsome : (s.windows.findIdx? (fun u => u.id == v.id)).isSome := by
    rw [List.findIdx?_isSome, List.any_eq_true]
    exact ⟨v, hv, beq_self_eq_true _⟩
  obtain ⟨i, hi⟩ := Option.isSome_iff_exists.mp hsome
  obtain ⟨hlt, -, -⟩ := List.findIdx?_eq_some_iff_getElem.mp hi
  rw [find, hi]
  simp [List.getElem?_eq_getElem hlt]

theorem perm_of_find {s : WindowStack} {windowId : UInt32} {i : Nat} {v : Window}
    (h : s.find windowId = some (i, v)) :
  s.windows.Perm (v :: s.windows.eraseIdx i)
  := by
  obtain ⟨hi, rfl, -⟩ := find_spec h
  apply (List.getElem_cons_eraseIdx_perm hi).symm

theorem mem_of_find {s : WindowStack} {windowId : UInt32} {i : Nat} {v : Window}
    (h : s.find windowId = some (i, v)) :
  v ∈ s.windows
  := by
  obtain ⟨hi, rfl, -⟩ := find_spec h
  apply List.getElem_mem

theorem modify_const_perm {s : WindowStack} {windowId : UInt32} {i : Nat} {v : Window}
    (h : s.find windowId = some (i, v)) (v' : Window) :
  (s.modify i (fun _ => v')).windows.Perm (v' :: s.windows.eraseIdx i)
  := by
  obtain ⟨hi, -, -⟩ := find_spec h
  rw [modify, List.modify_eq_set_getElem?, List.getElem?_eq_getElem hi]
  apply List.set_perm_cons_eraseIdx hi

section

variable {β : Type*} {g : Window → β} {s s' : WindowStack} {windowId : UInt32}

theorem map_modify (i : Nat) {f : Window → Window} (hf : ∀ v, g (f v) = g v) :
  (s.modify i f).windows.map g = s.windows.map g
  := by
  apply List.ext_getElem
  · simp [modify]
  · intro j h₁ h₂
    simp only [modify, List.getElem_map, List.getElem_modify]
    split
    · apply hf
    · rfl

theorem setWindowPos_map (hg : ∀ v x y, g { v with x := x, y := y } = g v) {x y : Int32}
    (h : s.setWindowPos windowId x y = some s') :
  s'.windows.map g = s.windows.map g
  := by
  obtain ⟨⟨i, v⟩, -, heq⟩ := Option.bind_eq_some_iff.mp h
  cases heq
  apply map_modify
  intro v
  apply hg

theorem setWindowTitle_map (hg : ∀ v title, g { v with title := title } = g v)
    {title : Option CString} (h : s.setWindowTitle windowId title = some s') :
  s'.windows.map g = s.windows.map g
  := by
  obtain ⟨⟨i, v⟩, -, heq⟩ := Option.bind_eq_some_iff.mp h
  cases heq
  apply map_modify
  intro v
  apply hg

/-- A function of windows that does not look at the focus and minimized flags. -/
structure IgnoresMarks (g : Window → β) : Prop where
  clearFocus : ∀ v, g (clearFocus v) = g v
  setFocus : ∀ v, g (setFocus v) = g v
  clearMinimized : ∀ v, g (clearMinimized v) = g v
  setMinimized : ∀ v, g (setMinimized v) = g v

section

variable (hg : IgnoresMarks g)
include hg

theorem map_clearFocus (vs : List Window) :
  (vs.map WindowStack.clearFocus).map g = vs.map g
  := by
  rw [List.map_map]
  apply List.map_congr_left
  intro v _
  apply hg.clearFocus

theorem focusTop_map :
  s.focusTop.windows.map g = s.windows.map g
  := by
  apply map_modify
  apply hg.setFocus

theorem bringToFront_map (h : s.bringToFront windowId = some s') :
  (s'.windows.map g).Perm (s.windows.map g)
  := by
  obtain ⟨⟨i, u⟩, hfind, hrest⟩ := Option.bind_eq_some_iff.mp h
  obtain ⟨v, hv, heq⟩ := Option.bind_eq_some_iff.mp hrest
  cases heq
  obtain ⟨hi, rfl⟩ := List.getElem?_eq_some_iff.mp hv
  let vs := (s.modify i WindowStack.clearMinimized).windows.map WindowStack.clearFocus
  have hvs : vs.map g = s.windows.map g := by
    rw [map_clearFocus hg]
    apply map_modify
    apply hg.clearMinimized
  have hmoved : (vs.eraseIdx i ++ [vs[i]]).Perm vs :=
    (List.perm_append_singleton _ _).trans (List.getElem_cons_eraseIdx_perm hi)
  rw [focusTop_map hg, ← hvs]
  apply hmoved.map g

theorem minimize_map (i : Nat) :
  (s.minimize i).windows.map g = s.windows.map g
  := by
  have hset : (s.modify i WindowStack.setMinimized).windows.map g = s.windows.map g := by
    apply map_modify
    apply hg.setMinimized
  rw [minimize, ← hset]
  split
  · apply map_modify
    apply hg.setFocus
  · rfl

theorem toggleMinimize_map (h : s.toggleMinimize windowId = some s') :
  (s'.windows.map g).Perm (s.windows.map g)
  := by
  obtain ⟨⟨i, v⟩, -, hrest⟩ := Option.bind_eq_some_iff.mp h
  dsimp only at hrest
  split at hrest
  · apply bringToFront_map hg hrest
  · cases hrest
    rw [minimize_map hg]

end

variable (hg : ∀ v flags, g { v with flags := flags } = g v)
include hg

theorem ignoresMarks_of_flags :
  IgnoresMarks g
  := by
  constructor
  all_goals
    intro v
    apply hg

theorem setWindowFlags_map {flags : UInt32} (h : s.setWindowFlags windowId flags = some s') :
  s'.windows.map g = s.windows.map g
  := by
  obtain ⟨⟨i, v⟩, -, heq⟩ := Option.bind_eq_some_iff.mp h
  cases heq
  apply map_modify
  intro v
  apply hg

theorem insert_map {threadId w h flags : UInt32} {title : Option CString} {buffer : UInt64}
    (hs : s.insert threadId w h flags title buffer = some s') :
  s'.windows.map g
    = s.windows.map g ++ [g (newWindow s.nextWindowId threadId w h flags title buffer)]
  := by
  rw [insert] at hs
  split at hs
  · cases hs
  · cases hs
    rw [List.map_append, map_clearFocus (ignoresMarks_of_flags hg)]
    rfl

theorem remove_map {v : Window} (h : s.remove windowId = some (v, s')) :
  (s.windows.map g).Perm (g v :: s'.windows.map g)
  := by
  obtain ⟨⟨i, u⟩, hfind, heq⟩ := Option.bind_eq_some_iff.mp h
  cases heq
  rw [focusTop_map (ignoresMarks_of_flags hg)]
  apply (perm_of_find hfind).map g

end

theorem remove_length {s s' : WindowStack} {windowId : UInt32} {v : Window}
    (h : s.remove windowId = some (v, s')) :
  s'.windows.length + 1 = s.windows.length
  := by
  have hperm := (remove_map (g := fun _ => ()) (fun _ _ => rfl) h).length_eq
  rw [List.length_map, List.length_cons, List.length_map] at hperm
  exact hperm.symm

/-- The window that the loop over the windows of a thread finds can be removed. -/
theorem remove_topOfThread {s : WindowStack} {threadId : UInt32} (h : s.topOfThread threadId ≠ 0) :
  ∃ v s', s.remove (s.topOfThread threadId) = some (v, s')
  := by
  rw [topOfThread] at h ⊢
  split at h
  case h_1 v hfind =>
    have hv : v ∈ s.windows := List.mem_reverse.mp (List.mem_of_find?_eq_some hfind)
    obtain ⟨⟨i, u⟩, hu⟩ := Option.isSome_iff_exists.mp (find_isSome hv)
    use u, focusTop { s with windows := s.windows.eraseIdx i }
    rw [remove, hu]
    rfl
  case h_2 => exact absurd rfl h

end WindowStack
