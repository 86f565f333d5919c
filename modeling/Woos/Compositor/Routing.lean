import Woos.Compositor.Capture
import Woos.Window.Order

/-!
# Where clicks and keys go

The compositor looks for the window under the cursor from the top of the stack; the kernel tells it
which thread has the focus, also from the top.  `click_gets_keys` brings the two together: a click is
for the topmost window under the cursor, which comes to the front, and the keys that are pressed next
are for the same thread.
-/

/-! ### The thread with the focus -/

namespace WindowStack

/-- `woos_graphics_get_focused_tid` -/
def getFocusedTid (s : WindowStack) : Int32 :=
  match s.windows.reverse.find? (fun v => v.Focused ∧ ¬ v.Minimized) with
  | some v => v.threadId.toInt32
  | none => -1

/-- The topmost window has the focus. -/
theorem getFocusedTid_concat {s : WindowStack} {below : List Window} {v : Window}
    (hwindows : s.windows = below ++ [v]) (hfocused : v.Focused) (hvisible : ¬ v.Minimized) :
  s.getFocusedTid = v.threadId.toInt32
  := by
  have hfind : s.windows.reverse.find? (fun v => v.Focused ∧ ¬ v.Minimized) = some v := by
    rw [hwindows, List.reverse_append, List.reverse_singleton, List.singleton_append]
    apply List.find?_cons_of_pos
    exact decide_eq_true ⟨hfocused, hvisible⟩
  rw [getFocusedTid, hfind]

theorem focusTop_concat (s : WindowStack) (below : List Window) (v : Window) :
  (focusTop { s with windows := below ++ [v] }).windows = below ++ [setFocus v]
  := by
  rw [focusTop, modify]
  dsimp only
  rw [List.length_append, List.length_singleton, Nat.add_sub_cancel,
    List.modify_eq_take_cons_drop (by simp)]
  simp

/-- A window that has come to the front has the focus. -/
theorem bringToFront_getFocusedTid {s s' : WindowStack} {windowId : UInt32} {i : Nat} {v : Window}
    (hfind : s.find windowId = some (i, v)) (h : s.bringToFront windowId = some s') :
  s'.getFocusedTid = v.threadId.toInt32
  := by
  obtain ⟨hi, rfl, -⟩ := find_spec hfind
  rw [bringToFront, hfind, Option.bind_eq_bind, Option.bind_some] at h
  obtain ⟨u, hu, heq⟩ := Option.bind_eq_some_iff.mp h
  cases heq
  have hvalue : u = clearFocus (clearMinimized s.windows[i]) := by
    simpa [modify, hi] using hu.symm
  rw [getFocusedTid_concat (focusTop_concat s _ u) (focused_setFocus u), hvalue]
  · rfl
  · rw [minimized_setFocus, hvalue, minimized_clearFocus]
    exact not_minimized_clearMinimized _

end WindowStack

namespace Compositor

namespace Shell

section

variable {s : Shell} {a : Answers} {v : Window}

/-! ### The window under the cursor -/

theorem reduceOption_eq_filterMap (windows : WindowList) :
  windows.reduceOption = windows.filterMap id
  := rfl

/-- The window that is found is the topmost of those that are under the cursor. -/
theorem windowAt_spec {windows : WindowList} {part : Part}
    (h : s.windowAt windows = some (v, part)) :
  ∃ below above, windows.reduceOption = below ++ v :: above ∧ s.partAt v = some part
    ∧ ∀ u ∈ above, s.partAt u = none
  := by
  rw [windowAt, reduceOption_eq_filterMap, List.filterMap_reverse] at h
  obtain ⟨above, u, below, hwindows, hu, habove⟩ := List.findSome?_eq_some_iff.mp h
  obtain ⟨part', hpart, heq⟩ := Option.map_eq_some_iff.mp hu
  cases heq
  refine ⟨below.reverse, above.reverse, ?_, hpart, ?_⟩
  · rw [reduceOption_eq_filterMap, ← List.reverse_reverse (windows.filterMap id), hwindows]
    simp
  · intro w hw
    exact Option.map_eq_none_iff.mp (habove w (List.mem_reverse.mp hw))

/-- The cursor is over the client area of a window that can be seen. -/
theorem partAt_client (h : s.partAt v = some .client) :
  ¬ v.Minimized ∧ v.x ≤ s.cursorX ∧ s.cursorX ≤ v.x + v.w.toInt32 ∧ v.y ≤ s.cursorY
    ∧ s.cursorY ≤ v.y + v.h.toInt32
  := by
  rw [partAt] at h
  split_ifs at h with hminimized hclose hmaximize hminimize htitle hclient
  case pos => cases h
  case pos => cases h
  case pos => cases h
  case pos => cases h
  case pos => exact ⟨hminimized, hclient⟩

/-! ### Clicks -/

theorem Quiet.not_clicked {s t : Shell} {effects : List Effect} (h : Quiet s t effects) {e : Effect}
    (he : e ∈ effects) (p : Pointer) :
  e.pointer ≠ some p
  := by
  rw [List.filterMap_eq_nil_iff.mp h.silent e he]
  simp

/-- A click outside the context menu does nothing but close it. -/
theorem ctxMenuClick_not_taken (h : (s.ctxMenuClick a).2.2 = false) :
  s.ctxMenuClick a = (s, [], false)
  := by
  rw [ctxMenuClick] at h ⊢
  dsimp only at h ⊢
  by_cases hmenu : s.inRect s.ctxX s.ctxY 175 s.ctxH = true
  · rw [if_pos hmenu] at h
    cases h
  · rw [if_neg hmenu] at h ⊢
    cases hsubmenu : s.ctxSubmenu with
    | openWith =>
        rw [hsubmenu] at h
        dsimp only at h ⊢
        split at h
        case isTrue => cases h
        case isFalse hout => rw [if_neg hout]
    | new =>
        rw [hsubmenu] at h
        dsimp only at h ⊢
        split at h
        case isTrue => cases h
        case isFalse hout => rw [if_neg hout]
    | closed => rfl

theorem pressBehindMenu_clicked {buttons : UInt8} {e : Effect} {tid : UInt32}
    (he : e ∈ (s.pressBehindMenu a buttons).effects) (hclicked : e.pointer = some (.clicked tid)) :
  ∃ v, s.windowAt a.windows = some (v, .client)
    ∧ s.pressBehindMenu a buttons = s.partClick a v buttons .client
  := by
  rw [pressBehindMenu] at he ⊢
  split_ifs at he ⊢
  · exact absurd hclicked ((quiet_startMenuClick a s).not_clicked he _)
  · exact absurd hclicked ((quiet_taskbarClick a s).not_clicked he _)
  · split at he
    case h_1 v part hat =>
      by_cases hpart : part = .client
      · rw [hat, hpart]
        exact ⟨v, rfl, rfl⟩
      · exact absurd hclicked ((quiet_partClick a s v buttons hpart).not_clicked he _)
    case h_2 => exact absurd hclicked ((quiet_desktopClick a s buttons).not_clicked he _)

/-- A click that a thread is told of: no dialog is open, and the click is on the client area of the
window under the cursor. -/
theorem mouseButton_clicked {x y : UInt16} {buttons : UInt8} {e : Effect} {tid : UInt32}
    (he : e ∈ (s.mouseButton a x y buttons).effects) (hclicked : e.pointer = some (.clicked tid)) :
  ∃ v, s.windowAt a.windows = some (v, .client)
    ∧ (s.mouseButton a x y buttons).shell.dialog.active = false
    ∧ (s.mouseButton a x y buttons).shell.propertiesOpen = false
    ∧ (s.mouseButton a x y buttons).effects = (s.partClick a v buttons .client).effects
  := by
  rw [mouseButton] at he ⊢
  split_ifs at he ⊢ with hdialog hproperties hmenu
  · exact absurd hclicked ((quiet_dialogEvent a s _).not_clicked he _)
  · exact absurd hclicked ((quiet_propertiesClick s x y).not_clicked he _)
  · dsimp only at he ⊢
    by_cases htaken : (s.ctxMenuClick a).2.2 = true
    · rw [if_pos htaken] at he
      exact absurd hclicked ((quiet_ctxMenuClick a s).not_clicked he _)
    · rw [if_neg htaken] at he ⊢
      rw [ctxMenuClick_not_taken (by simpa using htaken)] at he ⊢
      obtain ⟨v, hat, hpress⟩ := pressBehindMenu_clicked he hclicked
      dsimp only
      rw [hpress]
      exact ⟨v, hat, Bool.eq_false_of_not_eq_true hdialog, Bool.eq_false_of_not_eq_true hproperties, rfl⟩
  · obtain ⟨v, hat, hpress⟩ := pressBehindMenu_clicked he hclicked
    rw [hpress]
    exact ⟨v, hat, Bool.eq_false_of_not_eq_true hdialog, Bool.eq_false_of_not_eq_true hproperties, rfl⟩

/-! ### Keys -/

/-- The keys that go to the programs: neither F5 nor a key that changes the layout. -/
def PassedOn (ascii scancode : UInt16) : Prop :=
  scancode ≠ 0x3F
    ∧ ¬ (ascii = 0 ∧ (scancode = 0x2A ∨ scancode = 0x36 ∨ scancode = 0x38 ∨ scancode = 0xB8))

/-- While no dialog is open, a key is for the thread that has the focus. -/
theorem keyDown_effects {ascii scancode : UInt16} (buttons : UInt8) (hdialog : s.dialog.active = false)
    (hproperties : s.propertiesOpen = false) (hkey : PassedOn ascii scancode)
    (hfocus : 0 < a.focusedTid) (hdelete : a.focusedAtDelete = a.focusedTid) :
  (s.keyDown a ascii scancode buttons).effects
    = [.send ⟨a.focusedTid.toUInt32, .keyDown, ascii.toUInt32.toInt32, scancode.toUInt32.toInt32, 0⟩]
  := by
  have hnot : ¬ (scancode = 0x53 ∧ a.focusedAtDelete ≤ 0) := by
    rw [hdelete]
    exact fun h => Int32.not_le.mpr hfocus h.2
  rw [keyDown]
  dsimp only
  rw [if_neg hkey.2, key]
  dsimp only
  rw [hdialog, hproperties, if_neg Bool.false_ne_true, if_neg Bool.false_ne_true, if_neg hkey.1,
    if_neg hnot, if_pos hfocus]

end

/-- The kernel answers from a stack of windows. -/
structure ReadsFrom (a : Answers) (stack : WindowStack) : Prop where
  windows : a.windows = stack.windows.map some
  delete : a.focusedAtDelete = stack.getFocusedTid
  tid : a.focusedTid = stack.getFocusedTid

/-- A click is for the topmost window under the cursor, which is not minimized and comes to the front,
and as long as the stack stays so the keys are for its thread. -/
theorem click_gets_keys (s : Shell) (a : Answers) (stack : WindowStack) (h : stack.Identified)
    (hreads : ReadsFrom a stack) (x y : UInt16) (buttons : UInt8) {e : Effect} {tid : UInt32}
    (he : e ∈ (s.mouseButton a x y buttons).effects) (hclicked : e.pointer = some (.clicked tid)) :
  ∃ below v above stack', stack.windows = below ++ v :: above ∧ v.threadId = tid ∧ ¬ v.Minimized
    ∧ (v.x ≤ s.cursorX ∧ s.cursorX ≤ v.x + v.w.toInt32 ∧ v.y ≤ s.cursorY
      ∧ s.cursorY ≤ v.y + v.h.toInt32)
    ∧ (∀ u ∈ above, s.partAt u = none)
    ∧ (s.mouseButton a x y buttons).effects = [.bringToFront v.id, e]
    ∧ stack.bringToFront v.id = some stack'
    ∧ ∀ a', ReadsFrom a' stack' → 0 < tid.toInt32 →
      ∀ ascii scancode, PassedOn ascii scancode → ∀ buttons',
        ((s.mouseButton a x y buttons).shell.keyDown a' ascii scancode buttons').effects
          = [.send ⟨tid, .keyDown, ascii.toUInt32.toInt32, scancode.toUInt32.toInt32, 0⟩]
  := by
  obtain ⟨v, hat, hdialog, hproperties, heffects⟩ := mouseButton_clicked he hclicked
  obtain ⟨below, above, hwindows, hpart, habove⟩ := windowAt_spec hat
  have hstack : stack.windows = below ++ v :: above := by
    rw [← hwindows, hreads.windows, reduceOption_eq_filterMap, List.filterMap_map]
    exact List.filterMap_some.symm
  obtain ⟨hvisible, hinside⟩ := partAt_client hpart
  have hshape : stack.shape = below.map Window.unflagged ++ v.unflagged :: above.map Window.unflagged := by
    rw [WindowStack.shape, hstack, List.map_append, List.map_cons]
  obtain ⟨stack', hfront, -, -⟩ := WindowStack.bringToFront_shape h hshape
  obtain ⟨u, hfind, hu⟩ := WindowStack.find_of_shape h hshape
  have hthread : u.unflagged.threadId = v.unflagged.threadId := congrArg Window.threadId hu
  have hfocus := WindowStack.bringToFront_getFocusedTid hfind hfront
  -- the calls of the click are two, and only the second is about the mouse
  have hcalls : (s.partClick a v buttons .client).effects = [.bringToFront v.id, e]
      ∧ v.threadId = tid := by
    rw [heffects, partClick] at he
    rw [partClick]
    rcases List.mem_cons.mp he with rfl | he
    · cases hclicked
    · obtain rfl := List.mem_singleton.mp he
      refine ⟨rfl, ?_⟩
      by_cases hright : buttons &&& 2 ≠ 0
      · rw [toWindow, if_pos hright] at hclicked
        cases hclicked
        rfl
      · rw [toWindow, if_neg hright] at hclicked
        cases hclicked
        rfl
  refine ⟨below, v, above, stack', hstack, hcalls.2, hvisible, hinside, habove, ?_, hfront, ?_⟩
  · rw [heffects, hcalls.1]
  · intro a' hreads' hpos ascii scancode hkey buttons'
    have htid : a'.focusedTid = tid.toInt32 := by
      rw [hreads'.tid, hfocus, ← hcalls.2]
      exact congrArg UInt32.toInt32 hthread
    rw [keyDown_effects buttons' hdialog hproperties hkey (by rw [htid]; exact hpos)
      (by rw [hreads'.delete, hreads'.tid]), htid, UInt32.toUInt32_toInt32]

/-- A window in the middle of the screen, of the thread 2. -/
def middleWindow : Window :=
  ⟨1, 2, 600, 480, 100, 80, 8, 600, 480, 100, 80, .empty, 1, 4096⟩

/-- A click on the window, and the key `a`. -/
theorem click_gets_keys_middle :
  ∃ (v : Window) (stack' : WindowStack),
    (⟨[middleWindow], 2⟩ : WindowStack).bringToFront v.id = some stack'
    ∧ ∀ a', ReadsFrom a' stack' →
      (((start none).mouseButton ⟨[some middleWindow], [], none, 2, 2, none⟩ 640 512 1).shell.keyDown
          a' 97 0x1E 0).effects
        = [.send ⟨2, .keyDown, 97, 0x1E, 0⟩]
  := by
  have hids : (⟨[middleWindow], 2⟩ : WindowStack).Identified := by
    constructor
    · decide
    · decide
  obtain ⟨-, v, -, stack', -, -, -, -, -, -, hfront, hkeys⟩ := click_gets_keys (start none)
    ⟨[some middleWindow], [], none, 2, 2, none⟩ ⟨[middleWindow], 2⟩ hids ⟨rfl, by decide, by decide⟩
    640 512 1 (show Effect.send ⟨2, .click, 40, 32, 1⟩ ∈ _ by decide) rfl
  refine ⟨v, stack', hfront, ?_⟩
  intro a' hreads
  exact hkeys a' hreads (by decide) 97 0x1E (by rw [PassedOn]; decide) 0

end Shell

end Compositor
