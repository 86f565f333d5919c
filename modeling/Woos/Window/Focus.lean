import Woos.Lib.Marking
import Woos.Lib.Word
import Woos.Window.Ownership

/-!
# Focus

Which window has the focus after a run of window calls.  The stack is a stack of windows of
which the minimized ones are hidden and the focused ones marked; `Stacked` says that the table
is not overfull, that ids are distinct, and that the topmost window that is not minimized is
marked and no other.  `focus_kept` shows that this holds in every state of a run, when no
window is destroyed that leaves a minimized one on top.
-/

open Marking

/-- The window has the focus flag. -/
def Window.Focused (v : Window) : Prop := v.flags &&& WindowStack.flagFocused ≠ 0

/-- The window has the minimized flag. -/
def Window.Minimized (v : Window) : Prop := v.flags &&& WindowStack.flagMinimized ≠ 0

instance (v : Window) : Decidable v.Focused := inferInstanceAs (Decidable (_ ≠ _))

instance (v : Window) : Decidable v.Minimized := inferInstanceAs (Decidable (_ ≠ _))

namespace WindowStack

/-! ### Flags -/

theorem not_focused_clearFocus (v : Window) :
  ¬ (clearFocus v).Focused
  := by
  have hnone : ~~~flagFocused &&& flagFocused = 0 := by decide
  rw [Window.Focused, clearFocus, UInt32.and_assoc, hnone, UInt32.and_zero, not_not]

theorem focused_setFocus (v : Window) :
  (setFocus v).Focused
  := by
  rw [Window.Focused, setFocus, Word.or_and_32, ne_eq, UInt32.or_eq_zero_iff, not_and]
  intro
  decide

theorem minimized_setFocus (v : Window) :
  (setFocus v).Minimized ↔ v.Minimized
  := by
  have hnone : flagFocused &&& flagMinimized = 0 := by decide
  rw [Window.Minimized, setFocus, Word.or_and_32, hnone, UInt32.or_zero, Window.Minimized]

theorem minimized_clearFocus (v : Window) :
  (clearFocus v).Minimized ↔ v.Minimized
  := by
  have hkept : ~~~flagFocused &&& flagMinimized = flagMinimized := by decide
  rw [Window.Minimized, clearFocus, UInt32.and_assoc, hkept, Window.Minimized]

theorem not_minimized_clearMinimized (v : Window) :
  ¬ (clearMinimized v).Minimized
  := by
  have hnone : ~~~flagMinimized &&& flagMinimized = 0 := by decide
  rw [Window.Minimized, clearMinimized, UInt32.and_assoc, hnone, UInt32.and_zero, not_not]

theorem minimized_setMinimized (v : Window) :
  (setMinimized v).Minimized
  := by
  have hkept : ~~~flagFocused &&& flagMinimized = flagMinimized := by decide
  rw [Window.Minimized, setMinimized, UInt32.and_assoc, hkept, Word.or_and_32, ne_eq,
    UInt32.or_eq_zero_iff, not_and]
  intro
  decide

theorem not_focused_setMinimized (v : Window) :
  ¬ (setMinimized v).Focused
  := by
  have hnone : ~~~flagFocused &&& flagFocused = 0 := by decide
  rw [Window.Focused, setMinimized, UInt32.and_assoc, hnone, UInt32.and_zero, not_not]

/-! ### The operations -/

/-- Only the topmost window that is not minimized is focused. -/
def FocusTop (s : WindowStack) : Prop := MarksTop Window.Minimized Window.Focused s.windows

/-- The focus goes to a topmost window that is not minimized. -/
theorem focusTop_spec {s : WindowStack}
    (h : MarksAtMostTop Window.Minimized Window.Focused s.windows)
    (htop : ∀ v, s.windows.getLast? = some v → ¬ v.Minimized) :
  s.focusTop.FocusTop
  := by
  by_cases hempty : s.windows = []
  · have hmod : s.focusTop.windows = s.windows := by
      rw [focusTop, modify, hempty]
      rfl
    rw [FocusTop, hmod]
    apply h.of_hidden
    intro v hv
    rw [hempty] at hv
    cases hv
  · have hpos := List.length_pos_iff.mpr hempty
    apply h.mark minimized_setFocus focused_setFocus (Nat.sub_lt hpos Nat.one_pos)
    · apply htop
      rw [List.getLast?_eq_getElem?, List.getElem?_eq_getElem]
    · intro j hj hlt
      omega

theorem insert_focusTop {s s' : WindowStack} {threadId w h flags : UInt32}
    {title : Option CString} {buffer : UInt64} (hflags : flags &&& flagMinimized = 0)
    (hs : s.insert threadId w h flags title buffer = some s') :
  s'.FocusTop
  := by
  rw [insert] at hs
  split at hs
  · cases hs
  · cases hs
    apply marksTop_concat
    · intro v hv
      obtain ⟨u, -, rfl⟩ := List.mem_map.mp hv
      exact not_focused_clearFocus u
    · rw [Window.Focused, newWindow, Word.or_and_32, ne_eq, UInt32.or_eq_zero_iff, not_and]
      intro
      decide
    · have hnone : flagFocused &&& flagMinimized = 0 := by decide
      rw [Window.Minimized, newWindow, Word.or_and_32, hflags, hnone, UInt32.or_zero, not_not]

theorem remove_focusTop {s s' : WindowStack} {windowId : UInt32} {v : Window} (hs : s.FocusTop)
    (htop : ∀ i u, s.find windowId = some (i, u) →
      ∀ t, (s.windows.eraseIdx i).getLast? = some t → ¬ t.Minimized)
    (h : s.remove windowId = some (v, s')) :
  s'.FocusTop
  := by
  obtain ⟨⟨i, u⟩, hfind, heq⟩ := Option.bind_eq_some_iff.mp h
  cases heq
  exact focusTop_spec (hs.eraseIdx i) (htop i v hfind)

theorem bringToFront_focusTop {s s' : WindowStack} {windowId : UInt32}
    (h : s.bringToFront windowId = some s') :
  s'.FocusTop
  := by
  obtain ⟨⟨i, u⟩, hfind, hrest⟩ := Option.bind_eq_some_iff.mp h
  obtain ⟨v, hv, heq⟩ := Option.bind_eq_some_iff.mp hrest
  cases heq
  obtain ⟨hi, hvi⟩ := List.getElem?_eq_some_iff.mp hv
  have hcleared : ∀ t ∈ (s.modify i clearMinimized).windows.map clearFocus, ¬ t.Focused := by
    intro t ht
    obtain ⟨t', -, rfl⟩ := List.mem_map.mp ht
    exact not_focused_clearFocus t'
  apply focusTop_spec
  · apply marksAtMostTop_of_unmarked
    intro t ht
    apply hcleared
    rcases List.mem_append.mp ht with hrest | hv'
    · exact List.mem_of_mem_eraseIdx hrest
    · rw [List.mem_singleton.mp hv', ← hvi]
      exact List.getElem_mem hi
  · intro t ht
    rw [List.getLast?_append, List.getLast?_singleton, Option.some_or, Option.some_inj] at ht
    rw [← ht, ← hvi]
    simp only [modify, List.getElem_map, List.getElem_modify_eq]
    rw [minimized_clearFocus]
    exact not_minimized_clearMinimized _

/-- The topmost window that is not minimized. -/
theorem topVisible_spec {s : WindowStack} {j : Nat} (h : s.topVisible = some j) :
  ∃ hj : j < s.windows.length, ¬ s.windows[j].Minimized
    ∧ ∀ k (hk : k < s.windows.length), j < k → s.windows[k].Minimized
  := by
  obtain ⟨n, hn, rfl⟩ := Option.map_eq_some_iff.mp h
  obtain ⟨hlt, hvisible, habove⟩ := List.findIdx?_eq_some_iff_getElem.mp hn
  rw [List.length_reverse] at hlt
  rw [List.getElem_reverse, beq_iff_eq] at hvisible
  use by omega
  constructor
  · rw [Window.Minimized, not_not]
    exact hvisible
  · intro k hk hjk
    have hbefore := habove (s.windows.length - 1 - k) (by omega)
    have hback : s.windows.length - 1 - (s.windows.length - 1 - k) = k := by omega
    rw [List.getElem_reverse, beq_iff_eq] at hbefore
    simp only [hback] at hbefore
    exact hbefore

theorem topVisible_none {s : WindowStack} (h : s.topVisible = none) {v : Window}
    (hv : v ∈ s.windows) :
  v.Minimized
  := by
  rw [topVisible, Option.map_eq_none_iff, List.findIdx?_eq_none_iff] at h
  exact beq_eq_false_iff_ne.mp (h v (List.mem_reverse.mpr hv))

theorem minimize_focusTop {s : WindowStack} (hs : s.FocusTop) (i : Nat) :
  (s.minimize i).FocusTop
  := by
  have hhide := hs.toMarksAtMostTop.hide minimized_setMinimized not_focused_setMinimized i
  rw [minimize]
  split
  case h_1 j hj =>
    obtain ⟨hlt, hvisible, habove⟩ := topVisible_spec hj
    exact hhide.mark minimized_setFocus focused_setFocus hlt hvisible habove
  case h_2 hnone =>
    apply hhide.of_hidden
    intro v hv
    exact topVisible_none hnone hv

theorem toggleMinimize_focusTop {s s' : WindowStack} {windowId : UInt32} (hs : s.FocusTop)
    (h : s.toggleMinimize windowId = some s') :
  s'.FocusTop
  := by
  obtain ⟨⟨i, v⟩, -, hrest⟩ := Option.bind_eq_some_iff.mp h
  dsimp only at hrest
  split at hrest
  · exact bringToFront_focusTop hrest
  · cases hrest
    exact minimize_focusTop hs i

/-! ### The invariant -/

/-- The table is not overfull, ids are distinct, and only the topmost window that is not minimized
is focused. -/
structure Stacked (s : WindowStack) : Prop where
  length : s.windows.length ≤ maxWindows
  ids : (s.windows.map Window.id).Nodup
  focus : s.FocusTop

/-- The table is not overfull, ids are distinct, exactly one window is focused when there is a
window that is not minimized, and that one is not minimized, and no window is focused
otherwise. -/
structure OneFocus (s : WindowStack) : Prop where
  length : s.windows.length ≤ maxWindows
  ids : (s.windows.map Window.id).Nodup
  one : (∃ v ∈ s.windows, ¬ v.Minimized) → ∃ i, ∃ hi : i < s.windows.length,
    s.windows[i].Focused ∧ ¬ s.windows[i].Minimized
      ∧ ∀ j (hj : j < s.windows.length), s.windows[j].Focused → j = i
  none : (∀ v ∈ s.windows, v.Minimized) → ∀ v ∈ s.windows, ¬ v.Focused

theorem Stacked.oneFocus {s : WindowStack} (h : s.Stacked) :
  s.OneFocus
  := by
  constructor
  · exact h.length
  · exact h.ids
  · exact h.focus.unique
  · intro hall v hv
    exact h.focus.unmarked hall hv

theorem init_stacked :
  init.Stacked
  := by
  constructor
  · exact Nat.zero_le _
  · exact List.nodup_nil
  · apply MarksAtMostTop.of_hidden
    · constructor
      · exact List.Pairwise.nil
      · intro v hv
        cases hv
    · intro v hv
      cases hv

/-- An operation keeps the windows up to their order, and the focus at the top. -/
theorem Stacked.of_perm {s s' : WindowStack} (h : s.Stacked)
    (hperm : (s'.windows.map Window.id).Perm (s.windows.map Window.id)) (hfocus : s'.FocusTop) :
  s'.Stacked
  := by
  constructor
  · have hlength := hperm.length_eq
    rw [List.length_map, List.length_map] at hlength
    rw [hlength]
    exact h.length
  · exact hperm.nodup_iff.mpr h.ids
  · exact hfocus

theorem Stacked.insert {s s' : WindowStack} (h : s.Stacked) {threadId w height flags : UInt32}
    {title : Option CString} {buffer : UInt64} (hflags : flags &&& flagMinimized = 0)
    (hfresh : ∀ v ∈ s.windows, v.id ≠ s.nextWindowId)
    (hs : s.insert threadId w height flags title buffer = some s') :
  s'.Stacked
  := by
  have hids := insert_map (g := Window.id) (fun _ _ => rfl) hs
  constructor
  · rw [WindowStack.insert] at hs
    split at hs
    case isTrue => cases hs
    case isFalse hroom =>
      cases hs
      rw [List.length_append, List.length_map]
      exact Nat.lt_of_not_le hroom
  · rw [hids, List.nodup_append]
    use h.ids, List.nodup_singleton _
    intro i hi j hj
    obtain ⟨v, hv, rfl⟩ := List.mem_map.mp hi
    rw [List.mem_singleton.mp hj]
    exact hfresh v hv
  · exact insert_focusTop hflags hs

theorem Stacked.remove {s s' : WindowStack} (h : s.Stacked) {windowId : UInt32} {v : Window}
    (htop : ∀ i u, s.find windowId = some (i, u) →
      ∀ t, (s.windows.eraseIdx i).getLast? = some t → ¬ t.Minimized)
    (hs : s.remove windowId = some (v, s')) :
  s'.Stacked
  := by
  have hids := remove_map (g := Window.id) (fun _ _ => rfl) hs
  constructor
  · have hlength := remove_length hs
    have hle := h.length
    omega
  · exact (List.nodup_cons.mp (hids.nodup_iff.mp h.ids)).2
  · exact remove_focusTop h.focus htop hs

theorem Stacked.bringToFront {s s' : WindowStack} (h : s.Stacked) {windowId : UInt32}
    (hs : s.bringToFront windowId = some s') :
  s'.Stacked
  := h.of_perm (bringToFront_map (ignoresMarks_of_flags (fun _ _ => rfl)) hs) (bringToFront_focusTop hs)

theorem Stacked.toggleMinimize {s s' : WindowStack} (h : s.Stacked) {windowId : UInt32}
    (hs : s.toggleMinimize windowId = some s') :
  s'.Stacked
  := h.of_perm (toggleMinimize_map (ignoresMarks_of_flags (fun _ _ => rfl)) hs) (toggleMinimize_focusTop h.focus hs)

end WindowStack

/-! ### The calls -/

namespace WinMgr

open WindowStack

variable {m m' : WinMgr} {r : Int32}

theorem edit_stacked {stack : Option WindowStack} (hm : m.stack.Stacked)
    (hstack : ∀ s, stack = some s → s.Stacked) :
  (m.edit stack).1.stack.Stacked
  := by
  cases stack with
  | none => exact hm
  | some s => exact hstack s rfl

theorem woosGraphicsCreateWindowEx_stacked {ok : Bool} {threadId w h flags : UInt32}
    {title : Option CString} (hm : m.stack.Stacked) (hflags : flags &&& flagMinimized = 0)
    (hfresh : m.stack.windows.length < maxWindows → (∀ heap buf, newBuffer ok m.heap w h = some (heap, buf)
      → buf ≠ 0) → ∀ v ∈ m.stack.windows, v.id ≠ m.stack.nextWindowId)
    (hcall : m.woosGraphicsCreateWindowEx ok threadId w h title flags = some (m', r)) :
  m'.stack.Stacked
  := by
  obtain ⟨⟨heap, buf⟩, hbuf, hrest⟩ := Option.bind_eq_some_iff.mp hcall
  dsimp only at hrest
  split at hrest
  case isTrue =>
    cases hrest
    exact hm
  case isFalse hne =>
    split at hrest
    case h_1 =>
      obtain ⟨heap', -, heq⟩ := Option.bind_eq_some_iff.mp hrest
      cases heq
      exact hm
    case h_2 stack hstack =>
      cases hrest
      apply hm.insert hflags _ hstack
      apply hfresh
      · by_contra hfull
        rw [WindowStack.insert, if_pos (not_lt.mp hfull)] at hstack
        cases hstack
      · intro heap' buf' hbuf'
        rw [hbuf] at hbuf'
        cases hbuf'
        exact hne

theorem woosGraphicsDestroyWindow_stacked {windowId : UInt32} (hm : m.stack.Stacked)
    (htop : ∀ i u, m.stack.find windowId = some (i, u) →
      ∀ t, (m.stack.windows.eraseIdx i).getLast? = some t → ¬ t.Minimized)
    (hcall : m.woosGraphicsDestroyWindow windowId = some (m', r)) :
  m'.stack.Stacked
  := by
  rw [woosGraphicsDestroyWindow] at hcall
  split at hcall
  case h_1 =>
    cases hcall
    exact hm
  case h_2 v stack hremove =>
    have hstack := hm.remove htop hremove
    dsimp only at hcall
    split at hcall
    · obtain ⟨heap, -, heq⟩ := Option.bind_eq_some_iff.mp hcall
      cases heq
      exact hstack
    · cases hcall
      exact hstack

theorem maximizeGeometry_id (info : Option ScreenInfo) (v : Window) :
  (maximizeGeometry info v).id = v.id
  := by
  rw [maximizeGeometry]
  split
  · rfl
  · dsimp only
    split
    · split
      · rfl
      · rfl
    · rfl

/-- A window is replaced by one of the same id, and brought to the front. -/
theorem raise_stacked {windowId : UInt32} {i : Nat} {v v' : Window} (hm : m.stack.Stacked)
    (hfind : m.stack.find windowId = some (i, v)) (hid : v'.id = v.id) (heap : KHeap) :
  (WinMgr.woosGraphicsBringToFront ⟨heap, m.stack.modify i (fun _ => v')⟩ windowId).1.stack.Stacked
  := by
  let raised := m.stack.modify i (fun _ => v')
  have hperm : (raised.windows.map Window.id).Perm (m.stack.windows.map Window.id) := by
    have hnew := (modify_const_perm hfind v').map Window.id
    have hold := (perm_of_find hfind).map Window.id
    rw [List.map_cons, hid] at hnew
    exact hnew.trans hold.symm
  have hsome : ∃ s, raised.bringToFront windowId = some s := by
    obtain ⟨hi, -, hthis⟩ := find_spec hfind
    have hmem : v' ∈ raised.windows :=
      (modify_const_perm hfind v').mem_iff.mpr List.mem_cons_self
    obtain ⟨⟨j, u⟩, hu⟩ := Option.isSome_iff_exists.mp (find_isSome hmem)
    obtain ⟨hj, -, -⟩ := find_spec hu
    rw [hid, hthis] at hu
    rw [bringToFront, hu]
    simp only [Option.bind_eq_bind, Option.bind_some]
    have hj' : j < ((raised.modify j clearMinimized).windows.map clearFocus).length := by
      rw [List.length_map, WindowStack.modify, List.length_modify]
      exact hj
    rw [List.getElem?_eq_getElem hj']
    exact ⟨_, rfl⟩
  obtain ⟨s, hs⟩ := hsome
  have hraise : (WinMgr.woosGraphicsBringToFront ⟨heap, raised⟩ windowId).1.stack = s := by
    rw [woosGraphicsBringToFront, hs]
    rfl
  rw [hraise]
  exact hm.of_perm ((bringToFront_map (ignoresMarks_of_flags (fun _ _ => rfl)) hs).trans hperm) (bringToFront_focusTop hs)

theorem woosGraphicsToggleMaximize_stacked {ok : Bool} {info : Option ScreenInfo}
    {windowId : UInt32} (hm : m.stack.Stacked)
    (hcall : m.woosGraphicsToggleMaximize ok info windowId = some (m', r)) :
  m'.stack.Stacked
  := by
  rw [woosGraphicsToggleMaximize] at hcall
  split at hcall
  case h_1 =>
    cases hcall
    exact hm
  case h_2 i v hfind =>
    split at hcall
    case isTrue =>
      cases hcall
      exact hm
    case isFalse =>
      dsimp only at hcall
      split at hcall
      · obtain ⟨⟨heap, buffer⟩, -, heq⟩ := Option.bind_eq_some_iff.mp hcall
        cases heq
        apply raise_stacked hm hfind
        exact maximizeGeometry_id info v
      · cases hcall
        apply raise_stacked hm hfind
        exact maximizeGeometry_id info v

end WinMgr

/-! ### Runs -/

namespace Desktop

open WindowStack

/-- Creation of a window that is not minimized, destruction, bring-to-front, the two toggles, and
what the other callers of the heap do. -/
def StackCall : Call → Prop
  | .createWindow _ _ _ _ _ flags => flags &&& flagMinimized = 0
  | .destroyWindow _ => True
  | .bringToFront _ => True
  | .toggleMinimize _ => True
  | .toggleMaximize _ _ _ => True
  | .other _ => True
  | _ => False

/-- A window that is created gets an id that no window has, and the topmost of the windows that
are left when one is destroyed is not minimized. -/
def KeepsFocus (d : Desktop) : Call → Prop
  | .createWindow ok _ w h _ _ => d.mgr.stack.windows.length < maxWindows
      → (∀ heap buf, WinMgr.newBuffer ok d.mgr.heap w h = some (heap, buf) → buf ≠ 0)
      → ∀ v ∈ d.mgr.stack.windows, v.id ≠ d.mgr.stack.nextWindowId
  | .destroyWindow windowId => ∀ i u, d.mgr.stack.find windowId = some (i, u)
      → ∀ t, (d.mgr.stack.windows.eraseIdx i).getLast? = some t → ¬ t.Minimized
  | _ => True

theorem call_stacked {d d' : Desktop} {c : Call} (hd : d.mgr.stack.Stacked) (hc : StackCall c)
    (hkeeps : d.KeepsFocus c) (hcall : d.call c = some d') :
  d'.mgr.stack.Stacked
  := by
  cases c with
  | createWindow ok threadId w h title flags =>
      obtain ⟨⟨m, r⟩, hm, rfl⟩ := Option.map_eq_some_iff.mp hcall
      exact WinMgr.woosGraphicsCreateWindowEx_stacked hd hc hkeeps hm
  | destroyWindow windowId =>
      obtain ⟨⟨m, r⟩, hm, rfl⟩ := Option.map_eq_some_iff.mp hcall
      exact WinMgr.woosGraphicsDestroyWindow_stacked hd hkeeps hm
  | toggleMaximize ok info windowId =>
      obtain ⟨⟨m, r⟩, hm, rfl⟩ := Option.map_eq_some_iff.mp hcall
      exact WinMgr.woosGraphicsToggleMaximize_stacked hd hm
  | toggleMinimize windowId =>
      rw [← Option.some_inj.mp hcall]
      exact WinMgr.edit_stacked hd (fun s hs => hd.toggleMinimize hs)
  | bringToFront windowId =>
      rw [← Option.some_inj.mp hcall]
      exact WinMgr.edit_stacked hd (fun s hs => hd.bringToFront hs)
  | other c =>
      obtain ⟨s, -, rfl⟩ := Option.map_eq_some_iff.mp hcall
      exact hd
  | destroyThreadWindows threadId => exact hc.elim
  | blitWindow ok windowId wasmBuf w h => exact hc.elim
  | setWindowPos windowId x y => exact hc.elim
  | setWindowTitle windowId title => exact hc.elim
  | setWindowFlags windowId flags => exact hc.elim

/-- In every state of a run of these calls exactly the topmost window that is not minimized is
focused, when no window is destroyed that leaves a minimized one on top, and no id is given
twice. -/
theorem focus_kept
    (mem : Memory) (calls : List Call)
    (h : Run.Guarded call (fun d c => StackCall c ∧ d.KeepsFocus c) (init mem) calls) {d : Desktop}
    (hrun : Run.exec call (init mem) calls = some d) :
  d.mgr.stack.OneFocus
  := by
  have hstep : ∀ (d : Desktop) c d', d.mgr.stack.Stacked → StackCall c ∧ d.KeepsFocus c
      → d.call c = some d' → d'.mgr.stack.Stacked :=
    fun d c d' hd hc hcall => call_stacked hd hc.1 hc.2 hcall
  exact (Run.exec_safe hstep init_stacked h hrun).oneFocus

/-- The case of a window of one pixel that is minimized, and then maximized. -/
theorem focus_kept_minimize_maximize :
  ∃ d, Run.exec call (init (fun _ => 0))
      [.createWindow true 1 1 1 none 0, .toggleMinimize 1, .toggleMaximize true none 1] = some d
    ∧ d.mgr.stack.OneFocus
  := by
  have hrun : (Run.exec call (init (fun _ => 0)) [.createWindow true 1 1 1 none 0,
      .toggleMinimize 1, .toggleMaximize true none 1]).isSome := by
    decide +kernel
  obtain ⟨d, hd⟩ := Option.isSome_iff_exists.mp hrun
  use d, hd
  apply focus_kept _ _ _ hd
  constructor
  · constructor
    · rfl
    · intro _ _ v hv
      cases hv
  · intro d _
    constructor
    · exact ⟨trivial, trivial⟩
    · intro d _
      constructor
      · exact ⟨trivial, trivial⟩
      · intro _ _
        trivial

/-- Two windows of one pixel, of which the upper one is minimized. -/
def lowered : List Call :=
  [.createWindow true 1 1 1 none 0, .createWindow true 1 1 1 none 0, .toggleMinimize 2]

/-- Destroying the lower window gives the focus to the one that is minimized. -/
theorem not_focus_kept_destroy :
  (∀ c ∈ lowered ++ [.destroyWindow 1], StackCall c)
    ∧ ∃ d, Run.exec call (init (fun _ => 0)) (lowered ++ [.destroyWindow 1]) = some d
    ∧ d.mgr.stack.windows.map (fun v => (v.id, v.flags)) = [(2, flagMinimized ||| flagFocused)]
    ∧ ¬ d.mgr.stack.OneFocus
  := by
  have hrun : (Run.exec call (init (fun _ => 0)) (lowered ++ [.destroyWindow 1])).map
      (fun d => d.mgr.stack.windows.map (fun v => (v.id, v.flags)))
        = some [(2, flagMinimized ||| flagFocused)] := by
    decide +kernel
  obtain ⟨d, hd, hreads⟩ := Option.map_eq_some_iff.mp hrun
  refine ⟨by simp [lowered, StackCall], d, hd, hreads, ?_⟩
  intro hone
  obtain ⟨v, hwindows⟩ : ∃ v, d.mgr.stack.windows = [v] := by
    have hlength := congrArg List.length hreads
    rw [List.length_map] at hlength
    exact List.length_eq_one_iff.mp hlength
  rw [hwindows, List.map_singleton, List.cons_eq_cons, Prod.mk.injEq] at hreads
  obtain ⟨⟨-, hflags⟩, -⟩ := hreads
  have hall : ∀ u ∈ d.mgr.stack.windows, u.Minimized := by
    intro u hu
    rw [hwindows] at hu
    rw [List.mem_singleton.mp hu, Window.Minimized, hflags]
    decide
  apply hone.none hall v
  · rw [hwindows]
    exact List.mem_singleton_self v
  · rw [Window.Focused, hflags]
    decide

end Desktop
