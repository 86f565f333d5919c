import Woos.Compositor.Shell

/-!
# Who has the mouse

The windows learn about the mouse from messages: one for a click, one for every movement with the
button held, one for the release.  `Pointer.hold` is the protocol that they rely on: a movement or a
release is for the thread that was last clicked, and none comes after the button has been released.
`run_captures` shows that the compositor keeps to it, whatever happens and whatever the kernel
answers.
-/

namespace Compositor

open Run

/-! ### The protocol -/

/-- What the threads learn about the mouse, and the release of a button. -/
inductive Pointer where
  | clicked (tid : UInt32)
  | moved (tid : UInt32)
  | up (tid : UInt32)
  | released
  deriving DecidableEq, Repr

/-- The thread that has the mouse after an event: none when the event is against the protocol. -/
def Pointer.hold (held : Option UInt32) : Pointer → Option (Option UInt32)
  | .clicked tid => some (some tid)
  | .moved tid => if held = some tid then some held else none
  | .up tid => if held = some tid then some none else none
  | .released => some none

/-- What a call tells a thread about the mouse. -/
def Effect.pointer : Effect → Option Pointer
  | .send ⟨tid, .click, _, _, _⟩ => some (.clicked tid)
  | .send ⟨tid, .rightClick, _, _, _⟩ => some (.clicked tid)
  | .send ⟨tid, .mouseMove, _, _, _⟩ => some (.moved tid)
  | .send ⟨tid, .mouseUp, _, _, _⟩ => some (.up tid)
  | _ => none

/-- What the threads learn from an input event. -/
def Input.pointers (e : Input) (o : Outcome) : List Pointer :=
  o.effects.filterMap Effect.pointer ++
    match e with
    | .mouseRelease _ => [.released]
    | _ => []

namespace Shell

/-- What the threads learn from the events of a round. -/
def pointers : Shell → List (Answers × Input) → List Pointer
  | _, [] => []
  | s, (a, e) :: batch => e.pointers (s.handle a e) ++ pointers (s.handle a e).shell batch

/-- What the threads learn from the events of some rounds. -/
def runPointers : Shell → List (List (Answers × Input)) → List Pointer
  | _, [] => []
  | s, batch :: batches => s.pointers batch ++ runPointers (s.round batch).1 batches

/-! ### Calls that are not about the mouse -/

/-- None of the calls tells a thread about the mouse. -/
def Silent (effects : List Effect) : Prop := effects.filterMap Effect.pointer = []

theorem silent_nil :
  Silent []
  := rfl

theorem silent_cons {e : Effect} {effects : List Effect} (he : e.pointer = none)
    (h : Silent effects) :
  Silent (e :: effects)
  := by
  rw [Silent, List.filterMap_cons_none he]
  exact h

theorem silent_append {effects effects' : List Effect} (h : Silent effects) (h' : Silent effects') :
  Silent (effects ++ effects')
  := by
  rw [Silent, List.filterMap_append, h, h', List.append_nil]

theorem silent_rename (rs : List Rename) :
  Silent (rs.map .rename)
  := by
  induction rs with
  | nil => exact silent_nil
  | cons r rs ih => exact silent_cons rfl ih

theorem silent_launchOrFocus (windows : WindowList) (path title : CString) :
  Silent (launchOrFocus windows path title)
  := by
  rw [launchOrFocus]
  split
  · exact silent_cons rfl silent_nil
  · exact silent_cons rfl silent_nil

theorem silent_openFileIn (windows : WindowList) (filepath : CString) (p : Program) :
  Silent (openFileIn windows filepath p)
  := by
  apply silent_cons rfl
  split
  · split
    · exact silent_cons rfl (silent_cons rfl silent_nil)
    · exact silent_cons rfl silent_nil
  · exact silent_cons rfl silent_nil

theorem silent_launchItem (windows : WindowList) (t : Table) (idx : Int) :
  Silent (launchItem windows t idx)
  := by
  rw [launchItem]
  split_ifs
  · exact silent_nil
  · apply silent_launchOrFocus
  · split
    · apply silent_launchOrFocus
    · exact silent_cons rfl silent_nil
  · apply silent_openFileIn
  · apply silent_openFileIn
  · apply silent_openFileIn

/-! ### Events that are not about the mouse -/

/-- The window and the thread that have the mouse. -/
def active (s : Shell) : Int32 × Int32 := (s.activeClientWinId, s.activeClientTid)

/-- What is dirty from the movements of the mouse. -/
def damage (s : Shell) : Dirty × Bool := (s.dirty, s.mouseHasMoved)

/-- Something is done that tells no thread about the mouse, leaves the mouse to the thread that has it
and is not a movement. -/
structure Quiet (s s' : Shell) (effects : List Effect) : Prop where
  silent : Silent effects
  active : s'.active = s.active
  damage : s'.damage = s.damage

section

variable {s t : Shell} (a : Answers)

theorem quiet_nil (hactive : t.active = s.active) (hdamage : t.damage = s.damage) :
  Quiet s t []
  := ⟨silent_nil, hactive, hdamage⟩

theorem quiet_single {e : Effect} (he : e.pointer = none) (hactive : t.active = s.active)
    (hdamage : t.damage = s.damage) :
  Quiet s t [e]
  := ⟨silent_cons he silent_nil, hactive, hdamage⟩

theorem quiet_hover (s : Shell) :
  Quiet s s.hover.shell s.hover.effects
  := by
  rw [hover]
  split
  · exact quiet_nil rfl rfl
  · exact quiet_nil rfl rfl

theorem quiet_applyDesktopDialog (s : Shell) :
  Quiet s (s.applyDesktopDialog a).1 (s.applyDesktopDialog a).2
  := by
  rw [applyDesktopDialog]
  split
  · exact quiet_nil rfl rfl
  · split
    · split
      · exact quiet_single rfl rfl rfl
      · exact quiet_single rfl rfl rfl
    · exact quiet_single rfl rfl rfl

theorem quiet_dialogEvent (s : Shell) (answer : FileDialog × Notepad.DialogResult) :
  Quiet s (s.dialogEvent a answer).shell (s.dialogEvent a answer).effects
  := by
  rw [dialogEvent]
  split
  · have h := quiet_applyDesktopDialog a { s with dialog := answer.1 }
    exact ⟨h.silent, h.active, h.damage⟩
  · exact quiet_nil rfl rfl

theorem quiet_propertiesClick (s : Shell) (x y : UInt16) :
  Quiet s (s.propertiesClick x y).shell (s.propertiesClick x y).effects
  := by
  rw [propertiesClick]
  split
  · exact quiet_nil rfl rfl
  · exact quiet_nil rfl rfl

theorem quiet_itemAction (s : Shell) (itIdx : Int) :
  Quiet s (s.itemAction a itIdx).1 (s.itemAction a itIdx).2
  := by
  rw [itemAction]
  split_ifs
  · exact ⟨silent_launchItem _ _ _, rfl, rfl⟩
  · exact quiet_nil rfl rfl
  · exact quiet_nil rfl rfl
  · exact quiet_nil rfl rfl
  · exact quiet_nil rfl rfl
  · exact ⟨silent_rename _, rfl, rfl⟩
  · exact quiet_nil rfl rfl
  · exact quiet_nil rfl rfl
  · exact quiet_nil rfl rfl
  · exact quiet_nil rfl rfl

theorem quiet_pasteClipboard (s : Shell) :
  Quiet s (s.pasteClipboard a).1 (s.pasteClipboard a).2
  := by
  rw [pasteClipboard]
  split_ifs
  · exact quiet_nil rfl rfl
  · exact quiet_single rfl rfl rfl
  · exact quiet_single rfl rfl rfl

theorem quiet_desktopAction (s : Shell) (itIdx : Int) :
  Quiet s (s.desktopAction a itIdx).1 (s.desktopAction a itIdx).2
  := by
  rw [desktopAction]
  split_ifs
  · exact quiet_pasteClipboard a s
  · exact quiet_single rfl rfl rfl
  · exact quiet_nil rfl rfl
  · exact quiet_nil rfl rfl

theorem silent_openWithAction (s : Shell) (sIdx : Int) :
  Silent (s.openWithAction a sIdx)
  := by
  have hopen : ∀ p, Silent (s.openWith a p) := by
    intro p
    rw [openWith]
    split
    · apply silent_openFileIn
    · apply silent_launchOrFocus
  rw [openWithAction]
  split_ifs
  · apply hopen
  · apply hopen
  · apply hopen
  · apply silent_launchOrFocus
  · apply silent_launchOrFocus
  · apply silent_launchOrFocus
  · exact silent_nil

theorem quiet_newAction (s : Shell) (sIdx : Int) :
  Quiet s (s.newAction a sIdx).1 (s.newAction a sIdx).2
  := by
  rw [newAction]
  split_ifs
  · exact quiet_single rfl rfl rfl
  · exact quiet_nil rfl rfl
  · exact quiet_nil rfl rfl
  · exact quiet_nil rfl rfl

theorem quiet_ctxMenuClick (s : Shell) :
  Quiet s (s.ctxMenuClick a).1 (s.ctxMenuClick a).2.1
  := by
  rw [ctxMenuClick]
  dsimp only
  split
  · dsimp only
    split
    · exact quiet_itemAction a s _
    · exact quiet_desktopAction a s _
  · split
    · split
      · exact ⟨silent_openWithAction a s _, rfl, rfl⟩
      · exact quiet_nil rfl rfl
    · split
      · exact quiet_newAction a s _
      · exact quiet_nil rfl rfl
    · exact quiet_nil rfl rfl

theorem quiet_startMenuClick (s : Shell) :
  Quiet s (s.startMenuClick a).shell (s.startMenuClick a).effects
  := by
  refine ⟨?_, rfl, rfl⟩
  rw [startMenuClick]
  dsimp only
  split
  · split
    · split
      · apply silent_launchOrFocus
      · exact silent_nil
    · exact silent_nil
  · exact silent_nil

theorem quiet_taskbarClick (s : Shell) :
  Quiet s (s.taskbarClick a).shell (s.taskbarClick a).effects
  := by
  rw [taskbarClick]
  split
  · exact quiet_nil rfl rfl
  · split
    · split
      · refine quiet_single ?_ rfl rfl
        split
        · rfl
        · rfl
      · exact quiet_nil rfl rfl
    · exact quiet_nil rfl rfl

theorem quiet_titleClick (s : Shell) (v : Window) :
  Quiet s (s.titleClick a v).shell (s.titleClick a v).effects
  := by
  rw [titleClick]
  split_ifs
  · exact quiet_single rfl rfl rfl
  · exact quiet_single rfl rfl rfl
  · exact quiet_single rfl rfl rfl

theorem quiet_partClick (s : Shell) (v : Window) (buttons : UInt8) {part : Part}
    (hpart : part ≠ .client) :
  Quiet s (s.partClick a v buttons part).shell (s.partClick a v buttons part).effects
  := by
  cases part with
  | close => exact ⟨silent_cons rfl (silent_cons rfl silent_nil), rfl, rfl⟩
  | maximize =>
      rw [partClick]
      split
      · exact quiet_single rfl rfl rfl
      · exact quiet_nil rfl rfl
  | minimize => exact quiet_single rfl rfl rfl
  | title => exact quiet_titleClick a s v
  | client => exact absurd rfl hpart

theorem quiet_desktopClick (s : Shell) (buttons : UInt8) :
  Quiet s (s.desktopClick a buttons).shell (s.desktopClick a buttons).effects
  := by
  rw [desktopClick]
  split
  · exact quiet_nil rfl rfl
  · refine ⟨?_, rfl, rfl⟩
    dsimp only
    split
    · apply silent_launchItem
    · exact silent_nil

theorem quiet_timerTick (s : Shell) :
  Quiet s (s.timerTick a).shell (s.timerTick a).effects
  := by
  rw [timerTick]
  split
  · exact quiet_nil rfl rfl
  · split
    · exact quiet_nil rfl rfl
    · exact quiet_nil rfl rfl

theorem quiet_mouseWheel (s : Shell) (x y : UInt16) (buttons : UInt8) :
  Quiet s (s.mouseWheel a x y buttons).shell (s.mouseWheel a x y buttons).effects
  := by
  rw [mouseWheel]
  split
  · exact quiet_single rfl rfl rfl
  · refine ⟨?_, rfl, rfl⟩
    dsimp only
    split
    · exact silent_cons rfl silent_nil
    · exact silent_nil

theorem quiet_deleteSelected (s : Shell) :
  Quiet s (s.deleteSelected a).shell (s.deleteSelected a).effects
  := by
  rw [deleteSelected]
  split
  · exact ⟨silent_rename _, rfl, rfl⟩
  · exact quiet_nil rfl rfl

theorem quiet_key (s : Shell) (ascii scancode : UInt16) :
  Quiet s (s.key a ascii scancode).shell (s.key a ascii scancode).effects
  := by
  rw [key]
  split_ifs
  · exact quiet_dialogEvent a s _
  · exact quiet_nil rfl rfl
  · exact quiet_nil rfl rfl
  · exact quiet_deleteSelected a s
  · exact quiet_single rfl rfl rfl
  · exact quiet_nil rfl rfl

theorem quiet_keyDown (s : Shell) (ascii scancode : UInt16) (buttons : UInt8) :
  Quiet s (s.keyDown a ascii scancode buttons).shell (s.keyDown a ascii scancode buttons).effects
  := by
  rw [keyDown]
  split
  · exact quiet_nil rfl rfl
  · have h := quiet_key a { s with lastLayout := (buttons >>> 4) &&& 1 } ascii scancode
    exact ⟨h.silent, h.active, h.damage⟩

end

/-! ### Events about the mouse -/

/-- `held` has the mouse, if the compositor takes a thread to have it. -/
def Holds (s : Shell) (held : Option UInt32) : Prop :=
  s.activeClientWinId ≠ -1 → held = some s.activeClientTid.toUInt32

/-- A window is clicked: its thread learns so, and has the mouse. -/
def Clicks (s s' : Shell) (effects : List Effect) : Prop :=
  (∃ tid : UInt32, effects.filterMap Effect.pointer = [.clicked tid]
    ∧ s'.activeClientTid = tid.toInt32) ∧ s'.damage = s.damage

section

variable {s t : Shell} {a : Answers} {held : Option UInt32}

theorem Quiet.holds {effects : List Effect} (h : Quiet s t effects) (hs : s.Holds held) :
  exec Pointer.hold held (effects.filterMap Effect.pointer) = some held ∧ t.Holds held
  := by
  obtain ⟨hwin, htid⟩ := Prod.mk.inj h.active
  rw [h.silent, exec_nil, Holds, hwin, htid]
  exact ⟨rfl, hs⟩

theorem Clicks.holds {effects : List Effect} (h : Clicks s t effects) (held : Option UInt32) :
  ∃ held', exec Pointer.hold held (effects.filterMap Effect.pointer) = some held' ∧ t.Holds held'
  := by
  obtain ⟨⟨tid, hpointer, htid⟩, -⟩ := h
  use some tid
  rw [hpointer, Holds, htid, UInt32.toUInt32_toInt32]
  exact ⟨rfl, fun _ => rfl⟩

theorem pressBehindMenu_cases (s : Shell) (a : Answers) (buttons : UInt8) :
  Quiet s (s.pressBehindMenu a buttons).shell (s.pressBehindMenu a buttons).effects
    ∨ Clicks s (s.pressBehindMenu a buttons).shell (s.pressBehindMenu a buttons).effects
  := by
  rw [pressBehindMenu]
  split_ifs
  · exact Or.inl (quiet_startMenuClick a s)
  · exact Or.inl (quiet_taskbarClick a s)
  · split
    case h_1 v part hat =>
      by_cases hpart : part = .client
      · right
        rw [hpart]
        refine ⟨⟨v.threadId, ?_, rfl⟩, rfl⟩
        rw [partClick]
        dsimp only
        split
        · rfl
        · rfl
      · exact Or.inl (quiet_partClick a s v buttons hpart)
    case h_2 => exact Or.inl (quiet_desktopClick a s buttons)

/-- A press of a button is about something else, or clicks one window. -/
theorem mouseButton_cases (s : Shell) (a : Answers) (x y : UInt16) (buttons : UInt8) :
  Quiet s (s.mouseButton a x y buttons).shell (s.mouseButton a x y buttons).effects
    ∨ Clicks s (s.mouseButton a x y buttons).shell (s.mouseButton a x y buttons).effects
  := by
  rw [mouseButton]
  split_ifs with hdialog hproperties hmenu
  · exact Or.inl (quiet_dialogEvent a s _)
  · exact Or.inl (quiet_propertiesClick s x y)
  · have hclicked := quiet_ctxMenuClick a s
    dsimp only
    split
    · exact Or.inl ⟨hclicked.silent, hclicked.active, hclicked.damage⟩
    · rcases pressBehindMenu_cases (s.ctxMenuClick a).1.closeCtxMenu a buttons with hquiet | hclicks
      · left
        exact ⟨silent_append hclicked.silent hquiet.silent, hquiet.active.trans hclicked.active,
          hquiet.damage.trans hclicked.damage⟩
      · right
        obtain ⟨⟨tid, hpointer, htid⟩, hdamage⟩ := hclicks
        refine ⟨⟨tid, ?_, htid⟩, hdamage.trans hclicked.damage⟩
        rw [List.filterMap_append, hclicked.silent, List.nil_append, hpointer]
  · exact pressBehindMenu_cases s a buttons

/-- What the thread that has the mouse is told, when its window is still there. -/
theorem toActiveClient_pointers (s : Shell) (a : Answers) (buttons : UInt8) :
  ((s.toActiveClient a .mouseMove buttons).filterMap Effect.pointer = []
      ∨ (s.toActiveClient a .mouseMove buttons).filterMap Effect.pointer
        = [.moved s.activeClientTid.toUInt32])
    ∧ ((s.toActiveClient a .mouseUp buttons).filterMap Effect.pointer = []
      ∨ (s.toActiveClient a .mouseUp buttons).filterMap Effect.pointer
        = [.up s.activeClientTid.toUInt32])
  := by
  simp only [toActiveClient]
  split
  · exact ⟨Or.inr rfl, Or.inr rfl⟩
  · exact ⟨Or.inl rfl, Or.inl rfl⟩

theorem mouseMove_holds (hs : s.Holds held) (a : Answers) (x y : UInt16) (buttons : UInt8) :
  exec Pointer.hold held ((s.mouseMove a x y buttons).effects.filterMap Effect.pointer) = some held
    ∧ (s.mouseMove a x y buttons).shell.Holds held
  := by
  have hmoved : (s.moveCursor x y).Holds held := hs
  rw [mouseMove]
  dsimp only
  split_ifs with hdrag hactive hpotential hicon hmenu
  · exact ⟨rfl, hmoved⟩
  · refine ⟨?_, hmoved⟩
    rcases (toActiveClient_pointers (s.moveCursor x y) a buttons).1 with hnone | hone
    · rw [hnone, exec_nil]
    · have hheld := hmoved hactive.1
      rw [hone, exec_cons _ (if_pos hheld), exec_nil]
  · exact ⟨rfl, hmoved⟩
  · exact ⟨rfl, hmoved⟩
  · exact (quiet_hover _).holds hmoved
  · exact ⟨rfl, hmoved⟩

/-- After the release of a button no thread has the mouse. -/
theorem mouseRelease_holds (hs : s.Holds held) (a : Answers) (buttons : UInt8) :
  exec Pointer.hold held
      ((s.mouseRelease a buttons).effects.filterMap Effect.pointer ++ [.released]) = some none
    ∧ (s.mouseRelease a buttons).shell.Holds none
  := by
  refine ⟨?_, fun h => absurd rfl h⟩
  rw [mouseRelease, List.filterMap_append, silent_rename, List.append_nil]
  split
  case isTrue hactive =>
    rcases (toActiveClient_pointers s a buttons).2 with hnone | hone
    · rw [hnone]
      rfl
    · rw [hone, List.singleton_append, exec_cons _ (if_pos (hs hactive))]
      rfl
  case isFalse => rfl

/-- An event keeps to the protocol. -/
theorem handle_holds (hs : s.Holds held) (a : Answers) (e : Input) :
  ∃ held', exec Pointer.hold held (e.pointers (s.handle a e)) = some held'
    ∧ (s.handle a e).shell.Holds held'
  := by
  have hplain : ∀ {t : Shell} {effects : List Effect} {held' : Option UInt32},
      exec Pointer.hold held (effects.filterMap Effect.pointer) = some held' ∧ t.Holds held' →
      ∃ held', exec Pointer.hold held (effects.filterMap Effect.pointer ++ []) = some held'
        ∧ t.Holds held' := by
    intro t effects held' h
    rw [List.append_nil]
    exact ⟨held', h⟩
  cases e with
  | mouseMove x y buttons => exact hplain (mouseMove_holds hs a x y buttons)
  | mouseButton x y buttons =>
      rcases mouseButton_cases s a x y buttons with hquiet | hclicks
      · exact hplain (hquiet.holds hs)
      · obtain ⟨held', h⟩ := hclicks.holds held
        exact hplain h
  | mouseRelease buttons => exact ⟨none, mouseRelease_holds hs a buttons⟩
  | timerTick => exact hplain ((quiet_timerTick a s).holds hs)
  | keyDown ascii scancode buttons =>
      exact hplain ((quiet_keyDown a s ascii scancode buttons).holds hs)
  | windowChange => exact hplain ((quiet_nil rfl rfl).holds hs)
  | mouseWheel x y buttons => exact hplain ((quiet_mouseWheel a s x y buttons).holds hs)
  | other => exact hplain ((quiet_nil rfl rfl).holds hs)

theorem present_holds (hs : s.Holds held) (redraw : Bool) :
  (s.present redraw).1.Holds held
  := by
  rw [present]
  split_ifs
  · exact hs
  · exact hs
  · exact hs

/-- The events of a round keep to the protocol. -/
theorem pointers_holds (hs : s.Holds held) (batch : List (Answers × Input)) :
  ∃ held', exec Pointer.hold held (s.pointers batch) = some held'
    ∧ (s.serve batch).shell.Holds held'
  := by
  induction batch generalizing s held with
  | nil => exact ⟨held, rfl, hs⟩
  | cons ae batch ih =>
      obtain ⟨a, e⟩ := ae
      obtain ⟨held', hexec, hheld⟩ := handle_holds hs a e
      obtain ⟨held'', hexec', hheld'⟩ := ih hheld
      use held''
      rw [pointers, exec_append hexec, hexec']
      exact ⟨rfl, hheld'⟩

theorem runPointers_holds (hs : s.Holds held) (batches : List (List (Answers × Input))) :
  ∃ held', exec Pointer.hold held (s.runPointers batches) = some held'
  := by
  induction batches generalizing s held with
  | nil => exact ⟨held, rfl⟩
  | cons batch batches ih =>
      obtain ⟨held', hexec, hheld⟩ := pointers_holds hs batch
      obtain ⟨held'', hexec'⟩ := ih (present_holds hheld (s.serve batch).redraw)
      use held''
      rw [runPointers, exec_append hexec]
      exact hexec'

end

/-- In every run the messages about the mouse keep to the protocol: a thread is told of a movement or
of the release only while it is the one that was clicked last, and nothing after the release. -/
theorem run_captures (dir : Directory) (batches : List (List (Answers × Input))) :
  ∃ held, exec Pointer.hold none ((Shell.start dir).runPointers batches) = some held
  := runPointers_holds (fun h => absurd rfl h) batches

end Shell

end Compositor
