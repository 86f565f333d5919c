import Woos.Compositor.Recycle
import Woos.Explorer.Names
import Woos.FileDialog
import Woos.Lib.Signed
import Woos.Window.Focus

/-!
# The main loop of the compositor

`Shell` is what the main loop keeps from one input event to the next, `Desktop` and the text field of
the dialog included, and `Shell.handle` is what one event does to it: the calls of the kernel that it
makes, in order, and whether the screen has to be drawn again.  What the calls answer comes with the
event, so that other threads may run between them.
-/

namespace Compositor

/-! ### Calls of the kernel -/

/-- The windows as the loop reads them: for every index below `woos_graphics_get_window_count`, what
`woos_graphics_get_window_info` returns, or none when it fails. -/
abbrev WindowList := List (Option Window)

/-- The `MSG_*` constants that the compositor sends. -/
inductive MessageType where
  | click
  | rightClick
  | close
  | keyDown
  | scroll
  | mouseMove
  | mouseUp
  | openFile
  deriving DecidableEq, Repr

/-- The arguments of `woos_ipc_send`; the last two are zero in every call. -/
structure Message where
  tid : UInt32
  type : MessageType
  arg1 : Int32
  arg2 : Int32
  arg3 : Int32
  deriving DecidableEq

/-- A call that changes something outside the compositor. -/
inductive Effect where
  | send (m : Message)
  | setWindowPos (id : UInt32) (x y : Int32)
  | destroyWindow (id : UInt32)
  | bringToFront (id : UInt32)
  | toggleMinimize (id : UInt32)
  | toggleMaximize (id : UInt32)
  | spawn (path : CString)
  | setOpenFile (path : CString)
  | rename (r : Rename)
  | createFile (name : CString)
  | createFolder (name : CString)
  | copyFile (r : Rename)
  | loadWallpaper
  deriving DecidableEq

/-! ### Starting programs -/

/-- A program and the title of its window. -/
structure Program where
  path : CString
  title : CString

/-- `"/BROWSER.WAS"` and `"Web Browser"` -/
def browser : Program where
  path := .ofBytes [47, 66, 82, 79, 87, 83, 69, 82, 46, 87, 65, 83]
  title := .ofBytes [87, 101, 98, 32, 66, 114, 111, 119, 115, 101, 114]

/-- `"/EXPLORER.WAS"` and `"File Explorer"` -/
def explorer : Program where
  path := .ofBytes [47, 69, 88, 80, 76, 79, 82, 69, 82, 46, 87, 65, 83]
  title := .ofBytes [70, 105, 108, 101, 32, 69, 120, 112, 108, 111, 114, 101, 114]

/-- `"/NOTEPAD.WAS"` and `"Notepad"` -/
def notepad : Program where
  path := .ofBytes [47, 78, 79, 84, 69, 80, 65, 68, 46, 87, 65, 83]
  title := .ofBytes [78, 111, 116, 101, 112, 97, 100]

/-- `"/TERM.WAS"` and `"Terminal"` -/
def terminal : Program where
  path := .ofBytes [47, 84, 69, 82, 77, 46, 87, 65, 83]
  title := .ofBytes [84, 101, 114, 109, 105, 110, 97, 108]

/-- `"/CALC.WAS"` and `"Calculator"` -/
def calculator : Program where
  path := .ofBytes [47, 67, 65, 76, 67, 46, 87, 65, 83]
  title := .ofBytes [67, 97, 108, 99, 117, 108, 97, 116, 111, 114]

/-- `"/IMGVIEW.WAS"` and `"Image Viewer"` -/
def imageViewer : Program where
  path := .ofBytes [47, 73, 77, 71, 86, 73, 69, 87, 46, 87, 65, 83]
  title := .ofBytes [73, 109, 97, 103, 101, 32, 86, 105, 101, 119, 101, 114]

/-- `"/FETCH.WAS"` and `"HTTP Fetch"` -/
def httpFetch : Program where
  path := .ofBytes [47, 70, 69, 84, 67, 72, 46, 87, 65, 83]
  title := .ofBytes [72, 84, 84, 80, 32, 70, 101, 116, 99, 104]

/-- `"/TESTWASI.WAS"` and `"WASI Test"` -/
def wasiTest : Program where
  path := .ofBytes [47, 84, 69, 83, 84, 87, 65, 83, 73, 46, 87, 65, 83]
  title := .ofBytes [87, 65, 83, 73, 32, 84, 101, 115, 116]

/-- `launch_or_focus` -/
def launchOrFocus (windows : WindowList) (path title : CString) : List Effect :=
  match windows.reduceOption.find? (fun v => v.title = title) with
  | some v => [.bringToFront v.id]
  | none => [.spawn path]

/-- `open_file_in_notepad`, `open_file_in_browser` and `open_file_in_imageview`: the program's window
is the first whose title begins with that of the program. -/
def openFileIn (windows : WindowList) (filepath : CString) (p : Program) : List Effect :=
  .setOpenFile filepath ::
    match windows.reduceOption.find? (fun v => v.title.bytes.take p.title.length = p.title.bytes) with
    | some v =>
      if 0 ≤ v.id.toInt32 ∧ 0 ≤ v.threadId.toInt32 then
        [.bringToFront v.id, .send ⟨v.threadId, .openFile, 0, 0, 0⟩]
      else [.spawn p.path]
    | none => [.spawn p.path]

/-- The end of a name is one of the extensions. -/
def hasExtension (name : CString) (extensions : List (List UInt8)) : Bool :=
  extensions.any (fun e => e.isSuffixOf name.bytes)

/-- `is_image_file`: `.bmp`, `.png`, `.jpg` or `.jpeg`, in capitals or not. -/
def isImageFile (name : CString) : Bool :=
  hasExtension name [[46, 98, 109, 112], [46, 66, 77, 80], [46, 112, 110, 103], [46, 80, 78, 71],
    [46, 106, 112, 103], [46, 74, 80, 71], [46, 106, 112, 101, 103], [46, 74, 80, 69, 71]]

/-- `is_html_file`: `.html` or `.htm`, in capitals or not. -/
def isHtmlFile (name : CString) : Bool :=
  hasExtension name [[46, 104, 116, 109, 108], [46, 72, 84, 77, 76], [46, 104, 116, 109],
    [46, 72, 84, 77]]

/-- A program, `.WAS` or `.was`. -/
def isProgram (name : CString) : Bool :=
  hasExtension name [[46, 87, 65, 83], [46, 119, 97, 115]]

/-- `launch_item` -/
def launchItem (windows : WindowList) (t : Table) (idx : Int) : List Effect :=
  let it := t.slot idx
  if !t.valid idx then []
  else if it.isRecycleBin ∨ it.isDir then launchOrFocus windows explorer.path explorer.title
  else if isProgram it.name then
    -- the name of a program of the system is its path without the slash
    match [browser, explorer, notepad, calculator, terminal, httpFetch, imageViewer].find?
        (fun p => it.name.bytes = p.path.bytes.tail) with
    | some p => launchOrFocus windows it.fullPath p.title
    | none => [.spawn it.fullPath]
  else if isHtmlFile it.name then openFileIn windows it.fullPath browser
  else if isImageFile it.name then openFileIn windows it.fullPath imageViewer
  else openFileIn windows it.fullPath notepad

/-! ### The state -/

/-- `g_mouse_dirty_min_x` to `g_mouse_dirty_max_y` -/
structure Dirty where
  minX : Int
  maxX : Int
  minY : Int
  maxY : Int
  deriving DecidableEq, Repr

/-- Nothing is dirty. -/
def Dirty.clean : Dirty := ⟨9999, -9999, 9999, -9999⟩

/-- The dirty rectangle grows by the surroundings of a movement of the cursor. -/
def Dirty.move (d : Dirty) (oldX oldY x y : Int) : Dirty where
  minX := min d.minX (min oldX x - 16)
  maxX := max d.maxX (max oldX x + 16)
  minY := min d.minY (min oldY y - 16)
  maxY := max d.maxY (max oldY y + 16)

/-- The submenu that is open next to the context menu: `g_ctx_submenu_open`. -/
inductive Submenu where
  | closed
  | openWith
  | new
  deriving DecidableEq, Repr

/-- What `g_desktop_dialog.mode` tells apart. `renameOrFolder` is the mode 4, with which both the
rename dialog and the one for a new folder are opened. -/
inductive DialogKind where
  | file
  | renameOrFolder
  deriving DecidableEq, Repr

/-- The variables of the main loop. -/
structure Shell where
  desktop : Desktop
  dragWinId : Int32
  dragWinOffX : Int32
  dragWinOffY : Int32
  activeClientWinId : Int32
  activeClientTid : Int32
  lastTitlebarClickTime : UInt32
  lastTitlebarClickWin : Int32
  dirty : Dirty
  mouseHasMoved : Bool
  lastUptimeSec : UInt32
  lastLayout : UInt8
  startMenuOpen : Bool
  ctxMenuOpen : Bool
  ctxX : Int
  ctxY : Int
  ctxH : Int
  ctxHoverIdx : Int
  ctxSubmenu : Submenu
  clipboardPath : CString
  clipboardIsCut : Bool
  propertiesOpen : Bool
  dialog : FileDialog
  dialogKind : DialogKind

/-- What the kernel answers while an event is handled: the windows that the loop over them reads,
those that the launch functions read later, `uptime_ms` or none when `woos_system_get_status` fails,
the thread with the focus when the Delete key asks for it and when a key or the wheel is sent on, and
the contents of `/DESKTOP`. -/
structure Answers where
  windows : WindowList
  launchWindows : WindowList
  uptimeMs : Option UInt32
  focusedAtDelete : Int32
  focusedTid : Int32
  dir : Directory

/-- What has been done for an event: the state, the calls, and `need_redraw`. -/
structure Outcome where
  shell : Shell
  effects : List Effect
  redraw : Bool

namespace Shell

variable (s : Shell) (a : Answers)

/-- `g_cursor_x` as the windows' coordinates are. -/
def cursorX : Int32 := .ofInt s.desktop.cursorX

/-- `g_cursor_y` as the windows' coordinates are. -/
def cursorY : Int32 := .ofInt s.desktop.cursorY

/-- A message about the mouse, with its place relative to the window. -/
def toWindow (v : Window) (tid : UInt32) (type : MessageType) (arg3 : Int32) : Effect :=
  .send ⟨tid, type, s.cursorX - v.x, s.cursorY - v.y, arg3⟩

/-- A message to the thread that has the mouse, when its window is still there. -/
def toActiveClient (type : MessageType) (buttons : UInt8) : List Effect :=
  match a.windows.reduceOption.find? (fun v => v.id.toInt32 = s.activeClientWinId) with
  | some v => [s.toWindow v s.activeClientTid.toUInt32 type buttons.toUInt32.toInt32]
  | none => []

/-! ### Moving the mouse -/

/-- The cursor is moved, and the surroundings of its way are dirty. -/
def moveCursor (x y : UInt16) : Shell :=
  { s with
    desktop := { s.desktop with cursorX := x.toNat, cursorY := y.toNat }
    dirty := s.dirty.move s.desktop.cursorX s.desktop.cursorY x.toNat y.toNat
    mouseHasMoved := true }

/-- The mouse moves over the context menu. -/
def hover : Outcome :=
  let hIdx := (s.desktop.cursorY - (s.ctxY + 4)).tdiv 22
  if s.ctxX ≤ s.desktop.cursorX ∧ s.desktop.cursorX < s.ctxX + 175 ∧ hIdx ≠ s.ctxHoverIdx then
    let submenu :=
      if 0 ≤ s.desktop.ctxTargetItem then if hIdx = 1 then Submenu.openWith else .closed
      else if hIdx = 0 then .new else .closed
    ⟨{ s with ctxHoverIdx := hIdx, ctxSubmenu := submenu }, [], true⟩
  else ⟨s, [], false⟩

/-- Where a window is dragged to; its title bar stays below the top of the screen. -/
def dragTarget : Int32 × Int32 :=
  let ny := s.cursorY - s.dragWinOffY
  (s.cursorX - s.dragWinOffX, if ny < 25 then 25 else ny)

/-- `INPUT_EVENT_MOUSE_MOVE` -/
def mouseMove (x y : UInt16) (buttons : UInt8) : Outcome :=
  let s := s.moveCursor x y
  if s.dragWinId ≠ -1 then
    ⟨s, [.setWindowPos s.dragWinId.toUInt32 s.dragTarget.1 s.dragTarget.2], true⟩
  else if s.activeClientWinId ≠ -1 ∧ buttons &&& 1 ≠ 0 then
    ⟨s, s.toActiveClient a .mouseMove buttons, false⟩
  else if 0 ≤ s.desktop.potentialDragIdx ∧ !s.desktop.isDraggingIcon then
    let desktop := s.desktop.drag
    ⟨{ s with desktop := desktop }, [], desktop.isDraggingIcon⟩
  else if s.desktop.isDraggingIcon then ⟨s, [], true⟩
  else if s.ctxMenuOpen then s.hover
  else ⟨s, [], false⟩

/-! ### Dialogs -/

/-- The text of the dialog, up to the first NUL. -/
def dialogInput : CString := .ofBytes (Shift.entries s.dialog.input 128)

/-- `woos_dialog_open` -/
def openDialog (kind : DialogKind) (text : CString) : Shell :=
  { s with dialog := FileDialog.openWith s.dialog.input text, dialogKind := kind }

/-- `load_desktop_items` -/
def load : Shell := { s with desktop := s.desktop.sync a.dir }

/-- `apply_desktop_dialog` -/
def applyDesktopDialog : Shell × List Effect :=
  if s.dialogInput = CString.empty then (s, [])
  else
    match s.dialogKind with
    | .renameOrFolder =>
      if 0 ≤ s.desktop.dialogTargetIdx then
        (s.load a, [.rename ⟨(s.desktop.table.slot s.desktop.dialogTargetIdx).fullPath,
          desktopDir.append s.dialogInput⟩])
      else (s.load a, [.createFolder (desktopDir.append s.dialogInput)])
    | .file => (s.load a, [.createFile (desktopDir.append s.dialogInput)])

/-- A click or a key for the dialog, with what the dialog has made of it. -/
def dialogEvent (answer : FileDialog × Notepad.DialogResult) : Outcome :=
  let s := { s with dialog := answer.1 }
  if answer.2 = .ok then
    let applied := s.applyDesktopDialog a
    ⟨applied.1, applied.2, true⟩
  else ⟨s, [], true⟩

/-- A click while the properties are shown: their button closes them. -/
def propertiesClick (x y : UInt16) : Outcome :=
  if 605 ≤ x ∧ x ≤ 675 ∧ 590 ≤ y ∧ y ≤ 612 then ⟨{ s with propertiesOpen := false }, [], true⟩
  else ⟨s, [], false⟩

/-! ### Menus -/

/-- The item that the context menu is about. -/
def ctxItem : DesktopItem := s.desktop.table.slot s.desktop.ctxTargetItem

/-- Cut or copy the item of the context menu. -/
def clip (cut : Bool) : Shell := { s with clipboardPath := s.ctxItem.fullPath, clipboardIsCut := cut }

/-- The actions of the context menu of an icon. -/
def itemAction (itIdx : Int) : Shell × List Effect :=
  let target := s.desktop.ctxTargetItem
  let isSys : Bool := target = 0 ∨ isSystemItem s.ctxItem.name
  if itIdx = 0 then (s, launchItem a.launchWindows s.desktop.table target)
  else if itIdx = 2 then (if isSys then s else s.clip true, [])
  else if itIdx = 3 then (s.clip false, [])
  else if itIdx = 4 then
    if isSys then (s, [])
    else ({ s with desktop := s.desktop.deleteItemToRecycle target a.dir },
      (s.desktop.deleteCalls target).map .rename)
  else if itIdx = 5 then
    if isSys then (s, [])
    else ({ s with desktop := s.desktop.step .openDialog }.openDialog .renameOrFolder s.ctxItem.name, [])
  else if itIdx = 6 then
    ({ s with propertiesOpen := true, desktop := s.desktop.step .openDialog }, [])
  else (s, [])

/-- `paste_clipboard` -/
def pasteClipboard : Shell × List Effect :=
  let r : Rename := ⟨s.clipboardPath, desktopDir.append (.ofBytes (baseName s.clipboardPath.bytes))⟩
  if s.clipboardPath = CString.empty then (s, [])
  else if s.clipboardIsCut then ({ s with clipboardPath := .empty }.load a, [.rename r])
  else (s.load a, [.copyFile r])

/-- The actions of the context menu of the desktop. -/
def desktopAction (itIdx : Int) : Shell × List Effect :=
  if itIdx = 1 then s.pasteClipboard a
  else if itIdx = 2 then (s.load a, [.loadWallpaper])
  else if itIdx = 3 then
    ({ s with propertiesOpen := true, desktop := { s.desktop with dialogTargetIdx := -1 } }, [])
  else (s, [])

/-- A program of the submenu `Open with`, for the item of the menu or alone. -/
def openWith (p : Program) : List Effect :=
  if 0 ≤ s.desktop.ctxTargetItem then openFileIn a.launchWindows s.ctxItem.fullPath p
  else launchOrFocus a.launchWindows p.path p.title

/-- The entries of the submenu `Open with`. -/
def openWithAction (sIdx : Int) : List Effect :=
  if sIdx = 0 then s.openWith a browser
  else if sIdx = 1 then s.openWith a notepad
  else if sIdx = 2 then s.openWith a imageViewer
  else if sIdx = 3 then launchOrFocus a.launchWindows explorer.path explorer.title
  else if sIdx = 4 then launchOrFocus a.launchWindows terminal.path terminal.title
  else if sIdx = 5 then launchOrFocus a.launchWindows calculator.path calculator.title
  else []

/-- The name of a new document: `doc_name`. -/
def docName : CString := Names.generateUniqueDesktopName s.desktop.table Names.newdoc Names.txt 32

/-- `"NEWFILE.TXT"` -/
def newFileName : CString := .ofBytes [78, 69, 87, 70, 73, 76, 69, 46, 84, 88, 84]

/-- `"NEWDIR"` -/
def newDirName : CString := .ofBytes [78, 69, 87, 68, 73, 82]

/-- The entries of the submenu `New`. -/
def newAction (sIdx : Int) : Shell × List Effect :=
  if sIdx = 0 then (s.load a, [.createFile (desktopDir.append s.docName)])
  else if sIdx = 1 then (s.openDialog .file newFileName, [])
  else if sIdx = 2 then (s.openDialog .renameOrFolder newDirName, [])
  else (s, [])

/-- The cursor is in the rectangle at `x` and `y` with the width `w` and the height `h`. -/
def inRect (x y w h : Int) : Bool :=
  x ≤ s.desktop.cursorX ∧ s.desktop.cursorX < x + w ∧ y ≤ s.desktop.cursorY ∧ s.desktop.cursorY < y + h

/-- A click while the context menu is open: what it does, and whether the menu takes it. -/
def ctxMenuClick : Shell × List Effect × Bool :=
  let itIdx := (s.desktop.cursorY - (s.ctxY + 4)).tdiv 22
  let subX := s.ctxX + 175 - 4
  if s.inRect s.ctxX s.ctxY 175 s.ctxH then
    let acted :=
      if 0 ≤ s.desktop.ctxTargetItem then s.itemAction a itIdx else s.desktopAction a itIdx
    (acted.1, acted.2, true)
  else
    match s.ctxSubmenu with
    | .openWith =>
      let subY := s.ctxY + 4 + 22
      if s.inRect subX subY 140 (6 * 22) then
        (s, s.openWithAction a ((s.desktop.cursorY - (subY + 4)).tdiv 22), true)
      else (s, [], false)
    | .new =>
      let subY := s.ctxY + 4
      if s.inRect subX subY 140 (3 * 22) then
        let acted := s.newAction a ((s.desktop.cursorY - (subY + 4)).tdiv 22)
        (acted.1, acted.2, true)
      else (s, [], false)
    | .closed => (s, [], false)

/-- The context menu and its submenu are closed. -/
def closeCtxMenu : Shell := { s with ctxMenuOpen := false, ctxSubmenu := .closed }

/-- The entries of the start menu, from the top. -/
def startMenuPrograms : List Program :=
  [browser, explorer, notepad, terminal, calculator, imageViewer, httpFetch, wasiTest]

/-- A click while the start menu is open; its rectangle begins 318 pixels above the task bar. -/
def startMenuClick : Outcome :=
  let smY := 1024 - 36 - 316 - 2
  let effects :=
    if s.inRect 4 smY 200 316 then
      let itIdx := (s.desktop.cursorY - (smY + 10)).tdiv 36
      match startMenuPrograms[itIdx.toNat]? with
      | some p => if 0 ≤ itIdx then launchOrFocus a.launchWindows p.path p.title else []
      | none => []
    else []
  ⟨{ s with startMenuOpen := false }, effects, true⟩

/-! ### The task bar -/

/-- The tab of a window in the task bar is under the cursor. -/
def onTab (i : Nat) : Bool :=
  86 + (i : Int) * (42 + 4) ≤ s.desktop.cursorX ∧ s.desktop.cursorX ≤ 86 + (i : Int) * (42 + 4) + 42

/-- A click on the task bar: the start button, or the first tab under the cursor. -/
def taskbarClick : Outcome :=
  if 4 ≤ s.desktop.cursorX ∧ s.desktop.cursorX ≤ 80 then
    ⟨{ s with startMenuOpen := !s.startMenuOpen }, [], true⟩
  else
    match (List.range a.windows.length).find? s.onTab with
    | some i =>
      match (a.windows[i]?).join with
      | some v =>
        ⟨s, [if v.Focused then .toggleMinimize v.id else .bringToFront v.id], true⟩
      | none => ⟨s, [], false⟩
    | none => ⟨s, [], false⟩

/-! ### Windows -/

/-- The parts of a window that a click can meet. -/
inductive Part where
  | close
  | maximize
  | minimize
  | title
  | client
  deriving DecidableEq, Repr

/-- The cursor is in the rows of the title bar, the first row of the client area included. -/
def inTitleRows (v : Window) : Bool := v.y - 22 ≤ s.cursorY ∧ s.cursorY ≤ v.y

/-- The cursor is in the columns from `first` to `last`, counted from the right end of the window. -/
def fromRight (v : Window) (first last : Int32) : Bool :=
  v.x + v.w.toInt32 - first ≤ s.cursorX ∧ s.cursorX ≤ v.x + v.w.toInt32 - last

/-- The part of a window that is under the cursor, in the order in which the parts are tried. -/
def partAt (v : Window) : Option Part :=
  if v.Minimized then none
  else if s.inTitleRows v ∧ s.fromRight v 24 0 then some .close
  else if s.inTitleRows v ∧ s.fromRight v 48 25 then some .maximize
  else if s.inTitleRows v ∧ s.fromRight v 72 49 then some .minimize
  else if s.inTitleRows v ∧ v.x - 3 ≤ s.cursorX ∧ s.cursorX ≤ v.x + v.w.toInt32 - 73 then some .title
  else if v.x ≤ s.cursorX ∧ s.cursorX ≤ v.x + v.w.toInt32 ∧ v.y ≤ s.cursorY
      ∧ s.cursorY ≤ v.y + v.h.toInt32 then some .client
  else none

/-- The topmost window that is under the cursor, and its part. -/
def windowAt (windows : WindowList) : Option (Window × Part) :=
  windows.reverse.reduceOption.findSome? (fun v => (s.partAt v).map (fun p => (v, p)))

/-- A click on a title bar: the second one within 450 ms maximizes the window, the first one raises it
and begins to drag it. -/
def titleClick (v : Window) : Outcome :=
  let now := a.uptimeMs.getD 0
  if v.title ≠ WindowStack.calculatorTitle ∧ s.lastTitlebarClickWin = v.id.toInt32
      ∧ now - s.lastTitlebarClickTime < 450 then
    ⟨{ s with lastTitlebarClickWin := -1 }, [.toggleMaximize v.id], true⟩
  else
    let s := { s with lastTitlebarClickWin := v.id.toInt32, lastTitlebarClickTime := now }
    if v.flags &&& WindowStack.flagMaximized = 0 then
      ⟨{ s with
          dragWinId := v.id.toInt32
          dragWinOffX := s.cursorX - v.x
          dragWinOffY := s.cursorY - v.y }, [.bringToFront v.id], true⟩
    else ⟨s, [.bringToFront v.id], true⟩

/-- A click on a part of a window. -/
def partClick (v : Window) (buttons : UInt8) : Part → Outcome
  | .close => ⟨s, [.send ⟨v.threadId, .close, 0, 0, 0⟩, .destroyWindow v.id], true⟩
  | .maximize =>
    ⟨s, if v.title ≠ WindowStack.calculatorTitle then [.toggleMaximize v.id] else [], true⟩
  | .minimize => ⟨s, [.toggleMinimize v.id], true⟩
  | .title => s.titleClick a v
  | .client =>
    let type := if buttons &&& 2 ≠ 0 then MessageType.rightClick else .click
    ⟨{ s with activeClientWinId := v.id.toInt32, activeClientTid := v.threadId.toInt32 },
      [.bringToFront v.id, s.toWindow v v.threadId type buttons.toUInt32.toInt32], true⟩

/-! ### The desktop -/

/-- Where the context menu is opened. -/
def openCtxMenu : Shell :=
  let h : Int := if 0 ≤ s.desktop.ctxTargetItem then 7 * 22 + 8 else 4 * 22 + 8
  let x := s.desktop.cursorX
  let y := s.desktop.cursorY
  { s with
    ctxX := if 1280 < x + 175 then 1280 - 175 - 8 else x
    ctxY := if 1024 - 36 < y + h then 1024 - 36 - h - 4 else y
    ctxH := h
    ctxMenuOpen := true
    ctxHoverIdx := -1
    ctxSubmenu := .closed }

/-- A click on the desktop. -/
def desktopClick (buttons : UInt8) : Outcome :=
  let right : Bool := buttons &&& 2 ≠ 0
  let now := a.uptimeMs.getD 0
  let synced := s.desktop.syncIdle a.dir
  let idx := synced.table.findDesktopItemAt synced.cursorX synced.cursorY
  let s' := { s with desktop := s.desktop.step (.press right now a.dir) }
  if right then ⟨s'.openCtxMenu, [], true⟩
  else
    ⟨s', if 0 ≤ idx ∧ synced.lastClickedIcon = idx ∧ now - synced.lastClickTime < 450 then
      launchItem a.launchWindows synced.table idx else [], true⟩

/-! ### Mouse buttons -/

/-- A press that no dialog and no open context menu has taken. -/
def pressBehindMenu (buttons : UInt8) : Outcome :=
  if s.startMenuOpen then s.startMenuClick a
  else if 1024 - 36 ≤ s.desktop.cursorY then s.taskbarClick a
  else
    match s.windowAt a.windows with
    | some (v, part) => s.partClick a v buttons part
    | none => s.desktopClick a buttons

/-- `INPUT_EVENT_MOUSE_BUTTON` -/
def mouseButton (x y : UInt16) (buttons : UInt8) : Outcome :=
  if s.dialog.active then s.dialogEvent a (s.dialog.handleClick 1280 1024 x.toNat y.toNat)
  else if s.propertiesOpen then s.propertiesClick x y
  else if s.ctxMenuOpen then
    let clicked := s.ctxMenuClick a
    let s := clicked.1.closeCtxMenu
    if clicked.2.2 then ⟨s, clicked.2.1, true⟩
    else
      let o := s.pressBehindMenu a buttons
      ⟨o.shell, clicked.2.1 ++ o.effects, true⟩
  else s.pressBehindMenu a buttons

/-- `INPUT_EVENT_MOUSE_RELEASE` -/
def mouseRelease (buttons : UInt8) : Outcome :=
  let messages := if s.activeClientWinId ≠ -1 then s.toActiveClient a .mouseUp buttons else []
  ⟨{ s with
      activeClientWinId := -1
      activeClientTid := if s.activeClientWinId ≠ -1 then -1 else s.activeClientTid
      dragWinId := -1
      desktop := s.desktop.release a.dir },
    messages ++ s.desktop.releaseCalls.map .rename,
    s.dragWinId ≠ -1 ∨ s.desktop.isDraggingIcon ∧ 0 ≤ s.desktop.dragIconIdx⟩

/-! ### The other events -/

/-- `INPUT_EVENT_TIMER_TICK` -/
def timerTick : Outcome :=
  match a.uptimeMs with
  | none => ⟨s, [], false⟩
  | some uptime =>
    if uptime / 1000 ≠ s.lastUptimeSec then
      ⟨{ s with lastUptimeSec := uptime / 1000, desktop := s.desktop.syncIdle a.dir }, [], true⟩
    else ⟨s, [], false⟩

/-- `INPUT_EVENT_WINDOW_CHANGE` -/
def windowChange : Outcome := ⟨{ s with desktop := s.desktop.syncIdle a.dir }, [], true⟩

/-- The wheel turns over a window. -/
def underWheel (v : Window) : Bool :=
  v.active ≠ 0 ∧ ¬ v.Minimized ∧ v.x ≤ s.cursorX ∧ s.cursorX ≤ v.x + v.w.toInt32
    ∧ v.y - 22 ≤ s.cursorY ∧ s.cursorY ≤ v.y + v.h.toInt32

/-- `INPUT_EVENT_MOUSE_WHEEL` -/
def mouseWheel (x y : UInt16) (buttons : UInt8) : Outcome :=
  let s := { s with desktop := { s.desktop with cursorX := x.toNat, cursorY := y.toNat } }
  let dz := buttons.toInt8.toInt32
  match a.windows.reverse.reduceOption.find? s.underWheel with
  | some v => ⟨s, [s.toWindow v v.threadId .scroll dz], false⟩
  | none =>
    ⟨s, if 0 < a.focusedTid then [.send ⟨a.focusedTid.toUInt32, .scroll, 0, 0, dz⟩] else [], false⟩

/-- The Delete key on the desktop moves the selected item to the recycle folder. -/
def deleteSelected : Outcome :=
  let d := s.desktop
  if 0 < d.selectedIconIdx ∧ d.selectedIconIdx < d.table.count
      ∧ !(d.table.slot d.selectedIconIdx).isRecycleBin
      ∧ !isSystemItem (d.table.slot d.selectedIconIdx).name then
    ⟨{ s with desktop := d.step (.delete a.dir) }, (d.deleteCalls d.selectedIconIdx).map .rename, true⟩
  else ⟨s, [], false⟩

/-- A key that is not a modifier alone. -/
def key (ascii scancode : UInt16) : Outcome :=
  if s.dialog.active then s.dialogEvent a (s.dialog.handleKey ascii.toNat scancode.toNat)
  else if s.propertiesOpen then ⟨{ s with propertiesOpen := false }, [], true⟩
  else if scancode = 0x3F then ⟨s.load a, [], true⟩
  else if scancode = 0x53 ∧ a.focusedAtDelete ≤ 0 then s.deleteSelected a
  else if 0 < a.focusedTid then
    ⟨s, [.send ⟨a.focusedTid.toUInt32, .keyDown, ascii.toUInt32.toInt32, scancode.toUInt32.toInt32, 0⟩],
      false⟩
  else ⟨s, [], false⟩

/-- `INPUT_EVENT_KEY_DOWN` -/
def keyDown (ascii scancode : UInt16) (buttons : UInt8) : Outcome :=
  let layout := (buttons >>> 4) &&& 1
  let changed : Bool := layout ≠ s.lastLayout
  let s := { s with lastLayout := layout }
  if ascii = 0 ∧ (scancode = 0x2A ∨ scancode = 0x36 ∨ scancode = 0x38 ∨ scancode = 0xB8) then
    ⟨s, [], changed⟩
  else
    let o := s.key a ascii scancode
    ⟨o.shell, o.effects, changed || o.redraw⟩

end Shell

/-! ### Events -/

/-- `woos_input_event_t`; an event of another type has no effect. -/
inductive Input where
  | mouseMove (x y : UInt16) (buttons : UInt8)
  | mouseButton (x y : UInt16) (buttons : UInt8)
  | mouseRelease (buttons : UInt8)
  | timerTick
  | keyDown (ascii scancode : UInt16) (buttons : UInt8)
  | windowChange
  | mouseWheel (x y : UInt16) (buttons : UInt8)
  | other

namespace Shell

/-- One event of the main loop. -/
def handle (s : Shell) (a : Answers) : Input → Outcome
  | .mouseMove x y buttons => s.mouseMove a x y buttons
  | .mouseButton x y buttons => s.mouseButton a x y buttons
  | .mouseRelease buttons => s.mouseRelease a buttons
  | .timerTick => s.timerTick a
  | .keyDown ascii scancode buttons => s.keyDown a ascii scancode buttons
  | .windowChange => s.windowChange a
  | .mouseWheel x y buttons => s.mouseWheel a x y buttons
  | .other => ⟨s, [], false⟩

/-- The main loop's variables before the first event. -/
def start (dir : Directory) : Shell where
  desktop := .start dir
  dragWinId := -1
  dragWinOffX := 0
  dragWinOffY := 0
  activeClientWinId := -1
  activeClientTid := -1
  lastTitlebarClickTime := 0
  lastTitlebarClickWin := -1
  dirty := .clean
  mouseHasMoved := false
  lastUptimeSec := 0
  lastLayout := 0
  startMenuOpen := false
  ctxMenuOpen := false
  ctxX := 0
  ctxY := 0
  ctxH := 0
  ctxHoverIdx := -1
  ctxSubmenu := .closed
  clipboardPath := .empty
  clipboardIsCut := false
  propertiesOpen := false
  dialog := ⟨false, fun _ => 0, 0, 0⟩
  dialogKind := .file

/-! ### The screen -/

/-- The rectangle that the mouse has made dirty, cut to the screen: `x`, `y`, `w` and `h` of
`woos_graphics_present_rect`. -/
def dirtyRect (s : Shell) : Int × Int × Int × Int :=
  let minX := max s.dirty.minX 0
  let minY := max s.dirty.minY 0
  let maxX := min s.dirty.maxX 1280
  let maxY := min s.dirty.maxY 1024
  (minX, minY, maxX - minX, maxY - minY)

/-- After the events that have come: the whole screen is drawn and presented, or what the mouse has
made dirty, or nothing. -/
def present (s : Shell) (redraw : Bool) : Shell × Option (Int × Int × Int × Int) :=
  let clean := { s with dirty := .clean, mouseHasMoved := false }
  if redraw then (clean, some (0, 0, 1280, 1024))
  else if s.mouseHasMoved then
    let r := s.dirtyRect
    (clean, if 0 < r.2.2.1 ∧ 0 < r.2.2.2 then some r else none)
  else (s, none)

/-- The events that have come are handled one after the other. -/
def serve : Shell → List (Answers × Input) → Outcome
  | s, [] => ⟨s, [], false⟩
  | s, (a, e) :: batch =>
    let o := s.handle a e
    let o' := serve o.shell batch
    ⟨o'.shell, o.effects ++ o'.effects, o.redraw || o'.redraw⟩

/-- A round of the main loop: the state behind it, and the rectangle that is presented. -/
def round (s : Shell) (batch : List (Answers × Input)) : Shell × Option (Int × Int × Int × Int) :=
  let o := s.serve batch
  o.shell.present o.redraw

/-- Some rounds of the main loop. -/
def rounds (s : Shell) (batches : List (List (Answers × Input))) : Shell :=
  batches.foldl (fun s batch => (s.round batch).1) s

end Shell

end Compositor
