import Woos.Compositor.Sync

/-!
# The desktop between events

What the main loop of the compositor keeps about the desktop icons from one event to the next, and
what the events do to it.  An event that a window, a menu or the task bar takes has no effect
here, except that the actions of the menus and dialogs on files end with a synchronisation
(`refresh`).  What the directory contains when it is read comes with the event.
-/

namespace Compositor

/-! ### Protected names -/

/-- The names that `is_system_item` compares with: `DESKTOP`, `RECYCLE`, `Recycle Bin`,
`RECYCLE BIN` and the system's programs. -/
def systemNames : List (List UInt8) :=
  [[68, 69, 83, 75, 84, 79, 80],
    [82, 69, 67, 89, 67, 76, 69],
    [82, 101, 99, 121, 99, 108, 101, 32, 66, 105, 110],
    [82, 69, 67, 89, 67, 76, 69, 32, 66, 73, 78],
    [69, 88, 80, 76, 79, 82, 69, 82, 46, 87, 65, 83],
    [67, 79, 77, 80, 79, 83, 73, 84, 46, 87, 65, 83],
    [67, 65, 76, 67, 46, 87, 65, 83],
    [78, 79, 84, 69, 80, 65, 68, 46, 87, 65, 83],
    [84, 69, 82, 77, 46, 87, 65, 83],
    [70, 69, 84, 67, 72, 46, 87, 65, 83],
    [84, 69, 83, 84, 87, 65, 83, 73, 46, 87, 65, 83],
    [73, 77, 71, 86, 73, 69, 87, 46, 87, 65, 83],
    [73, 77, 65, 71, 69, 86, 73, 69, 87, 46, 87, 65, 83]]

/-- What follows the last slash or backslash. -/
def baseName (name : List UInt8) : List UInt8 :=
  (name.reverse.takeWhile (fun c => c != 47 && c != 92)).reverse

/-- `is_system_item` -/
def isSystemItem (name : CString) : Bool :=
  let base := baseName name.bytes
  base ≠ [] ∧ systemNames.any (fun s => strcasecmpCustom base s = 0)

/-! ### The state -/

/-- The variables of the main loop that are about desktop items. -/
structure Desktop where
  table : Table
  selectedIconIdx : Int
  lastClickTime : UInt32
  lastClickedIcon : Int
  isDraggingIcon : Bool
  dragIconIdx : Int
  potentialDragIdx : Int
  dragStartX : Int
  dragStartY : Int
  cursorX : Int
  cursorY : Int
  ctxTargetItem : Int
  dialogTargetIdx : Int

/-- The item in a slot of the table, without a check of the bound. -/
def Table.slot (t : Table) (idx : Int) : DesktopItem := t.items idx.toNat

/-- The bounds check before an item is used. -/
def Table.valid (t : Table) (idx : Int) : Bool := 0 ≤ idx ∧ idx < t.count

/-- Put an item into another cell. -/
def Table.setCell (t : Table) (idx : Int) (c : Cell) : Table where
  items := Function.update t.items idx.toNat { t.slot idx with col := c.1, row := c.2 }
  count := t.count

/-- `is_cell_occupied`: the first other item in the cell. -/
def Table.cellOccupied (t : Table) (c : Cell) (ignore : Int) : Option Nat :=
  (List.range t.count).find? (fun i => (i : Int) ≠ ignore ∧ (t.items i).cell = c)

/-- `find_desktop_item_at`: the first item whose icon covers the point, or −1. -/
def Table.findDesktopItemAt (t : Table) (x y : Int) : Int :=
  ((List.range t.count).find? (fun i =>
    let ix := 24 + (t.items i).col * 86
    let iy := 24 + (t.items i).row * 92
    decide (ix ≤ x ∧ x < ix + 86 ∧ iy ≤ y ∧ y < iy + 92))).elim (-1) (fun i => (i : Int))

/-- The cell in which an icon is dropped. -/
def dropCell (x y : Int) : Cell :=
  (min (max (Int.tdiv (x - 24 + 43) 86) 0) 13, min (max (Int.tdiv (y - 24 + 46) 92) 0) 9)

namespace Desktop

variable (s : Desktop)

/-- Synchronise with the directory. -/
def sync (dir : Directory) : Desktop := { s with table := (syncDesktopItems dir s.table).2 }

/-- The synchronisation that is left out while an icon is dragged. -/
def syncIdle (dir : Directory) : Desktop := if s.isDraggingIcon then s else s.sync dir

/-- `delete_item_to_recycle`; `dir` is the directory after the file has been moved. -/
def deleteItemToRecycle (idx : Int) (dir : Directory) : Desktop :=
  if idx ≤ 0 ∨ s.table.count ≤ idx then s
  else if (s.table.slot idx).isRecycleBin ∨ isSystemItem (s.table.slot idx).name then s
  else s.sync dir

/-- The mouse moves and no window is concerned: an icon is dragged once the mouse is more than six
pixels away from where it was pressed. -/
def drag : Desktop :=
  if 0 ≤ s.potentialDragIdx ∧ !s.isDraggingIcon then
    if 6 < (s.cursorX - s.dragStartX).natAbs ∨ 6 < (s.cursorY - s.dragStartY).natAbs then
      { s with isDraggingIcon := true, dragIconIdx := s.potentialDragIdx }
    else s
  else s

/-- A right click on the desktop opens the context menu. -/
def rightClick (idx : Int) : Desktop := { s with ctxTargetItem := idx }

/-- A left click on the desktop: the second one within 450 ms launches the item, the first one may
be the start of a drag. -/
def leftClick (idx : Int) (now : UInt32) : Desktop :=
  if 0 ≤ idx then
    if s.lastClickedIcon = idx ∧ now - s.lastClickTime < 450 then
      { s with selectedIconIdx := idx, lastClickedIcon := -1, potentialDragIdx := -1,
               isDraggingIcon := false }
    else
      { s with selectedIconIdx := idx, lastClickedIcon := idx, lastClickTime := now,
               potentialDragIdx := idx, dragStartX := s.cursorX, dragStartY := s.cursorY,
               isDraggingIcon := false }
  else { s with selectedIconIdx := -1, potentialDragIdx := -1, isDraggingIcon := false }

/-- The dragged icon is dropped: on the cell of the recycle bin the file is deleted, elsewhere the
icon moves, and an icon that is there already takes its old cell. -/
def drop (dir : Directory) : Desktop :=
  let it := s.table.slot s.dragIconIdx
  let target := dropCell s.cursorX s.cursorY
  if target = (0, 0) ∧ !it.isRecycleBin then
    if isSystemItem it.name then s else s.deleteItemToRecycle s.dragIconIdx dir
  else
    let swapped := (s.table.cellOccupied target s.dragIconIdx).elim s.table
      (fun occ => s.table.setCell occ it.cell)
    { s with table := swapped.setCell s.dragIconIdx target }

/-- A mouse button is released. -/
def release (dir : Directory) : Desktop :=
  let s' := if s.isDraggingIcon ∧ 0 ≤ s.dragIconIdx then
      { s.drop dir with dragIconIdx := -1 }
    else s
  { s' with potentialDragIdx := -1, isDraggingIcon := false }

end Desktop

/-- The events that concern the desktop items. -/
inductive Event where
  /-- the timer has reached a new second, or a window has changed -/
  | tick (dir : Directory)
  /-- F5, or the end of a menu's or dialog's action on files -/
  | refresh (dir : Directory)
  /-- the mouse moves, or its wheel is turned; `taken` when a window is moved or has the mouse, or it
  is the wheel -/
  | move (x y : Int) (taken : Bool)
  /-- a mouse button is pressed on the desktop -/
  | press (right : Bool) (now : UInt32) (dir : Directory)
  | release (dir : Directory)
  /-- the Delete key is pressed -/
  | delete (dir : Directory)
  /-- the context menu's actions that open a dialog about its item -/
  | openDialog

namespace Desktop

/-- One event of the main loop. -/
def step (s : Desktop) : Event → Desktop
  | .tick dir => s.syncIdle dir
  | .refresh dir => s.sync dir
  | .move x y taken =>
    let s := { s with cursorX := x, cursorY := y }
    if taken then s else s.drag
  | .press right now dir =>
    let s := s.syncIdle dir
    let idx := s.table.findDesktopItemAt s.cursorX s.cursorY
    if right then s.rightClick idx else s.leftClick idx now
  | .release dir => s.release dir
  | .delete dir =>
    if 0 < s.selectedIconIdx ∧ s.selectedIconIdx < s.table.count
        ∧ !(s.table.slot s.selectedIconIdx).isRecycleBin
        ∧ !isSystemItem (s.table.slot s.selectedIconIdx).name then
      { s.deleteItemToRecycle s.selectedIconIdx dir with selectedIconIdx := -1 }
    else s
  | .openDialog => if 0 ≤ s.ctxTargetItem then { s with dialogTargetIdx := s.ctxTargetItem } else s

/-- The compositor before it has read the directory. -/
def init : Desktop where
  table := ⟨fun _ => .zero, 0⟩
  selectedIconIdx := -1
  lastClickTime := 0
  lastClickedIcon := -1
  isDraggingIcon := false
  dragIconIdx := -1
  potentialDragIdx := -1
  dragStartX := 0
  dragStartY := 0
  cursorX := 640
  cursorY := 512
  ctxTargetItem := -1
  dialogTargetIdx := -1

/-- The desktop as the main loop starts with it. -/
def start (dir : Directory) : Desktop := init.sync dir

end Desktop

end Compositor
