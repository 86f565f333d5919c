import Woos.Compositor.Grid

/-!
# Dropping an icon onto the recycle bin

The files that the release of a mouse button renames (`Desktop.releaseCalls`): a file that is
dropped in the first cell of the grid goes to `/RECYCLE`.  The recycle bin may have been dragged
out of this cell.  `Desktop.DropsRight` says what a drop should do, wherever the recycle bin is, and
`drops_right_iff` when it does.
-/

namespace Compositor

/-- `"/RECYCLE/"` -/
def recycleDir : CString := .ofBytes [47, 82, 69, 67, 89, 67, 76, 69, 47]

/-- The arguments of a call of `woos_vfs_rename`. -/
structure Rename where
  source : CString
  dest : CString
  deriving DecidableEq

/-- The file of an item goes to the recycle folder. -/
def DesktopItem.toRecycle (it : DesktopItem) : Rename := ⟨it.fullPath, recycleDir.append it.name⟩

namespace Desktop

variable (s : Desktop)

/-- The call in `delete_item_to_recycle`. -/
def deleteCalls (idx : Int) : List Rename :=
  if idx ≤ 0 ∨ s.table.count ≤ idx then []
  else if (s.table.slot idx).isRecycleBin ∨ isSystemItem (s.table.slot idx).name then []
  else [(s.table.slot idx).toRecycle]

/-- The calls when the dragged icon is dropped. -/
def dropCalls : List Rename :=
  let it := s.table.slot s.dragIconIdx
  if dropCell s.cursorX s.cursorY = (0, 0) ∧ !it.isRecycleBin then
    if isSystemItem it.name then [] else s.deleteCalls s.dragIconIdx
  else []

/-- The calls when a mouse button is released. -/
def releaseCalls : List Rename :=
  if s.isDraggingIcon ∧ 0 ≤ s.dragIconIdx then s.dropCalls else []

/-- The icon in a slot moves to a cell, and one that is there takes its old cell. -/
def exchange (t : Table) (idx : Int) (c : Cell) : Table :=
  ((t.cellOccupied c idx).elim t (fun occ => t.setCell occ (t.slot idx).cell)).setCell idx c

/-- A file is dragged: an item of the table that is not the recycle bin. -/
def DragsFile : Prop := 0 < s.dragIconIdx ∧ s.dragIconIdx < s.table.count

/-- The icon is dropped in the cell of the recycle bin. -/
def OnRecycleBin : Prop := dropCell s.cursorX s.cursorY = (s.table.slot 0).cell

instance : Decidable s.DragsFile := inferInstanceAs (Decidable (_ ∧ _))

instance : Decidable s.OnRecycleBin := inferInstanceAs (Decidable (_ = _))

/-- What dropping the dragged icon should do: a file that is dropped onto the recycle bin goes to the
recycle folder; otherwise icons move and no file is touched. -/
structure DropsRight (dir : Directory) : Prop where
  recycles : s.DragsFile ∧ s.OnRecycleBin →
    s.releaseCalls = [(s.table.slot s.dragIconIdx).toRecycle]
  moves : ¬ (s.DragsFile ∧ s.OnRecycleBin) → s.releaseCalls = []
    ∧ (s.release dir).table = exchange s.table s.dragIconIdx (dropCell s.cursorX s.cursorY)

/-- When dropping the dragged icon does what it should: a file that is dropped onto the recycle bin
is not protected, and the recycle bin is in the first cell; otherwise no file is dropped in the first
cell, unless this is where its icon is anyway and it may not or cannot be deleted. -/
structure BinInPlace : Prop where
  first : s.DragsFile ∧ s.OnRecycleBin → dropCell s.cursorX s.cursorY = (0, 0)
    ∧ isSystemItem (s.table.slot s.dragIconIdx).name = false
  elsewhere : ¬ (s.DragsFile ∧ s.OnRecycleBin) → dropCell s.cursorX s.cursorY = (0, 0) →
    s.dragIconIdx = 0 ∨ (s.table.slot s.dragIconIdx).cell = (0, 0)
      ∧ (isSystemItem (s.table.slot s.dragIconIdx).name = true ∨ s.table.count ≤ s.dragIconIdx)

end Desktop

/-! ### The exchange -/

theorem setCell_self (t : Table) (idx : Int) :
  t.setCell idx (t.slot idx).cell = t
  := by
  rw [Table.setCell]
  congr 1
  apply Function.update_eq_self

theorem exchange_eq_self_iff {t : Table} {idx : Int} {c : Cell} :
  Desktop.exchange t idx c = t ↔ (t.slot idx).cell = c
  := by
  constructor
  · intro h
    rw [← h, Table.slot, Desktop.exchange, setCell_cell, if_pos rfl]
  · rintro rfl
    rw [Desktop.exchange]
    cases hocc : t.cellOccupied (t.slot idx).cell idx with
    | none => apply setCell_self
    | some o =>
        have hsame : t.setCell o (t.slot idx).cell = t := by
          rw [← (cellOccupied_some hocc).2.2]
          exact setCell_self t o
        rw [Option.elim_some, hsame]
        apply setCell_self

/-! ### The recycle bin is item 0 -/

/-- Behind item 0 there are only files. -/
def Table.FilesBehind (t : Table) : Prop := ∀ i, 0 < i → (t.items i).isRecycleBin = false

/-- Item 0 is the recycle bin, and there is no other. -/
structure Table.BinFirst (t : Table) : Prop where
  pos : 0 < t.count
  bin : (t.items 0).isRecycleBin = true
  files : t.FilesBehind

theorem sync_binFirst (dir : Directory) {t : Table} (h : t.FilesBehind) :
  (syncDesktopItems dir t).2.BinFirst
  := by
  constructor
  case pos =>
    rw [sync_count]
    apply Nat.succ_pos
  case bin =>
    rw [sync_zero]
    rfl
  case files =>
    intro i hi
    obtain ⟨i, rfl⟩ := Nat.exists_eq_succ_of_ne_zero hi.ne'
    rw [sync_succ]
    cases (placed t.oldItems dir)[i]? with
    | none => exact h (i + 1) hi
    | some p => rfl

theorem setCell_isRecycleBin (t : Table) (idx : Int) (c : Cell) (i : ℕ) :
  ((t.setCell idx c).items i).isRecycleBin = (t.items i).isRecycleBin
  := congrArg (fun it => it.isRecycleBin) (setCell_content t idx c i)

theorem Table.BinFirst.setCell {t : Table} (h : t.BinFirst) (idx : Int) (c : Cell) :
  (t.setCell idx c).BinFirst
  := by
  constructor
  case pos => exact h.pos
  case bin =>
    rw [setCell_isRecycleBin]
    exact h.bin
  case files =>
    intro i hi
    rw [setCell_isRecycleBin]
    exact h.files i hi

theorem Table.BinFirst.exchange {t : Table} (h : t.BinFirst) (idx : Int) (c : Cell) :
  (Desktop.exchange t idx c).BinFirst
  := by
  rw [Desktop.exchange]
  cases t.cellOccupied c idx with
  | none => exact h.setCell idx c
  | some o => exact (h.setCell o _).setCell idx c

namespace Desktop

variable {s : Desktop}

theorem deleteItemToRecycle_binFirst (h : s.table.BinFirst) (idx : Int) (dir : Directory) :
  (s.deleteItemToRecycle idx dir).table.BinFirst
  := by
  rw [deleteItemToRecycle]
  split_ifs
  · exact h
  · exact h
  · apply sync_binFirst dir h.files

theorem drop_binFirst (h : s.table.BinFirst) (dir : Directory) :
  (s.drop dir).table.BinFirst
  := by
  simp only [drop]
  split_ifs
  · exact h
  · apply deleteItemToRecycle_binFirst h
  · exact h.exchange s.dragIconIdx (dropCell s.cursorX s.cursorY)

theorem syncIdle_binFirst (h : s.table.BinFirst) (dir : Directory) :
  (s.syncIdle dir).table.BinFirst
  := by
  rw [syncIdle]
  split
  · exact h
  · apply sync_binFirst dir h.files

/-- No event puts the recycle bin into another slot. -/
theorem step_binFirst (h : s.table.BinFirst) (e : Event) :
  (s.step e).table.BinFirst
  := by
  cases e with
  | tick dir => apply syncIdle_binFirst h
  | refresh dir => apply sync_binFirst dir h.files
  | move x y taken =>
      simp only [step]
      split
      · exact h
      · rw [drag_table]
        exact h
  | press right now dir =>
      have hidle := syncIdle_binFirst h dir
      simp only [step]
      split
      · exact hidle
      · rw [leftClick_table]
        exact hidle
  | release dir =>
      simp only [step, release]
      split
      · apply drop_binFirst h
      · exact h
  | delete dir =>
      simp only [step]
      split
      · apply deleteItemToRecycle_binFirst h
      · exact h
  | openDialog =>
      simp only [step]
      split
      · exact h
      · exact h

theorem BinFirst.of_exec (dir : Directory) {events : List Event}
    (h : Run.exec next (start dir) events = some s) :
  s.table.BinFirst
  := by
  have hstep (s : Desktop) (e : Event) (s' : Desktop) (hs : s.table.BinFirst) (_ : True)
      (hnext : next s e = some s') : s'.table.BinFirst := by
    cases hnext
    exact step_binFirst hs e
  have hstart : (start dir).table.BinFirst := sync_binFirst dir (fun _ _ => rfl)
  exact Run.exec_safe hstep hstart (Run.guarded_of_forall _ (fun _ _ _ => trivial)) h

/-! ### A drop -/

section

variable (h : s.table.BinFirst) (hdrag : s.isDraggingIcon = true) (hidx : 0 ≤ s.dragIconIdx)

include h hidx

/-- The dragged icon is the recycle bin exactly when it is the first one. -/
theorem slot_isRecycleBin :
  (s.table.slot s.dragIconIdx).isRecycleBin = true ↔ s.dragIconIdx = 0
  := by
  rw [Table.slot]
  constructor
  · intro hbin
    by_contra hne
    have hfile := h.files s.dragIconIdx.toNat (by omega)
    rw [hbin] at hfile
    cases hfile
  · intro heq
    rw [heq]
    exact h.bin

include hdrag

/-- A file that may be deleted is deleted in the first cell. -/
theorem releaseCalls_file (htarget : dropCell s.cursorX s.cursorY = (0, 0))
    (hfile : s.DragsFile) (hsystem : isSystemItem (s.table.slot s.dragIconIdx).name = false) :
  s.releaseCalls = [(s.table.slot s.dragIconIdx).toRecycle]
  := by
  have hbin : ¬ (s.table.slot s.dragIconIdx).isRecycleBin = true := by
    rw [slot_isRecycleBin h hidx]
    exact Int.ne_of_gt hfile.1
  have hvalid : ¬ (s.dragIconIdx ≤ 0 ∨ (s.table.count : Int) ≤ s.dragIconIdx) := by
    rw [DragsFile] at hfile
    omega
  rw [releaseCalls, if_pos ⟨hdrag, hidx⟩, dropCalls]
  simp [htarget, hbin, hsystem, deleteCalls, hvalid]

/-- Nothing else in the first cell moves or is deleted, the recycle bin apart. -/
theorem release_first (htarget : dropCell s.cursorX s.cursorY = (0, 0)) (hne : s.dragIconIdx ≠ 0)
    (hkept : isSystemItem (s.table.slot s.dragIconIdx).name = true
      ∨ s.table.count ≤ s.dragIconIdx) (dir : Directory) :
  s.releaseCalls = [] ∧ (s.release dir).table = s.table
  := by
  have hbin : ¬ (s.table.slot s.dragIconIdx).isRecycleBin = true := by
    rw [slot_isRecycleBin h hidx]
    exact hne
  have hinvalid : isSystemItem (s.table.slot s.dragIconIdx).name = false →
      s.dragIconIdx ≤ 0 ∨ (s.table.count : Int) ≤ s.dragIconIdx := by
    intro hsystem
    rw [hsystem] at hkept
    exact .inr (hkept.resolve_left Bool.noConfusion)
  simp only [releaseCalls, dropCalls, release, drop, deleteCalls, deleteItemToRecycle, htarget, hbin]
  cases hsystem : isSystemItem (s.table.slot s.dragIconIdx).name with
  | true => simp [hdrag, hidx]
  | false => simp [hdrag, hidx, hinvalid hsystem]

/-- Outside the first cell icons move, and so does the recycle bin everywhere. -/
theorem release_moves (hmoves : dropCell s.cursorX s.cursorY ≠ (0, 0) ∨ s.dragIconIdx = 0)
    (dir : Directory) :
  s.releaseCalls = []
    ∧ (s.release dir).table = exchange s.table s.dragIconIdx (dropCell s.cursorX s.cursorY)
  := by
  have hnot : ¬ (dropCell s.cursorX s.cursorY = (0, 0)
      ∧ (!(s.table.slot s.dragIconIdx).isRecycleBin) = true) := by
    rintro ⟨hfirst, hfile⟩
    rw [← slot_isRecycleBin h hidx] at hmoves
    rw [hmoves.resolve_left (not_not.mpr hfirst)] at hfile
    cases hfile
  constructor
  · rw [releaseCalls, if_pos ⟨hdrag, hidx⟩, dropCalls]
    apply if_neg hnot
  · simp only [release, if_pos (And.intro hdrag hidx), drop, if_neg hnot]
    rfl

/-- What the drop should do, it does exactly when the recycle bin is in its place. -/
theorem dropsRight_iff (dir : Directory) :
  s.DropsRight dir ↔ s.BinInPlace
  := by
  have hslot : exchange s.table s.dragIconIdx (0, 0) = s.table
      ↔ (s.table.slot s.dragIconIdx).cell = (0, 0) := exchange_eq_self_iff
  by_cases hmoves : dropCell s.cursorX s.cursorY ≠ (0, 0) ∨ s.dragIconIdx = 0
  · -- icons move, so no file may have been dropped onto the recycle bin
    obtain ⟨hcalls, htable⟩ := release_moves h hdrag hidx hmoves dir
    constructor
    · intro hright
      constructor
      · intro hbin
        have hcon := hright.recycles hbin
        rw [hcalls] at hcon
        cases hcon
      · intro _ hfirst
        exact .inl (hmoves.resolve_left (not_not.mpr hfirst))
    · intro hplace
      constructor
      · intro hbin
        have hzero := hmoves.resolve_left (not_not.mpr (hplace.first hbin).1)
        exact absurd hzero (Int.ne_of_gt hbin.1.1)
      · intro _
        exact ⟨hcalls, htable⟩
  rw [not_or, not_not] at hmoves
  obtain ⟨hfirst, hne⟩ := hmoves
  by_cases hkept : isSystemItem (s.table.slot s.dragIconIdx).name = true
      ∨ s.table.count ≤ s.dragIconIdx
  · -- nothing happens, so the icon must have been there already
    obtain ⟨hcalls, htable⟩ := release_first h hdrag hidx hfirst hne hkept dir
    constructor
    · intro hright
      constructor
      · intro hbin
        have hcon := hright.recycles hbin
        rw [hcalls] at hcon
        cases hcon
      · intro hnot _
        have hmoved := (hright.moves hnot).2
        rw [htable, hfirst] at hmoved
        exact .inr ⟨hslot.mp hmoved.symm, hkept⟩
    · intro hplace
      constructor
      · intro hbin
        have hsystem := (hplace.first hbin).2
        rw [hsystem] at hkept
        exact absurd (hkept.resolve_left Bool.noConfusion) (Int.not_le.mpr hbin.1.2)
      · intro hnot
        have hcell := ((hplace.elsewhere hnot hfirst).resolve_left hne).1
        rw [htable, hfirst]
        exact ⟨hcalls, (hslot.mpr hcell).symm⟩
  · -- the file is deleted, so this must be the cell of the recycle bin
    rw [not_or, Bool.not_eq_true] at hkept
    have hfile : s.DragsFile := by
      rw [DragsFile]
      omega
    have hcalls := releaseCalls_file h hdrag hidx hfirst hfile hkept.1
    constructor
    · intro hright
      constructor
      · intro _
        exact ⟨hfirst, hkept.1⟩
      · intro hnot _
        have hcon := (hright.moves hnot).1
        rw [hcalls] at hcon
        cases hcon
    · intro hplace
      constructor
      · intro _
        exact hcalls
      · intro hnot
        rcases (hplace.elsewhere hnot hfirst).resolve_left hne with ⟨-, hsystem | hcount⟩
        · rw [hkept.1] at hsystem
          cases hsystem
        · exact absurd hcount hkept.2

end

end Desktop

/-- In every state that the main loop reaches, dropping the dragged icon does what it should exactly
when the recycle bin is in its place. -/
theorem drops_right_iff
    (dir : Directory) (events : List Event) (s : Desktop)
    (h : Run.exec Desktop.next (.start dir) events = some s) (hdrag : s.isDraggingIcon = true)
    (hidx : 0 ≤ s.dragIconIdx) (dir' : Directory) :
  s.DropsRight dir' ↔ s.BinInPlace
  := Desktop.dropsRight_iff (Desktop.BinFirst.of_exec dir h) hdrag hidx dir'

/-- The file below the recycle bin is dragged onto it. -/
def dragEvents (dir : Directory) : List Event :=
  [.move 30 130 false, .press false 1000 dir, .move 30 30 false]

theorem drops_right_first :
  ∃ s, Run.exec Desktop.next (.start (some [letterFile 65])) (dragEvents (some [letterFile 65]))
      = some s
    ∧ s.DropsRight (some [])
  := by
  refine ⟨_, rfl, ?_⟩
  apply (drops_right_iff (some [letterFile 65]) (dragEvents (some [letterFile 65])) _ rfl (by decide)
    (by decide) (some [])).mpr
  constructor
  · intro
    decide
  · intro hnot
    exact absurd hnot (by decide)

/-- The recycle bin is dragged to another cell before. -/
def binEvents (dir : Directory) : List Event :=
  [.move 30 30 false, .press false 0 dir, .move 490 30 false, .release dir] ++ dragEvents dir

/-- A file that is dropped where the recycle bin has been is deleted. -/
theorem not_drops_right :
  ¬ ∀ dir events s, Run.exec Desktop.next (.start dir) events = some s →
    s.isDraggingIcon = true → 0 ≤ s.dragIconIdx → ∀ dir', s.DropsRight dir'
  := by
  intro h
  have hright := h (some [letterFile 65]) (binEvents (some [letterFile 65])) _ rfl (by decide)
    (by decide) (some [])
  exact absurd (hright.moves (by decide)).1 (by decide)

end Compositor
