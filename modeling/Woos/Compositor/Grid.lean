import Woos.Compositor.Desktop
import Woos.Lib.Run

/-!
# The grid of the desktop icons

The icons lie in distinct cells of the grid (`Table.Arranged`).  A synchronisation arranges every
table whose slots are in the grid, and keeps the cells of an arranged one (`Synced`).  Dropping an
icon moves it, or exchanges it with the icon that is there.

The dragged icon is known by its index.  Where the table has become shorter since the button was
pressed, the slot that is dragged is behind the last item; its cell may belong to another icon by
then, and an exchange hands it out a second time (`Desktop.Misplaces`).
-/

namespace Compositor

/-! ### Arranged tables -/

/-- What an item says apart from its cell. -/
def DesktopItem.content (it : DesktopItem) : DesktopItem := { it with col := 0, row := 0 }

/-- Item 0 is the recycle bin, and every item is in a cell of its own, in the grid. -/
structure Table.Arranged (t : Table) : Prop where
  pos : 0 < t.count
  count_le : t.count ≤ maxDesktopItems
  recycleBin : (t.items 0).content = ⟨recycleBinName, recyclePath, true, true, 0, 0, 0⟩
  inGrid : ∀ i < t.count, InGrid (t.items i).cell
  distinct : ∀ i j, i < t.count → j < t.count → (t.items i).cell = (t.items j).cell → i = j

/-- What a synchronisation of a table with a directory promises about the new table. -/
structure Synced (dir : Directory) (t t' : Table) : Prop where
  /-- the entries that fit the table are in it exactly once -/
  once : ∀ e ∈ listed dir, ∃! i, 0 < i ∧ i < t'.count ∧ SameName (t'.items i).name e.name
  /-- and these are all entries, unless the table is full -/
  all : ∀ e ∈ dir.getD [], ¬ isDotEntry e →
    (∃! i, 0 < i ∧ i < t'.count ∧ SameName (t'.items i).name e.name) ∨ t'.count = maxDesktopItems
  /-- nothing else is in the table -/
  only : ∀ i, 0 < i → i < t'.count → ∃ e ∈ listed dir, (t'.items i).name = e.name
  /-- an item that is still there keeps its cell -/
  kept : ∀ i, 0 < i → i < t.count → ∀ e ∈ listed dir, SameName (t.items i).name e.name →
    ∃ j, 0 < j ∧ j < t'.count ∧ (t'.items j).name = e.name ∧ (t'.items j).cell = (t.items i).cell
  /-- and so does the recycle bin -/
  bin : 0 < t.count → (t'.items 0).cell = (t.items 0).cell

/-- An arranged table whose items are distinct files; the slots behind the items are in the grid as
well. -/
structure Table.Sound (t : Table) : Prop extends t.Arranged where
  file : ∀ i, 0 < i → i < t.count → (t.items i).isRecycleBin = false
  names : ∀ i j, 0 < i → i < t.count → 0 < j → j < t.count →
    SameName (t.items i).name (t.items j).name → i = j
  slots : ∀ i, InGrid (t.items i).cell

/-! ### Synchronisation -/

section

variable {dir : Directory} {t : Table} {i j : ℕ}

/-- The items behind the recycle bin are the entries that have been placed. -/
theorem sync_file (dir : Directory) (t : Table) (h : i < (listed dir).length) :
  ∃ p, (placed t.oldItems dir)[i]? = some p
    ∧ (syncDesktopItems dir t).2.items (i + 1) = direntItem p.1 p.2
  := by
  have hlt : i < (placed t.oldItems dir).length := by
    rw [length_placed]
    exact h
  use (placed t.oldItems dir)[i], List.getElem?_eq_getElem hlt
  rw [sync_succ, List.getElem?_eq_getElem hlt]
  rfl

theorem mem_listed_of_placed {old : List DesktopItem} {p : WoosDirent × Cell}
    (h : p ∈ placed old dir) :
  p.1 ∈ listed dir
  := (placed_perm old dir).mem_iff.mp (List.mem_map_of_mem h)

theorem placed_inj {old : List DesktopItem} {p q : WoosDirent × Cell}
    (hi : (placed old dir)[i]? = some p) (hj : (placed old dir)[j]? = some q)
    (hname : SameName p.1.name q.1.name) :
  i = j
  := by
  have hnodup := (placed_perm old dir).nodup_iff.mpr (nodup_listed dir)
  have heq : p.1 = q.1 := eq_of_sameName (mem_listed_of_placed (List.mem_of_getElem? hi))
    (mem_listed_of_placed (List.mem_of_getElem? hj)) hname
  have hlt : i < ((placed old dir).map Prod.fst).length := by
    rw [List.length_map]
    apply (List.getElem?_eq_some_iff.mp hi).1
  apply (List.getElem?_inj hlt hnodup).mp
  rw [List.getElem?_map, List.getElem?_map, hi, hj, Option.map_some, Option.map_some, heq]

/-- The cells of the items are those that have been given out, and that of the recycle bin. -/
theorem sync_cell (dir : Directory) (t : Table) (h : i < (syncDesktopItems dir t).2.count) :
  ((recycleBin t.oldItems).cell :: (placed t.oldItems dir).map Prod.snd)[i]?
    = some ((syncDesktopItems dir t).2.items i).cell
  := by
  cases i with
  | zero => rw [sync_zero, List.getElem?_cons_zero]
  | succ i =>
      rw [sync_count] at h
      obtain ⟨p, hp, hitem⟩ := sync_file dir t (Nat.lt_of_succ_lt_succ h)
      rw [hitem, List.getElem?_cons_succ, List.getElem?_map, hp]
      rfl

theorem sync_sound (dir : Directory) (h : ∀ i, InGrid (t.items i).cell) :
  (syncDesktopItems dir t).2.Sound
  := by
  have hfile (i : ℕ) (h0 : 0 < i) (hi : i < (syncDesktopItems dir t).2.count) :
      ∃ p, (placed t.oldItems dir)[i - 1]? = some p
        ∧ (syncDesktopItems dir t).2.items i = direntItem p.1 p.2 := by
    rw [sync_count] at hi
    obtain ⟨p, hp, hitem⟩ := sync_file dir t (i := i - 1) (by omega)
    rw [Nat.sub_add_cancel h0] at hitem
    exact ⟨p, hp, hitem⟩
  have hslots (i : ℕ) : InGrid ((syncDesktopItems dir t).2.items i).cell := by
    cases i with
    | zero =>
        rw [sync_zero]
        apply recycleBin_inGrid
    | succ i =>
        rw [sync_succ]
        cases hp : (placed t.oldItems dir)[i]? with
        | none => apply h
        | some p => apply placed_inGrid (List.mem_of_getElem? hp)
  refine ⟨⟨?pos, ?count_le, ?recycleBin, ?inGrid, ?distinct⟩, ?file, ?names, hslots⟩
  case pos =>
    rw [sync_count]
    apply Nat.succ_pos
  case count_le =>
    have := length_listed_le dir
    rw [sync_count, maxDesktopItems]
    omega
  case recycleBin =>
    rw [sync_zero]
    rfl
  case file =>
    intro i h0 hi
    obtain ⟨p, _, hitem⟩ := hfile i h0 hi
    rw [hitem]
    rfl
  case names =>
    intro i j hi0 hi hj0 hj hname
    obtain ⟨p, hp, hitem⟩ := hfile i hi0 hi
    obtain ⟨q, hq, hitem'⟩ := hfile j hj0 hj
    rw [hitem, hitem'] at hname
    have := placed_inj hp hq hname
    omega
  case inGrid =>
    intro i _
    apply hslots
  case distinct =>
    intro i j hi hj heq
    have hnodup : ((recycleBin t.oldItems).cell :: (placed t.oldItems dir).map Prod.snd).Nodup :=
      (List.perm_append_singleton _ _).nodup_iff.mp (nodup_placed t.oldItems dir)
    have hget := sync_cell dir t hi
    apply (List.getElem?_inj (List.getElem?_eq_some_iff.mp hget).1 hnodup).mp
    rw [hget, sync_cell dir t hj, heq]

/-- The recycle bin keeps its cell. -/
theorem Table.Sound.recycleBin_cell (h : t.Sound) :
  (Compositor.recycleBin t.oldItems).cell = (t.items 0).cell
  := by
  have hget : t.oldItems[0]? = some (t.items 0) := by
    rw [getElem?_oldItems, if_pos (Nat.lt_min.mpr ⟨h.pos, by decide⟩)]
  have hbin : (t.items 0).isRecycleBin = true := congrArg DesktopItem.isRecycleBin h.recycleBin
  have hkeep : (t.oldItems[0]?.filter (fun it => it.isRecycleBin && decide (InGrid it.cell)))
      = some (t.items 0) := by
    rw [hget]
    apply Option.filter_some_pos
    simp [hbin, h.slots 0]
  rw [Compositor.recycleBin, hkeep]
  rfl

theorem Table.of_oldItems {it : DesktopItem} (hget : t.oldItems[j]? = some it) :
  j < t.count ∧ t.items j = it
  := by
  rw [Table.getElem?_oldItems] at hget
  split at hget
  case isTrue hj =>
    cases hget
    exact ⟨(Nat.lt_min.mp hj).1, rfl⟩
  case isFalse => cases hget

/-- The entry of an item is placed where the item is. -/
theorem Table.Sound.mem_placed (h : t.Sound) (h0 : 0 < i) (hi : i < t.count) {e : WoosDirent}
    (he : e ∈ listed dir) (hname : SameName (t.items i).name e.name) :
  (e, (t.items i).cell) ∈ placed t.oldItems dir
  := by
  apply Placement.mem_place_of_only
  · exact he
  · apply wanted_eq h0 _ (h.file i h0 hi) hname (h.slots i)
    · intro j it hj hget hname'
      obtain ⟨hlt, rfl⟩ := Table.of_oldItems hget
      apply h.names j i hj hlt h0 hi
      apply hname'.trans hname.symm
    · have := h.count_le
      rw [Table.getElem?_oldItems, if_pos (Nat.lt_min.mpr ⟨hi, by omega⟩)]
  · rw [List.mem_singleton, h.recycleBin_cell]
    intro heq
    have := h.distinct i 0 hi h.pos heq
    omega
  · intro b hb hwant
    obtain ⟨_, j, it, hj, hget, _, hname', hcell⟩ := wanted_spec hwant
    obtain ⟨hlt, rfl⟩ := Table.of_oldItems hget
    have := h.distinct j i hlt hi hcell
    subst this
    apply eq_of_sameName hb he
    apply hname'.symm.trans hname

/-- An entry that has been placed is an item of the new table. -/
theorem sync_of_mem_placed {e : WoosDirent} {c : Cell} (h : (e, c) ∈ placed t.oldItems dir) :
  ∃ i, 0 < i ∧ i < (syncDesktopItems dir t).2.count
    ∧ (syncDesktopItems dir t).2.items i = direntItem e c
  := by
  obtain ⟨i, hget⟩ := List.mem_iff_getElem?.mp h
  have hlt : i < (listed dir).length := by
    rw [← length_placed t.oldItems]
    apply (List.getElem?_eq_some_iff.mp hget).1
  obtain ⟨p, hp, hitem⟩ := sync_file dir t hlt
  rw [hget] at hp
  cases hp
  use i + 1
  rw [sync_count]
  exact ⟨Nat.succ_pos i, by omega, hitem⟩

theorem sync_once (hgrid : ∀ i, InGrid (t.items i).cell) {e : WoosDirent} (he : e ∈ listed dir) :
  ∃! i, 0 < i ∧ i < (syncDesktopItems dir t).2.count
    ∧ SameName ((syncDesktopItems dir t).2.items i).name e.name
  := by
  obtain ⟨⟨_, c⟩, hmem, rfl⟩ := List.mem_map.mp ((placed_perm t.oldItems dir).mem_iff.mpr he)
  obtain ⟨i, h0, hi, hitem⟩ := sync_of_mem_placed hmem
  use i
  constructor
  · use h0, hi
    rw [hitem]
    apply SameName.refl
  · rintro j ⟨hj0, hj, hname⟩
    apply (sync_sound dir hgrid).names j i hj0 hj h0 hi
    rw [hitem]
    exact hname

/-- A synchronisation of an arranged table, or of an empty one. -/
theorem Table.synced (hgrid : ∀ i, InGrid (t.items i).cell) (h : 0 < t.count → t.Sound)
    (dir : Directory) :
  Synced dir t (syncDesktopItems dir t).2
  := by
  constructor
  case once =>
    intro e he
    apply sync_once hgrid he
  case all =>
    intro e he hdot
    rcases listed_complete he hdot with ⟨e', he', hname⟩ | hfull
    · left
      obtain ⟨i, ⟨h0, hi, hsame⟩, honly⟩ := sync_once hgrid he'
      use i, ⟨h0, hi, hsame.trans hname⟩
      rintro j ⟨hj0, hj, hsame'⟩
      apply honly j ⟨hj0, hj, hsame'.trans hname.symm⟩
    · right
      rw [sync_count, hfull]
      rfl
  case only =>
    intro i h0 hi
    rw [sync_count] at hi
    obtain ⟨p, hp, hitem⟩ := sync_file dir t (i := i - 1) (by omega)
    rw [Nat.sub_add_cancel h0] at hitem
    use p.1, mem_listed_of_placed (List.mem_of_getElem? hp)
    rw [hitem]
    rfl
  case kept =>
    intro i h0 hi e he hname
    obtain ⟨j, hj0, hj, hitem⟩ := sync_of_mem_placed
      ((h (Nat.zero_lt_of_lt hi)).mem_placed h0 hi he hname)
    use j, hj0, hj
    rw [hitem]
    exact ⟨rfl, rfl⟩
  case bin =>
    intro hpos
    rw [sync_zero, (h hpos).recycleBin_cell]

end

/-! ### Dropping an icon -/

section

variable {t : Table}

theorem dropCell_inGrid (x y : Int) :
  InGrid (dropCell x y)
  := by
  simp only [dropCell, InGrid, gridCols, gridRows]
  omega

@[simp]
theorem setCell_count (t : Table) (idx : Int) (c : Cell) :
  (t.setCell idx c).count = t.count
  := rfl

theorem setCell_items (t : Table) (idx : Int) (c : Cell) (i : ℕ) :
  (t.setCell idx c).items i
    = if i = idx.toNat then { t.slot idx with col := c.1, row := c.2 } else t.items i
  := Function.update_apply _ _ _ _

@[simp]
theorem setCell_content (t : Table) (idx : Int) (c : Cell) (i : ℕ) :
  ((t.setCell idx c).items i).content = (t.items i).content
  := by
  rw [setCell_items]
  split
  case isTrue h => rw [h]; rfl
  case isFalse => rfl

theorem setCell_cell (t : Table) (idx : Int) (c : Cell) (i : ℕ) :
  ((t.setCell idx c).items i).cell = if i = idx.toNat then c else (t.items i).cell
  := by
  rw [setCell_items]
  split
  case isTrue => rfl
  case isFalse => rfl

/-- A table with the same items in other cells. -/
theorem Table.Sound.rearrange (h : t.Sound) {t' : Table} (hcount : t'.count = t.count)
    (hcontent : ∀ i, (t'.items i).content = (t.items i).content)
    (hgrid : ∀ i, InGrid (t'.items i).cell)
    (hdistinct : ∀ i j, i < t.count → j < t.count → (t'.items i).cell = (t'.items j).cell → i = j) :
  t'.Sound
  := by
  have hname (i : ℕ) : (t'.items i).name = (t.items i).name :=
    congrArg (fun it => it.name) (hcontent i)
  have hbin (i : ℕ) : (t'.items i).isRecycleBin = (t.items i).isRecycleBin :=
    congrArg (fun it => it.isRecycleBin) (hcontent i)
  refine ⟨⟨?pos, ?count_le, ?recycleBin, ?inGrid, ?distinct⟩, ?file, ?names, hgrid⟩
  case pos =>
    rw [hcount]
    exact h.pos
  case count_le =>
    rw [hcount]
    exact h.count_le
  case recycleBin =>
    rw [hcontent]
    exact h.recycleBin
  case file =>
    intro i h0 hi
    rw [hcount] at hi
    rw [hbin]
    exact h.file i h0 hi
  case names =>
    intro i j hi0 hi hj0 hj hsame
    rw [hcount] at hi hj
    rw [hname, hname] at hsame
    exact h.names i j hi0 hi hj0 hj hsame
  case inGrid =>
    intro i _
    apply hgrid
  case distinct =>
    rw [hcount]
    exact hdistinct

theorem cellOccupied_none {c : Cell} {idx : Int} (h : t.cellOccupied c idx = none) {i : ℕ}
    (hi : i < t.count) (hne : (i : Int) ≠ idx) :
  (t.items i).cell ≠ c
  := by
  rw [Table.cellOccupied, List.find?_eq_none] at h
  have := h i (List.mem_range.mpr hi)
  simpa [hne] using this

theorem cellOccupied_some {c : Cell} {idx : Int} {o : ℕ} (h : t.cellOccupied c idx = some o) :
  o < t.count ∧ (o : Int) ≠ idx ∧ (t.items o).cell = c
  := by
  have hmem := List.mem_of_find?_eq_some h
  have hfound := List.find?_some h
  use List.mem_range.mp hmem
  simpa using hfound

/-- Cells remain distinct when `k` is moved to the cell `c` of `o` and `o` to the cell of `k`, unless
`k` is none of them and its cell belongs to a third one. -/
theorem exchange_distinct {f : ℕ → Cell} {n k o : ℕ} {c : Cell}
    (hf : ∀ i j, i < n → j < n → f i = f j → i = j) (ho : o < n) (hne : o ≠ k) (hoc : f o = c)
    (hthird : n ≤ k → ∀ j < n, f j = f k → j = o) {i j : ℕ} (hi : i < n) (hj : j < n)
    (heq : (if i = k then c else if i = o then f k else f i)
      = if j = k then c else if j = o then f k else f j) :
  i = j
  := by
  have hij := hf i j hi hj
  have hio := hf i o hi ho
  have hjo := hf j o hj ho
  rcases Nat.lt_or_ge k n with hk | hk
  · have hik := hf i k hi hk
    have hjk := hf j k hj hk
    have hok := hf o k ho hk
    grind
  · have hi' := hthird hk i hi
    have hj' := hthird hk j hj
    grind

end

/-- The slot that is dragged is behind the last item, its cell belongs to an icon, and it is dropped
on another one: that one is given the cell a second time. -/
def Desktop.Misplaces (s : Desktop) : Prop :=
  s.isDraggingIcon ∧ (s.table.count : Int) ≤ s.dragIconIdx
    ∧ ¬ (dropCell s.cursorX s.cursorY = (0, 0) ∧ !(s.table.slot s.dragIconIdx).isRecycleBin)
    ∧ ∃ i < s.table.count, ∃ j < s.table.count, i ≠ j
      ∧ (s.table.items i).cell = dropCell s.cursorX s.cursorY
      ∧ (s.table.items j).cell = (s.table.slot s.dragIconIdx).cell

/-- No release of the button gives a cell out twice. -/
def Event.Places (s : Desktop) : Event → Prop
  | .release _ => ¬ s.Misplaces
  | _ => True

namespace Desktop

variable {s : Desktop}

theorem sync_table_sound (h : s.table.Sound) (dir : Directory) :
  (s.sync dir).table.Sound
  := sync_sound dir h.slots

theorem syncIdle_sound (h : s.table.Sound) (dir : Directory) :
  (s.syncIdle dir).table.Sound
  := by
  rw [syncIdle]
  split
  · exact h
  · apply sync_table_sound h

theorem deleteItemToRecycle_sound (h : s.table.Sound) (idx : Int) (dir : Directory) :
  (s.deleteItemToRecycle idx dir).table.Sound
  := by
  rw [deleteItemToRecycle]
  split_ifs
  · exact h
  · exact h
  · apply sync_table_sound h

/-- An icon that is dropped moves, or changes places with the one that is there. -/
theorem drop_sound (h : s.table.Sound) (hdrag : s.isDraggingIcon) (hidx : 0 ≤ s.dragIconIdx)
    (hplaces : ¬ s.Misplaces) (dir : Directory) :
  (s.drop dir).table.Sound
  := by
  have hcell := dropCell_inGrid s.cursorX s.cursorY
  simp only [drop]
  split_ifs with hbin hsys
  · exact h
  · apply deleteItemToRecycle_sound h
  · cases hocc : s.table.cellOccupied (dropCell s.cursorX s.cursorY) s.dragIconIdx with
    | none =>
        apply h.rearrange
        · rfl
        · intro i
          simp
        · intro i
          simp only [Option.elim_none, setCell_cell]
          split
          · exact hcell
          · apply h.slots
        · intro i j hi hj
          have hi' := cellOccupied_none hocc hi
          have hj' := cellOccupied_none hocc hj
          have hij := h.distinct i j hi hj
          simp only [Option.elim_none, setCell_cell]
          split_ifs
          · omega
          · intro heq
            exact absurd heq.symm (hj' (by omega))
          · intro heq
            exact absurd heq (hi' (by omega))
          · exact hij
    | some o =>
        obtain ⟨ho, hne, hoc⟩ := cellOccupied_some hocc
        apply h.rearrange
        · rfl
        · intro i
          simp
        · intro i
          simp only [Option.elim_some, setCell_cell]
          split_ifs
          · exact hcell
          · apply h.slots
          · apply h.slots
        · intro i j hi hj
          simp only [Option.elim_some, setCell_cell, Int.toNat_natCast]
          -- behind the table, only the icon in the drop cell may be where the slot was
          have hthird : s.table.count ≤ s.dragIconIdx.toNat → ∀ j < s.table.count,
              (s.table.items j).cell = (s.table.items s.dragIconIdx.toNat).cell → j = o := by
            intro hk j hj heq
            by_contra hjo
            apply hplaces
            exact ⟨hdrag, by omega, hbin, o, ho, j, hj, fun heq => hjo heq.symm, hoc, heq⟩
          apply exchange_distinct h.distinct ho (by omega) hoc hthird hi hj

theorem drag_table (s : Desktop) :
  s.drag.table = s.table
  := by
  rw [drag]
  split_ifs
  · rfl
  · rfl
  · rfl

theorem leftClick_table (s : Desktop) (idx : Int) (now : UInt32) :
  (s.leftClick idx now).table = s.table
  := by
  rw [leftClick]
  split_ifs
  · rfl
  · rfl
  · rfl

theorem release_sound (h : s.table.Sound) (hplaces : ¬ s.Misplaces) (dir : Directory) :
  (s.release dir).table.Sound
  := by
  simp only [release]
  split
  case isTrue hdrag => apply drop_sound h hdrag.1 hdrag.2 hplaces
  case isFalse => exact h

/-- What one event does to the table. -/
theorem step_sound (h : s.table.Sound) {e : Event} (hplaces : e.Places s) :
  (s.step e).table.Sound
  := by
  cases e with
  | tick dir => apply syncIdle_sound h
  | refresh dir => apply sync_table_sound h
  | move x y taken =>
      simp only [step]
      split
      · exact h
      · rw [drag_table]
        exact h
  | press right now dir =>
      have hidle := syncIdle_sound h dir
      simp only [step]
      split
      · exact hidle
      · rw [leftClick_table]
        exact hidle
  | release dir => apply release_sound h hplaces
  | delete dir =>
      simp only [step]
      split
      · apply deleteItemToRecycle_sound h
      · exact h
  | openDialog =>
      simp only [step]
      split
      · exact h
      · exact h

theorem init_inGrid (i : ℕ) :
  InGrid (init.table.items i).cell
  := by
  show InGrid (0, 0)
  decide

theorem start_sound (dir : Directory) :
  (start dir).table.Sound
  := sync_sound dir init_inGrid

/-- The main loop, event by event. -/
def next (s : Desktop) (e : Event) : Option Desktop := some (s.step e)

end Desktop

/-- In every run of the main loop that does not misplace an icon, every item is in a cell of its own
in the grid, the recycle bin is the first one, and every synchronisation does what it should. -/
theorem icons_arranged (dir : Directory) (events : List Event)
    (h : Run.Guarded Desktop.next (fun s e => e.Places s) (.start dir) events) :
  Synced dir Desktop.init.table (Desktop.start dir).table
    ∧ ∃ s, Run.exec Desktop.next (.start dir) events = some s ∧ s.table.Arranged
      ∧ ∀ dir', Synced dir' s.table (syncDesktopItems dir' s.table).2
  := by
  constructor
  · apply Table.synced Desktop.init_inGrid
    intro hpos
    cases hpos
  · have hstep (s : Desktop) (e : Event) (hs : s.table.Sound) (he : e.Places s) :
        ∃ s', Desktop.next s e = some s' ∧ s'.table.Sound :=
      ⟨s.step e, rfl, Desktop.step_sound hs he⟩
    obtain ⟨s, hexec, hsound⟩ := Run.exec_invariant hstep (Desktop.start_sound dir) h
    use s, hexec, hsound.toArranged
    intro dir'
    apply Table.synced hsound.slots fun _ => hsound

/-- An empty file whose name is one letter. -/
def letterFile (c : UInt8) : WoosDirent where
  name := (CString.ofBytes [c]).truncate 23
  isDir := false
  size := 0
  name_lt := by
    rw [CString.bytes_truncate, List.length_take]
    omega

/-- The file `C` is dragged onto the file `B`, which is above it. -/
def exchangeEvents (dir : Directory) : List Event :=
  [.move 30 310 false, .press false 1000 dir, .move 30 208 false, .release dir]

theorem icons_arranged_exchange :
  ∃ s, Run.exec Desktop.next (.start (some [letterFile 65, letterFile 66, letterFile 67]))
      (exchangeEvents (some [letterFile 65, letterFile 66, letterFile 67])) = some s
    ∧ s.table.Arranged ∧ (s.table.items 3).cell = (0, 2) ∧ (s.table.items 2).cell = (0, 3)
  := by
  have hguard : Run.Guarded Desktop.next (fun s e => e.Places s)
      (.start (some [letterFile 65, letterFile 66, letterFile 67]))
      (exchangeEvents (some [letterFile 65, letterFile 66, letterFile 67])) := by
    apply Run.guarded_cons trivial rfl
    apply Run.guarded_cons trivial rfl
    apply Run.guarded_cons trivial rfl
    apply Run.guarded_cons _ rfl
    · trivial
    · intro hmisplaces
      exact absurd hmisplaces.2.1 (by decide)
  obtain ⟨s, hexec, harranged, _⟩ := (icons_arranged _ _ hguard).2
  use s, hexec, harranged
  cases hexec
  decide

/-- The button is pressed on `C`; then the file `A` is deleted by another program, and `C` is dropped
on `B`: it is not `C` that moves, and `B` is put into the cell of `C`. -/
def lateEvents (before after : Directory) : List Event :=
  [.move 30 310 false, .press false 1000 before, .tick after, .move 30 208 false, .release after]

theorem not_icons_arranged_late :
  ¬ ∀ dir events s, Run.exec Desktop.next (.start dir) events = some s →
    s.table.Arranged ∧ ∀ dir', Synced dir' s.table (syncDesktopItems dir' s.table).2
  := by
  intro h
  have harranged := (h (some [letterFile 65, letterFile 66, letterFile 67])
    (lateEvents (some [letterFile 65, letterFile 66, letterFile 67])
      (some [letterFile 66, letterFile 67])) _ rfl).1
  have := harranged.distinct 1 2 (by decide) (by decide) (by decide)
  contradiction

end Compositor
