import Woos.Lib.CString
import Woos.Lib.Placement

/-!
# The desktop icons of the compositor

The table of desktop items of `compositor.c`, and `sync_desktop_items`, which brings it up to date
with the directory `/DESKTOP`.  What the file system reports is a parameter: the entries that
`woos_vfs_readdir` returns one after the other, or that the directory cannot be opened.

The slots behind the last item keep what was written to them before.
-/

namespace Compositor

/-! ### Names -/

/-- A letter in upper case, as `strcasecmp_custom` computes it. -/
def upperCase (c : UInt8) : UInt8 := if 97 ≤ c ∧ c ≤ 122 then c - 32 else c

/-- `strcasecmp_custom`, on the bytes before the terminating zeros. -/
def strcasecmpCustom : List UInt8 → List UInt8 → Int
  | c₁ :: s₁, c₂ :: s₂ =>
    if upperCase c₁ ≠ upperCase c₂ then (upperCase c₁).toNat - (upperCase c₂).toNat
    else strcasecmpCustom s₁ s₂
  | s₁, s₂ => (upperCase (s₁.headD 0)).toNat - (upperCase (s₂.headD 0)).toNat

/-- `strcasecmp_custom` finds no difference. -/
def SameName (s₁ s₂ : CString) : Prop := strcasecmpCustom s₁.bytes s₂.bytes = 0

instance (s₁ s₂ : CString) : Decidable (SameName s₁ s₂) :=
  inferInstanceAs (Decidable (strcasecmpCustom s₁.bytes s₂.bytes = 0))

/-! ### Items and directory entries -/

/-- `woos_dirent_t`; the name has room for 24 bytes. -/
structure WoosDirent where
  name : CString
  isDir : Bool
  size : UInt32
  name_lt : name.bytes.length < 24
  deriving DecidableEq

/-- What the file system reports about `/DESKTOP`: the entries that `woos_vfs_readdir` returns, or
`none` when the directory cannot be opened, not even after `woos_vfs_mkdir`. -/
abbrev Directory := Option (List WoosDirent)

/-- A column and a row of the grid. -/
abbrev Cell := Int × Int

/-- `desktop_item_t` -/
structure DesktopItem where
  name : CString
  fullPath : CString
  isDir : Bool
  isRecycleBin : Bool
  size : UInt32
  col : Int
  row : Int

namespace DesktopItem

/-- The cell of an item. -/
def cell (it : DesktopItem) : Cell := (it.col, it.row)

/-- An item of static storage before it is written. -/
def zero : DesktopItem := ⟨.empty, .empty, false, false, 0, 0, 0⟩

end DesktopItem

/-- `g_items` and `g_item_count` -/
structure Table where
  items : Nat → DesktopItem
  count : Nat

/-- `GRID_COLS` -/
def gridCols : Nat := 14

/-- `GRID_ROWS` -/
def gridRows : Nat := 10

/-- `MAX_DESKTOP_ITEMS` -/
def maxDesktopItems : Nat := 64

/-- The range check of a column and a row. -/
def InGrid (c : Cell) : Prop := 0 ≤ c.1 ∧ c.1 < gridCols ∧ 0 ≤ c.2 ∧ c.2 < gridRows

instance (c : Cell) : Decidable (InGrid c) :=
  inferInstanceAs (Decidable (_ ∧ _ ∧ _ ∧ _))

/-- The cells in the order in which the cursor of the second pass goes through them. -/
def gridCells : List Cell :=
  (List.range gridCols).flatMap (fun (col : Nat) =>
    (List.range gridRows).map (fun (row : Nat) => ((col : Int), (row : Int))))

/-! ### The scan -/

/-- `scanned_entry_t`; the index is `none` where the code has −1. -/
structure ScannedEntry where
  name : CString
  isDir : Bool
  size : UInt32
  matchedOldIdx : Option Nat

/-- The entries `.` and `..` are skipped. -/
def isDotEntry (e : WoosDirent) : Bool := e.name.bytes = [46] ∨ e.name.bytes = [46, 46]

/-- The loop that looks for an old item of the name, from index 1 on. -/
def findOld (old : List DesktopItem) (name : CString) : Option Nat :=
  ((List.range' 1 (old.length - 1)).find? (fun j => old[j]?.any (fun it =>
    !it.isRecycleBin && decide (SameName it.name name))))

/-- A scanned entry. -/
def scannedEntry (old : List DesktopItem) (e : WoosDirent) : ScannedEntry where
  name := e.name.truncate 27
  isDir := e.isDir
  size := e.size
  matchedOldIdx := findOld old e.name

/-- The loop that reads the directory, with what has been scanned so far. -/
def scanLoop (old : List DesktopItem) :
    List WoosDirent → List ScannedEntry → List ScannedEntry
  | [], scanned => scanned
  | e :: es, scanned =>
    if scanned.length < maxDesktopItems - 1 then
      if isDotEntry e then scanLoop old es scanned
      else if scanned.any (fun s => decide (SameName s.name e.name)) then scanLoop old es scanned
      else scanLoop old es (scanned ++ [scannedEntry old e])
    else scanned

/-- What is scanned of a directory. -/
def scan (old : List DesktopItem) (dir : Directory) : List ScannedEntry :=
  scanLoop old (dir.getD []) []

/-! ### The new table -/

/-- `"Recycle Bin"` -/
def recycleBinName : CString :=
  .ofBytes [82, 101, 99, 121, 99, 108, 101, 32, 66, 105, 110]

/-- `"/RECYCLE"` -/
def recyclePath : CString := .ofBytes [47, 82, 69, 67, 89, 67, 76, 69]

/-- `"/DESKTOP/"` -/
def desktopDir : CString := .ofBytes [47, 68, 69, 83, 75, 84, 79, 80, 47]

/-- Item 0: it keeps its cell when it was the recycle bin and has one in the grid. -/
def recycleBin (old : List DesktopItem) : DesktopItem :=
  let c := (old[0]?.filter (fun it => it.isRecycleBin && decide (InGrid it.cell))).elim (0, 0)
    DesktopItem.cell
  ⟨recycleBinName, recyclePath, true, true, 0, c.1, c.2⟩

/-- The item of an entry in a cell. -/
def ScannedEntry.item (s : ScannedEntry) (c : Cell) : DesktopItem where
  name := s.name
  fullPath := desktopDir.append s.name
  isDir := s.isDir
  isRecycleBin := false
  size := s.size
  col := c.1
  row := c.2

/-- The cell in the grid that an entry had before. -/
def oldCell (old : List DesktopItem) (s : ScannedEntry) : Option Cell :=
  (s.matchedOldIdx.bind (fun j => old[j]?.map DesktopItem.cell)).filter (fun c => InGrid c)

/-- The items of the new table: the recycle bin, the entries that retain their cells (pass 1), and
the others in the first free cells (pass 2). -/
def newItems (old : List DesktopItem) (scanned : List ScannedEntry) : List DesktopItem :=
  recycleBin old
    :: (Placement.place (oldCell old) [(recycleBin old).cell] gridCells scanned).map
      (fun p => p.1.item p.2)

/-- The comparison of the name and the cell of a new item with those of the old one. -/
def differs (it old : DesktopItem) : Bool :=
  it.name ≠ old.name ∨ it.col ≠ old.col ∨ it.row ≠ old.row

/-- The items that are copied before the table is rebuilt. -/
def Table.oldItems (t : Table) : List DesktopItem :=
  (List.range (min t.count maxDesktopItems)).map t.items

/-- `sync_desktop_items`: whether the table has changed, and the new table. -/
def syncDesktopItems (dir : Directory) (t : Table) : Bool × Table :=
  let old := t.oldItems
  let new := newItems old (scan old dir)
  (new.length ≠ old.length ∨ (List.zipWith differs new old).any id,
    { items := fun i => new[i]?.getD (t.items i)
      count := new.length })

/-! ### Names up to case -/

theorem upperCase_eq_zero (c : UInt8) :
  upperCase c = 0 ↔ c = 0
  := by
  rw [upperCase]
  split
  case isTrue h =>
    rw [UInt8.le_iff_toNat_le, UInt8.le_iff_toNat_le] at h
    rw [← UInt8.toNat_inj, ← UInt8.toNat_inj, UInt8.toNat_sub_of_le]
    · have hlow : (97 : UInt8).toNat = 97 := rfl
      have hhigh : (122 : UInt8).toNat = 122 := rfl
      have hcase : (32 : UInt8).toNat = 32 := rfl
      have hzero : (0 : UInt8).toNat = 0 := rfl
      omega
    · rw [UInt8.le_iff_toNat_le]
      exact Nat.le_trans (by decide) h.1
  case isFalse => rfl

theorem strcasecmpCustom_eq_zero {s₁ s₂ : List UInt8} (h₁ : ∀ b ∈ s₁, b ≠ 0) (h₂ : ∀ b ∈ s₂, b ≠ 0) :
  strcasecmpCustom s₁ s₂ = 0 ↔ s₁.map upperCase = s₂.map upperCase
  := by
  induction s₁ generalizing s₂ with
  | nil =>
      cases s₂ with
      | nil => simp [strcasecmpCustom]
      | cons c₂ s₂ =>
          have hc : upperCase c₂ ≠ 0 := by
            rw [Ne, upperCase_eq_zero]
            apply h₂ c₂ (by simp)
          have hzero : upperCase 0 = 0 := rfl
          rw [Ne, ← UInt8.toNat_inj] at hc
          simp only [strcasecmpCustom, List.headD_nil, List.headD_cons, hzero]
          simpa using hc
  | cons c₁ s₁ ih =>
      cases s₂ with
      | nil =>
          have hc : upperCase c₁ ≠ 0 := by
            rw [Ne, upperCase_eq_zero]
            apply h₁ c₁ (by simp)
          have hzero : upperCase 0 = 0 := rfl
          rw [Ne, ← UInt8.toNat_inj] at hc
          simp only [strcasecmpCustom, List.headD_nil, List.headD_cons, hzero]
          simpa using hc
      | cons c₂ s₂ =>
          rw [strcasecmpCustom, List.map_cons, List.map_cons, List.cons.injEq]
          split
          case isTrue hne =>
            have hdiff : ((upperCase c₁).toNat : Int) - (upperCase c₂).toNat ≠ 0 := by
              rw [Ne, ← UInt8.toNat_inj] at hne
              omega
            simp [hdiff, hne]
          case isFalse heq =>
            rw [ih (fun b hb => h₁ b (by simp [hb])) (fun b hb => h₂ b (by simp [hb]))]
            simp [not_not.mp heq]

/-- The names agree up to case. -/
theorem sameName_iff {s₁ s₂ : CString} :
  SameName s₁ s₂ ↔ s₁.bytes.map upperCase = s₂.bytes.map upperCase
  := strcasecmpCustom_eq_zero s₁.ne_zero s₂.ne_zero

theorem SameName.refl (s : CString) :
  SameName s s
  := sameName_iff.mpr rfl

theorem SameName.symm {s₁ s₂ : CString} (h : SameName s₁ s₂) :
  SameName s₂ s₁
  := sameName_iff.mpr (sameName_iff.mp h).symm

theorem SameName.trans {s₁ s₂ s₃ : CString} (h : SameName s₁ s₂) (h' : SameName s₂ s₃) :
  SameName s₁ s₃
  := sameName_iff.mpr ((sameName_iff.mp h).trans (sameName_iff.mp h'))

/-! ### What is scanned -/

/-- The loop of the scan, on the entries alone. -/
def listLoop : List WoosDirent → List WoosDirent → List WoosDirent
  | [], listed => listed
  | e :: es, listed =>
    if listed.length < maxDesktopItems - 1 then
      if isDotEntry e then listLoop es listed
      else if listed.any (fun l => decide (SameName l.name e.name)) then listLoop es listed
      else listLoop es (listed ++ [e])
    else listed

/-- The entries of the directory that the table has room for. -/
def listed (dir : Directory) : List WoosDirent := listLoop (dir.getD []) []

@[simp]
theorem scannedEntry_name (old : List DesktopItem) (e : WoosDirent) :
  (scannedEntry old e).name = e.name
  := CString.truncate_of_length_le (by have := e.name_lt; omega)

theorem scanLoop_map (old : List DesktopItem) (es l : List WoosDirent) :
  scanLoop old es (l.map (scannedEntry old)) = (listLoop es l).map (scannedEntry old)
  := by
  induction es generalizing l with
  | nil => rfl
  | cons e es ih =>
      have hsnoc : l.map (scannedEntry old) ++ [scannedEntry old e]
          = (l ++ [e]).map (scannedEntry old) := by
        rw [List.map_append, List.map_singleton]
      rw [scanLoop, listLoop, List.length_map, List.any_map, hsnoc]
      simp only [Function.comp_def, scannedEntry_name]
      split_ifs
      · apply ih
      · apply ih
      · apply ih
      · rfl

theorem scan_eq (old : List DesktopItem) (dir : Directory) :
  scan old dir = (listed dir).map (scannedEntry old)
  := scanLoop_map old _ []

theorem length_listLoop_le (es : List WoosDirent) {l : List WoosDirent} (h : l.length ≤ 63) :
  (listLoop es l).length ≤ 63
  := by
  induction es generalizing l with
  | nil => exact h
  | cons e es ih =>
      rw [listLoop]
      split_ifs with hroom
      · apply ih h
      · apply ih h
      · apply ih
        rw [List.length_append]
        exact hroom
      · exact h

theorem length_listed_le (dir : Directory) :
  (listed dir).length ≤ 63
  := length_listLoop_le _ (Nat.zero_le _)

theorem listLoop_pairwise (es : List WoosDirent) {l : List WoosDirent}
    (h : l.Pairwise (fun a b => ¬ SameName a.name b.name)) :
  (listLoop es l).Pairwise (fun a b => ¬ SameName a.name b.name)
  := by
  induction es generalizing l with
  | nil => exact h
  | cons e es ih =>
      rw [listLoop]
      split_ifs with hroom hdot hdup
      · apply ih h
      · apply ih h
      · apply ih
        rw [List.pairwise_append]
        use h, List.pairwise_singleton _ _
        intro a ha b hb
        rw [List.mem_singleton.mp hb]
        simp only [List.any_eq_true, decide_eq_true_eq, not_exists, not_and] at hdup
        apply hdup a ha
      · exact h

/-- The names of the scanned entries are distinct up to case. -/
theorem listed_pairwise (dir : Directory) :
  (listed dir).Pairwise (fun a b => ¬ SameName a.name b.name)
  := listLoop_pairwise _ List.Pairwise.nil

theorem eq_of_sameName {dir : Directory} {a b : WoosDirent} (ha : a ∈ listed dir)
    (hb : b ∈ listed dir) (h : SameName a.name b.name) :
  a = b
  := by
  have hnodup : ((listed dir).map (fun e => e.name.bytes.map upperCase)).Nodup := by
    apply List.pairwise_map.mpr
    apply (listed_pairwise dir).imp
    intro a b hnot heq
    apply hnot (sameName_iff.mpr heq)
  apply List.inj_on_of_nodup_map hnodup ha hb (sameName_iff.mp h)

theorem nodup_listed (dir : Directory) :
  (listed dir).Nodup
  := by
  apply (listed_pairwise dir).imp
  rintro a b h rfl
  exact h (.refl _)

theorem mem_listLoop (es : List WoosDirent) {l : List WoosDirent} {e : WoosDirent} (h : e ∈ l) :
  e ∈ listLoop es l
  := by
  induction es generalizing l with
  | nil => exact h
  | cons e' es ih =>
      rw [listLoop]
      split_ifs
      · apply ih h
      · apply ih h
      · apply ih
        apply List.mem_append_left _ h
      · exact h

/-- Every entry of the directory is scanned, or the table is full. -/
theorem listLoop_complete {es : List WoosDirent} (l : List WoosDirent) {e : WoosDirent}
    (he : e ∈ es) (hdot : ¬ isDotEntry e) :
  (∃ e' ∈ listLoop es l, SameName e'.name e.name) ∨ 63 ≤ (listLoop es l).length
  := by
  induction es generalizing l with
  | nil => cases he
  | cons e' es ih =>
      rw [listLoop]
      rcases List.mem_cons.mp he with rfl | he
      · split_ifs with hroom hdup
        · left
          simp only [List.any_eq_true, decide_eq_true_eq] at hdup
          obtain ⟨e', he', hsame⟩ := hdup
          exact ⟨e', mem_listLoop es he', hsame⟩
        · left
          use e
          constructor
          · apply mem_listLoop
            simp
          · apply SameName.refl
        · right
          apply not_lt.mp hroom
      · split_ifs with hroom
        · apply ih l he
        · apply ih l he
        · apply ih _ he
        · right
          apply not_lt.mp hroom

theorem listed_complete {dir : Directory} {e : WoosDirent} (he : e ∈ dir.getD [])
    (hdot : ¬ isDotEntry e) :
  (∃ e' ∈ listed dir, SameName e'.name e.name) ∨ (listed dir).length = 63
  := by
  apply (listLoop_complete [] he hdot).imp_right
  intro hfull
  apply Nat.le_antisymm (length_listed_le dir) hfull

/-! ### The new table -/

/-- The item of a directory entry in a cell. -/
def direntItem (e : WoosDirent) (c : Cell) : DesktopItem :=
  ⟨e.name, desktopDir.append e.name, e.isDir, false, e.size, c.1, c.2⟩

/-- The cell in the grid that an entry of the directory had before. -/
def wanted (old : List DesktopItem) (e : WoosDirent) : Option Cell :=
  oldCell old (scannedEntry old e)

/-- The entries of the directory in the order of the new table, with their cells. -/
def placed (old : List DesktopItem) (dir : Directory) : List (WoosDirent × Cell) :=
  Placement.place (wanted old) [(recycleBin old).cell] gridCells (listed dir)

@[simp]
theorem direntItem_name (e : WoosDirent) (c : Cell) :
  (direntItem e c).name = e.name
  := rfl

@[simp]
theorem direntItem_cell (e : WoosDirent) (c : Cell) :
  (direntItem e c).cell = c
  := rfl

theorem newItems_scan (old : List DesktopItem) (dir : Directory) :
  newItems old (scan old dir)
    = recycleBin old :: (placed old dir).map (fun p => direntItem p.1 p.2)
  := by
  rw [newItems, scan_eq, Placement.place_map, List.map_map]
  congr 2
  funext p
  obtain ⟨e, c⟩ := p
  simp [ScannedEntry.item, direntItem]
  exact ⟨rfl, rfl⟩

theorem inGrid_of_mem {c : Cell} (h : c ∈ gridCells) :
  InGrid c
  := by
  obtain ⟨col, hcol, hc⟩ := List.mem_flatMap.mp h
  obtain ⟨row, hrow, rfl⟩ := List.mem_map.mp hc
  rw [List.mem_range] at hcol hrow
  simp only [InGrid]
  omega

theorem nodup_gridCells :
  gridCells.Nodup
  := by
  rw [gridCells, List.nodup_flatMap]
  constructor
  · intro col _
    apply List.nodup_range.map
    intro r₁ r₂ heq
    apply Int.ofNat.inj (Prod.mk.inj heq).2
  · apply List.nodup_range.imp
    intro c₁ c₂ hne
    apply List.disjoint_left.mpr
    intro c h₁ h₂
    obtain ⟨_, _, rfl⟩ := List.mem_map.mp h₁
    obtain ⟨_, _, heq⟩ := List.mem_map.mp h₂
    apply hne (Int.ofNat.inj (Prod.mk.inj heq).1).symm

theorem length_gridCells :
  gridCells.length = 140
  := by
  simp [gridCells, gridCols, gridRows]

theorem recycleBin_inGrid (old : List DesktopItem) :
  InGrid (recycleBin old).cell
  := by
  rw [recycleBin]
  cases hbin : old[0]?.filter (fun it => it.isRecycleBin && decide (InGrid it.cell)) with
  | none =>
      show InGrid (0, 0)
      decide
  | some it =>
      have h := (Option.filter_eq_some_iff.mp hbin).2
      simp only [Bool.and_eq_true, decide_eq_true_eq] at h
      exact h.2

theorem wanted_spec {old : List DesktopItem} {e : WoosDirent} {c : Cell} (h : wanted old e = some c) :
  InGrid c ∧ ∃ j it, 0 < j ∧ old[j]? = some it ∧ it.isRecycleBin = false ∧ SameName it.name e.name
    ∧ it.cell = c
  := by
  obtain ⟨hcell, hgrid⟩ := Option.filter_eq_some_iff.mp h
  obtain ⟨j, hj, hit⟩ := Option.bind_eq_some_iff.mp hcell
  obtain ⟨it, hget, hc⟩ := Option.map_eq_some_iff.mp hit
  have hmem := List.mem_of_find?_eq_some hj
  have hfound := List.find?_some hj
  rw [List.mem_range'_1] at hmem
  simp only [hget, Option.any_some, Bool.and_eq_true, Bool.not_eq_true', decide_eq_true_eq] at hfound
  exact ⟨by simpa using hgrid, j, it, hmem.1, hget, hfound.1, hfound.2, hc⟩

/-- An entry wants the cell of the old item of its name, when there is one such item. -/
theorem wanted_eq {old : List DesktopItem} {e : WoosDirent} {j : ℕ} {it : DesktopItem}
    (hj : 0 < j) (hget : old[j]? = some it) (hfile : it.isRecycleBin = false)
    (hname : SameName it.name e.name) (hgrid : InGrid it.cell)
    (honly : ∀ j' it', 0 < j' → old[j']? = some it' → SameName it'.name e.name → j' = j) :
  wanted old e = some it.cell
  := by
  obtain ⟨hlt, _⟩ := List.getElem?_eq_some_iff.mp hget
  have hsome : (findOld old e.name).isSome := by
    rw [findOld, List.find?_isSome]
    use j
    constructor
    · rw [List.mem_range'_1]
      omega
    · simp [hget, hfile, hname]
  obtain ⟨j', hj'⟩ := Option.isSome_iff_exists.mp hsome
  have hmem := List.mem_of_find?_eq_some hj'
  have hfound := List.find?_some hj'
  rw [List.mem_range'_1] at hmem
  cases hget' : old[j']? with
  | none => simp [hget'] at hfound
  | some it' =>
      simp only [hget', Option.any_some, Bool.and_eq_true, decide_eq_true_eq] at hfound
      have heq := honly j' it' hmem.1 hget' hfound.2
      subst heq
      have hcell : oldCell old (scannedEntry old e) = some it.cell := by
        have hmatch : (scannedEntry old e).matchedOldIdx = some j' := hj'
        rw [oldCell, hmatch, Option.bind_some, hget, Option.map_some]
        apply Option.filter_some_pos (by simpa using hgrid)
      exact hcell

theorem nodup_placed (old : List DesktopItem) (dir : Directory) :
  ((placed old dir).map Prod.snd ++ [(recycleBin old).cell]).Nodup
  := Placement.nodup_place _ _ (List.nodup_singleton _)

theorem placed_inGrid {old : List DesktopItem} {dir : Directory} {p : WoosDirent × Cell}
    (h : p ∈ placed old dir) :
  InGrid p.2
  := by
  rcases Placement.mem_place h with hwant | hmem
  · apply (wanted_spec hwant).1
  · apply inGrid_of_mem hmem

theorem map_fst_placed (old : List DesktopItem) (dir : Directory) :
  (placed old dir).map Prod.fst
    = Placement.order (Placement.settle (wanted old) [(recycleBin old).cell] (listed dir))
  := by
  apply Placement.map_fst_place nodup_gridCells
  have := length_listed_le dir
  rw [length_gridCells, List.length_singleton]
  omega

theorem placed_perm (old : List DesktopItem) (dir : Directory) :
  ((placed old dir).map Prod.fst).Perm (listed dir)
  := by
  rw [map_fst_placed]
  simpa using Placement.order_perm
    (Placement.settle (wanted old) [(recycleBin old).cell] (listed dir))

theorem length_placed (old : List DesktopItem) (dir : Directory) :
  (placed old dir).length = (listed dir).length
  := by
  rw [← (placed_perm old dir).length_eq, List.length_map]

/-! ### Synchronisation -/

section

variable (dir : Directory) (t : Table)

@[simp]
theorem sync_count :
  (syncDesktopItems dir t).2.count = (listed dir).length + 1
  := by
  rw [syncDesktopItems, newItems_scan]
  simp [length_placed]

@[simp]
theorem sync_zero :
  (syncDesktopItems dir t).2.items 0 = recycleBin t.oldItems
  := by
  rw [syncDesktopItems, newItems_scan]
  rfl

theorem sync_succ (i : ℕ) :
  (syncDesktopItems dir t).2.items (i + 1)
    = ((placed t.oldItems dir)[i]?.map (fun p => direntItem p.1 p.2)).getD (t.items (i + 1))
  := by
  rw [syncDesktopItems, newItems_scan]
  simp

end

theorem Table.getElem?_oldItems (t : Table) (j : ℕ) :
  t.oldItems[j]? = if j < min t.count maxDesktopItems then some (t.items j) else none
  := by
  rw [oldItems, List.getElem?_map]
  split
  case isTrue h => rw [List.getElem?_range h, Option.map_some]
  case isFalse h =>
    rw [List.getElem?_eq_none (by rw [List.length_range]; exact not_lt.mp h), Option.map_none]

end Compositor
