import Mathlib.Tactic.IntervalCases
import Woos.Compositor.Grid

/-!
# Indices of desktop items over synchronisations

A synchronisation puts the items that keep their cells first, and the others behind them
(`Keeps`).  So a second one with the same directory changes the table unless the directory lists
all items that keep their cells before the others (`sync_sync_iff`): then the items are in the
order of the directory already.

The selected icon, the item of the context menu and that of the dialog are kept as indices.  After
a synchronisation an index denotes what was put there; `Stays` says when that is the file that
it denoted before.
-/

namespace Compositor

section

variable (t : Table) (dir : Directory)

/-- Entry `k` of the directory keeps the cell that it had: the recycle bin is not in it, and no
entry before wants it. -/
def Keeps (k : ℕ) : Prop :=
  ∃ c, (listed dir)[k]?.bind (wanted t.oldItems) = some c ∧ c ≠ (recycleBin t.oldItems).cell
    ∧ ∀ i < k, (listed dir)[i]?.bind (wanted t.oldItems) ≠ some c

instance (k : ℕ) : Decidable (Keeps t dir k) :=
  match h : (listed dir)[k]?.bind (wanted t.oldItems) with
  | none => .isFalse (fun ⟨_, hc, _⟩ => by rw [h] at hc; cases hc)
  | some c => decidable_of_iff
      (c ≠ (recycleBin t.oldItems).cell
        ∧ ∀ i < k, (listed dir)[i]?.bind (wanted t.oldItems) ≠ some c)
      ⟨fun hc => ⟨c, h, hc⟩, fun ⟨d, hd, hrest⟩ => by rw [h] at hd; cases hd; exact hrest⟩

/-- The entries that are listed before entry `k` in the new table. -/
def rank (k : ℕ) : ℕ :=
  if Keeps t dir k then (List.range k).countP (fun i => Keeps t dir i)
  else (List.range (listed dir).length).countP (fun i => Keeps t dir i)
    + (List.range k).countP (fun i => ¬ Keeps t dir i)

/-- The marks that the entries get when the table is synchronised. -/
def marks : List (WoosDirent × Option Cell) :=
  Placement.settle (wanted t.oldItems) [(recycleBin t.oldItems).cell] (listed dir)

variable {t dir}

theorem getElem?_marks {k : ℕ} {e : WoosDirent} (h : (listed dir)[k]? = some e) :
  ∃ c, (marks t dir)[k]? = some (e, c) ∧ (c.isSome ↔ Keeps t dir k)
  := by
  rw [marks, Placement.getElem?_settle, h, Option.map_some]
  refine ⟨_, rfl, ?_⟩
  rw [Option.isSome_iff_exists, Keeps, h, Option.bind_some]
  apply exists_congr
  intro c
  rw [Option.filter_eq_some_iff]
  apply and_congr_right
  intro _
  simp only [List.mem_singleton, decide_eq_true_eq]
  apply and_congr_right
  intro _
  constructor
  · intro hearlier i hi hwant
    obtain ⟨b, hb, hwant⟩ := Option.bind_eq_some_iff.mp hwant
    apply hearlier b _ hwant
    rw [List.mem_take_iff_getElem]
    obtain ⟨hlt, rfl⟩ := List.getElem?_eq_some_iff.mp hb
    exact ⟨i, lt_min hi hlt, rfl⟩
  · intro hearlier b hb hwant
    obtain ⟨i, hi, rfl⟩ := List.mem_take_iff_getElem.mp hb
    apply hearlier i (Nat.lt_min.mp hi).1
    rw [List.getElem?_eq_getElem (Nat.lt_min.mp hi).2, Option.bind_some, hwant]

theorem map_fst_marks (t : Table) (dir : Directory) :
  (marks t dir).map Prod.fst = listed dir
  := Placement.map_fst_settle _ _

theorem length_marks (t : Table) (dir : Directory) :
  (marks t dir).length = (listed dir).length
  := by
  rw [← map_fst_marks t dir, List.length_map]

/-- A mark is set for an entry that keeps its cell. -/
theorem any_marks {k : ℕ} (hk : k < (listed dir).length) :
  (marks t dir)[k]?.any (fun m => m.2.isSome) = decide (Keeps t dir k)
  := by
  obtain ⟨c, hget, hiff⟩ := getElem?_marks (t := t) (List.getElem?_eq_getElem hk)
  rw [hget, Option.any_some, Bool.eq_iff_iff, decide_eq_true_eq]
  apply hiff

/-- The entries of a list that satisfy a predicate, among the first `k`. -/
theorem countP_take {α : Type*} (p : α → Bool) (l : List α) (k : ℕ) :
  (l.take k).countP p = (List.range k).countP (fun i => l[i]?.any p)
  := by
  induction k with
  | zero => rfl
  | succ k ih =>
      rw [List.take_add_one, List.countP_append, ih, List.range_succ, List.countP_append]
      cases h : l[k]? with
      | none => simp [h]
      | some a => simp [h]

theorem countP_marks {k : ℕ} (hk : k ≤ (listed dir).length) :
  ((marks t dir).take k).countP (fun m => m.2.isSome)
    = (List.range k).countP (fun i => Keeps t dir i)
  := by
  rw [countP_take]
  apply List.countP_congr
  intro i hi
  rw [any_marks (lt_of_lt_of_le (List.mem_range.mp hi) hk)]

theorem countP_unmarked {k : ℕ} (hk : k ≤ (listed dir).length) :
  ((marks t dir).take k).countP (fun m => m.2.isNone)
    = (List.range k).countP (fun i => ¬ Keeps t dir i)
  := by
  rw [countP_take]
  apply List.countP_congr
  intro i hi
  have hlt := lt_of_lt_of_le (List.mem_range.mp hi) hk
  obtain ⟨c, hget, hiff⟩ := getElem?_marks (t := t) (List.getElem?_eq_getElem hlt)
  rw [hget, Option.any_some]
  simp [← hiff]

/-- Where an entry of the directory stands in the new table. -/
theorem getElem?_placed {k : ℕ} {e : WoosDirent} (h : (listed dir)[k]? = some e) :
  ((placed t.oldItems dir).map Prod.fst)[rank t dir k]? = some e
  := by
  have hk := (List.getElem?_eq_some_iff.mp h).1
  obtain ⟨c, hget, hiff⟩ := getElem?_marks (t := t) h
  rw [map_fst_placed, ← marks, rank]
  cases c with
  | some c =>
      rw [if_pos (hiff.mp rfl), ← countP_marks hk.le]
      apply Placement.getElem?_order_kept hget
  | none =>
      have hnot : ¬ Keeps t dir k := by
        intro hkeeps
        cases hiff.mpr hkeeps
      have hall := countP_marks (t := t) (le_refl (listed dir).length)
      rw [← length_marks t dir, List.take_length, length_marks] at hall
      rw [if_neg hnot, ← hall, ← countP_unmarked hk.le]
      apply Placement.getElem?_order_left hget

/-! ### A second synchronisation -/

theorem oldItems_sync (dir : Directory) (t : Table) :
  (syncDesktopItems dir t).2.oldItems
    = recycleBin t.oldItems :: (placed t.oldItems dir).map (fun p => direntItem p.1 p.2)
  := by
  have hlen := length_listed_le dir
  have hmin : min ((placed t.oldItems dir).length + 1) maxDesktopItems
      = (placed t.oldItems dir).length + 1 := by
    rw [length_placed]
    apply Nat.min_eq_left
    rw [maxDesktopItems]
    omega
  rw [Table.oldItems, syncDesktopItems, newItems_scan]
  simp only [List.length_cons, List.length_map, hmin]
  apply List.ext_getElem?
  intro i
  rw [List.getElem?_map]
  rcases Nat.lt_or_ge i ((placed t.oldItems dir).length + 1) with hi | hi
  · rw [List.getElem?_range hi, Option.map_some, List.getElem?_eq_getElem (by simpa using hi)]
    rfl
  · rw [List.getElem?_eq_none (by simpa using hi), List.getElem?_eq_none (by simpa using hi)]
    rfl

theorem recycleBin_cons (old l : List DesktopItem) :
  recycleBin (recycleBin old :: l) = recycleBin old
  := by
  have hkeep : ((recycleBin old :: l)[0]?.filter
      (fun it => it.isRecycleBin && decide (InGrid it.cell))) = some (recycleBin old) := by
    apply Option.filter_some_pos
    have hbin : (recycleBin old).isRecycleBin = true := rfl
    simp [hbin, recycleBin_inGrid old]
  rw [recycleBin, hkeep]
  rfl

/-- At a second synchronisation, an entry wants the cell in which it has been placed. -/
theorem wanted_again {old : List DesktopItem} {e : WoosDirent} {c : Cell}
    (h : (e, c) ∈ placed old dir) :
  wanted (recycleBin old :: (placed old dir).map (fun p => direntItem p.1 p.2)) e = some c
  := by
  obtain ⟨i, hi⟩ := List.mem_iff_getElem?.mp h
  have hget : (recycleBin old :: (placed old dir).map (fun p => direntItem p.1 p.2))[i + 1]?
      = some (direntItem e c) := by
    rw [List.getElem?_cons_succ, List.getElem?_map, hi]
    rfl
  apply wanted_eq (Nat.succ_pos i) hget rfl
  · apply SameName.refl
  · apply placed_inGrid h
  · intro j it hj hit hname
    obtain ⟨j, rfl⟩ := Nat.exists_eq_add_of_le' hj
    rw [List.getElem?_cons_succ, List.getElem?_map] at hit
    obtain ⟨p, hp, rfl⟩ := Option.map_eq_some_iff.mp hit
    rw [placed_inj hp hi hname]

/-- The cell in which an entry has been placed. -/
def placedCell (old : List DesktopItem) (dir : Directory) (e : WoosDirent) : Cell :=
  (wanted (recycleBin old :: (placed old dir).map (fun p => direntItem p.1 p.2)) e).getD (0, 0)

theorem placedCell_eq {old : List DesktopItem} {p : WoosDirent × Cell} (h : p ∈ placed old dir) :
  placedCell old dir p.1 = p.2
  := by
  rw [placedCell, wanted_again h, Option.getD_some]

/-- At a second synchronisation, all entries keep their cells: they are placed in the order of the
directory. -/
theorem placed_again (old : List DesktopItem) (dir : Directory) :
  placed (recycleBin old :: (placed old dir).map (fun p => direntItem p.1 p.2)) dir
    = (listed dir).map (fun e => (e, placedCell old dir e))
  := by
  have hplaced {e : WoosDirent} (he : e ∈ listed dir) : (e, placedCell old dir e) ∈ placed old dir := by
    obtain ⟨⟨_, c⟩, hmem, rfl⟩ := List.mem_map.mp ((placed_perm old dir).mem_iff.mpr he)
    rw [placedCell_eq hmem]
    exact hmem
  have hnodup := nodup_placed old dir
  rw [placed, recycleBin_cons]
  apply Placement.place_of_wanted
  · intro e he
    apply wanted_again (hplaced he)
  · intro e he
    rw [List.mem_singleton]
    rintro heq
    have hcell := List.mem_map_of_mem (f := Prod.snd) (hplaced he)
    apply (List.nodup_append.mp hnodup).2.2 _ hcell _ (List.mem_singleton_self _) heq
  · have hcells : ((placed old dir).map Prod.fst).map (placedCell old dir)
        = (placed old dir).map Prod.snd := by
      rw [List.map_map]
      apply List.map_congr_left
      intro p hp
      apply placedCell_eq hp
    rw [← ((placed_perm old dir).map _).nodup_iff, hcells]
    apply (List.nodup_append.mp hnodup).1

/-- The items are in the order of the directory exactly when the entries that keep their cells are
listed first. -/
theorem map_fst_placed_eq_iff (t : Table) (dir : Directory) :
  (placed t.oldItems dir).map Prod.fst = listed dir
    ↔ ∀ i j, i < j → Keeps t dir j → Keeps t dir i
  := by
  have hnodup : ((marks t dir).map Prod.fst).Nodup := by
    rw [map_fst_marks]
    apply nodup_listed
  have hiff := Placement.order_eq_iff hnodup
  rw [map_fst_marks, marks, ← map_fst_placed, ← marks] at hiff
  rw [hiff, List.pairwise_iff_getElem]
  have hmark {k : ℕ} (hk : k < (marks t dir).length) :
      (marks t dir)[k].2.isSome ↔ Keeps t dir k := by
    rw [length_marks] at hk
    obtain ⟨c, hget, hc⟩ := getElem?_marks (t := t) (List.getElem?_eq_getElem hk)
    rw [(List.getElem?_eq_some_iff.mp hget).2]
    exact hc
  constructor
  · intro h i j hij hj
    have hlt : j < (marks t dir).length := by
      obtain ⟨c, hc, _⟩ := hj
      obtain ⟨e, he, _⟩ := Option.bind_eq_some_iff.mp hc
      rw [length_marks]
      apply (List.getElem?_eq_some_iff.mp he).1
    apply (hmark (lt_trans hij hlt)).mp
    apply h i j _ hlt hij
    apply (hmark hlt).mpr hj
  · intro h i j hi hj hij hsome
    apply (hmark hi).mpr
    apply h i j hij
    apply (hmark hj).mp hsome

/-- A second synchronisation changes nothing exactly when the entries that keep their cells are
listed first. -/
theorem sync_sync_iff (dir : Directory) (t : Table) :
  syncDesktopItems dir (syncDesktopItems dir t).2 = (false, (syncDesktopItems dir t).2)
    ↔ ∀ i j, i < j → Keeps t dir j → Keeps t dir i
  := by
  rw [← map_fst_placed_eq_iff]
  have hfirst : (placed t.oldItems dir).map (fun p => direntItem p.1 p.2)
      = ((placed t.oldItems dir).map Prod.fst).map
        (fun e => direntItem e (placedCell t.oldItems dir e)) := by
    rw [List.map_map]
    apply List.map_congr_left
    intro p hp
    rw [Function.comp_apply, placedCell_eq hp]
  have hsecond : newItems (syncDesktopItems dir t).2.oldItems
        (scan (syncDesktopItems dir t).2.oldItems dir)
      = recycleBin t.oldItems
        :: (listed dir).map (fun e => direntItem e (placedCell t.oldItems dir e)) := by
    rw [newItems_scan, oldItems_sync, placed_again, recycleBin_cons, List.map_map]
    rfl
  constructor
  · intro h
    have hold := oldItems_sync dir (syncDesktopItems dir t).2
    rw [← newItems_scan, hsecond, congrArg Prod.snd h, oldItems_sync, hfirst, List.cons.injEq] at hold
    apply List.map_injective_iff.mpr _ hold.2
    intro e₁ e₂ heq
    simp only [direntItem, DesktopItem.mk.injEq] at heq
    rw [WoosDirent.mk.injEq]
    exact ⟨heq.1, heq.2.2.1, heq.2.2.2.2.1⟩
  · intro h
    have hsame : newItems (syncDesktopItems dir t).2.oldItems
          (scan (syncDesktopItems dir t).2.oldItems dir)
        = (syncDesktopItems dir t).2.oldItems := by
      rw [hsecond, oldItems_sync, hfirst, h]
    have hlen : (syncDesktopItems dir t).2.oldItems.length = (syncDesktopItems dir t).2.count := by
      rw [oldItems_sync, List.length_cons, List.length_map, length_placed, sync_count]
    have hdiffers : (List.zipWith differs (syncDesktopItems dir t).2.oldItems
        (syncDesktopItems dir t).2.oldItems).any id = false := by
      simp [List.zipWith_self, differs]
    rw [syncDesktopItems]
    simp only [hsame, hdiffers]
    apply Prod.ext
    · simp
    · show Table.mk _ _ = Table.mk (syncDesktopItems dir t).2.items (syncDesktopItems dir t).2.count
      rw [hlen]
      congr
      funext i
      rw [Table.getElem?_oldItems]
      split
      · rfl
      · rfl

end

/-! ### Indices -/

/-- The indices of items that are kept between events. -/
inductive KeptIndex where
  | selectedIcon
  | contextTarget
  | dialogTarget

/-- The value of an index. -/
def Desktop.index (s : Desktop) : KeptIndex → Int
  | .selectedIcon => s.selectedIconIdx
  | .contextTarget => s.ctxTargetItem
  | .dialogTarget => s.dialogTargetIdx

/-- The file is no longer in the directory. -/
def Gone (dir : Directory) (f : DesktopItem) : Prop := ∀ e ∈ dir.getD [], ¬ SameName e.name f.name

/-- After a synchronisation, an index denotes the item `f` or none: its slot says `f`, also when the
bound is not checked, and it passes the check of the bound unless the file has gone.  Index 0
denotes the recycle bin. -/
def Denotes (dir : Directory) (t : Table) (idx : Int) (f : DesktopItem) : Prop :=
  if idx = 0 then t.valid idx ∧ (t.slot idx).isRecycleBin
  else SameName (t.slot idx).name f.name ∧ (t.valid idx ∨ Gone dir f)

/-- A synchronisation leaves the item `f` at its index: as many entries are placed before it as
there were before, or it has gone and there are not enough entries for its index. -/
def Stays (t : Table) (dir : Directory) (idx : Int) (f : DesktopItem) : Prop :=
  idx = 0 ∨ (∃ k e, (listed dir)[k]? = some e ∧ SameName e.name f.name ∧ idx = rank t dir k + 1)
    ∨ Gone dir f ∧ ((listed dir).length : Int) < idx

theorem rank_eq {t : Table} {dir : Directory} {i k : ℕ} {p : WoosDirent × Cell}
    (hk : (listed dir)[k]? = some p.1) (hp : (placed t.oldItems dir)[i]? = some p) :
  rank t dir k = i
  := by
  have hnodup := (placed_perm t.oldItems dir).nodup_iff.mpr (nodup_listed dir)
  have hrank := getElem?_placed (t := t) hk
  apply (List.getElem?_inj (List.getElem?_eq_some_iff.mp hrank).1 hnodup).mp
  rw [hrank, List.getElem?_map, hp, Option.map_some]

/-- What a slot behind the recycle bin says after a synchronisation. -/
theorem denotes_file_iff {t : Table} {dir : Directory} {i : ℕ} {f : DesktopItem}
    (hslot : SameName (t.items (i + 1)).name f.name) :
  SameName ((syncDesktopItems dir t).2.items (i + 1)).name f.name
      ∧ (i < (listed dir).length ∨ Gone dir f)
    ↔ (∃ k e, (listed dir)[k]? = some e ∧ SameName e.name f.name ∧ rank t dir k = i)
      ∨ Gone dir f ∧ (listed dir).length ≤ i
  := by
  constructor
  · rintro ⟨hname, hthere⟩
    rcases Nat.lt_or_ge i (listed dir).length with hi | hi
    · left
      obtain ⟨p, hp, hitem⟩ := sync_file dir t hi
      obtain ⟨k, hk⟩ := List.mem_iff_getElem?.mp (mem_listed_of_placed (List.mem_of_getElem? hp))
      rw [hitem] at hname
      exact ⟨k, p.1, hk, hname, rank_eq hk hp⟩
    · right
      exact ⟨hthere.resolve_left (not_lt.mpr hi), hi⟩
  · rintro (⟨k, e, hk, hsame, rfl⟩ | ⟨hgone, hlen⟩)
    · have hget := getElem?_placed (t := t) hk
      rw [List.getElem?_map] at hget
      obtain ⟨p, hp, rfl⟩ := Option.map_eq_some_iff.mp hget
      constructor
      · rw [sync_succ, hp]
        exact hsame
      · left
        rw [← length_placed t.oldItems]
        apply (List.getElem?_eq_some_iff.mp hp).1
    · have hnone : (placed t.oldItems dir)[i]? = none := by
        apply List.getElem?_eq_none
        rw [length_placed]
        exact hlen
      rw [sync_succ, hnone]
      exact ⟨hslot, Or.inr hgone⟩

theorem denotes_iff {t : Table} {dir : Directory} {idx : Int} {f : DesktopItem} (hidx : 0 ≤ idx)
    (hslot : idx = 0 ∨ SameName (t.slot idx).name f.name) :
  Denotes dir (syncDesktopItems dir t).2 idx f ↔ Stays t dir idx f
  := by
  obtain ⟨i, rfl⟩ := Int.eq_ofNat_of_zero_le hidx
  cases i with
  | zero =>
      rw [Denotes, if_pos Int.ofNat_zero, Stays]
      simp [Table.valid, Table.slot, recycleBin]
  | succ i =>
      have hne : ((i + 1 : ℕ) : Int) ≠ 0 := by omega
      have hvalid : (syncDesktopItems dir t).2.valid ((i + 1 : ℕ) : Int) = true
          ↔ i < (listed dir).length := by
        rw [Table.valid, sync_count, decide_eq_true_eq]
        omega
      have hrank (k : ℕ) : ((i + 1 : ℕ) : Int) = rank t dir k + 1 ↔ rank t dir k = i := by omega
      have hlen : ((listed dir).length : Int) < ((i + 1 : ℕ) : Int) ↔ (listed dir).length ≤ i := by
        omega
      rw [Denotes, if_neg hne, Stays, or_iff_right hne, hvalid, hlen]
      simp only [hrank]
      apply denotes_file_iff (hslot.resolve_left hne)

/-! ### Runs of the timer -/

namespace Desktop

/-- The desktop after the first `n` ticks of the timer. -/
def afterTicks (s : Desktop) (ticks : List Directory) (n : ℕ) : Desktop :=
  (ticks.take n).foldl (fun s dir => s.step (.tick dir)) s

variable {s : Desktop} {ticks : List Directory} {n : ℕ} {dir : Directory}

theorem afterTicks_succ (h : ticks[n]? = some dir) :
  s.afterTicks ticks (n + 1) = (s.afterTicks ticks n).step (.tick dir)
  := by
  rw [afterTicks, List.take_add_one, h, List.foldl_append]
  rfl

theorem step_tick (h : ¬ s.isDraggingIcon) (dir : Directory) :
  s.step (.tick dir) = s.sync dir
  := if_neg h

/-- A tick of the timer changes the table only. -/
theorem step_tick_eq (s : Desktop) (dir : Directory) :
  ∃ t, s.step (.tick dir) = { s with table := t }
  := by
  rw [step, syncIdle]
  split
  case isTrue => exact ⟨s.table, rfl⟩
  case isFalse => exact ⟨_, rfl⟩

theorem afterTicks_eq (s : Desktop) (ticks : List Directory) (n : ℕ) :
  ∃ t, s.afterTicks ticks n = { s with table := t }
  := by
  induction n with
  | zero => exact ⟨s.table, rfl⟩
  | succ n ih =>
      cases hdir : ticks[n]? with
      | none =>
          rw [afterTicks, List.take_add_one, hdir, Option.toList_none, List.append_nil]
          exact ih
      | some dir =>
          obtain ⟨t, ht⟩ := ih
          obtain ⟨t', ht'⟩ := step_tick_eq (s.afterTicks ticks n) dir
          use t'
          rw [afterTicks_succ hdir, ht', ht]

theorem afterTicks_index (s : Desktop) (ticks : List Directory) (n : ℕ) (k : KeptIndex) :
  (s.afterTicks ticks n).index k = s.index k
  := by
  obtain ⟨t, ht⟩ := afterTicks_eq s ticks n
  rw [ht]
  cases k with
  | selectedIcon => rfl
  | contextTarget => rfl
  | dialogTarget => rfl

theorem afterTicks_table (h : ¬ s.isDraggingIcon) (hdir : ticks[n]? = some dir) :
  (s.afterTicks ticks (n + 1)).table = (syncDesktopItems dir (s.afterTicks ticks n).table).2
  := by
  have hidle : ¬ (s.afterTicks ticks n).isDraggingIcon := by
    obtain ⟨t, ht⟩ := afterTicks_eq s ticks n
    rw [ht]
    exact h
  rw [afterTicks_succ hdir, step_tick hidle]
  rfl

/-- While the index has denoted the item after every tick, its slot says so. -/
theorem slot_of_denotes {idx : Int} (hn : n ≤ ticks.length)
    (h : ∀ m < n, ∀ d, ticks[m]? = some d →
      Denotes d (s.afterTicks ticks (m + 1)).table idx (s.table.slot idx)) :
  idx = 0 ∨ SameName ((s.afterTicks ticks n).table.slot idx).name (s.table.slot idx).name
  := by
  cases n with
  | zero =>
      right
      apply SameName.refl
  | succ m =>
      have hdenotes := h m (Nat.lt_succ_self m) _ (List.getElem?_eq_getElem hn)
      rw [Denotes] at hdenotes
      split at hdenotes
      case isTrue hzero =>
        left
        exact hzero
      case isFalse =>
        right
        exact hdenotes.1

end Desktop

/-- A second synchronisation with the same directory changes nothing if and only if the directory
lists the entries that keep their cells first; and over a run of the timer an index denotes the item
that it denoted, or none when that is gone, if and only if every tick leaves the item there. -/
theorem sync_stable_iff
    (dir : Directory) (t : Table) (s : Desktop) (hidle : ¬ s.isDraggingIcon) (k : KeptIndex)
    (hk : 0 ≤ s.index k) (ticks : List Directory) :
  (syncDesktopItems dir (syncDesktopItems dir t).2 = (false, (syncDesktopItems dir t).2)
      ↔ ∀ i j, i < j → Keeps t dir j → Keeps t dir i)
    ∧ ((∀ n d, ticks[n]? = some d →
          Denotes d (s.afterTicks ticks (n + 1)).table ((s.afterTicks ticks (n + 1)).index k)
            (s.table.slot (s.index k)))
      ↔ ∀ n d, ticks[n]? = some d →
          Stays (s.afterTicks ticks n).table d (s.index k) (s.table.slot (s.index k)))
  := by
  use sync_sync_iff dir t
  simp only [Desktop.afterTicks_index]
  constructor
  · intro h n d hd
    have hn := (List.getElem?_eq_some_iff.mp hd).1
    have hdenotes := h n d hd
    rw [Desktop.afterTicks_table hidle hd] at hdenotes
    apply (denotes_iff hk _).mp hdenotes
    apply Desktop.slot_of_denotes hn.le
    intro m _
    apply h m
  · intro h n
    induction n using Nat.strong_induction_on with
    | _ n ih =>
        intro d hd
        have hn := (List.getElem?_eq_some_iff.mp hd).1
        rw [Desktop.afterTicks_table hidle hd]
        apply (denotes_iff hk _).mpr (h n d hd)
        apply Desktop.slot_of_denotes hn.le
        intro m hm
        apply ih m hm

/-- The desktop with the files `A` and `B`, of which `A` is selected. -/
def selectedA : Desktop :=
  { Desktop.start (some [letterFile 65, letterFile 66]) with selectedIconIdx := 1 }

/-- A file `C` that is listed behind the others changes neither. -/
theorem sync_stable_iff_last :
  syncDesktopItems (some [letterFile 65, letterFile 66, letterFile 67])
      (syncDesktopItems (some [letterFile 65, letterFile 66, letterFile 67]) selectedA.table).2
    = (false, (syncDesktopItems (some [letterFile 65, letterFile 66, letterFile 67])
      selectedA.table).2)
    ∧ Denotes (some [letterFile 65, letterFile 66, letterFile 67])
      (selectedA.afterTicks [some [letterFile 65, letterFile 66, letterFile 67]] 1).table 1
      (selectedA.table.slot 1)
  := by
  have h := sync_stable_iff (some [letterFile 65, letterFile 66, letterFile 67]) selectedA.table
    selectedA (by decide) .selectedIcon (by decide)
    [some [letterFile 65, letterFile 66, letterFile 67]]
  constructor
  · apply h.1.mpr
    intro i j hij hj
    have hlt : j < 3 := by
      obtain ⟨c, hc, _⟩ := hj
      obtain ⟨e, he, _⟩ := Option.bind_eq_some_iff.mp hc
      apply (List.getElem?_eq_some_iff.mp he).1
    have hnew : ¬ Keeps selectedA.table
        (some [letterFile 65, letterFile 66, letterFile 67]) 2 := by
      decide
    interval_cases j
    · contradiction
    · interval_cases i
      decide
    · exact absurd hj hnew
  · apply h.2.mpr _ 0 _ rfl
    intro n d hd
    cases n with
    | zero =>
        cases hd
        right
        left
        exact ⟨0, _, rfl, SameName.refl _, by decide⟩
    | succ n => cases hd

/-- The file `B` appears before `A` in the directory: the new table has `A` first, and the next one
has `B` first.  And when `A` is deleted while it is selected, the selection passes to `B`. -/
theorem not_sync_stable :
  (¬ ∀ dir t, syncDesktopItems dir (syncDesktopItems dir t).2 = (false, (syncDesktopItems dir t).2))
    ∧ ¬ ∀ (s : Desktop) (k : KeptIndex) (ticks : List Directory), ¬ s.isDraggingIcon → 0 ≤ s.index k →
      ∀ n d, ticks[n]? = some d →
        Denotes d (s.afterTicks ticks (n + 1)).table ((s.afterTicks ticks (n + 1)).index k)
          (s.table.slot (s.index k))
  := by
  constructor
  · intro h
    have hchanged := congrArg Prod.fst (h (some [letterFile 66, letterFile 65])
      (Desktop.start (some [letterFile 65])).table)
    revert hchanged
    decide
  · intro h
    have hdenotes := h selectedA .selectedIcon [some [letterFile 66]] (by decide) (by decide) 0 _ rfl
    rw [Denotes, if_neg (by decide)] at hdenotes
    have hname := hdenotes.1
    revert hname
    decide

end Compositor
