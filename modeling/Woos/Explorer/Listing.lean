import Woos.Compositor.Sync
import Woos.Lib.Exchange

/-!
# The listing of the explorer

`load_directory` of `explorer.c`: the entries of a directory are read into the table of items as
long as it has room, except `.`, `..` and those whose name is there already, and the table is
sorted.  What the file system reports about a path is a parameter, as for the desktop.

`firstOfName` says which entries are to be listed, and `IsListing` what their listing is.
-/

namespace Explorer

open Compositor (Directory SameName WoosDirent isDotEntry strcasecmpCustom upperCase)

/-- `MAX_ITEMS` -/
def maxItems : Nat := 128

/-- `file_item_t` -/
structure FileItem where
  name : CString
  isDir : Bool
  size : UInt32
  deriving DecidableEq

/-- The variables that `load_directory` writes; `g_items` up to `g_item_count`. -/
structure State where
  items : List FileItem
  selectedIdx : Nat
  scrollOffset : Nat
  currentPath : CString

/-- The copy of an entry into the table. -/
def FileItem.ofDirent (e : WoosDirent) : FileItem where
  name := e.name.truncate 23
  isDir := e.isDir
  size := e.size

/-- The loop that reads the directory, with the table so far. -/
def readLoop : List WoosDirent → List FileItem → List FileItem
  | [], items => items
  | e :: es, items =>
    if items.length < maxItems then
      if isDotEntry e then readLoop es items
      else if items.any (fun it => decide (SameName it.name e.name)) then readLoop es items
      else readLoop es (items ++ [.ofDirent e])
    else items

/-- The item `j` behind the item `i` is exchanged with it. -/
def swaps (i j : FileItem) : Bool :=
  if j.isDir && !i.isDir then true
  else if i.isDir = j.isDir then decide (0 < strcasecmpCustom i.name.bytes j.name.bytes)
  else false

/-- `load_directory` -/
def loadDirectory (fs : CString → Directory) (path : CString) (_ : State) : State where
  items :=
    match fs path with
    | none => []
    | some es => Exchange.exchangeSort swaps (readLoop es [])
  selectedIdx := 0
  scrollOffset := 0
  currentPath := path.truncate 63

/-! ### What a listing is -/

/-- The entries that are to be listed: of those with one name the first. -/
def firstOfName (es : List WoosDirent) : List WoosDirent :=
  (es.filter (fun e => !isDotEntry e)).eraseDupsBy (fun e e' => decide (SameName e'.name e.name))

/-- Directories stand before files, and names in the order of the alphabet. -/
def InOrder (i j : FileItem) : Prop :=
  if i.isDir = j.isDir then i.name.bytes.map upperCase ≤ j.name.bytes.map upperCase
  else i.isDir = true

/-- The table lists the entries of a directory. -/
structure IsListing (es : List WoosDirent) (items : List FileItem) : Prop where
  /-- The first entries that fit into the table are there, once each, and nothing else. -/
  perm : (items.map (fun it => (it.name, it.isDir, it.size))).Perm
    (((firstOfName es).take maxItems).map (fun e => (e.name, e.isDir, e.size)))
  /-- No name occurs twice. -/
  distinct : items.Pairwise (fun i j => ¬ SameName i.name j.name)
  /-- Every name is there, or the table is full. -/
  complete : ∀ e ∈ es, isDotEntry e = false →
    (∃ it ∈ items, SameName it.name e.name) ∨ items.length = maxItems
  ordered : items.Pairwise InOrder

/-! ### The order of the names -/

theorem strcasecmpCustom_le_zero_iff {s₁ s₂ : List UInt8} (h : ∀ b ∈ s₁, b ≠ 0) :
  strcasecmpCustom s₁ s₂ ≤ 0 ↔ s₁.map upperCase ≤ s₂.map upperCase
  := by
  induction s₁ generalizing s₂ with
  | nil =>
      have hzero : upperCase 0 = 0 := rfl
      simp [strcasecmpCustom, hzero]
  | cons c₁ s₁ ih =>
      cases s₂ with
      | nil =>
          have hc : upperCase c₁ ≠ 0 := by
            rw [Ne, Compositor.upperCase_eq_zero]
            apply h c₁ (by simp)
          have hzero : upperCase 0 = 0 := rfl
          rw [Ne, ← UInt8.toNat_inj] at hc
          simp only [strcasecmpCustom, List.headD_nil, List.headD_cons, hzero]
          simpa using hc
      | cons c₂ s₂ =>
          rw [strcasecmpCustom, List.map_cons, List.map_cons, List.cons_le_cons_iff]
          split
          case isTrue hne =>
            have hlt : ((upperCase c₁).toNat : Int) - (upperCase c₂).toNat ≤ 0
                ↔ upperCase c₁ < upperCase c₂ := by
              rw [Ne, ← UInt8.toNat_inj] at hne
              rw [UInt8.lt_iff_toNat_lt]
              omega
            simp [hlt, hne]
          case isFalse heq =>
            rw [ih (fun b hb => h b (by simp [hb]))]
            simp [not_not.mp heq]

/-- What is not exchanged is in order. -/
theorem swaps_eq_false_iff {i j : FileItem} :
  swaps i j = false ↔ InOrder i j
  := by
  have hname : 0 < strcasecmpCustom i.name.bytes j.name.bytes
      ↔ ¬ i.name.bytes.map upperCase ≤ j.name.bytes.map upperCase := by
    rw [← strcasecmpCustom_le_zero_iff i.name.ne_zero, Int.not_le]
  rw [swaps, InOrder]
  cases i.isDir <;> cases j.isDir <;> simp [hname]

theorem InOrder.total (i j : FileItem) :
  InOrder i j ∨ InOrder j i
  := by
  have hname := List.le_total (i.name.bytes.map upperCase) (j.name.bytes.map upperCase)
  rw [InOrder, InOrder]
  cases i.isDir <;> cases j.isDir <;> simp [hname]

theorem InOrder.trans {i j k : FileItem} (hij : InOrder i j) (hjk : InOrder j k) :
  InOrder i k
  := by
  rw [InOrder] at *
  revert hij hjk
  cases i.isDir <;> cases j.isDir <;> cases k.isDir
    <;> simp only [if_true, if_false, Bool.true_eq_false, Bool.false_eq_true,
      implies_true, false_implies]
  all_goals exact List.le_trans

theorem swaps_asymm (i j : FileItem) (h : swaps i j = true) :
  swaps j i = false
  := by
  rw [swaps_eq_false_iff]
  apply (InOrder.total i j).resolve_left
  rw [← swaps_eq_false_iff, h]
  exact Bool.noConfusion

theorem swaps_trans (i j k : FileItem) (hij : swaps i j = false) (hjk : swaps j k = false) :
  swaps i k = false
  := by
  rw [swaps_eq_false_iff] at *
  apply hij.trans hjk

/-! ### The table -/

@[simp]
theorem FileItem.ofDirent_name (e : WoosDirent) :
  (FileItem.ofDirent e).name = e.name
  := CString.truncate_of_length_le (by have := e.name_lt; omega)

/-- The entries that are to be listed besides those of the table. -/
def unlisted (items : List FileItem) (es : List WoosDirent) : List WoosDirent :=
  (es.filter (fun e =>
      !isDotEntry e && !items.any (fun it => decide (SameName it.name e.name)))).eraseDupsBy
    (fun e e' => decide (SameName e'.name e.name))

theorem unlisted_nil (es : List WoosDirent) :
  unlisted [] es = firstOfName es
  := by simp [unlisted, firstOfName]

theorem unlisted_cons_of_neg {items : List FileItem} {e : WoosDirent} {es : List WoosDirent}
    (h : isDotEntry e = true ∨ items.any (fun it => decide (SameName it.name e.name)) = true) :
  unlisted items (e :: es) = unlisted items es
  := by
  rw [unlisted, List.filter_cons_of_neg]
  · rfl
  · rcases h with h | h <;> simp [h]

theorem unlisted_cons {items : List FileItem} {e : WoosDirent} {es : List WoosDirent}
    (hdot : ¬ isDotEntry e = true)
    (hdup : ¬ items.any (fun it => decide (SameName it.name e.name)) = true) :
  unlisted items (e :: es) = e :: unlisted (items ++ [.ofDirent e]) es
  := by
  rw [Bool.not_eq_true] at hdot hdup
  rw [unlisted, List.filter_cons_of_pos (by rw [hdot, hdup]; rfl), List.eraseDupsBy_cons,
    List.filter_filter, unlisted]
  congr 3
  funext e'
  rw [List.any_append, List.any_cons, List.any_nil, Bool.or_false, Bool.not_or,
    FileItem.ofDirent_name]
  by_cases hsame : SameName e.name e'.name <;> simp [hsame]

/-- The loop adds the entries that are to be listed as far as there is room. -/
theorem readLoop_eq (es : List WoosDirent) {items : List FileItem} (h : items.length ≤ maxItems) :
  readLoop es items
    = items ++ ((unlisted items es).take (maxItems - items.length)).map .ofDirent
  := by
  induction es generalizing items with
  | nil => simp [readLoop, unlisted]
  | cons e es ih =>
      rw [readLoop]
      split_ifs with hroom hdot hdup
      · rw [ih h, unlisted_cons_of_neg (.inl hdot)]
      · rw [ih h, unlisted_cons_of_neg (.inr hdup)]
      · obtain ⟨n, hn⟩ := Nat.exists_eq_add_of_lt hroom
        have htake : maxItems - items.length = n + 1 := by omega
        have hlength : (items ++ [FileItem.ofDirent e]).length = items.length + 1 := by simp
        have hrest : maxItems - (items ++ [FileItem.ofDirent e]).length = n := by omega
        rw [ih (by omega), unlisted_cons hdot hdup, htake, hrest, List.take_succ_cons,
          List.map_cons, List.append_assoc, List.singleton_append]
      · have hfull : maxItems - items.length = 0 := by omega
        rw [hfull, List.take_zero, List.map_nil, List.append_nil]

theorem readLoop_nil (es : List WoosDirent) :
  readLoop es [] = ((firstOfName es).take maxItems).map .ofDirent
  := by
  rw [readLoop_eq es (Nat.zero_le _), unlisted_nil]
  rfl

/-! ### The entries that are to be listed -/

section Duplicates

variable {α : Type*} {r : α → α → Bool}

theorem mem_of_mem_eraseDupsBy {l : List α} {a : α} (h : a ∈ l.eraseDupsBy r) :
  a ∈ l
  := by
  induction hn : l.length using Nat.strong_induction_on generalizing l with
  | h n ih =>
      cases l with
      | nil => exact h
      | cons b l =>
          rw [List.eraseDupsBy_cons] at h
          rcases List.mem_cons.mp h with rfl | h
          · exact List.mem_cons_self
          · have hmem := ih _ (by rw [← hn]; exact Nat.lt_succ_of_le (List.length_filter_le _ _)) h rfl
            exact List.mem_cons_of_mem _ (List.mem_of_mem_filter hmem)

theorem pairwise_eraseDupsBy (l : List α) :
  (l.eraseDupsBy r).Pairwise (fun a b => r b a = false)
  := by
  induction hn : l.length using Nat.strong_induction_on generalizing l with
  | h n ih =>
      cases l with
      | nil => exact List.Pairwise.nil
      | cons a l =>
          rw [List.eraseDupsBy_cons]
          apply List.Pairwise.cons
          · intro b hb
            simpa using (List.mem_filter.mp (mem_of_mem_eraseDupsBy hb)).2
          · apply ih _ _ _ rfl
            rw [← hn]
            exact Nat.lt_succ_of_le (List.length_filter_le _ _)

/-- What is erased has the same as it in front. -/
theorem exists_mem_eraseDupsBy {l : List α} {a : α} (h : a ∈ l) :
  a ∈ l.eraseDupsBy r ∨ ∃ b ∈ l.eraseDupsBy r, r a b = true
  := by
  induction hn : l.length using Nat.strong_induction_on generalizing l with
  | h n ih =>
      cases l with
      | nil => cases h
      | cons b l =>
          rw [List.eraseDupsBy_cons]
          rcases List.mem_cons.mp h with rfl | h
          · exact .inl List.mem_cons_self
          by_cases hsame : r a b = true
          · exact .inr ⟨b, List.mem_cons_self, hsame⟩
          have hmem : a ∈ l.filter (fun c => r c b = false) := by
            rw [List.mem_filter]
            exact ⟨h, by simpa using hsame⟩
          rcases ih _ (by rw [← hn]; exact Nat.lt_succ_of_le (List.length_filter_le _ _)) hmem rfl
            with h | ⟨c, hc, hsame⟩
          · exact .inl (List.mem_cons_of_mem _ h)
          · exact .inr ⟨c, List.mem_cons_of_mem _ hc, hsame⟩

end Duplicates

theorem pairwise_firstOfName (es : List WoosDirent) :
  (firstOfName es).Pairwise (fun e e' => ¬ SameName e.name e'.name)
  := by
  apply (pairwise_eraseDupsBy _).imp
  intro e e' h
  simpa using h

theorem exists_mem_firstOfName {es : List WoosDirent} {e : WoosDirent} (he : e ∈ es)
    (hdot : isDotEntry e = false) :
  ∃ e' ∈ firstOfName es, SameName e'.name e.name
  := by
  have hmem : e ∈ es.filter (fun e => !isDotEntry e) := by
    rw [List.mem_filter]
    exact ⟨he, by rw [hdot]; rfl⟩
  rcases exists_mem_eraseDupsBy hmem with h | ⟨e', he', hsame⟩
  · exact ⟨e, h, .refl _⟩
  · exact ⟨e', he', by simpa using hsame⟩

/-! ### The listing -/

/-- The table that the loop fills and the sort orders lists the entries. -/
theorem isListing_exchangeSort (es : List WoosDirent) :
  IsListing es (Exchange.exchangeSort swaps (readLoop es []))
  := by
  have hperm := @Exchange.exchangeSort_perm _ swaps (readLoop es [])
  have hread := readLoop_nil es
  rw [hread] at hperm ⊢
  constructor
  case perm =>
    have h := hperm.map (fun it => (it.name, it.isDir, it.size))
    rw [List.map_map] at h
    have hfields : (fun it : FileItem => (it.name, it.isDir, it.size)) ∘ FileItem.ofDirent
        = fun e : WoosDirent => (e.name, e.isDir, e.size) := by
      funext e
      rw [Function.comp_apply, FileItem.ofDirent_name]
      rfl
    rwa [hfields] at h
  case distinct =>
    apply (hperm.pairwise_iff (fun h h' => h h'.symm)).mpr
    rw [List.pairwise_map]
    apply ((pairwise_firstOfName es).sublist (List.take_sublist _ _)).imp
    intro e e' h
    rwa [FileItem.ofDirent_name, FileItem.ofDirent_name]
  case complete =>
    intro e he hdot
    obtain ⟨e', he', hsame⟩ := exists_mem_firstOfName he hdot
    by_cases hroom : (firstOfName es).length ≤ maxItems
    · left
      use .ofDirent e'
      rw [hperm.mem_iff, List.take_of_length_le hroom, FileItem.ofDirent_name]
      exact ⟨List.mem_map_of_mem he', hsame⟩
    · right
      rw [hperm.length_eq, List.length_map, List.length_take]
      omega
  case ordered =>
    apply (Exchange.pairwise_exchangeSort swaps_asymm swaps_trans _).imp
    intro i j h
    apply swaps_eq_false_iff.mp h

/-- Whatever a directory contains, loading it lists its entries. -/
theorem loadDirectory_isListing (fs : CString → Directory) (path : CString) (s : State) :
  IsListing ((fs path).getD []) (loadDirectory fs path s).items
  := by
  rw [loadDirectory]
  cases fs path with
  | none => exact isListing_exchangeSort []
  | some es => exact isListing_exchangeSort es

end Explorer
