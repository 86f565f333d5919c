import Woos.Compositor.Grid
import Woos.Explorer.Listing

/-!
# Names for new files

`generate_unique_explorer_name` and `generate_unique_desktop_name`, which are the same function on
the tables of `explorer.c` and `compositor.c`: a name and then the same name with the numbers from
2 to 99 are compared with the names of the table, and the first one that differs from all of them
is taken, or else the last one.

The name is meant to be that of no item that exists.  It is exactly when one of the candidates is
the name of no item and the table lists the names of all candidates before it
(`newDocument_unused_iff`).
-/

namespace Names

open Compositor (Directory SameName WoosDirent isDotEntry Table listed recycleBinName
  syncDesktopItems)

/-! ### The candidates -/

/-- The digits of a number below 100. -/
def digits (num : Nat) : CString :=
  .ofBytes ((if 10 ≤ num then [.ofNat (48 + num / 10)] else []) ++ [.ofNat (48 + num % 10)])

/-- The candidate with a number. -/
def numbered (base ext : CString) (num : Nat) : CString := (base.append (digits num)).append ext

/-- The loop over the names of the table finds the name. -/
def taken (names : List CString) (name : CString) : Bool :=
  names.any (fun n => decide (SameName n name))

/-- The loop over the numbers, with the number of rounds left and the last candidate. -/
def numberLoop (names : List CString) (base ext : CString) : Nat → Nat → CString → CString
  | 0, _, last => last
  | n + 1, num, _ =>
    let candidate := numbered base ext num
    if taken names candidate then numberLoop names base ext n (num + 1) candidate else candidate

/-- The body of the two functions, for the names of a table. -/
def generateUniqueName (names : List CString) (base ext : CString) (maxLen : Nat) : CString :=
  let candidate := base.append ext
  (if taken names candidate then numberLoop names base ext 98 2 candidate else candidate).truncate
    (maxLen - 1)

/-- `generate_unique_explorer_name` -/
def generateUniqueExplorerName (s : Explorer.State) (base ext : CString) (maxLen : Nat) : CString :=
  generateUniqueName (s.items.map Explorer.FileItem.name) base ext maxLen

/-- The names of the table of the desktop. -/
def tableNames (t : Table) : List CString := (List.range t.count).map (fun i => (t.items i).name)

/-- `generate_unique_desktop_name` -/
def generateUniqueDesktopName (t : Table) (base ext : CString) (maxLen : Nat) : CString :=
  generateUniqueName (tableNames t) base ext maxLen

/-- `"NEWDOC"` -/
def newdoc : CString := .ofBytes [78, 69, 87, 68, 79, 67]

/-- `".TXT"` -/
def txt : CString := .ofBytes [46, 84, 88, 84]

/-! ### The names that are in use -/

/-- The candidates in the order in which they are tried. -/
def candidates (base ext : CString) : List CString :=
  base.append ext :: (List.range' 2 98).map (numbered base ext)

/-- The name is that of an item of a directory. -/
def Used (dir : Directory) (name : CString) : Prop :=
  ∃ e ∈ dir.getD [], isDotEntry e = false ∧ SameName e.name name

/-- The name is that of an item of the desktop, whose directory is `dir`. -/
def UsedOnDesktop (dir : Directory) (name : CString) : Prop :=
  SameName recycleBinName name ∨ Used dir name

/-- Some candidate is not in use, and the table lists all candidates before it. -/
def Offers (names : List CString) (used : CString → Prop) (cs : List CString) : Prop :=
  ∃ before name after, cs = before ++ name :: after ∧ ¬ used name
    ∧ ∀ c ∈ before, taken names c = true

/-! ### The first free candidate -/

theorem numberLoop_eq (names : List CString) (base ext : CString) (n num : Nat) (last : CString) :
  numberLoop names base ext n num last
    = (((List.range' num n).map (numbered base ext)).find? (fun c => !taken names c)).getD
      ((last :: (List.range' num n).map (numbered base ext)).getLast (List.cons_ne_nil _ _))
  := by
  induction n generalizing num last with
  | zero => rfl
  | succ n ih =>
      rw [numberLoop, List.range'_succ, List.map_cons, List.getLast_cons (List.cons_ne_nil _ _)]
      split
      case isTrue h => rw [ih, List.find?_cons_of_neg (by simp [h])]
      case isFalse h => rw [List.find?_cons_of_pos (by simp [h]), Option.getD_some]

theorem generateUniqueName_eq (names : List CString) (base ext : CString) (maxLen : Nat) :
  generateUniqueName names base ext maxLen
    = (((candidates base ext).find? (fun c => !taken names c)).getD
        ((candidates base ext).getLast (List.cons_ne_nil _ _))).truncate (maxLen - 1)
  := by
  rw [generateUniqueName]
  congr 1
  dsimp only [candidates]
  split
  case isTrue h => rw [numberLoop_eq, List.find?_cons_of_neg (by simp [h])]
  case isFalse h => rw [List.find?_cons_of_pos (by simp [h]), Option.getD_some]

/-- When the table lists no name but those in use, its first free candidate, or the last one, is
not in use exactly when the table offers a name. -/
theorem not_used_find_iff {names : List CString} {used : CString → Prop}
    (hnames : ∀ n ∈ names, ∀ c, SameName n c → used c) {cs : List CString} (hcs : cs ≠ []) :
  ¬ used ((cs.find? (fun c => !taken names c)).getD (cs.getLast hcs)) ↔ Offers names used cs
  := by
  have hused : ∀ c, taken names c = true → used c := by
    intro c h
    obtain ⟨n, hn, hsame⟩ := List.any_eq_true.mp h
    exact hnames n hn c (by simpa using hsame)
  constructor
  · intro h
    cases hfind : cs.find? (fun c => !taken names c) with
    | none =>
        rw [hfind, Option.getD_none] at h
        apply absurd _ h
        apply hused
        simpa using List.find?_eq_none.mp hfind _ (List.getLast_mem hcs)
    | some name =>
        rw [hfind, Option.getD_some] at h
        obtain ⟨-, before, after, heq, hbefore⟩ := List.find?_eq_some_iff_append.mp hfind
        use before, name, after, heq, h
        intro c hc
        simpa using hbefore c hc
  · rintro ⟨before, name, after, heq, hname, hbefore⟩
    have hfind : cs.find? (fun c => !taken names c) = some name := by
      rw [List.find?_eq_some_iff_append]
      constructor
      · simpa using fun h => hname (hused name h)
      · use before, after, heq
        intro c hc
        simpa using hbefore c hc
    rwa [hfind, Option.getD_some]

/-! ### The tables -/

theorem Used.of_sameName {dir : Directory} {e : WoosDirent} (he : e ∈ dir.getD [])
    (hdot : isDotEntry e = false) {c : CString} (h : SameName e.name c) :
  Used dir c
  := ⟨e, he, hdot, h⟩

theorem used_of_explorer (fs : CString → Directory) (path : CString) (s : Explorer.State)
    {n : CString} (hn : n ∈ (Explorer.loadDirectory fs path s).items.map Explorer.FileItem.name)
    (c : CString) (h : SameName n c) :
  Used (fs path) c
  := by
  obtain ⟨it, hit, rfl⟩ := List.mem_map.mp hn
  have hmem := (Explorer.loadDirectory_isListing fs path s).perm.mem_iff.mp (List.mem_map_of_mem hit)
  obtain ⟨e, he, heq⟩ := List.mem_map.mp hmem
  obtain ⟨hdir, hdot⟩ := List.mem_filter.mp
    (Explorer.mem_of_mem_eraseDupsBy (List.mem_of_mem_take he))
  rw [← (Prod.mk.inj heq).1] at h
  apply Used.of_sameName hdir (by simpa using hdot) h

theorem of_mem_listLoop {es l : List WoosDirent} {e : WoosDirent}
    (h : e ∈ Compositor.listLoop es l) :
  e ∈ l ∨ e ∈ es ∧ isDotEntry e = false
  := by
  induction es generalizing l with
  | nil => exact .inl h
  | cons e' es ih =>
      have hcons : e ∈ es ∧ isDotEntry e = false → e ∈ e' :: es ∧ isDotEntry e = false :=
        And.imp_left (List.mem_cons_of_mem e')
      rw [Compositor.listLoop] at h
      split_ifs at h with hroom hdot hdup
      · exact (ih h).imp_right hcons
      · exact (ih h).imp_right hcons
      · rcases ih h with h | h
        · rcases List.mem_append.mp h with h | h
          · exact .inl h
          · rw [List.mem_singleton.mp h]
            exact .inr ⟨List.mem_cons_self, by simpa using hdot⟩
        · exact .inr (hcons h)
      · exact .inl h

theorem used_of_desktop (dir : Directory) (t : Table) {n : CString}
    (hn : n ∈ tableNames (syncDesktopItems dir t).2) (c : CString) (h : SameName n c) :
  UsedOnDesktop dir c
  := by
  obtain ⟨i, hi, rfl⟩ := List.mem_map.mp hn
  rw [List.mem_range, Compositor.sync_count] at hi
  cases i with
  | zero =>
      rw [Compositor.sync_zero] at h
      exact .inl h
  | succ i =>
      obtain ⟨p, hp, hitem⟩ := Compositor.sync_file dir t (Nat.lt_of_succ_lt_succ hi)
      rw [hitem, Compositor.direntItem_name] at h
      have hlisted := Compositor.mem_listed_of_placed (List.mem_of_getElem? hp)
      obtain ⟨hdir, hdot⟩ := (of_mem_listLoop hlisted).resolve_left List.not_mem_nil
      exact .inr (.of_sameName hdir hdot h)

/-! ### New documents -/

theorem length_digits_le (num : Nat) :
  (digits num).bytes.length ≤ 2
  := by
  apply (List.takeWhile_sublist _).length_le.trans
  split <;> simp

/-- Every candidate for a new document fits into `candidate` and `doc_name`, and into the name of
an item. -/
theorem length_candidate {c : CString} (h : c ∈ candidates newdoc txt) :
  10 ≤ c.bytes.length ∧ c.bytes.length ≤ 12
  := by
  have hnewdoc : newdoc.bytes.length = 6 := rfl
  have htxt : txt.bytes.length = 4 := rfl
  rcases List.mem_cons.mp h with rfl | h
  · decide
  · obtain ⟨num, -, rfl⟩ := List.mem_map.mp h
    have hdigits := length_digits_le num
    simp only [numbered, CString.append, List.length_append, hnewdoc, htxt]
    omega

theorem candidates_ne_nil (base ext : CString) :
  candidates base ext ≠ []
  := List.cons_ne_nil _ _

/-- The buffers are large enough for the name of a new document. -/
theorem generateUniqueName_newdoc (names : List CString) :
  generateUniqueName names newdoc txt 32
    = ((candidates newdoc txt).find? (fun c => !taken names c)).getD
      ((candidates newdoc txt).getLast (candidates_ne_nil newdoc txt))
  := by
  rw [generateUniqueName_eq]
  apply CString.truncate_of_length_le
  have hmem : ((candidates newdoc txt).find? (fun c => !taken names c)).getD
      ((candidates newdoc txt).getLast (candidates_ne_nil newdoc txt)) ∈ candidates newdoc txt := by
    cases hfind : (candidates newdoc txt).find? (fun c => !taken names c) with
    | none => exact List.getLast_mem (candidates_ne_nil newdoc txt)
    | some name => exact List.mem_of_find?_eq_some hfind
  apply (length_candidate hmem).2.trans
  decide

/-- The name for a new document in the directory that the explorer has loaded. -/
theorem explorerName_unused_iff (fs : CString → Directory) (path : CString) (s : Explorer.State) :
  ¬ Used (fs path) (generateUniqueExplorerName (Explorer.loadDirectory fs path s) newdoc txt 32)
    ↔ Offers ((Explorer.loadDirectory fs path s).items.map Explorer.FileItem.name)
      (Used (fs path)) (candidates newdoc txt)
  := by
  rw [generateUniqueExplorerName, generateUniqueName_newdoc]
  apply not_used_find_iff (fun n hn c h => used_of_explorer fs path s hn c h)

/-- The name for a new document on the desktop. -/
theorem desktopName_unused_iff (dir : Directory) (t : Table) :
  ¬ UsedOnDesktop dir (generateUniqueDesktopName (syncDesktopItems dir t).2 newdoc txt 32)
    ↔ Offers (tableNames (syncDesktopItems dir t).2) (UsedOnDesktop dir) (candidates newdoc txt)
  := by
  rw [generateUniqueDesktopName, generateUniqueName_newdoc]
  apply not_used_find_iff (fun n hn c h => used_of_desktop dir t hn c h)

/-- The name for a new document in the directory that the explorer has loaded, and on the desktop,
is that of no item exactly when the table offers one. -/
theorem newDocument_unused_iff
    (fs : CString → Directory) (path : CString) (s : Explorer.State) (dir : Directory) (t : Table) :
  (¬ Used (fs path) (generateUniqueExplorerName (Explorer.loadDirectory fs path s) newdoc txt 32)
      ↔ Offers ((Explorer.loadDirectory fs path s).items.map Explorer.FileItem.name)
        (Used (fs path)) (candidates newdoc txt))
  ∧ (¬ UsedOnDesktop dir (generateUniqueDesktopName (syncDesktopItems dir t).2 newdoc txt 32)
      ↔ Offers (tableNames (syncDesktopItems dir t).2) (UsedOnDesktop dir) (candidates newdoc txt))
  := ⟨explorerName_unused_iff fs path s, desktopName_unused_iff dir t⟩

/-- A directory with a file of every candidate's name. -/
def crowded : List WoosDirent :=
  (candidates newdoc txt).map (fun c =>
    ⟨c.truncate 23, false, 0, by rw [CString.bytes_truncate, List.length_take]; omega⟩)

theorem exists_mem_crowded {name : CString} (h : name ∈ candidates newdoc txt) :
  ∃ e ∈ crowded, e.name = name
  := by
  refine ⟨_, List.mem_map_of_mem h, ?_⟩
  apply CString.truncate_of_length_le
  apply (length_candidate h).2.trans
  decide

/-- When there is a file of every candidate's name, the name is that of one of them. -/
theorem not_newDocument_unused :
  ¬ ∀ (fs : CString → Directory) (path : CString) (s : Explorer.State),
    ¬ Used (fs path) (generateUniqueExplorerName (Explorer.loadDirectory fs path s) newdoc txt 32)
  := by
  intro h
  obtain ⟨before, name, after, heq, hname, -⟩ :=
    (explorerName_unused_iff (fun _ => some crowded) .empty ⟨[], 0, 0, .empty⟩).mp
      (h (fun _ => some crowded) _ _)
  have hmem : name ∈ candidates newdoc txt := by rw [heq]; simp
  have hmin := (length_candidate hmem).1
  obtain ⟨e, he, rfl⟩ := exists_mem_crowded hmem
  apply hname
  use e, he
  constructor
  · simp only [isDotEntry, decide_eq_false_iff_not]
    rintro (hdot | hdot)
    · rw [hdot] at hmin
      exact absurd hmin (by decide)
    · rw [hdot] at hmin
      exact absurd hmin (by decide)
  · apply SameName.refl

end Names
