import Woos.Compositor.Desktop
import Woos.Explorer.Names
import Woos.Lib.Run
import Woos.Lib.StringBuffer

/-!
# Paths in the explorer

`open_item`, `navigate_up`, `get_item_path`, `paste_to_current`, `apply_explorer_dialog` and the
menu's commands of `explorer.c`, as far as they are about paths.  A path is put together in a
buffer of 64 bytes, from the current path and a name; the step of the explorer has no result when
the path does not fit.

A run has a result exactly when every path that its steps put together fits, and then going up
right after a directory has been opened leads back to the path before (`paths_fit_iff`).
-/

namespace Explorer

open Compositor (Directory WoosDirent isSystemItem baseName)

/-! ### The functions -/

/-- `"/"` -/
def slash : CString := .ofBytes [47]

/-- What the explorer knows between two events. -/
structure Session where
  state : State
  clipboardPath : StringBuffer 64
  clipboardIsCut : Bool

/-- The item with an index, after the check of its bounds. -/
def State.item (s : State) (idx : Int) : Option FileItem :=
  if 0 ≤ idx then s.items[idx.toNat]? else none

/-- The path of a name in the current directory, put together in a buffer of 64 bytes:
`new_path` and `full_path` in `open_item`, `dest`, `full_new`, `new_p`. -/
def joinPath (current name : CString) : Option (StringBuffer 64) :=
  if current = slash then do
    let path ← StringBuffer.strcpy slash
    path.strcat name
  else do
    let path ← StringBuffer.strcpy current
    let path ← path.strcat slash
    path.strcat name

/-- `get_item_path` -/
def getItemPath (s : State) (idx : Int) : Option (StringBuffer 64) :=
  match s.item idx with
  | none => StringBuffer.strcpy .empty
  | some it => joinPath s.currentPath it.name

/-- `open_item`: a directory is loaded, a file is given to a program. -/
def openItem (fs : CString → Directory) (idx : Int) (s : State) : Option State :=
  match s.item idx with
  | none => some s
  | some it => do
    let path ← joinPath s.currentPath it.name
    if it.isDir then some (loadDirectory fs path.string s) else some s

/-- The loop of `navigate_up`: the length up to the last slash. -/
def upLength (path : List UInt8) : Nat → Nat
  | 0 => 0
  | len + 1 => if path[len]? = some 47 then len + 1 else upLength path len

/-- `navigate_up` -/
def navigateUp (fs : CString → Directory) (s : State) : State :=
  if s.currentPath = slash then s
  else
    let len := upLength s.currentPath.bytes s.currentPath.length
    if len ≤ 1 then loadDirectory fs slash s
    else loadDirectory fs (s.currentPath.truncate (len - 1)) s

/-- The name of the file whose path is in the clipboard. -/
def lastName (path : CString) : CString where
  bytes := baseName path.bytes
  ne_zero b hb := by
    apply path.ne_zero
    rw [baseName, List.mem_reverse] at hb
    exact List.mem_reverse.mp (List.takeWhile_subset _ hb)

/-- `paste_to_current` -/
def pasteToCurrent (fs : CString → Directory) (s : Session) : Option Session :=
  if s.clipboardPath.string = .empty then some s
  else do
    let _dest ← joinPath s.state.currentPath (lastName s.clipboardPath.string)
    let clipboard := if s.clipboardIsCut then ⟨.empty, by decide⟩ else s.clipboardPath
    some { s with
      state := loadDirectory fs s.state.currentPath s.state
      clipboardPath := clipboard }

/-- `apply_explorer_dialog` -/
def applyExplorerDialog (fs : CString → Directory) (mode : Nat) (input : CString) (target : Int)
    (s : State) : Option State :=
  if input = .empty then some s
  else do
    let _fullNew ← joinPath s.currentPath input
    match s.item target with
    | none => some (loadDirectory fs s.currentPath s)
    | some it =>
      if mode = 4 ∧ !isSystemItem it.name then do
        let _oldP ← getItemPath s target
        some (loadDirectory fs s.currentPath s)
      else some (loadDirectory fs s.currentPath s)

/-- The places of the side bar. -/
inductive Place
  | desktop | recycle | drive

/-- The path of a place. -/
def Place.path : Place → CString
  | desktop => .ofBytes [47, 68, 69, 83, 75, 84, 79, 80]
  | recycle => .ofBytes [47, 82, 69, 67, 89, 67, 76, 69]
  | drive => slash

/-- What the user does in the explorer. -/
inductive Event
  | openItem (idx : Int)
  | navigateUp
  /-- a place of the side bar -/
  | goTo (place : Place)
  /-- the directory is read again -/
  | refresh
  /-- the menu's commands that cut or copy an item -/
  | toClipboard (idx : Int) (cut : Bool)
  /-- the menu's other commands that use the path of an item, and then read the directory again
  or not -/
  | itemCommand (idx : Int) (reload : Bool)
  | paste
  /-- the menu's command for a new text document -/
  | newDocument
  /-- a dialog is confirmed -/
  | dialog (mode : Nat) (input : CString) (target : Int)

/-- One event; `fs` is what the file system reports about directories after it. -/
def step (s : Session) : Event × (CString → Directory) → Option Session
  | (.openItem idx, fs) => do
    let state ← openItem fs idx s.state
    some { s with state }
  | (.navigateUp, fs) => some { s with state := navigateUp fs s.state }
  | (.goTo place, fs) => some { s with state := loadDirectory fs place.path s.state }
  | (.refresh, fs) => some { s with state := loadDirectory fs s.state.currentPath s.state }
  | (.toClipboard idx cut, _) => do
    let path ← getItemPath s.state idx
    some { s with clipboardPath := path, clipboardIsCut := cut }
  | (.itemCommand idx reload, fs) => do
    let _path ← getItemPath s.state idx
    some (if reload then { s with state := loadDirectory fs s.state.currentPath s.state } else s)
  | (.paste, fs) => pasteToCurrent fs s
  | (.newDocument, fs) => do
    let name := Names.generateUniqueExplorerName s.state Names.newdoc Names.txt 32
    let _newP ← joinPath s.state.currentPath name
    some { s with state := loadDirectory fs s.state.currentPath s.state }
  | (.dialog mode input target, fs) => do
    let state ← applyExplorerDialog fs mode input target s.state
    some { s with state }

/-- The explorer as it starts. -/
def start (fs : CString → Directory) : Session where
  state := loadDirectory fs slash ⟨[], 0, 0, slash⟩
  clipboardPath := ⟨.empty, by decide⟩
  clipboardIsCut := false

/-! ### What fits -/

/-- The path of a name in a directory has at most 63 bytes. -/
def Fits (current name : CString) : Prop :=
  (if current = slash then 0 else current.length) + 1 + name.length ≤ 63

instance (current name : CString) : Decidable (Fits current name) :=
  inferInstanceAs (Decidable (_ ≤ _))

/-- The path of an item fits. -/
def ItemFits (s : State) (idx : Int) : Prop :=
  ∀ it, s.item idx = some it → Fits s.currentPath it.name

/-- The paths that an event puts together fit. -/
def EventFits (s : Session) : Event × (CString → Directory) → Prop
  | (.openItem idx, _) | (.toClipboard idx _, _) | (.itemCommand idx _, _) => ItemFits s.state idx
  | (.paste, _) => s.clipboardPath.string ≠ .empty →
    Fits s.state.currentPath (lastName s.clipboardPath.string)
  | (.newDocument, _) =>
    Fits s.state.currentPath (Names.generateUniqueExplorerName s.state Names.newdoc Names.txt 32)
  | (.dialog mode input target, _) => input ≠ .empty → Fits s.state.currentPath input
    ∧ ∀ it, s.state.item target = some it → mode = 4 → isSystemItem it.name = false →
      Fits s.state.currentPath it.name
  | (.navigateUp, _) | (.goTo _, _) | (.refresh, _) => True

theorem joinPath_eq (current name : CString) :
  joinPath current name
    = StringBuffer.strcpy ((if current = slash then slash else current.append slash).append name)
  := by
  rw [joinPath]
  split
  case isTrue => exact StringBuffer.strcpy_bind_strcat slash name
  case isFalse =>
    show ((StringBuffer.strcpy current).bind fun path => (path.strcat slash).bind _) = _
    rw [← Option.bind_assoc, StringBuffer.strcpy_bind_strcat, StringBuffer.strcpy_bind_strcat]

theorem joinPath_isSome_iff {current name : CString} :
  (joinPath current name).isSome ↔ Fits current name
  := by
  have hslash : slash.length = 1 := rfl
  rw [joinPath_eq, StringBuffer.strcpy_isSome_iff, CString.length_append, Fits]
  split
  · rw [hslash]
    omega
  · rw [CString.length_append, hslash]
    omega

theorem joinPath_eq_some {current name : CString} {path : StringBuffer 64}
    (h : joinPath current name = some path) :
  path.string = (if current = slash then slash else current.append slash).append name
  := by
  rw [joinPath_eq] at h
  exact StringBuffer.strcpy_eq_some_iff.mp h

theorem getItemPath_isSome_iff {s : State} {idx : Int} :
  (getItemPath s idx).isSome ↔ ItemFits s idx
  := by
  rw [getItemPath, ItemFits]
  cases s.item idx with
  | none => simp [StringBuffer.strcpy_isSome_iff, CString.length]
  | some it => simp [joinPath_isSome_iff]

theorem openItem_isSome_iff {fs : CString → Directory} {s : State} {idx : Int} :
  (openItem fs idx s).isSome ↔ ItemFits s idx
  := by
  rw [openItem, ItemFits]
  cases s.item idx with
  | none => simp
  | some it =>
      have hpath := @joinPath_isSome_iff s.currentPath it.name
      cases h : joinPath s.currentPath it.name with
      | none => simpa [h] using hpath
      | some path =>
          have hdir : (if it.isDir then some (loadDirectory fs path.string s) else some s).isSome := by
            split <;> rfl
          simpa [h, hdir] using hpath

theorem applyExplorerDialog_isSome_iff
    {fs : CString → Directory} {mode : Nat} {input : CString} {target : Int} {s : State} :
  (applyExplorerDialog fs mode input target s).isSome
    ↔ (input ≠ .empty → Fits s.currentPath input
      ∧ ∀ it, s.item target = some it → mode = 4 → isSystemItem it.name = false →
        Fits s.currentPath it.name)
  := by
  rw [applyExplorerDialog]
  split
  case isTrue h => simp [h]
  case isFalse hinput =>
    have hpath := @joinPath_isSome_iff s.currentPath input
    cases hjoin : joinPath s.currentPath input with
    | none =>
        rw [hjoin] at hpath
        simpa [hinput] using fun h => absurd (hpath.mpr h) (by simp)
    | some path =>
        rw [hjoin] at hpath
        have hfits := hpath.mp rfl
        have hold := @getItemPath_isSome_iff s target
        rw [ItemFits] at hold
        cases hit : s.item target with
        | none => simp [hinput, hfits]
        | some it =>
            by_cases hrename : mode = 4 ∧ (!isSystemItem it.name) = true
            · rw [hit] at hold
              have hitem : Fits s.currentPath it.name ↔ (getItemPath s target).isSome := by
                rw [hold]
                simp
              simp only [Option.bind_eq_bind, Option.bind_some, if_pos hrename]
              cases hget : getItemPath s target with
              | none => simpa [hinput, hfits, hitem, hget] using hrename
              | some old => simp [hinput, hfits, hitem, hget]
            · simp only [Option.bind_eq_bind, Option.bind_some, if_neg hrename]
              simpa [hinput, hfits] using fun hmode hsystem => absurd ⟨hmode, by simp [hsystem]⟩ hrename

/-- A step has a result exactly when the paths that it puts together fit. -/
theorem step_isSome_iff (s : Session) (e : Event × (CString → Directory)) :
  (step s e).isSome ↔ EventFits s e
  := by
  obtain ⟨e, fs⟩ := e
  cases e with
  | openItem idx =>
      rw [EventFits, ← @openItem_isSome_iff fs, step]
      cases openItem fs idx s.state <;> simp
  | navigateUp => simp [step, EventFits]
  | goTo place => simp [step, EventFits]
  | refresh => simp [step, EventFits]
  | toClipboard idx cut =>
      rw [EventFits, ← getItemPath_isSome_iff, step]
      cases getItemPath s.state idx <;> simp
  | itemCommand idx reload =>
      rw [EventFits, ← getItemPath_isSome_iff, step]
      cases getItemPath s.state idx <;> simp
  | paste =>
      rw [EventFits, ← joinPath_isSome_iff, step, pasteToCurrent]
      split
      case isTrue h => simp [h]
      case isFalse h =>
        cases joinPath s.state.currentPath (lastName s.clipboardPath.string) <;> simp [h]
  | newDocument =>
      rw [EventFits, ← joinPath_isSome_iff, step]
      cases joinPath s.state.currentPath
        (Names.generateUniqueExplorerName s.state Names.newdoc Names.txt 32) <;> simp
  | dialog mode input target =>
      rw [EventFits, ← @applyExplorerDialog_isSome_iff fs, step]
      cases applyExplorerDialog fs mode input target s.state <;> simp

/-! ### Going up -/

@[simp]
theorem loadDirectory_currentPath (fs : CString → Directory) (path : CString) (s : State) :
  (loadDirectory fs path s).currentPath = path.truncate 63
  := rfl

/-- The loop stops at the last slash. -/
theorem upLength_append (dir name : List UInt8) (h : 47 ∉ name) {k : Nat} (hk : k ≤ name.length) :
  upLength (dir ++ 47 :: name) (dir.length + 1 + k) = dir.length + 1
  := by
  induction k with
  | zero =>
      rw [Nat.add_zero, upLength, if_pos]
      simp
  | succ k ih =>
      rw [← Nat.add_assoc, upLength, if_neg, ih (Nat.le_of_succ_le hk)]
      have hget : (dir ++ 47 :: name)[dir.length + 1 + k]? = name[k]? := by
        rw [List.getElem?_append_right (by omega)]
        have hindex : dir.length + 1 + k - dir.length = k + 1 := by omega
        rw [hindex, List.getElem?_cons_succ]
      rw [hget]
      intro hslash
      exact h (List.mem_of_getElem? hslash)

/-- The current path is not empty and fits into its buffer. -/
structure PathOk (s : State) : Prop where
  ne_nil : s.currentPath.bytes ≠ []
  length_le : s.currentPath.length ≤ 63

theorem load_pathOk (fs : CString → Directory) {path : CString} (h : path.bytes ≠ []) (s : State) :
  PathOk (loadDirectory fs path s)
  := by
  constructor
  · rw [loadDirectory_currentPath, CString.bytes_truncate]
    simpa using h
  · rw [loadDirectory_currentPath, CString.length_truncate]
    apply Nat.min_le_left

theorem openItem_pathOk {fs : CString → Directory} {idx : Int} {s s' : State} (hs : PathOk s)
    (h : openItem fs idx s = some s') :
  PathOk s'
  := by
  rw [openItem] at h
  split at h
  case h_1 =>
    cases h
    exact hs
  case h_2 it =>
    obtain ⟨path, hpath, h⟩ := Option.bind_eq_some_iff.mp h
    have hne : path.string.bytes ≠ [] := by
      rw [joinPath_eq_some hpath]
      split <;> simp [slash, CString.ofBytes]
    split at h
    · cases h
      apply load_pathOk fs hne
    · cases h
      exact hs

theorem navigateUp_pathOk (fs : CString → Directory) {s : State} (hs : PathOk s) :
  PathOk (navigateUp fs s)
  := by
  rw [navigateUp]
  split
  · exact hs
  dsimp only
  split
  case isTrue =>
    apply load_pathOk
    decide
  case isFalse hlen =>
    apply load_pathOk
    rw [CString.bytes_truncate]
    simpa using ⟨by omega, hs.ne_nil⟩

theorem applyExplorerDialog_pathOk
    {fs : CString → Directory} {mode : Nat} {input : CString} {target : Int} {s s' : State}
    (hs : PathOk s) (h : applyExplorerDialog fs mode input target s = some s') :
  PathOk s'
  := by
  have hload := load_pathOk fs hs.ne_nil s
  rw [applyExplorerDialog] at h
  split at h
  · cases h
    exact hs
  obtain ⟨path, -, h⟩ := Option.bind_eq_some_iff.mp h
  split at h
  · cases h
    exact hload
  split at h
  · obtain ⟨old, -, h⟩ := Option.bind_eq_some_iff.mp h
    cases h
    exact hload
  · cases h
    exact hload

theorem step_pathOk {s s' : Session} {e : Event × (CString → Directory)} (hs : PathOk s.state)
    (h : step s e = some s') :
  PathOk s'.state
  := by
  obtain ⟨e, fs⟩ := e
  have hload := load_pathOk fs hs.ne_nil s.state
  cases e with
  | openItem idx =>
      obtain ⟨state, hopen, h⟩ := Option.bind_eq_some_iff.mp h
      cases h
      exact openItem_pathOk hs hopen
  | navigateUp =>
      cases h
      exact navigateUp_pathOk fs hs
  | goTo place =>
      cases h
      exact load_pathOk fs (by cases place <;> decide) s.state
  | refresh =>
      cases h
      exact hload
  | toClipboard idx cut =>
      obtain ⟨path, -, h⟩ := Option.bind_eq_some_iff.mp h
      cases h
      exact hs
  | itemCommand idx reload =>
      obtain ⟨path, -, h⟩ := Option.bind_eq_some_iff.mp h
      cases h
      split
      · exact hload
      · exact hs
  | paste =>
      rw [step, pasteToCurrent] at h
      split at h
      · cases h
        exact hs
      obtain ⟨dest, -, h⟩ := Option.bind_eq_some_iff.mp h
      cases h
      exact hload
  | newDocument =>
      obtain ⟨path, -, h⟩ := Option.bind_eq_some_iff.mp h
      cases h
      exact hload
  | dialog mode input target =>
      obtain ⟨state, hdialog, h⟩ := Option.bind_eq_some_iff.mp h
      cases h
      exact applyExplorerDialog_pathOk hs hdialog

/-- Going up from the path of a name in a directory leads to the directory. -/
theorem navigateUp_currentPath {fs : CString → Directory} {s : State} (dir : CString) {name : CString}
    (hpath : s.currentPath.bytes = dir.bytes ++ 47 :: name.bytes) (hname : 47 ∉ name.bytes)
    (hdir : dir.length ≤ 63) :
  (navigateUp fs s).currentPath = if dir = .empty then slash else dir
  := by
  have hlength : s.currentPath.length = dir.bytes.length + 1 + name.bytes.length := by
    rw [CString.length, hpath, List.length_append, List.length_cons]
    omega
  have hup : upLength s.currentPath.bytes s.currentPath.length = dir.length + 1 := by
    rw [hlength, hpath]
    apply upLength_append _ _ hname (Nat.le_refl _)
  rw [navigateUp]
  split
  case isTrue hslash =>
    rw [hslash]
    rw [hslash] at hlength
    have hone : slash.length = 1 := rfl
    have hempty : dir.bytes = [] := List.length_eq_zero_iff.mp (by omega)
    rw [if_pos (CString.ext hempty)]
  case isFalse =>
    dsimp only
    rw [hup]
    by_cases hempty : dir = .empty
    · subst hempty
      rw [if_pos (show CString.empty.length + 1 ≤ 1 from Nat.le_refl 1), if_pos rfl]
      rfl
    · have hpos : dir.bytes.length ≠ 0 := by
        intro hzero
        exact hempty (CString.ext (List.length_eq_zero_iff.mp hzero))
      have hlong : ¬ dir.length + 1 ≤ 1 := by
        rw [CString.length]
        omega
      rw [if_neg hlong, if_neg hempty, loadDirectory_currentPath]
      ext1
      rw [CString.bytes_truncate, CString.bytes_truncate, hpath, Nat.add_sub_cancel, CString.length,
        List.take_left, List.take_of_length_le hdir]

/-- A directory that fits is left for the one in which it has been opened. -/
theorem navigateUp_openItem
    {fs fs' : CString → Directory} {idx : Int} {it : FileItem} {s s' : State} (hs : PathOk s)
    (hit : s.item idx = some it) (hdir : it.isDir = true) (hname : 47 ∉ it.name.bytes)
    (h : openItem fs idx s = some s') :
  (navigateUp fs' s').currentPath = s.currentPath
  := by
  rw [openItem, hit] at h
  obtain ⟨path, hpath, h⟩ := Option.bind_eq_some_iff.mp h
  rw [if_pos hdir] at h
  cases h
  have hstring := joinPath_eq_some hpath
  have hcurrent : (loadDirectory fs path.string s).currentPath = path.string :=
    CString.truncate_of_length_le (Nat.le_of_lt_succ path.length_lt)
  by_cases hroot : s.currentPath = slash
  · rw [if_pos hroot] at hstring
    rw [navigateUp_currentPath .empty _ hname (Nat.zero_le _), if_pos rfl, hroot]
    rw [hcurrent, hstring]
    rfl
  · rw [if_neg hroot] at hstring
    have hne : s.currentPath ≠ .empty := fun hempty => hs.ne_nil (congrArg CString.bytes hempty)
    rw [navigateUp_currentPath s.currentPath _ hname hs.length_le, if_neg hne]
    rw [hcurrent, hstring, CString.bytes_append, CString.bytes_append, List.append_assoc]
    rfl

/-- After a directory has been opened, going up leads back to the path before. -/
def ReturnsUp (s : Session) : Prop :=
  ∀ fs fs' idx it s', s.state.item idx = some it → it.isDir = true → 47 ∉ it.name.bytes →
    step s (.openItem idx, fs) = some s' →
    ∃ s'', step s' (.navigateUp, fs') = some s''
      ∧ s''.state.currentPath = s.state.currentPath

/-- A run stays inside the buffers exactly when every path that its steps put together fits; and
wherever it leads to, going up leads back from a directory that has been opened. -/
theorem paths_fit_iff
    (fs : CString → Directory) (events : List (Event × (CString → Directory))) :
  ((Run.exec step (start fs) events).isSome ↔ Run.Guarded step EventFits (start fs) events)
  ∧ ∀ s, Run.exec step (start fs) events = some s → ReturnsUp s
  := by
  constructor
  · apply Run.exec_isSome_iff step_isSome_iff
  · intro s hexec
    have hstart : PathOk (start fs).state := load_pathOk fs (by decide) ⟨[], 0, 0, slash⟩
    have hok : PathOk s.state := Run.exec_safe (fun s e s' hs _ h => step_pathOk hs h) hstart
      (Run.guarded_of_forall _ (fun _ _ _ => trivial)) hexec
    intro fs fs' idx it s' hit hdir hname h
    obtain ⟨state, hopen, h⟩ := Option.bind_eq_some_iff.mp h
    cases h
    exact ⟨_, rfl, navigateUp_openItem hok hit hdir hname hopen⟩

/-- A directory called `DIRECTOR`. -/
def director : WoosDirent := ⟨.ofBytes [68, 73, 82, 69, 67, 84, 79, 82], true, 0, by decide⟩

/-- The first item is opened eight times, and every directory contains a directory `DIRECTOR`: the
path of the eighth has 72 bytes. -/
theorem not_paths_fit :
  ¬ ∀ fs events, (Run.exec step (start fs) events).isSome
  := by
  intro h
  have hdeep := h (fun _ => some [director])
    (List.replicate 8 (.openItem 0, fun _ => some [director]))
  exact absurd hdeep (by decide)

end Explorer
