import Mathlib.Logic.Function.Basic
import Mathlib.Tactic.Use

/-!
# Pasting a file

The explorer and the desktop paste in the same way: a file that has been cut is renamed, and one that
has been copied is written in blocks of 512 bytes into a file that is opened without truncation.

A volume says which bytes the file of a name holds.  How many bytes a call reads or writes, and whether
the calls succeed, are the answers of the file system.
-/

namespace Paste

/-- What the files hold; `N` are the names by which the file system tells files apart. -/
abbrev Volume (N : Type) : Type := N → Option (List UInt8)

/-- The step of `f_rename` that fails: writing the new entry, or removing the old one. -/
inductive RenameFault where
  | none
  | register
  | remove
  deriving DecidableEq, Repr

/-- The answers of the file system: whether the files can be opened, how many bytes the reads and the
writes transfer at most, and how the renaming fails. -/
structure Answers where
  openSrc : Bool
  openDst : Bool
  read : Nat → Nat
  write : Nat → Nat
  rename : RenameFault

/-- The clipboard, and the files. -/
structure State (N : Type) where
  volume : Volume N
  clipboardPath : List UInt8
  clipboardIsCut : Bool

section Model

variable {N : Type} [DecidableEq N]

/-- The bytes of a file. -/
def contents (vol : Volume N) (name : N) : List UInt8 := (vol name).getD []

/-- The contents of a file after the bytes have been written at a position. -/
def overwrite (bytes : List UInt8) (pos : Nat) (data : List UInt8) : List UInt8 :=
  bytes.take pos ++ data ++ bytes.drop (pos + data.length)

/-- The number of bytes of the next block that a read returns. -/
def readCount (a : Answers) (i rem : Nat) : Nat := min (if rem > 512 then 512 else rem) (a.read i)

/-- The loop of the copy: `rem` bytes are left, and the positions in the files are `pos` and `dpos`. -/
def copyLoop (a : Answers) (src dest : N) (vol : Volume N) (i rem pos dpos : Nat) : Volume N :=
  if rem > 0 then
    let data := ((contents vol src).drop pos).take (readCount a i rem)
    if data.length = 0 then vol
    else
      let stored := data.take (a.write i)
      copyLoop a src dest
        (Function.update vol dest (some (overwrite (contents vol dest) dpos stored)))
        (i + 1) (rem - data.length) (pos + data.length) (dpos + stored.length)
  else vol
termination_by rem
decreasing_by
  rename_i hdata
  exact Nat.sub_lt ‹_› (Nat.pos_of_ne_zero hdata)

/-- Copy a file. -/
def copyFile (a : Answers) (src dest : N) (vol : Volume N) : Volume N :=
  match vol src with
  | none => vol
  | some bytes =>
      if a.openSrc && a.openDst then
        copyLoop a src dest
          (if (vol dest).isSome then vol else Function.update vol dest (some [])) 0 bytes.length 0 0
      else vol

/-- `f_rename` -/
def fRename (fault : RenameFault) (src dest : N) (vol : Volume N) : Volume N :=
  match vol src with
  | none => vol
  | some bytes =>
      if dest ≠ src ∧ (vol dest).isSome then vol
      else if fault = .register then vol
      else if fault = .remove ∨ dest = src then Function.update vol dest (some bytes)
      else Function.update (Function.update vol dest (some bytes)) src none

/-- The bytes after the last slash or backslash. -/
def lastSlash (path : List UInt8) : List UInt8 :=
  (path.reverse.takeWhile (fun c => c ≠ 0x2F ∧ c ≠ 0x5C)).reverse

/-- What both functions do with the destination. -/
def paste (resolve : List UInt8 → N) (a : Answers) (dest : List UInt8) (s : State N) : State N :=
  if s.clipboardPath = [] then s
  else if s.clipboardIsCut then
    { s with
      volume := fRename a.rename (resolve s.clipboardPath) (resolve dest) s.volume
      clipboardPath := [] }
  else { s with volume := copyFile a (resolve s.clipboardPath) (resolve dest) s.volume }

/-- `dest` in `paste_to_current` -/
def explorerDest (current path : List UInt8) : List UInt8 :=
  if current = [0x2F] then 0x2F :: lastSlash path else current ++ 0x2F :: lastSlash path

/-- `dest` in `paste_clipboard`: the file in `/DESKTOP/` -/
def desktopDest (path : List UInt8) : List UInt8 :=
  [0x2F, 0x44, 0x45, 0x53, 0x4B, 0x54, 0x4F, 0x50, 0x2F] ++ lastSlash path

/-- `paste_to_current` of the explorer -/
def pasteToCurrent (resolve : List UInt8 → N) (a : Answers) (current : List UInt8) (s : State N) :
    State N :=
  paste resolve a (explorerDest current s.clipboardPath) s

/-- `paste_clipboard` of the desktop -/
def pasteClipboard (resolve : List UInt8 → N) (a : Answers) (s : State N) : State N :=
  paste resolve a (desktopDest s.clipboardPath) s

end Model

/-! ### The bytes that are stored -/

/-- The bytes of the source that the writes store. -/
def stored (a : Answers) (source : List UInt8) (i rem pos : Nat) : List UInt8 :=
  if rem > 0 ∧ readCount a i rem ≠ 0 then
    (source.drop pos).take (min (readCount a i rem) (a.write i))
      ++ stored a source (i + 1) (rem - readCount a i rem) (pos + readCount a i rem)
  else []
termination_by rem
decreasing_by
  rename_i h
  exact Nat.sub_lt h.1 (Nat.pos_of_ne_zero h.2)

/-- Every read returns something until nothing is left, and every write stores what it is given. -/
def Complete (a : Answers) (i rem : Nat) : Prop :=
  if rem > 0 ∧ readCount a i rem ≠ 0 then
    readCount a i rem ≤ a.write i ∧ Complete a (i + 1) (rem - readCount a i rem)
  else rem = 0
termination_by rem
decreasing_by
  rename_i h
  exact Nat.sub_lt h.1 (Nat.pos_of_ne_zero h.2)

theorem readCount_le (a : Answers) (i rem : Nat) :
  readCount a i rem ≤ rem
  := by
  rw [readCount]
  split
  · omega
  · omega

theorem length_block {source : List UInt8} {pos rem n : Nat} (hpos : pos + rem = source.length)
    (hn : n ≤ rem) :
  ((source.drop pos).take n).length = n
  := by
  rw [List.length_take, List.length_drop]
  omega

theorem length_stored (a : Answers) (source : List UInt8) (i rem pos : Nat)
    (hpos : pos + rem = source.length) :
  (stored a source i rem pos).length ≤ rem
    ∧ ((stored a source i rem pos).length = rem ↔ Complete a i rem)
  := by
  induction i, rem, pos using stored.induct a with
  | case1 i rem pos h ih =>
      have hle := readCount_le a i rem
      obtain ⟨hlength, hiff⟩ := ih (by omega)
      have hblock : ((source.drop pos).take (min (readCount a i rem) (a.write i))).length
          = min (readCount a i rem) (a.write i) := length_block hpos (by omega)
      rw [stored, if_pos h, List.length_append, hblock, Complete, if_pos h, ← hiff]
      omega
  | case2 i rem pos h =>
      rw [stored, if_neg h, Complete, if_neg h, List.length_nil]
      omega

theorem stored_of_complete (a : Answers) (source : List UInt8) (i rem pos : Nat)
    (hpos : pos + rem = source.length) (hcomplete : Complete a i rem) :
  stored a source i rem pos = source.drop pos
  := by
  induction i, rem, pos using stored.induct a with
  | case1 i rem pos h ih =>
      have hle := readCount_le a i rem
      rw [Complete, if_pos h] at hcomplete
      rw [stored, if_pos h, Nat.min_eq_left hcomplete.1, ih (by omega) hcomplete.2, ← List.drop_drop]
      exact List.take_append_drop _ _
  | case2 i rem pos h =>
      rw [Complete, if_neg h] at hcomplete
      rw [stored, if_neg h, List.drop_eq_nil_of_le (by omega)]

/-! ### The loop -/

/-- What a file holds after the bytes of `front` have been written to its start. -/
def overlay (front prior : List UInt8) : List UInt8 := front ++ prior.drop front.length

theorem drop_overlay {front : List UInt8} (prior : List UInt8) {k : Nat} (h : front.length ≤ k) :
  (overlay front prior).drop k = prior.drop k
  := by
  rw [overlay, List.drop_append, List.drop_eq_nil_of_le h, List.nil_append, List.drop_drop]
  congr 1
  omega

theorem overwrite_overlay (front prior data : List UInt8) :
  overwrite (overlay front prior) front.length data = overlay (front ++ data) prior
  := by
  rw [overwrite, drop_overlay prior (Nat.le_add_right _ _), overlay, List.take_left', overlay,
    List.length_append]
  rfl

section Loop

variable {N : Type} [DecidableEq N] {a : Answers} {src dest : N}

/-- The loop writes the stored bytes over what the destination held. -/
theorem copyLoop_eq {source prior front : List UInt8} {vol : Volume N} {i rem pos : Nat}
    (hpos : pos + rem = source.length) (hfront : front.length ≤ pos)
    (hdest : vol dest = some (overlay front prior))
    (hsrc : (contents vol src).drop pos = source.drop pos) :
  copyLoop a src dest vol i rem pos front.length dest
    = some (overlay (front ++ stored a source i rem pos) prior)
  := by
  induction i, rem, pos using stored.induct a generalizing vol front with
  | case1 i rem pos h ih =>
      have hle := readCount_le a i rem
      have hlength := length_block hpos hle
      have hcontents : contents vol dest = overlay front prior := by
        rw [contents, hdest, Option.getD_some]
      rw [copyLoop, if_pos h.1, stored, if_pos h]
      dsimp only
      rw [hsrc, hlength, if_neg h.2, List.take_take, Nat.min_comm (a.write i), hcontents,
        overwrite_overlay, ← List.length_append]
      rw [← List.append_assoc]
      apply ih
      · omega
      · rw [List.length_append, length_block hpos (by omega)]
        omega
      · rw [Function.update_self]
      · by_cases hsame : src = dest
        · rw [contents, hsame, Function.update_self, Option.getD_some, drop_overlay]
          · have hprior : prior.drop pos = source.drop pos := by
              rw [← hsrc, hsame, hcontents, drop_overlay prior hfront]
            rw [← List.drop_drop, hprior, List.drop_drop]
          · rw [List.length_append, length_block hpos (by omega)]
            omega
        · have hkept : contents (Function.update vol dest
              (some (overlay (front ++ (source.drop pos).take (min (readCount a i rem) (a.write i)))
                prior))) src = contents vol src := by
            rw [contents, Function.update_of_ne hsame, contents]
          rw [hkept, ← List.drop_drop, hsrc, List.drop_drop]
  | case2 i rem pos h =>
      rw [stored, if_neg h, List.append_nil, copyLoop]
      split
      · next hrem =>
          have hzero : readCount a i rem = 0 := by
            by_contra hcon
            exact h ⟨hrem, hcon⟩
          dsimp only
          rw [hzero, if_pos (by rw [List.take_zero, List.length_nil]), hdest]
      · exact hdest

/-- A copy writes the stored bytes over what the destination held. -/
theorem copyFile_eq {vol : Volume N} {source : List UInt8} (hsource : vol src = some source)
    (hopen : a.openSrc = true ∧ a.openDst = true) :
  copyFile a src dest vol dest
    = some (overlay (stored a source 0 source.length 0) (contents vol dest))
  := by
  rw [copyFile, hsource]
  dsimp only
  rw [hopen.1, hopen.2, Bool.and_self, if_pos rfl]
  have hempty : overlay [] (contents vol dest) = contents vol dest := rfl
  refine copyLoop_eq (Nat.zero_add _) (Nat.le_refl ([] : List UInt8).length) ?_ ?_
  · rw [hempty, contents]
    cases hdest : vol dest with
    | none => rw [if_neg (by simp), Function.update_self, Option.getD_none]
    | some bytes => rw [if_pos (by simp), hdest, Option.getD_some]
  · rw [List.drop_zero, List.drop_zero, contents]
    split
    · rw [hsource, Option.getD_some]
    · next hdest =>
        have hne : src ≠ dest := by
          rintro rfl
          rw [hsource] at hdest
          exact hdest rfl
        rw [Function.update_of_ne hne, hsource, Option.getD_some]

end Loop

/-! ### When the destination gets the source -/

/-- What is not stored is in the destination already, which is as long as the source. -/
def AlreadyThere (a : Answers) (source prior : List UInt8) : Prop :=
  prior.length = source.length
    ∧ stored a source 0 source.length 0 <+: source
    ∧ prior.drop (stored a source 0 source.length 0).length
        = source.drop (stored a source 0 source.length 0).length

theorem overlay_eq_iff_isPrefix {front prior source : List UInt8} :
  overlay front prior = source
    ↔ front <+: source ∧ prior.drop front.length = source.drop front.length
  := by
  rw [overlay]
  constructor
  · rintro rfl
    exact ⟨List.prefix_append .., (List.drop_left' rfl).symm⟩
  · rintro ⟨hfront, hrest⟩
    obtain ⟨rest, rfl⟩ := hfront
    rw [hrest, List.drop_left' rfl]

/-- The bytes stored over what the destination held are the source. -/
theorem overlay_stored_iff (a : Answers) (source prior : List UInt8) :
  overlay (stored a source 0 source.length 0) prior = source
    ↔ (Complete a 0 source.length ∧ prior.length ≤ source.length) ∨ AlreadyThere a source prior
  := by
  obtain ⟨hle, hcomplete⟩ := length_stored a source 0 source.length 0 (Nat.zero_add _)
  have hlength : (overlay (stored a source 0 source.length 0) prior).length
      = (stored a source 0 source.length 0).length
        + (prior.length - (stored a source 0 source.length 0).length) := by
    rw [overlay, List.length_append, List.length_drop]
  constructor
  · intro heq
    rw [heq] at hlength
    by_cases hall : Complete a 0 source.length
    · have hfull := hcomplete.mpr hall
      exact Or.inl ⟨hall, by omega⟩
    · have hpart : (stored a source 0 source.length 0).length ≠ source.length :=
        fun hcon => hall (hcomplete.mp hcon)
      exact Or.inr ⟨by omega, overlay_eq_iff_isPrefix.mp heq⟩
  · rintro (⟨hall, hshort⟩ | ⟨-, hthere⟩)
    · have hstored := stored_of_complete a source 0 source.length 0 (Nat.zero_add _) hall
      rw [List.drop_zero] at hstored
      rw [overlay, hstored, List.drop_eq_nil_of_le hshort, List.append_nil]
    · exact overlay_eq_iff_isPrefix.mpr hthere

section Exact

variable {N : Type} [DecidableEq N]

/-- A rename that takes the source away leaves its bytes in the destination. -/
theorem fRename_moves {fault : RenameFault} {src dest : N} {vol : Volume N} {source : List UInt8}
    (hsource : vol src = some source) (hgone : fRename fault src dest vol src = none) :
  fRename fault src dest vol dest = some source
  := by
  rw [fRename, hsource] at hgone ⊢
  dsimp only at hgone ⊢
  by_cases htaken : dest ≠ src ∧ (vol dest).isSome
  · rw [if_pos htaken, hsource] at hgone
    exact absurd hgone (Option.some_ne_none source)
  rw [if_neg htaken] at hgone ⊢
  by_cases hregister : fault = .register
  · rw [if_pos hregister, hsource] at hgone
    exact absurd hgone (Option.some_ne_none source)
  rw [if_neg hregister] at hgone ⊢
  by_cases hremove : fault = .remove ∨ dest = src
  · rw [if_pos hremove, Function.update_self]
  · rw [if_neg hremove, Function.update_of_ne (fun hcon => hremove (Or.inr hcon)),
      Function.update_self]

/-- A file that has been copied has the bytes of the source afterwards; one that has been cut is only
gone when the destination has its bytes. -/
structure PastesExactly (src dest : N) (a : Answers) (s s' : State N) : Prop where
  copied : s.clipboardPath ≠ [] → s.clipboardIsCut = false → a.openSrc = true → a.openDst = true →
    ∀ source, s.volume src = some source → s'.volume dest = some source
  moved : s.clipboardPath ≠ [] → s.clipboardIsCut = true →
    ∀ source, s.volume src = some source → s'.volume src = none → s'.volume dest = some source

/-- What a copy needs of the file system and of what the destination held. -/
def CopyFits (src dest : N) (a : Answers) (s : State N) : Prop :=
  s.clipboardPath ≠ [] → s.clipboardIsCut = false → a.openSrc = true → a.openDst = true →
    ∀ source, s.volume src = some source →
      (Complete a 0 source.length ∧ (contents s.volume dest).length ≤ source.length)
        ∨ AlreadyThere a source (contents s.volume dest)

theorem paste_exact_iff (resolve : List UInt8 → N) (a : Answers) (dest : List UInt8) (s : State N) :
  PastesExactly (resolve s.clipboardPath) (resolve dest) a s (paste resolve a dest s)
    ↔ CopyFits (resolve s.clipboardPath) (resolve dest) a s
  := by
  have hcopy (hpath : s.clipboardPath ≠ []) (hcut : s.clipboardIsCut = false)
      (hsrc : a.openSrc = true) (hdst : a.openDst = true) {source : List UInt8}
      (hsource : s.volume (resolve s.clipboardPath) = some source) :
      (paste resolve a dest s).volume (resolve dest) = some source
        ↔ (Complete a 0 source.length ∧ (contents s.volume (resolve dest)).length ≤ source.length)
          ∨ AlreadyThere a source (contents s.volume (resolve dest)) := by
    rw [paste, if_neg hpath, if_neg (by rw [hcut]; decide), ← overlay_stored_iff]
    dsimp only
    rw [copyFile_eq hsource ⟨hsrc, hdst⟩, Option.some_inj]
  constructor
  · rintro ⟨hcopied, -⟩ hpath hcut hsrc hdst source hsource
    exact (hcopy hpath hcut hsrc hdst hsource).mp (hcopied hpath hcut hsrc hdst source hsource)
  · intro hfits
    constructor
    · intro hpath hcut hsrc hdst source hsource
      exact (hcopy hpath hcut hsrc hdst hsource).mpr (hfits hpath hcut hsrc hdst source hsource)
    · intro hpath hcut source hsource hgone
      rw [paste, if_neg hpath, if_pos hcut] at hgone ⊢
      exact fRename_moves hsource hgone

end Exact

/-- The explorer and the desktop paste exactly under the same condition. -/
theorem pastes_exactly_iff
    {N : Type} [DecidableEq N] (resolve : List UInt8 → N) (a : Answers) (current : List UInt8)
    (s : State N) :
  (PastesExactly (resolve s.clipboardPath) (resolve (explorerDest current s.clipboardPath)) a s
      (pasteToCurrent resolve a current s)
    ↔ CopyFits (resolve s.clipboardPath) (resolve (explorerDest current s.clipboardPath)) a s)
  ∧ (PastesExactly (resolve s.clipboardPath) (resolve (desktopDest s.clipboardPath)) a s
      (pasteClipboard resolve a s)
    ↔ CopyFits (resolve s.clipboardPath) (resolve (desktopDest s.clipboardPath)) a s)
  := ⟨paste_exact_iff resolve a _ s, paste_exact_iff resolve a _ s⟩

/-- The file system transfers everything. -/
def willing : Answers := ⟨true, true, fun _ => 512, fun _ => 512, .none⟩

/-- A file `/A/F` of one byte in the clipboard, and a file `/F` of two. -/
def longer : State (List UInt8) where
  volume := fun path =>
    if path = [0x2F, 0x41, 0x2F, 0x46] then some [1]
    else if path = [0x2F, 0x46] then some [2, 3]
    else none
  clipboardPath := [0x2F, 0x41, 0x2F, 0x46]
  clipboardIsCut := false

/-- A longer file keeps its end. -/
theorem not_pastesExactly :
  ¬ PastesExactly [0x2F, 0x41, 0x2F, 0x46] (explorerDest [0x2F] longer.clipboardPath) willing longer
    (pasteToCurrent id willing [0x2F] longer)
  := by
  rintro ⟨hcopied, -⟩
  have hdest := hcopied (by decide) rfl rfl rfl [1] (by decide)
  have hstored : stored willing [1] 0 1 0 = [1] := by
    rw [stored, if_pos (by decide), stored, if_neg (by decide)]
    rfl
  have hcopy : copyFile willing [0x2F, 0x41, 0x2F, 0x46] [0x2F, 0x46] longer.volume [0x2F, 0x46]
      = some (overlay (stored willing [1] 0 1 0) [2, 3]) :=
    copyFile_eq (by decide) ⟨rfl, rfl⟩
  rw [hstored] at hcopy
  exact absurd (hcopy.symm.trans hdest) (by decide)

end Paste
