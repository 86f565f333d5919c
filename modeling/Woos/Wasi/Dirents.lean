import Woos.Lib.Records
import Woos.Wasi.Descriptors

/-!
# Directory entries

`wasi_fd_readdir` fills its buffer with a page of encoded entries, and a reader that knows the
format finds in it the entries that fit.  What FatFs does on a directory that does not change is an
assumption: `Reads` says that a directory object yields its entries one after the other.
-/

variable {V Fil Dir : Type}

/-! ### Encoding -/

/-- The type of an entry. -/
def FilInfo.filetype (e : FilInfo) : UInt8 :=
  if e.fattrib &&& amDir ≠ 0 then wasiFiletypeDirectory else wasiFiletypeRegularFile

/-- An entry and its number in the directory as `wasi_fd_readdir` encodes it. -/
def direntBytes (e : FilInfo × Nat) : List UInt8 :=
  Wasi.direntHeader (UInt64.ofNat (e.2 + 1)) (UInt32.ofNat e.1.fname.bytes.length) e.1.filetype
    ++ e.1.fname.bytes

/-- An entry as a reader finds it. -/
structure Dirent where
  next : UInt64
  name : List UInt8
  type : UInt8
  deriving DecidableEq, Repr

/-- The entry that is encoded. -/
def toDirent (e : FilInfo × Nat) : Dirent :=
  ⟨UInt64.ofNat (e.2 + 1), e.1.fname.bytes, e.1.filetype⟩

/-- The whole entries at the beginning of a string of bytes, at most so many. -/
def parseDirents : Nat → List UInt8 → List Dirent
  | 0, _ => []
  | n + 1, bytes =>
      let namlen := LittleEndian.decode ((bytes.drop 16).take 4)
      if bytes.length < 24 + namlen then
        []
      else
        ⟨UInt64.ofNat (LittleEndian.decode (bytes.take 8)), (bytes.drop 24).take namlen,
            bytes.getD 20 0⟩
          :: parseDirents n (bytes.drop (24 + namlen))

theorem length_direntHeader (next : UInt64) (namlen : UInt32) (type : UInt8) :
  (Wasi.direntHeader next namlen type).length = 24
  := by
  simp [Wasi.direntHeader]

theorem length_direntBytes (e : FilInfo × Nat) :
  (direntBytes e).length = 24 + e.1.fname.bytes.length
  := by
  rw [direntBytes, List.length_append, length_direntHeader]

/-- The fields of a header that is followed by anything. -/
theorem direntHeader_fields (next : UInt64) (namlen : UInt32) (type : UInt8) (rest : List UInt8) :
  LittleEndian.decode ((Wasi.direntHeader next namlen type ++ rest).take 8) = next.toNat
    ∧ LittleEndian.decode (((Wasi.direntHeader next namlen type ++ rest).drop 16).take 4)
      = namlen.toNat
    ∧ (Wasi.direntHeader next namlen type ++ rest).getD 20 0 = type
  := by
  have hnext := LittleEndian.decode_encode (n := 8) next.toNat_lt
  have hnamlen := LittleEndian.decode_encode (n := 4) namlen.toNat_lt
  have hsplit : Wasi.direntHeader next namlen type ++ rest
      = LittleEndian.encode 8 next.toNat ++ LittleEndian.encode 8 next.toNat
        ++ (LittleEndian.encode 4 namlen.toNat ++ ([type, 0, 0, 0] ++ rest)) := by
    simp only [Wasi.direntHeader, List.append_assoc]
  have hfirst : (LittleEndian.encode 8 next.toNat ++ LittleEndian.encode 8 next.toNat).length = 16 :=
    by rw [List.length_append, LittleEndian.length_encode]
  constructor
  · rw [hsplit, List.append_assoc, List.take_left' (LittleEndian.length_encode _ _), hnext]
  · constructor
    · rw [hsplit, List.drop_left' hfirst, List.take_left' (LittleEndian.length_encode _ _), hnamlen]
    · simp [Wasi.direntHeader, LittleEndian.encode]

/-- The length that a header announces. -/
theorem namlen_direntBytes {e : FilInfo × Nat} (hname : e.1.fname.bytes.length < 2 ^ 32) :
  (UInt32.ofNat e.1.fname.bytes.length).toNat = e.1.fname.bytes.length
  := by
  apply UInt32.toNat_ofNat_of_lt hname

theorem parseDirents_short {bytes : List UInt8} {n : Nat} (h : bytes.length < 24) :
  parseDirents n bytes = []
  := by
  cases n with
  | zero => rfl
  | succ n =>
      rw [parseDirents]
      apply if_pos
      omega

/-- A cut entry is not found. -/
theorem parseDirents_cut {e : FilInfo × Nat} {left n : Nat} (hname : e.1.fname.bytes.length < 2 ^ 32)
    (hleft : 24 ≤ left) (hcut : left < (direntBytes e).length) :
  parseDirents n ((direntBytes e).take left) = []
  := by
  have htake : (direntBytes e).take left = Wasi.direntHeader (UInt64.ofNat (e.2 + 1))
      (UInt32.ofNat e.1.fname.bytes.length) e.1.filetype ++ e.1.fname.bytes.take (left - 24) := by
    rw [direntBytes, List.take_append, length_direntHeader, List.take_of_length_le]
    rw [length_direntHeader]
    apply hleft
  obtain ⟨_, hnamlen, _⟩ := direntHeader_fields (UInt64.ofNat (e.2 + 1))
    (UInt32.ofNat e.1.fname.bytes.length) e.1.filetype (e.1.fname.bytes.take (left - 24))
  cases n with
  | zero => rfl
  | succ n =>
      rw [parseDirents]
      apply if_pos
      rw [List.length_take_of_le hcut.le, htake, hnamlen, namlen_direntBytes hname]
      rwa [length_direntBytes] at hcut

/-- The entries of a page are found, when nothing is found behind them. -/
theorem parseDirents_flatMap {es : List (FilInfo × Nat)} {rest : List UInt8} {n : Nat}
    (hname : ∀ e ∈ es, e.1.fname.bytes.length < 2 ^ 32) (hrest : ∀ n, parseDirents n rest = [])
    (hn : es.length ≤ n) :
  parseDirents n (es.flatMap direntBytes ++ rest) = es.map toDirent
  := by
  induction es generalizing n with
  | nil =>
      apply hrest
  | cons e es ih =>
      obtain ⟨n, rfl⟩ : ∃ k, n = k + 1 := by
        rw [List.length_cons] at hn
        use n - 1
        omega
      have hlength := namlen_direntBytes (hname e List.mem_cons_self)
      have hbytes : (e :: es).flatMap direntBytes ++ rest
          = Wasi.direntHeader (UInt64.ofNat (e.2 + 1)) (UInt32.ofNat e.1.fname.bytes.length)
              e.1.filetype
            ++ (e.1.fname.bytes ++ (es.flatMap direntBytes ++ rest)) := by
        simp only [List.flatMap_cons, direntBytes, List.append_assoc]
      obtain ⟨hnext, hnamlen, htype⟩ := direntHeader_fields (UInt64.ofNat (e.2 + 1))
        (UInt32.ofNat e.1.fname.bytes.length) e.1.filetype
        (e.1.fname.bytes ++ (es.flatMap direntBytes ++ rest))
      rw [hlength] at hnamlen
      rw [parseDirents, hbytes, hnext, hnamlen, htype, if_neg, ← List.drop_drop,
        List.drop_left' (length_direntHeader _ _ _), List.take_left, List.drop_left, ih]
      · rw [UInt64.ofNat_toNat]
        rfl
      · intro b hb
        apply hname b (List.mem_cons_of_mem e hb)
      · rw [List.length_cons] at hn
        omega
      · rw [List.length_append, List.length_append, length_direntHeader]
        omega

/-! ### Directories -/

/-- What FatFs does: `rest d es` says that the directory object `d` yields the entries `es`, and
`vol` what its functions keep of the volume.  The names are those of FatFs without long names. -/
structure Reads (B : Backend V Fil Dir) (vol : V → Prop) (rest : Dir → List FilInfo → Prop) :
    Prop where
  entry : ∀ v d e es, vol v → rest d (e :: es) →
    (B.fReaddir v d).1 = 0 ∧ (B.fReaddir v d).2.1 = e ∧ vol (B.fReaddir v d).2.2.1
      ∧ rest (B.fReaddir v d).2.2.2 es
  finished : ∀ v d, vol v → rest d [] →
    (B.fReaddir v d).2.1.fname.bytes = [] ∧ vol (B.fReaddir v d).2.2.1
      ∧ rest (B.fReaddir v d).2.2.2 []
  closedir : ∀ v d, vol v → vol (B.fClosedir v d).1
  name : ∀ d es, rest d es → ∀ e ∈ es, e.fname.bytes ≠ [] ∧ e.fname.bytes.length ≤ 12
  count : ∀ d es, rest d es → es.length ≤ Wasi.maxDirEntries

/-- The handle is that of a directory that yields the entries. -/
structure Vfs.Listing (vol : V → Prop) (rest : Dir → List FilInfo → Prop) (s : Vfs V Fil Dir)
    (i : Fin maxHandles) (es : List FilInfo) : Prop where
  ready : s.ready
  inUse : (s.handles i).inUse
  type : (s.handles i).type = .dir
  vol : vol s.volume
  rest : rest (s.handles i).dir es

namespace Vfs

variable {B : Backend V Fil Dir} {vol : V → Prop} {rest : Dir → List FilInfo → Prop}
  {s : Vfs V Fil Dir} {i : Fin maxHandles}

theorem handle_number :
  ∀ i : Fin maxHandles, NetVfs.handle (number i).toInt = some i
  := by
  decide

theorem Listing.lookupType {es : List FilInfo} (h : Listing vol rest s i es) :
  s.lookupType .dir (number i) = some i
  := by
  rw [Vfs.lookupType, lookupReady, if_pos h.ready, lookup, handle_number]
  simp [h.inUse, h.type]

/-- After a call of FatFs on the directory the handle lists what the directory then yields. -/
theorem Listing.setDir {es es' : List FilInfo} (h : Listing vol rest s i es) {r : V × Dir}
    (hvol : vol r.1) (hrest : rest r.2 es') :
  Listing vol rest (s.setDir i r) i es'
  := by
  constructor
  · apply h.ready
  · simp [Vfs.setDir, setHandle, h.inUse]
  · simp [Vfs.setDir, setHandle, h.type]
  · apply hvol
  · simpa [Vfs.setDir, setHandle] using hrest

/-- `vfs_readdir` at an entry. -/
theorem vfsReaddir_cons (hreads : Reads B vol rest) {e : FilInfo} {es : List FilInfo}
    (h : Listing vol rest s i (e :: es)) :
  ∃ s', s.vfsReaddir B (number i) = (1, some ⟨e.fname, e.fattrib &&& amDir ≠ 0, e.fsize⟩, s')
    ∧ Listing vol rest s' i es
  := by
  obtain ⟨hres, hentry, hvol, hrest⟩ := hreads.entry _ _ _ _ h.vol h.rest
  obtain ⟨hne, hle⟩ := hreads.name _ _ h.rest e List.mem_cons_self
  refine ⟨_, ?_, h.setDir hvol hrest⟩
  rw [vfsReaddir, h.lookupType]
  simp only [hres, hentry, hne, ne_eq, not_true_eq_false, or_self, if_false]
  rw [CString.truncate_of_length_le (by omega)]

/-- `vfs_readdir` at the end. -/
theorem vfsReaddir_nil (hreads : Reads B vol rest) (h : Listing vol rest s i []) :
  ∃ s', s.vfsReaddir B (number i) = (0, none, s') ∧ Listing vol rest s' i []
  := by
  obtain ⟨hname, hvol, hrest⟩ := hreads.finished _ _ h.vol h.rest
  refine ⟨_, ?_, h.setDir hvol hrest⟩
  rw [vfsReaddir, h.lookupType]
  simp only [hname, or_true, if_true]

/-- The root directory can be opened, and yields the entries. -/
def RootOpens (B : Backend V Fil Dir) (vol : V → Prop) (rest : Dir → List FilInfo → Prop)
    (es : List FilInfo) : Prop :=
  ∀ v, vol v → (B.fOpendir v Wasi.rootPath).1 = 0 ∧ vol (B.fOpendir v Wasi.rootPath).2.1
    ∧ rest (B.fOpendir v Wasi.rootPath).2.2 es

/-- `vfs_open` of the root directory, when there is a handle. -/
theorem vfsOpen_root {es : List FilInfo} (hready : s.ready) (hvol : vol s.volume)
    (hfree : ∃ i, (s.handles i).inUse = false) (hopens : RootOpens B vol rest es) :
  ∃ i s', s.vfsOpen B Wasi.rootPath modeRead = (number i, s') ∧ Listing vol rest s' i es
  := by
  obtain ⟨i, hi⟩ : ∃ i, (List.finRange maxHandles).find? (fun i => !(s.handles i).inUse) = some i
      := by
    rw [← Option.isSome_iff_exists, List.find?_isSome]
    obtain ⟨j, hj⟩ := hfree
    use j, List.mem_finRange j
    rw [hj]
    rfl
  obtain ⟨hres, hvol', hrest⟩ := hopens s.volume hvol
  let s₁ := s.setHandle i { s.handles i with inUse := true, type := .file, socketId := -1 }
  let s₂ := s₁.setDir i (B.fOpendir s.volume Wasi.rootPath).2
  use i, s₂.setHandle i { s₂.handles i with type := .dir }
  have halloc : s.allocateHandle = some (s₁, i) := by
    rw [allocateHandle, hi]
    rfl
  constructor
  · rw [vfsOpen, hready, halloc]
    simp only [Bool.not_true, Bool.false_eq_true, if_false]
    rw [if_pos (by rfl), openDir]
    apply if_pos hres
  · constructor
    · apply hready
    · simp [s₂, s₁, setHandle, Vfs.setDir]
    · simp [setHandle]
    · apply hvol'
    · simpa [s₂, s₁, setHandle, Vfs.setDir] using hrest

/-- `vfs_open` of the root directory, when there is no volume or no handle. -/
theorem vfsOpen_none (path : CString) (mode : UInt8)
    (h : ¬ (s.ready = true ∧ ∃ i, (s.handles i).inUse = false)) :
  s.vfsOpen B path mode = (-1, s)
  := by
  rw [vfsOpen]
  cases hready : s.ready with
  | false => rfl
  | true =>
      have hnone : s.allocateHandle = none := by
        rw [allocateHandle, Option.map_eq_none_iff, List.find?_eq_none]
        intro i _ hi
        apply h
        use hready, i
        simpa using hi
      rw [hnone]
      rfl

/-- `vfs_close` of a directory. -/
theorem vfsClose_listing (hreads : Reads B vol rest) {es : List FilInfo}
    (h : Listing vol rest s i es) :
  (s.vfsClose B (number i)).ready ∧ ((s.vfsClose B (number i)).handles i).inUse = false
    ∧ vol (s.vfsClose B (number i)).volume
  := by
  have hlookup : s.lookup (number i) = some i := by
    rw [lookup, handle_number]
    simp [h.inUse]
  rw [vfsClose, hlookup]
  simp only [h.type]
  use h.ready
  constructor
  · simp [setHandle]
  · apply hreads.closedir _ _ h.vol

end Vfs
