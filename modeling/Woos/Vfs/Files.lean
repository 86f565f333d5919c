import Woos.Vfs.Basic

/-!
# Open files

`File` is what an open file of FatFs amounts to: the contents, the position within them, and what
the file has been opened for.  `FatFs` says which file an object of FatFs is, and what `f_lseek`,
`f_read`, `f_write` and `f_truncate` do to it: a file that can be written grows when it is moved past
its end, any other is moved to its end; a write stores as much as there is room for.

`Backend.logged` adds to the volume a record of the bytes that have been read from and written to
files.
-/

/-- An open file of FatFs: what lies behind the position can be read and written. -/
structure File where
  contents : List UInt8
  pos : Nat
  readable : Bool
  writable : Bool
  pos_le : pos ≤ contents.length
  length_lt : contents.length < 2 ^ 32

namespace File

/-- Where `f_lseek` moves the position. -/
def target (F : File) (offset : Nat) : Nat :=
  if F.writable then offset else min offset F.contents.length

/-- The bytes that `f_read` reads. -/
def next (F : File) (n : Nat) : List UInt8 :=
  if F.readable then (F.contents.drop F.pos).take n else []

/-- The files are opened for the same. -/
def SameMode (F G : File) : Prop := G.readable = F.readable ∧ G.writable = F.writable

/-- The file `G` is the file `F` after `f_lseek`; what it has grown by is not specified. -/
structure Seeks (F : File) (offset : Nat) (G : File) : Prop where
  mode : F.SameMode G
  pos : G.pos = F.target offset
  isPrefix : F.contents <+: G.contents
  length : G.contents.length = max F.contents.length (F.target offset)

/-- The file `G` is the file `F` after a read of so many bytes. -/
structure Reads (F : File) (n : Nat) (G : File) : Prop where
  mode : F.SameMode G
  pos : G.pos = F.pos + n
  contents : G.contents = F.contents

/-- The file `G` is the file `F` after the bytes have been written. -/
structure Writes (F : File) (data : List UInt8) (G : File) : Prop where
  mode : F.SameMode G
  pos : G.pos = F.pos + data.length
  contents : G.contents
    = F.contents.take F.pos ++ data ++ F.contents.drop (F.pos + data.length)

/-- The file `G` is the file `F` cut off at its position. -/
structure Truncates (F G : File) : Prop where
  mode : F.SameMode G
  pos : G.pos = F.pos
  contents : G.contents = F.contents.take F.pos

variable {F G H : File}

theorem SameMode.refl (F : File) :
  F.SameMode F
  := ⟨rfl, rfl⟩

theorem SameMode.trans (h : F.SameMode G) (h' : G.SameMode H) :
  F.SameMode H
  := ⟨h'.1.trans h.1, h'.2.trans h.2⟩

theorem Reads.refl (F : File) :
  F.Reads 0 F
  := ⟨SameMode.refl F, rfl, rfl⟩

theorem Writes.refl (F : File) :
  F.Writes [] F
  := ⟨SameMode.refl F, rfl, by simp⟩

/-- Within the file, `f_lseek` only moves the position. -/
theorem target_of_le {offset : Nat} (h : offset ≤ F.contents.length) :
  F.target offset = offset
  := by
  rw [target, min_eq_left h, ite_self]

theorem length_next_lt (F : File) (n : Nat) :
  (F.next n).length < 2 ^ 32
  := by
  have hlt := F.length_lt
  rw [next]
  split
  · rw [List.length_take, List.length_drop]
    omega
  · exact Nat.two_pow_pos 32

theorem Seeks.contents_eq {offset : Nat} (hs : F.Seeks offset G)
    (h : F.target offset ≤ F.contents.length) :
  G.contents = F.contents
  := by
  apply Eq.symm
  apply hs.isPrefix.eq_of_length
  rw [hs.length, max_eq_left h]

end File

variable {V Fil Dir : Type}

/-- What FatFs does to open files.  `file` is the open file that an object of FatFs is, and `room`
the number of bytes that can be stored from its position on.  Reading a file that has not been
opened for it is denied, and so are writing and truncation. -/
structure FatFs (B : Backend V Fil Dir) (fTruncate : V → Fil → UInt8 × V × Fil) where
  file : V → Fil → Option File
  room : V → Fil → Nat
  tell : ∀ {v f F}, file v f = some F → (B.fTell f).toNat = F.pos
  size : ∀ {v f F}, file v f = some F → (B.fSize f).toNat = F.contents.length
  lseek : ∀ {v f F}, file v f = some F → ∀ offset, ∃ v' f' G,
    B.fLseek v f offset = (0, v', f') ∧ file v' f' = some G ∧ F.Seeks offset.toNat G
  read : ∀ {v f F}, file v f = some F → F.readable = true → ∀ n, ∃ v' f' G,
    B.fRead v f n = (0, UInt32.ofNat (F.next n.toNat).length, F.next n.toNat, v', f')
      ∧ file v' f' = some G ∧ F.Reads (F.next n.toNat).length G
  read_denied : ∀ {v f F}, file v f = some F → F.readable = false → ∀ n,
    B.fRead v f n = (7, 0, [], v, f)
  write : ∀ {v f F}, file v f = some F → F.writable = true → ∀ data, data.length < 2 ^ 32 →
    ∃ v' f' G, B.fWrite v f data = (0, UInt32.ofNat (min data.length (room v f)), v', f')
      ∧ file v' f' = some G ∧ F.Writes (data.take (room v f)) G
      ∧ room v' f' = room v f - data.length
  write_denied : ∀ {v f F}, file v f = some F → F.writable = false → ∀ data,
    B.fWrite v f data = (7, 0, v, f)
  truncate : ∀ {v f F}, file v f = some F → F.writable = true → ∃ v' f' G,
    fTruncate v f = (0, v', f') ∧ file v' f' = some G ∧ F.Truncates G
  truncate_denied : ∀ {v f F}, file v f = some F → F.writable = false →
    fTruncate v f = (7, v, f)

namespace Vfs

/-- `vfs_truncate` -/
def vfsTruncate (B : Backend V Fil Dir) (fTruncate : V → Fil → UInt8 × V × Fil) (s : Vfs V Fil Dir)
    (h : Int32) (size : UInt32) : Int32 × Vfs V Fil Dir :=
  match s.lookupType .file h with
  | none => (-1, s)
  | some i =>
      let (res, r) := B.fLseek s.volume (s.handles i).fil size
      let s := s.setFil i r
      if res ≠ 0 then
        (-1, s)
      else
        let (res, r) := fTruncate s.volume (s.handles i).fil
        (if res = 0 then 0 else -1, s.setFil i r)

variable {B : Backend V Fil Dir} {fTruncate : V → Fil → UInt8 × V × Fil}

/-- The handle `i` of the number `h` is the open file `F`. -/
structure OpenFile (D : FatFs B fTruncate) (s : Vfs V Fil Dir) (h : Int32) (i : Fin maxHandles)
    (F : File) : Prop where
  lookup : s.lookupType .file h = some i
  file : D.file s.volume (s.handles i).fil = some F

/-- The number of bytes that can be stored to the file of a handle. -/
def roomOf (D : FatFs B fTruncate) (s : Vfs V Fil Dir) (i : Fin maxHandles) : Nat :=
  D.room s.volume (s.handles i).fil

section

variable {D : FatFs B fTruncate} {s : Vfs V Fil Dir} {h : Int32} {i : Fin maxHandles} {F : File}

theorem lookupType_setFil (r : V × Fil) (hlookup : s.lookupType .file h = some i) :
  (s.setFil i r).lookupType .file h = some i
  := by
  obtain ⟨hready, htype⟩ := Option.filter_eq_some_iff.mp hlookup
  have hsome := hready
  rw [lookupReady] at hsome
  split at hsome
  case isFalse => cases hsome
  case isTrue hr =>
    obtain ⟨hnumber, huse⟩ := Option.filter_eq_some_iff.mp hsome
    apply Option.filter_eq_some_iff.mpr
    constructor
    · rw [lookupReady, if_pos (by exact hr)]
      apply Option.filter_eq_some_iff.mpr
      use hnumber
      simpa [setFil, setHandle] using huse
    · simpa [setFil, setHandle] using htype

/-- A call of FatFs on the object of an open file. -/
theorem OpenFile.setFil (hopen : s.OpenFile D h i F) {v : V} {f : Fil} {G : File}
    (hfile : D.file v f = some G) :
  (s.setFil i (v, f)).OpenFile D h i G
  := by
  use lookupType_setFil (v, f) hopen.lookup
  rw [Vfs.setFil, setHandle]
  simpa using hfile

/-- The file of a handle is determined. -/
theorem OpenFile.unique {G : File} (hF : s.OpenFile D h i F) (hG : s.OpenFile D h i G) :
  F = G
  := Option.some.inj (hF.file.symm.trans hG.file)

theorem vfsTell_open (hopen : s.OpenFile D h i F) :
  (s.vfsTell B h).toNat = F.pos
  := by
  rw [vfsTell, hopen.lookup]
  exact D.tell hopen.file

theorem vfsSize_open (hopen : s.OpenFile D h i F) :
  (s.vfsSize B h).toNat = F.contents.length
  := by
  rw [vfsSize, hopen.lookup]
  exact D.size hopen.file

theorem vfsSeek_open (hopen : s.OpenFile D h i F) (offset : UInt32) :
  ∃ s' G, s.vfsSeek B h offset = (0, s') ∧ s'.OpenFile D h i G ∧ F.Seeks offset.toNat G
  := by
  obtain ⟨v', f', G, hseek, hfile, hG⟩ := D.lseek hopen.file offset
  use s.setFil i (v', f'), G
  rw [vfsSeek, hopen.lookup]
  simp only [hseek]
  exact ⟨rfl, hopen.setFil hfile, hG⟩

/-- `vfs_read` moves what there is behind the position, and nothing when the file has not been
opened for it. -/
theorem vfsRead_open (hopen : s.OpenFile D h i F) (n : UInt32) :
  ∃ s' G, s.vfsRead B h n = (UInt32.ofNat (F.next n.toNat).length, F.next n.toNat, s')
    ∧ s'.OpenFile D h i G ∧ F.Reads (F.next n.toNat).length G
  := by
  rw [vfsRead]
  split
  case isTrue hzero =>
    have hnone : F.next n.toNat = [] := by
      rw [hzero, File.next]
      simp
    rw [hnone]
    exact ⟨s, F, rfl, hopen, File.Reads.refl F⟩
  case isFalse =>
    obtain ⟨hready, htype⟩ := Option.filter_eq_some_iff.mp hopen.lookup
    rw [hready]
    simp only [of_decide_eq_true htype]
    cases hreadable : F.readable with
    | true =>
        obtain ⟨v', f', G, hread, hfile, hG⟩ := D.read hopen.file hreadable n
        simp only [hread, if_true]
        exact ⟨_, G, rfl, hopen.setFil hfile, hG⟩
    | false =>
        have hnone : F.next n.toNat = [] := by
          rw [File.next, hreadable]
          rfl
        simp only [D.read_denied hopen.file hreadable n, hnone]
        exact ⟨_, F, rfl, ⟨(hopen.setFil hopen.file).lookup, (hopen.setFil hopen.file).file⟩,
          File.Reads.refl F⟩

/-- The number of bytes that `vfs_write` can store. -/
def capacity (D : FatFs B fTruncate) (s : Vfs V Fil Dir) (i : Fin maxHandles) (F : File) : Nat :=
  if F.writable then s.roomOf D i else 0

/-- `vfs_write` stores what there is room for, and nothing when the file has not been opened for
it. -/
theorem vfsWrite_open (hopen : s.OpenFile D h i F) {data : List UInt8} (hdata : data.length < 2 ^ 32) :
  ∃ s' G, s.vfsWrite B h data = (UInt32.ofNat (min data.length (s.capacity D i F)), s')
    ∧ s'.OpenFile D h i G ∧ F.Writes (data.take (s.capacity D i F)) G
    ∧ s'.capacity D i G = s.capacity D i F - data.length
  := by
  rw [vfsWrite]
  split
  case isTrue hzero =>
    rw [List.eq_nil_of_length_eq_zero hzero, List.take_nil]
    refine ⟨s, F, ?_, hopen, File.Writes.refl F, rfl⟩
    rw [List.length_nil, Nat.zero_min]
    rfl
  case isFalse =>
    obtain ⟨hready, htype⟩ := Option.filter_eq_some_iff.mp hopen.lookup
    rw [hready]
    simp only [of_decide_eq_true htype]
    cases hwritable : F.writable with
    | true =>
        obtain ⟨v', f', G, hwrite, hfile, hG, hroom⟩ := D.write hopen.file hwritable data hdata
        have hcapacity : s.capacity D i F = D.room s.volume (s.handles i).fil := by
          rw [capacity, if_pos hwritable, roomOf]
        simp only [hwrite, hcapacity]
        refine ⟨_, G, rfl, hopen.setFil hfile, hG, ?_⟩
        rw [capacity, if_pos (hG.mode.2.trans hwritable), roomOf, setFil, setHandle]
        simpa using hroom
    | false =>
        have hcapacity : s.capacity D i F = 0 := by
          rw [capacity, hwritable]
          rfl
        simp only [D.write_denied hopen.file hwritable data, hcapacity, List.take_zero]
        refine ⟨_, F, ?_, hopen.setFil hopen.file, File.Writes.refl F, ?_⟩
        · rw [Nat.min_zero]
          rfl
        · rw [capacity, hwritable, Nat.zero_sub]
          rfl

/-- `vfs_truncate` leaves the position where it has moved it. -/
theorem vfsTruncate_open (hopen : s.OpenFile D h i F) (size : UInt32) :
  ∃ r s' G, s.vfsTruncate B fTruncate h size = (r, s') ∧ s'.OpenFile D h i G
    ∧ G.pos = F.target size.toNat
  := by
  obtain ⟨v', f', G, hseek, hfile, hG⟩ := D.lseek hopen.file size
  have hopen' := hopen.setFil hfile
  rw [vfsTruncate, hopen.lookup]
  simp only [hseek, ne_eq, not_true_eq_false, if_false]
  cases hwritable : G.writable with
  | true =>
      obtain ⟨v'', f'', H, htruncate, hfile', hH⟩ := D.truncate hopen'.file hwritable
      simp only [htruncate]
      exact ⟨_, _, H, rfl, hopen'.setFil hfile', hH.pos.trans hG.pos⟩
  | false =>
      simp only [D.truncate_denied hopen'.file hwritable]
      exact ⟨_, _, G, rfl, hopen'.setFil hopen'.file, hG.pos⟩

end

end Vfs

/-! ### A record of the bytes moved -/

/-- The backend on a volume with a record of the bytes that `f_read` and `f_write` have moved. -/
def Backend.logged (B : Backend V Fil Dir) : Backend (V × List UInt8) Fil Dir where
  fOpen v path mode :=
    let (res, v', f) := B.fOpen v.1 path mode
    (res, (v', v.2), f)
  fOpendir v path :=
    let (res, v', d) := B.fOpendir v.1 path
    (res, (v', v.2), d)
  fRead v f n :=
    let (res, br, data, v', f') := B.fRead v.1 f n
    (res, br, data, (v', v.2 ++ if res = 0 then data.take br.toNat else []), f')
  fWrite v f data :=
    let (res, bw, v', f') := B.fWrite v.1 f data
    (res, bw, (v', v.2 ++ if res = 0 then data.take bw.toNat else []), f')
  fLseek v f offset :=
    let (res, v', f') := B.fLseek v.1 f offset
    (res, (v', v.2), f')
  fTell := B.fTell
  fSize := B.fSize
  fSync v f :=
    let (res, v', f') := B.fSync v.1 f
    (res, (v', v.2), f')
  fReaddir v d :=
    let (res, info, v', d') := B.fReaddir v.1 d
    (res, info, (v', v.2), d')
  fClose v f :=
    let (v', f') := B.fClose v.1 f
    ((v', v.2), f')
  fClosedir v d :=
    let (v', d') := B.fClosedir v.1 d
    ((v', v.2), d')
  netSocketRecv v id n :=
    let (res, data, v') := B.netSocketRecv v.1 id n
    (res, data, (v', v.2))
  netSocketSend v id data :=
    let (res, v') := B.netSocketSend v.1 id data
    (res, (v', v.2))
  netSocketClose v id := (B.netSocketClose v.1 id, v.2)

/-- `f_truncate` moves no bytes. -/
def loggedTruncate (fTruncate : V → Fil → UInt8 × V × Fil) (v : V × List UInt8) (f : Fil) :
    UInt8 × (V × List UInt8) × Fil :=
  let (res, v', f') := fTruncate v.1 f
  (res, (v', v.2), f')

/-- The record changes nothing for FatFs. -/
def FatFs.logged {B : Backend V Fil Dir} {fTruncate : V → Fil → UInt8 × V × Fil}
    (D : FatFs B fTruncate) : FatFs B.logged (loggedTruncate fTruncate) where
  file v f := D.file v.1 f
  room v f := D.room v.1 f
  tell hfile := D.tell hfile
  size hfile := D.size hfile
  lseek {v f F} hfile offset := by
    obtain ⟨v', f', G, hseek, hG⟩ := D.lseek hfile offset
    use (v', v.2), f', G
    simp only [Backend.logged, hseek]
    exact ⟨trivial, hG⟩
  read {v f F} hfile hreadable n := by
    obtain ⟨v', f', G, hread, hG⟩ := D.read hfile hreadable n
    use (v', v.2 ++ F.next n.toNat), f', G
    simp only [Backend.logged, hread, if_true]
    rw [UInt32.toNat_ofNat_of_lt' (F.length_next_lt n.toNat), List.take_length]
    exact ⟨rfl, hG⟩
  read_denied hfile hreadable n := by
    simp [Backend.logged, D.read_denied hfile hreadable n]
  write {v f F} hfile hwritable data hdata := by
    obtain ⟨v', f', G, hwrite, hG⟩ := D.write hfile hwritable data hdata
    use (v', v.2 ++ data.take (D.room v.1 f)), f', G
    have hlt : min data.length (D.room v.1 f) < 2 ^ 32 := by omega
    simp only [Backend.logged, hwrite, if_true]
    rw [UInt32.toNat_ofNat_of_lt' hlt, min_comm data.length, ← List.take_eq_take_min]
    exact ⟨rfl, hG⟩
  write_denied hfile hwritable data := by
    simp [Backend.logged, D.write_denied hfile hwritable data]
  truncate {v f F} hfile hwritable := by
    obtain ⟨v', f', G, htruncate, hG⟩ := D.truncate hfile hwritable
    use (v', v.2), f', G
    simp only [loggedTruncate, htruncate]
    exact ⟨trivial, hG⟩
  truncate_denied hfile hwritable := by
    simp only [loggedTruncate, D.truncate_denied hfile hwritable]

namespace Vfs

variable {B : Backend V Fil Dir} {fTruncate : V → Fil → UInt8 × V × Fil} {D : FatFs B fTruncate}
  {s : Vfs (V × List UInt8) Fil Dir} {h : Int32} {i : Fin maxHandles} {F : File}

/-- Seeking moves no bytes. -/
theorem vfsSeek_logged (s : Vfs (V × List UInt8) Fil Dir) (h : Int32) (offset : UInt32) :
  (s.vfsSeek B.logged h offset).2.volume.2 = s.volume.2
  := by
  rw [vfsSeek]
  split
  · rfl
  · rfl

theorem vfsRead_logged (hopen : s.OpenFile D.logged h i F) (n : UInt32) :
  (s.vfsRead B.logged h n).2.2.volume.2 = s.volume.2 ++ F.next n.toNat
  := by
  rw [vfsRead]
  split
  case isTrue hzero =>
    have hnone : F.next n.toNat = [] := by
      rw [hzero, File.next]
      simp
    rw [hnone, List.append_nil]
  case isFalse =>
    obtain ⟨hready, htype⟩ := Option.filter_eq_some_iff.mp hopen.lookup
    rw [hready]
    simp only [of_decide_eq_true htype]
    cases hreadable : F.readable with
    | true =>
        obtain ⟨v', f', G, hread, -⟩ := D.read hopen.file hreadable n
        simp only [Backend.logged, hread, if_true]
        rw [UInt32.toNat_ofNat_of_lt' (F.length_next_lt n.toNat), List.take_length]
        rfl
    | false =>
        have hnone : F.next n.toNat = [] := by
          rw [File.next, hreadable]
          rfl
        have hdenied := D.read_denied hopen.file hreadable n
        simp [Backend.logged, hdenied, hnone, setFil, setHandle]

theorem vfsWrite_logged (hopen : s.OpenFile D.logged h i F) {data : List UInt8}
    (hdata : data.length < 2 ^ 32) :
  (s.vfsWrite B.logged h data).2.volume.2 = s.volume.2 ++ data.take (s.capacity D.logged i F)
  := by
  rw [vfsWrite]
  split
  case isTrue hzero =>
    rw [List.eq_nil_of_length_eq_zero hzero, List.take_nil, List.append_nil]
  case isFalse =>
    obtain ⟨hready, htype⟩ := Option.filter_eq_some_iff.mp hopen.lookup
    rw [hready]
    simp only [of_decide_eq_true htype]
    cases hwritable : F.writable with
    | true =>
        obtain ⟨v', f', G, hwrite, -⟩ := D.write hopen.file hwritable data hdata
        have hcapacity : s.capacity D.logged i F = D.room s.volume.1 (s.handles i).fil := by
          rw [capacity, if_pos hwritable]
          rfl
        have hlt : min data.length (D.room s.volume.1 (s.handles i).fil) < 2 ^ 32 := by omega
        rw [hcapacity]
        simp only [Backend.logged, hwrite, if_true]
        rw [UInt32.toNat_ofNat_of_lt' hlt, min_comm data.length, ← List.take_eq_take_min]
        rfl
    | false =>
        have hcapacity : s.capacity D.logged i F = 0 := by
          rw [capacity, hwritable]
          rfl
        have hdenied := D.write_denied hopen.file hwritable data
        rw [hcapacity]
        simp [Backend.logged, hdenied, setFil, setHandle]

end Vfs

/-! ### FatFs in memory -/

namespace File

theorem target_lt (F : File) {offset : Nat} (h : offset < 2 ^ 32) :
  F.target offset < 2 ^ 32
  := by
  rw [target]
  split
  · exact h
  · omega

/-- `f_lseek`, with zeros in what the file grows by. -/
def seek (F : File) (offset : UInt32) : File where
  contents := F.contents ++ List.replicate (F.target offset.toNat - F.contents.length) 0
  pos := F.target offset.toNat
  readable := F.readable
  writable := F.writable
  pos_le := by
    rw [List.length_append, List.length_replicate]
    omega
  length_lt := by
    have htarget := F.target_lt offset.toNat_lt
    have hlt := F.length_lt
    rw [List.length_append, List.length_replicate]
    omega

theorem seek_seeks (F : File) (offset : UInt32) :
  F.Seeks offset.toNat (F.seek offset)
  where
  mode := ⟨rfl, rfl⟩
  pos := rfl
  isPrefix := List.prefix_append _ _
  length := by
    rw [seek, List.length_append, List.length_replicate]
    omega

/-- `f_read`, for so many bytes. -/
def read (F : File) (n : Nat) : File :=
  { F with
    pos := F.pos + (F.next n).length
    pos_le := by
      have hle := F.pos_le
      rw [next]
      split
      · rw [List.length_take, List.length_drop]
        omega
      · exact hle }

/-- The bytes that can be stored before the file reaches 4 GiB. -/
def space (F : File) : Nat := 2 ^ 32 - 1 - F.pos

/-- `f_write` -/
def write (F : File) (data : List UInt8) : File where
  contents := F.contents.take F.pos ++ data.take F.space
    ++ F.contents.drop (F.pos + (data.take F.space).length)
  pos := F.pos + (data.take F.space).length
  readable := F.readable
  writable := F.writable
  pos_le := by
    have hle := F.pos_le
    simp only [List.length_append, List.length_take, List.length_drop]
    omega
  length_lt := by
    have hlt := F.length_lt
    simp only [List.length_append, List.length_take, List.length_drop, space]
    omega

/-- `f_truncate` -/
def truncate (F : File) : File where
  contents := F.contents.take F.pos
  pos := F.pos
  readable := F.readable
  writable := F.writable
  pos_le := by
    have hle := F.pos_le
    rw [List.length_take]
    omega
  length_lt := (List.length_take_le' _ _).trans_lt F.length_lt

end File

/-- FatFs whose objects are the files themselves, without directories. -/
def Backend.inMemory : Backend Unit File Unit where
  fOpen v _ _ := (4, v, ⟨[], 0, false, false, le_rfl, Nat.two_pow_pos 32⟩)
  fOpendir v _ := (5, v, ())
  fRead v F n :=
    if F.readable then (0, UInt32.ofNat (F.next n.toNat).length, F.next n.toNat, v, F.read n.toNat)
    else (7, 0, [], v, F)
  fWrite v F data :=
    if F.writable then (0, UInt32.ofNat (min data.length F.space), v, F.write data)
    else (7, 0, v, F)
  fLseek v F offset := (0, v, F.seek offset)
  fTell F := UInt32.ofNat F.pos
  fSize F := UInt32.ofNat F.contents.length
  fSync v F := (0, v, F)
  fReaddir v d := (0, ⟨CString.empty, 0, 0⟩, v, d)
  fClose v F := (v, F)
  fClosedir v d := (v, d)
  netSocketRecv v _ _ := (-1, [], v)
  netSocketSend v _ _ := (-1, v)
  netSocketClose v _ := v

/-- `f_truncate` in memory. -/
def truncateInMemory (v : Unit) (F : File) : UInt8 × Unit × File :=
  if F.writable then (0, v, F.truncate) else (7, v, F)

/-- The files in memory follow FatFs. -/
def FatFs.inMemory : FatFs Backend.inMemory truncateInMemory where
  file _ F := some F
  room _ F := F.space
  tell := by
    rintro v F _ ⟨⟩
    exact UInt32.toNat_ofNat_of_lt' (F.pos_le.trans_lt F.length_lt)
  size := by
    rintro v F _ ⟨⟩
    exact UInt32.toNat_ofNat_of_lt' F.length_lt
  lseek := by
    rintro v F _ ⟨⟩ offset
    exact ⟨v, F.seek offset, _, rfl, rfl, F.seek_seeks offset⟩
  read := by
    rintro v F _ ⟨⟩ hreadable n
    use v, F.read n.toNat, F.read n.toNat
    exact ⟨if_pos hreadable, rfl, ⟨rfl, rfl⟩, rfl, rfl⟩
  read_denied := by
    rintro v F _ ⟨⟩ hreadable n
    exact if_neg (Bool.eq_false_iff.mp hreadable)
  write := by
    rintro v F _ ⟨⟩ hwritable data -
    use v, F.write data, F.write data
    refine ⟨if_pos hwritable, rfl, ⟨⟨rfl, rfl⟩, rfl, rfl⟩, ?_⟩
    have hpos : (F.write data).pos = F.pos + min F.space data.length :=
      congrArg (F.pos + ·) List.length_take
    rw [File.space, hpos, File.space]
    omega
  write_denied := by
    rintro v F _ ⟨⟩ hwritable data
    exact if_neg (Bool.eq_false_iff.mp hwritable)
  truncate := by
    rintro v F _ ⟨⟩ hwritable
    exact ⟨v, F.truncate, _, if_pos hwritable, rfl, ⟨⟨rfl, rfl⟩, rfl, rfl⟩⟩
  truncate_denied := by
    rintro v F _ ⟨⟩ hwritable
    exact if_neg (Bool.eq_false_iff.mp hwritable)
