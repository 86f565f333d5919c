import Woos.Wasi.Descriptors

/-!
# Calls on descriptors that are not open

A descriptor is valid when it is a standard stream, the preopened directory or the number of a
handle in use.  Of the calls on other descriptors only `wasi_fd_readdir` with a number so large that
the handle is negative returns an error for a bad descriptor and leaves everything as it was, and
`wasi_fd_filestat_get` when the record that it fills in nevertheless is there already.  Of the
other calls some report success or another error.
-/

/-- A call on a descriptor. -/
inductive FdCall where
  | read (fd iovs iovsLen nread : UInt32)
  | write (fd iovs iovsLen nwritten : UInt32)
  | seek (fd : UInt32) (offset : Int64) (whence newoffset : UInt32)
  | tell (fd offset : UInt32)
  | fdstatGet (fd fdstat : UInt32)
  | filestatGet (fd filestat : UInt32)
  | sync (fd : UInt32)
  | readdir (fd buf bufLen : UInt32) (cookie : UInt64) (bufused : UInt32)
  | pread (fd iovs iovsLen : UInt32) (offset : UInt64) (nread : UInt32)
  | pwrite (fd iovs iovsLen : UInt32) (offset : UInt64) (nwritten : UInt32)
  | close (fd : UInt32)

/-- The descriptor of a call. -/
def FdCall.fd : FdCall → UInt32
  | .read fd _ _ _ => fd
  | .write fd _ _ _ => fd
  | .seek fd _ _ _ => fd
  | .tell fd _ => fd
  | .fdstatGet fd _ => fd
  | .filestatGet fd _ => fd
  | .sync fd => fd
  | .readdir fd _ _ _ _ => fd
  | .pread fd _ _ _ _ => fd
  | .pwrite fd _ _ _ _ => fd
  | .close fd => fd

namespace Wasi

variable {V Fil Dir : Type} (B : Backend V Fil Dir) (s : Wasi V Fil Dir)

/-- Execute a call. -/
def call : FdCall → Outcome × Wasi V Fil Dir
  | .read fd iovs iovsLen nread => s.fdRead B fd iovs iovsLen nread
  | .write fd iovs iovsLen nwritten => s.fdWrite B fd iovs iovsLen nwritten
  | .seek fd offset whence newoffset => s.fdSeek B fd offset whence newoffset
  | .tell fd offset => s.fdTell B fd offset
  | .fdstatGet fd fdstat => s.fdFdstatGet fd fdstat
  | .filestatGet fd filestat => s.fdFilestatGet B fd filestat
  | .sync fd => s.fdSync B fd
  | .readdir fd buf bufLen cookie bufused => s.fdReaddir B fd buf bufLen cookie bufused
  | .pread fd iovs iovsLen offset nread => s.fdPread B fd iovs iovsLen offset nread
  | .pwrite fd iovs iovsLen offset nwritten => s.fdPwrite B fd iovs iovsLen offset nwritten
  | .close fd => s.fdClose B fd

/-- A standard stream, the preopened directory or a handle in use. -/
def Valid (fd : UInt32) : Prop :=
  fd.toNat < 4 ∨ ∃ i : Fin maxHandles, (s.vfs.handles i).inUse ∧ fd.toNat = i.val + 4

/-- The call returns an error for a bad descriptor and changes neither the handles nor the files nor
the serial output nor the memory of the guest. -/
structure Rejects (c : FdCall) : Prop where
  outcome : (s.call B c).1 = .ret wasiEbadf
  handles : (s.call B c).2.vfs.handles = s.vfs.handles
  volume : (s.call B c).2.vfs.volume = s.vfs.volume
  serial : (s.call B c).2.vfs.serial = s.vfs.serial
  memory : (s.call B c).2.memory = s.memory

/-- A call that finds no handle for its descriptor by the sign of the number, or fills in a record
that is there already. -/
def RejectedCall : FdCall → Prop
  | .readdir fd buf bufLen _ bufused =>
      s.checkMem buf bufLen.toNat ∧ s.checkMem bufused 4 ∧ 2 ^ 31 + 4 ≤ fd.toNat
  | .filestatGet fd filestat =>
      s.checkMem filestat 64 ∧ s.memory.read filestat.toNat 64 = (s.filestat fd 0 0).bytes
  | _ => False

/-! ### Descriptors -/

variable {s}

theorem four_le {fd : UInt32} (h : ¬ s.Valid fd) :
  4 ≤ fd
  := by
  rw [UInt32.le_iff_toNat_le]
  apply Nat.not_lt.mp
  intro hlt
  apply h
  left
  apply hlt

/-- The handle of a descriptor as a number. -/
theorem toInt_handleOf {fd : UInt32} (h : 4 ≤ fd) :
  (handleOf fd).toInt = if fd.toNat < 2 ^ 31 + 4 then (fd.toNat : Int) - 4 else fd.toNat - 4 - 2 ^ 32
  := by
  have hsub : (fd - 4).toNat = fd.toNat - 4 := UInt32.toNat_sub_of_le _ _ h
  rw [UInt32.le_iff_toNat_le] at h
  have hfour : (4 : UInt32).toNat = 4 := rfl
  have hlt := fd.toNat_lt
  change (fd - 4).toBitVec.toInt = _
  rw [BitVec.toInt_eq_toNat_cond, UInt32.toNat_toBitVec, hsub]
  split
  · rw [if_pos (by omega)]
    omega
  · rw [if_neg (by omega)]
    omega

theorem lookup_eq_none {fd : UInt32} (h : ¬ s.Valid fd) :
  s.vfs.lookup (handleOf fd) = none
  := by
  have hfour := four_le h
  rw [Vfs.lookup, Option.filter_eq_none_iff]
  intro i hi huse
  apply h
  right
  use i, huse
  unfold NetVfs.handle at hi
  split at hi
  · next hrange =>
      rw [← Option.some_inj.mp hi]
      rw [toInt_handleOf hfour] at hrange
      change fd.toNat = (handleOf fd).toInt.toNat + 4
      rw [toInt_handleOf hfour]
      have hmax : maxHandles = 32 := rfl
      have hlt := fd.toNat_lt
      split at hrange
      · next hsmall =>
          rw [if_pos hsmall]
          omega
      · omega
  · cases hi

theorem handleOf_neg {fd : UInt32} (h : 4 ≤ fd) :
  handleOf fd < 0 ↔ 2 ^ 31 + 4 ≤ fd.toNat
  := by
  have hfour : (4 : UInt32).toNat = 4 := rfl
  have hle := UInt32.le_iff_toNat_le.mp h
  have hlt := fd.toNat_lt
  rw [Int32.lt_iff_toInt_lt, toInt_handleOf h, Int32.toInt_zero]
  split
  · omega
  · omega

/-! ### Outcomes -/

variable {B}

theorem finish_ne (result : UInt32) (r : Option UInt32 × Wasi V Fil Dir) :
  (finish result r).1 ≠ .ret wasiEbadf
  := by
  unfold finish
  split
  · nofun
  · nofun

theorem readdirFinish_ne (needClose : Bool) (h : Int32) (bufused : UInt32)
    (r : Option UInt32 × Wasi V Fil Dir) :
  (readdirFinish B needClose h bufused r).1 ≠ .ret wasiEbadf
  := by
  unfold readdirFinish
  split
  · nofun
  · nofun

theorem fdRead_ne {fd : UInt32} (h : 4 ≤ fd) (iovs iovsLen nread : UInt32) :
  (s.fdRead B fd iovs iovsLen nread).1 ≠ .ret wasiEbadf
  := by
  unfold fdRead
  split
  · nofun
  · split
    · apply finish_ne
    · apply finish_ne

theorem fdWrite_ne {fd : UInt32} (h : 4 ≤ fd) (iovs iovsLen nwritten : UInt32) :
  (s.fdWrite B fd iovs iovsLen nwritten).1 ≠ .ret wasiEbadf
  := by
  unfold fdWrite
  split
  · nofun
  · split
    · apply finish_ne
    · apply finish_ne

theorem atOffset_ne (io : Wasi V Fil Dir → UInt32 → UInt32 → UInt32 × Wasi V Fil Dir) {fd : UInt32}
    (h : 4 ≤ fd) (iovs iovsLen : UInt32) (offset : UInt64) (result : UInt32) :
  (s.atOffset B io fd iovs iovsLen offset result).1 ≠ .ret wasiEbadf
  := by
  unfold atOffset
  split
  · nofun
  · rw [if_neg (UInt32.not_lt.mpr h)]
    dsimp only
    split
    · nofun
    · split
      · nofun
      · nofun

theorem seekTo_ne (h : Int32) (target newoffset : UInt32) :
  (s.seekTo B h target newoffset).1 ≠ .ret wasiEbadf
  := by
  unfold seekTo
  dsimp only
  split
  · nofun
  · nofun

theorem fdSeek_ne {fd : UInt32} (h : 4 ≤ fd) (offset : Int64) (whence newoffset : UInt32) :
  (s.fdSeek B fd offset whence newoffset).1 ≠ .ret wasiEbadf
  := by
  unfold fdSeek
  dsimp only
  split
  · nofun
  · rw [if_neg (UInt32.not_lt.mpr h)]
    split
    · apply seekTo_ne
    · split
      · apply seekTo_ne
      · split
        · apply seekTo_ne
        · nofun

theorem fdTell_ne {fd : UInt32} (h : 4 ≤ fd) (offset : UInt32) :
  (s.fdTell B fd offset).1 ≠ .ret wasiEbadf
  := by
  unfold fdTell
  split
  · nofun
  · nofun

theorem fdSync_ne {fd : UInt32} (h : 4 ≤ fd) :
  (s.fdSync B fd).1 ≠ .ret wasiEbadf
  := by
  unfold fdSync
  split
  · nofun
  · nofun

theorem fdClose_ne (fd : UInt32) :
  (s.fdClose B fd).1 ≠ .ret wasiEbadf
  := by
  unfold fdClose
  split
  · nofun
  · nofun

theorem fdFdstatGet_ne (fd fdstat : UInt32) :
  (s.fdFdstatGet fd fdstat).1 ≠ .ret wasiEbadf
  := by
  unfold fdFdstatGet
  split
  · nofun
  · split
    · nofun
    · split
      · nofun
      · split
        · nofun
        · nofun

/-! ### The two calls that may reject a descriptor -/

theorem Filestat.length_bytes (st : Filestat) :
  st.bytes.length = 64
  := by
  simp [Filestat.bytes]

theorem ne_of_four_le {fd k : UInt32} (h : 4 ≤ fd) (hk : k < 4) :
  fd ≠ k
  := by
  rintro rfl
  apply absurd h (UInt32.not_le.mpr hk)

theorem fdFilestatGet_of_bad {fd : UInt32} (h : ¬ s.Valid fd) (filestat : UInt32) :
  s.fdFilestatGet B fd filestat
    = if s.checkMem filestat 64 then
        (.ret wasiEbadf, s.write filestat.toNat (s.filestat fd 0 0).bytes)
      else
        (.trap, s)
  := by
  have hfour := four_le h
  have hstream : ¬ (fd = 0 ∨ fd = 1 ∨ fd = 2) := by
    rintro (h | h | h)
    · apply ne_of_four_le hfour (by decide) h
    · apply ne_of_four_le hfour (by decide) h
    · apply ne_of_four_le hfour (by decide) h
  have hnone : s.vfs.vfsFstat B (handleOf fd) = none := by
    rw [Vfs.vfsFstat, Vfs.lookupReady, lookup_eq_none h, ite_self, Option.map_none]
  rw [fdFilestatGet, if_neg hstream, if_neg (ne_of_four_le hfour (by decide)), hnone]
  cases s.checkMem filestat 64 with
  | false => rfl
  | true => rfl

theorem rejects_filestatGet_iff {fd filestat : UInt32} (h : ¬ s.Valid fd) :
  s.Rejects B (.filestatGet fd filestat) ↔ s.RejectedCall (.filestatGet fd filestat)
  := by
  have hcall : s.call B (.filestatGet fd filestat) = _ := fdFilestatGet_of_bad h filestat
  have hwrite := s.memory.write_eq_self_iff filestat.toNat (s.filestat fd 0 0).bytes
  rw [Filestat.length_bytes] at hwrite
  constructor
  · intro hrejects
    have houtcome := hrejects.outcome
    have hmemory := hrejects.memory
    rw [hcall] at houtcome hmemory
    split at hmemory
    · next hcheck =>
        use hcheck
        apply hwrite.mp hmemory
    · next hcheck =>
        rw [if_neg hcheck] at houtcome
        cases houtcome
  · rintro ⟨hcheck, hread⟩
    rw [if_pos hcheck] at hcall
    constructor
    · rw [hcall]
    · rw [hcall]
      rfl
    · rw [hcall]
      rfl
    · rw [hcall]
      rfl
    · rw [hcall]
      apply hwrite.mpr hread

theorem rejects_readdir_iff {fd buf bufLen bufused : UInt32} {cookie : UInt64} (h : ¬ s.Valid fd) :
  s.Rejects B (.readdir fd buf bufLen cookie bufused)
    ↔ s.RejectedCall (.readdir fd buf bufLen cookie bufused)
  := by
  have hfour := four_le h
  have hcall : s.call B (.readdir fd buf bufLen cookie bufused)
      = if !s.checkMem buf bufLen.toNat ∨ !s.checkMem bufused 4 then
          (.trap, s)
        else if handleOf fd < 0 then
          (.ret wasiEbadf, s)
        else
          readdirFinish B (fd = 3) (handleOf fd) bufused
            (readdirLoop B (handleOf fd) buf bufLen cookie (maxDirEntries + 1) 0 0 s) := by
    have hge : ¬ fd < 3 := UInt32.not_lt.mpr (UInt32.le_trans (by decide) hfour)
    have hne : fd ≠ 3 := ne_of_four_le hfour (by decide)
    simp only [call, fdReaddir, if_neg hge, if_neg hne]
  constructor
  · intro hrejects
    have houtcome := hrejects.outcome
    rw [hcall] at houtcome
    split at houtcome
    · cases houtcome
    · next hcheck =>
        split at houtcome
        · next hneg =>
            rw [not_or, Bool.not_eq_true, Bool.not_eq_false', Bool.not_eq_true,
              Bool.not_eq_false'] at hcheck
            use hcheck.1, hcheck.2
            apply (handleOf_neg hfour).mp hneg
        · apply absurd houtcome (readdirFinish_ne _ _ _ _)
  · rintro ⟨hbuf, hused, hlarge⟩
    have hunchanged : s.call B (.readdir fd buf bufLen cookie bufused) = (.ret wasiEbadf, s) := by
      rw [hcall, hbuf, hused, if_neg nofun, if_pos ((handleOf_neg hfour).mpr hlarge)]
    constructor
    · rw [hunchanged]
    · rw [hunchanged]
    · rw [hunchanged]
    · rw [hunchanged]
    · rw [hunchanged]

/-! ### All calls -/

/-- A call that returns something else does not reject its descriptor. -/
theorem not_rejects_of_ne {c : FdCall} (h : (s.call B c).1 ≠ .ret wasiEbadf) :
  ¬ s.Rejects B c
  := by
  intro hrejects
  apply h hrejects.outcome

/-- A call on a descriptor that is not open is rejected without an effect exactly when it is
`wasi_fd_readdir` with a number from `2 ^ 31 + 4` on, or `wasi_fd_filestat_get` whose record is in
the memory already, and its pointers are within the memory. -/
theorem rejects_iff (B : Backend V Fil Dir) (s : Wasi V Fil Dir) (c : FdCall)
    (h : ¬ s.Valid c.fd) :
  s.Rejects B c ↔ s.RejectedCall c
  := by
  have hfour := four_le h
  cases c with
  | filestatGet fd filestat => apply rejects_filestatGet_iff h
  | readdir fd buf bufLen cookie bufused => apply rejects_readdir_iff h
  | read fd iovs iovsLen nread =>
      apply iff_of_false _ not_false
      apply not_rejects_of_ne
      apply fdRead_ne hfour
  | write fd iovs iovsLen nwritten =>
      apply iff_of_false _ not_false
      apply not_rejects_of_ne
      apply fdWrite_ne hfour
  | seek fd offset whence newoffset =>
      apply iff_of_false _ not_false
      apply not_rejects_of_ne
      apply fdSeek_ne hfour
  | tell fd offset =>
      apply iff_of_false _ not_false
      apply not_rejects_of_ne
      apply fdTell_ne hfour
  | fdstatGet fd fdstat =>
      apply iff_of_false _ not_false
      apply not_rejects_of_ne
      apply fdFdstatGet_ne
  | sync fd =>
      apply iff_of_false _ not_false
      apply not_rejects_of_ne
      apply fdSync_ne hfour
  | pread fd iovs iovsLen offset nread =>
      apply iff_of_false _ not_false
      apply not_rejects_of_ne
      apply atOffset_ne _ hfour
  | pwrite fd iovs iovsLen offset nwritten =>
      apply iff_of_false _ not_false
      apply not_rejects_of_ne
      apply atOffset_ne _ hfour
  | close fd =>
      apply iff_of_false _ not_false
      apply not_rejects_of_ne
      apply fdClose_ne

/-- A guest with 64 KiB of memory after boot. -/
def boot : Wasi Unit Unit (List FilInfo) := ⟨Vfs.boot, fun _ => 0, 65536, [], 0, 0⟩

theorem not_valid_boot {fd : UInt32} (h : 4 ≤ fd.toNat) :
  ¬ boot.Valid fd
  := by
  rintro (hlt | ⟨i, huse, _⟩)
  · omega
  · cases huse

/-- A number that is too large for a handle. -/
theorem rejects_large :
  boot.Rejects (Backend.rootOnly []) (.readdir 0x80000004 0 64 0 64)
  := by
  apply (rejects_iff (Backend.rootOnly []) boot (.readdir 0x80000004 0 64 0 64)
    (not_valid_boot (by decide))).mpr
  constructor
  · decide
  · decide

/-- `wasi_fd_tell` reports success for descriptor 4 when no handle is in use. -/
theorem not_rejects_tell :
  ¬ boot.Valid 4 ∧ (boot.call (Backend.rootOnly []) (.tell 4 0)).1 = .ret wasiEsuccess
    ∧ ¬ boot.Rejects (Backend.rootOnly []) (.tell 4 0)
  := by
  have hsuccess : (boot.call (Backend.rootOnly []) (.tell 4 0)).1 = .ret wasiEsuccess := by
    decide +kernel
  use not_valid_boot (by decide), hsuccess
  apply not_rejects_of_ne
  rw [hsuccess]
  nofun

end Wasi
