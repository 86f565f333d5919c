import Woos.Lib.Bytes
import Woos.Vfs.Basic

/-!
# Calls on descriptors

The calls of `wasi.c` that a guest makes on a descriptor: numbers 0 to 2 are the serial port, 3 is
the preopened root directory, and number `h + 4` is handle `h`.  Pointers are offsets into the
memory of the guest; the places for results are checked before anything else is done.
-/

/-- `WASI_ESUCCESS` -/
def wasiEsuccess : UInt32 := 0

/-- `WASI_EBADF` -/
def wasiEbadf : UInt32 := 8

/-- `WASI_EINVAL` -/
def wasiEinval : UInt32 := 28

/-- `WASI_EIO` -/
def wasiEio : UInt32 := 29

/-- `WASI_FILETYPE_CHARACTER_DEVICE` -/
def wasiFiletypeCharacterDevice : UInt8 := 2

/-- `WASI_FILETYPE_DIRECTORY` -/
def wasiFiletypeDirectory : UInt8 := 3

/-- `WASI_FILETYPE_REGULAR_FILE` -/
def wasiFiletypeRegularFile : UInt8 := 4

/-- `WASI_FILETYPE_SOCKET_STREAM` -/
def wasiFiletypeSocketStream : UInt8 := 6

/-- A guest: the handles and the serial output, its memory, the bytes that wait at the serial port,
and the clock. -/
structure Wasi (V Fil Dir : Type) where
  vfs : Vfs V Fil Dir
  memory : Memory
  memorySize : Nat
  input : List UInt8
  timerTicks : UInt32
  timerFrequencyHz : UInt32

/-- A call returns an error number, or traps, or does not return. -/
inductive Outcome where
  | ret (errno : UInt32)
  | trap
  | hang
  deriving DecidableEq, Repr

namespace Wasi

variable {V Fil Dir : Type} (B : Backend V Fil Dir) (s : Wasi V Fil Dir)

/-! ### Memory -/

/-- `m3ApiCheckMem` -/
def checkMem (addr : UInt32) (len : Nat) : Bool := addr.toNat + len ≤ s.memorySize

/-- Write a string of bytes. -/
def write (addr : Nat) (bytes : List UInt8) : Wasi V Fil Dir :=
  { s with memory := s.memory.write addr bytes }

/-- `m3ApiWriteMem32` -/
def write32 (addr : UInt32) (v : UInt32) : Wasi V Fil Dir :=
  s.write addr.toNat (LittleEndian.encode 4 v.toNat)

/-- `m3ApiWriteMem64` -/
def write64 (addr : UInt32) (v : UInt64) : Wasi V Fil Dir :=
  s.write addr.toNat (LittleEndian.encode 8 v.toNat)

/-- An entry of an array of `wasi_iovec_t`: the pointer and the length. -/
def iovec (iovs : UInt32) (i : Nat) : UInt32 × UInt32 :=
  let word (a : Nat) := UInt32.ofNat (LittleEndian.decode (s.memory.read a 4))
  (word (iovs.toNat + 8 * i), word (iovs.toNat + 8 * i + 4))

/-- The handle of a descriptor. -/
def handleOf (fd : UInt32) : Int32 := (fd - 4).toInt32

/-! ### Reading and writing -/

/-- The loop of a call over its buffers, from buffer `i` on: what `io` does with a buffer is the
number of bytes that it moves, and the loop ends when that is not all of them. -/
def bufferLoop (io : Wasi V Fil Dir → UInt32 → UInt32 → UInt32 × Wasi V Fil Dir) (iovs : UInt32) :
    Nat → Nat → UInt32 → Wasi V Fil Dir → Option UInt32 × Wasi V Fil Dir
  | 0, _, total, s => (some total, s)
  | n + 1, i, total, s =>
      let (bufPtr, bufLen) := s.iovec iovs i
      if !s.checkMem bufPtr bufLen.toNat then
        (none, s)
      else
        let (moved, s) := io s bufPtr bufLen
        if moved < bufLen then
          (some (total + moved), s)
        else
          bufferLoop io iovs n (i + 1) (total + moved) s

/-- Store the total when the loop has ended. -/
def finish (result : UInt32) (r : Option UInt32 × Wasi V Fil Dir) : Outcome × Wasi V Fil Dir :=
  match r.1 with
  | none => (.trap, r.2)
  | some total => (.ret wasiEsuccess, r.2.write32 result total)

/-- `vfs_write` from a buffer of the guest. -/
def writeBuffer (h : Int32) (s : Wasi V Fil Dir) (bufPtr bufLen : UInt32) : UInt32 × Wasi V Fil Dir :=
  let (written, vfs) := s.vfs.vfsWrite B h (s.memory.read bufPtr.toNat bufLen.toNat)
  (written, { s with vfs := vfs })

/-- `vfs_read` to a buffer of the guest. -/
def readBuffer (h : Int32) (s : Wasi V Fil Dir) (bufPtr bufLen : UInt32) : UInt32 × Wasi V Fil Dir :=
  let (read, data, vfs) := s.vfs.vfsRead B h bufLen
  (read, { s.write bufPtr.toNat data with vfs := vfs })

/-- Write a buffer to the serial port. -/
def printBuffer (s : Wasi V Fil Dir) (bufPtr bufLen : UInt32) : UInt32 × Wasi V Fil Dir :=
  (bufLen, { s with vfs := { s.vfs with
    serial := s.vfs.serial ++ s.memory.read bufPtr.toNat bufLen.toNat } })

/-- Read what waits at the serial port. -/
def typeBuffer (s : Wasi V Fil Dir) (bufPtr bufLen : UInt32) : UInt32 × Wasi V Fil Dir :=
  let data := s.input.take bufLen.toNat
  (UInt32.ofNat data.length, { s.write bufPtr.toNat data with input := s.input.drop bufLen.toNat })

/-- `wasi_fd_write`: for descriptors 0 and 3 the check of the first buffer comes first. -/
def fdWrite (fd iovs iovsLen nwritten : UInt32) : Outcome × Wasi V Fil Dir :=
  if !s.checkMem iovs (8 * iovsLen.toNat) ∨ !s.checkMem nwritten 4 then
    (.trap, s)
  else if fd = 1 ∨ fd = 2 then
    finish nwritten (bufferLoop printBuffer iovs iovsLen.toNat 0 0 s)
  else if 4 ≤ fd then
    finish nwritten (bufferLoop (writeBuffer B (handleOf fd)) iovs iovsLen.toNat 0 0 s)
  else if iovsLen = 0 then
    (.ret wasiEsuccess, s.write32 nwritten 0)
  else if !s.checkMem (s.iovec iovs 0).1 (s.iovec iovs 0).2.toNat then
    (.trap, s)
  else
    (.ret wasiEbadf, s)

/-- `wasi_fd_read` -/
def fdRead (fd iovs iovsLen nread : UInt32) : Outcome × Wasi V Fil Dir :=
  if !s.checkMem iovs (8 * iovsLen.toNat) ∨ !s.checkMem nread 4 then
    (.trap, s)
  else if fd = 0 then
    finish nread (bufferLoop typeBuffer iovs iovsLen.toNat 0 0 s)
  else if 4 ≤ fd then
    finish nread (bufferLoop (readBuffer B (handleOf fd)) iovs iovsLen.toNat 0 0 s)
  else
    (.ret wasiEbadf, s)

/-- The body of `wasi_fd_pread` and `wasi_fd_pwrite`: move the buffers at the offset, then seek
back. -/
def atOffset (io : Wasi V Fil Dir → UInt32 → UInt32 → UInt32 × Wasi V Fil Dir)
    (fd iovs iovsLen : UInt32) (offset : UInt64) (result : UInt32) : Outcome × Wasi V Fil Dir :=
  if !s.checkMem iovs (8 * iovsLen.toNat) ∨ !s.checkMem result 4 then
    (.trap, s)
  else if fd < 4 then
    (.ret wasiEbadf, s)
  else
    let h := handleOf fd
    let origPos := s.vfs.vfsTell B h
    let (res, vfs) := s.vfs.vfsSeek B h offset.toUInt32
    let s := { s with vfs := vfs }
    if res < 0 then
      (.ret wasiEio, s)
    else
      let (total, s) := bufferLoop io iovs iovsLen.toNat 0 0 s
      match total with
      | none => (.trap, s)
      | some total =>
          let s := { s with vfs := (s.vfs.vfsSeek B h origPos).2 }
          (.ret wasiEsuccess, s.write32 result total)

/-- `wasi_fd_pread` -/
def fdPread (fd iovs iovsLen : UInt32) (offset : UInt64) (nread : UInt32) :
    Outcome × Wasi V Fil Dir :=
  s.atOffset B (readBuffer B (handleOf fd)) fd iovs iovsLen offset nread

/-- `wasi_fd_pwrite` -/
def fdPwrite (fd iovs iovsLen : UInt32) (offset : UInt64) (nwritten : UInt32) :
    Outcome × Wasi V Fil Dir :=
  s.atOffset B (writeBuffer B (handleOf fd)) fd iovs iovsLen offset nwritten

/-! ### Positions -/

/-- Seek to the target and store it: the end of `wasi_fd_seek`. -/
def seekTo (h : Int32) (target newoffset : UInt32) : Outcome × Wasi V Fil Dir :=
  let (res, vfs) := s.vfs.vfsSeek B h target
  let s := { s with vfs := vfs }
  if res < 0 then
    (.ret wasiEinval, s)
  else
    (.ret wasiEsuccess, s.write64 newoffset target.toUInt64)

/-- `wasi_fd_seek` -/
def fdSeek (fd : UInt32) (offset : Int64) (whence newoffset : UInt32) : Outcome × Wasi V Fil Dir :=
  let h := handleOf fd
  let offset := offset.toUInt64.toUInt32
  if !s.checkMem newoffset 8 then
    (.trap, s)
  else if fd < 4 then
    (.ret wasiEbadf, s)
  else if whence = 0 then
    s.seekTo B h offset newoffset
  else if whence = 1 then
    s.seekTo B h (s.vfs.vfsTell B h + offset) newoffset
  else if whence = 2 then
    s.seekTo B h (s.vfs.vfsSize B h + offset) newoffset
  else
    (.ret wasiEinval, s)

/-- `wasi_fd_tell` -/
def fdTell (fd offset : UInt32) : Outcome × Wasi V Fil Dir :=
  if !s.checkMem offset 8 then
    (.trap, s)
  else if 4 ≤ fd then
    (.ret wasiEsuccess, s.write64 offset (s.vfs.vfsTell B (handleOf fd)).toUInt64)
  else
    (.ret wasiEbadf, s)

/-- `wasi_fd_sync` -/
def fdSync (fd : UInt32) : Outcome × Wasi V Fil Dir :=
  if fd = 1 ∨ fd = 2 then
    (.ret wasiEsuccess, s)
  else if 4 ≤ fd then
    (.ret wasiEsuccess, { s with vfs := (s.vfs.vfsSync B (handleOf fd)).2 })
  else
    (.ret wasiEbadf, s)

/-- `wasi_fd_close` -/
def fdClose (fd : UInt32) : Outcome × Wasi V Fil Dir :=
  if 4 ≤ fd then
    (.ret wasiEsuccess, { s with vfs := s.vfs.vfsClose B (handleOf fd) })
  else
    (.ret wasiEsuccess, s)

/-! ### Attributes -/

/-- The 24 bytes of `fdstat`: the type of the file and the rights. -/
def fdstat (filetype : UInt8) (rights : UInt64) : List UInt8 :=
  filetype :: List.replicate 7 0 ++ LittleEndian.encode 8 rights.toNat ++ List.replicate 8 0

/-- The rights of a directory and of a file. -/
def allRights : UInt64 := 0x3F01F

/-- `wasi_fd_fdstat_get` -/
def fdFdstatGet (fd fdstatPtr : UInt32) : Outcome × Wasi V Fil Dir :=
  if !s.checkMem fdstatPtr 24 then
    (.trap, s)
  else if fd = 0 then
    (.ret wasiEsuccess, s.write fdstatPtr.toNat (fdstat wasiFiletypeCharacterDevice 0x02))
  else if fd = 1 ∨ fd = 2 then
    (.ret wasiEsuccess, s.write fdstatPtr.toNat (fdstat wasiFiletypeCharacterDevice 0x40))
  else if fd = 3 then
    (.ret wasiEsuccess, s.write fdstatPtr.toNat (fdstat wasiFiletypeDirectory allRights))
  else
    let filetype := match s.vfs.vfsGetHandleType (handleOf fd) with
      | some .dir => wasiFiletypeDirectory
      | some .socket => wasiFiletypeSocketStream
      | _ => wasiFiletypeRegularFile
    (.ret wasiEsuccess, s.write fdstatPtr.toNat (fdstat filetype allRights))

/-- `wasi_filestat_t` -/
structure Filestat where
  dev : UInt64
  ino : UInt64
  filetype : UInt8
  nlink : UInt64
  size : UInt64
  atim : UInt64
  mtim : UInt64
  ctim : UInt64

/-- The 64 bytes of a `wasi_filestat_t`. -/
def Filestat.bytes (st : Filestat) : List UInt8 :=
  let word (v : UInt64) := LittleEndian.encode 8 v.toNat
  word st.dev ++ word st.ino ++ st.filetype :: List.replicate 7 0 ++ word st.nlink ++ word st.size
    ++ word st.atim ++ word st.mtim ++ word st.ctim

/-- `wasi_get_time_ns` -/
def wasiGetTimeNs : UInt64 :=
  let hz := if s.timerFrequencyHz = 0 then 20 else s.timerFrequencyHz
  s.timerTicks.toUInt64 * (1000 / hz.toUInt64) * 1000000

/-- What `wasi_fd_filestat_get` writes for a type of file and a size. -/
def filestat (fd : UInt32) (filetype : UInt8) (size : UInt64) : Filestat :=
  ⟨0, fd.toUInt64, filetype, 1, size, s.wasiGetTimeNs, s.wasiGetTimeNs, s.wasiGetTimeNs⟩

/-- `wasi_fd_filestat_get`; the record is filled in also when the descriptor is bad. -/
def fdFilestatGet (fd filestatPtr : UInt32) : Outcome × Wasi V Fil Dir :=
  if !s.checkMem filestatPtr 64 then
    (.trap, s)
  else if fd = 0 ∨ fd = 1 ∨ fd = 2 then
    (.ret wasiEsuccess, s.write filestatPtr.toNat (s.filestat fd wasiFiletypeCharacterDevice 0).bytes)
  else if fd = 3 then
    (.ret wasiEsuccess, s.write filestatPtr.toNat (s.filestat fd wasiFiletypeDirectory 0).bytes)
  else
    match s.vfs.vfsFstat B (handleOf fd) with
    | some st =>
        let (filetype, size) := match s.vfs.vfsGetHandleType (handleOf fd) with
          | some .dir => (wasiFiletypeDirectory, 0)
          | some .socket => (wasiFiletypeSocketStream, 0)
          | _ => (wasiFiletypeRegularFile, st.size.toUInt64)
        (.ret wasiEsuccess, s.write filestatPtr.toNat (s.filestat fd filetype size).bytes)
    | none => (.ret wasiEbadf, s.write filestatPtr.toNat (s.filestat fd 0 0).bytes)

/-! ### Directories -/

/-- The 24 bytes of a `wasi_dirent_header_t`. -/
def direntHeader (next : UInt64) (namlen : UInt32) (type : UInt8) : List UInt8 :=
  LittleEndian.encode 8 next.toNat ++ LittleEndian.encode 8 next.toNat
    ++ LittleEndian.encode 4 namlen.toNat ++ [type, 0, 0, 0]

/-- The number of entries that FatFs reads from a directory: `MAX_DIR / SZDIRE`. -/
def maxDirEntries : Nat := 65536

/-- The loop of `wasi_fd_readdir`, for so many calls of `vfs_readdir`.  An entry for whose header
there is no room is dropped; a name is cut where the buffer ends. -/
def readdirLoop (h : Int32) (buf bufLen : UInt32) (cookie : UInt64) :
    Nat → UInt64 → UInt32 → Wasi V Fil Dir → Option UInt32 × Wasi V Fil Dir
  | 0, _, _, s => (none, s)
  | n + 1, curIdx, used, s =>
      let (res, ent, vfs) := s.vfs.vfsReaddir B h
      let s := { s with vfs := vfs }
      match ent with
      | none => (some used, s)
      | some ent =>
          if res ≤ 0 then
            (some used, s)
          else if curIdx < cookie then
            readdirLoop h buf bufLen cookie n (curIdx + 1) used s
          else if bufLen.toNat < used.toNat + 24 then
            (some used, s)
          else
            let namelen := UInt32.ofNat ent.name.bytes.length
            let type := if ent.isDir then wasiFiletypeDirectory else wasiFiletypeRegularFile
            let s := s.write (buf.toNat + used.toNat) (direntHeader (curIdx + 1) namelen type)
            let used := used + 24
            let copyName := if bufLen < used + namelen then bufLen - used else namelen
            let s := s.write (buf.toNat + used.toNat) (ent.name.bytes.take copyName.toNat)
            let used := used + copyName
            if bufLen ≤ used then
              (some used, s)
            else
              readdirLoop h buf bufLen cookie n (curIdx + 1) used s

/-- The path of the root directory. -/
def rootPath : CString := ⟨[0x2F], by simp⟩

/-- The end of `wasi_fd_readdir`: close the root directory, and store the number of bytes. -/
def readdirFinish (needClose : Bool) (h : Int32) (bufused : UInt32)
    (r : Option UInt32 × Wasi V Fil Dir) : Outcome × Wasi V Fil Dir :=
  match r.1 with
  | none => (.hang, r.2)
  | some used =>
      let s := if needClose then { r.2 with vfs := r.2.vfs.vfsClose B h } else r.2
      (.ret wasiEsuccess, s.write32 bufused used)

/-- `wasi_fd_readdir` -/
def fdReaddir (fd buf bufLen : UInt32) (cookie : UInt64) (bufused : UInt32) :
    Outcome × Wasi V Fil Dir :=
  if !s.checkMem buf bufLen.toNat ∨ !s.checkMem bufused 4 then
    (.trap, s)
  else if fd < 3 then
    (.ret wasiEbadf, s)
  else
    let (h, s) := if fd = 3 then
        let (h, vfs) := s.vfs.vfsOpen B rootPath Vfs.modeRead
        (h, { s with vfs := vfs })
      else
        (handleOf fd, s)
    if h < 0 then
      (.ret wasiEbadf, s)
    else
      readdirFinish B (fd = 3) h bufused
        (readdirLoop B h buf bufLen cookie (maxDirEntries + 1) 0 0 s)

end Wasi
