import Woos.Lib.CString
import Woos.Net.Handles

/-!
# Files and directories behind handles

The functions of `vfs.c` on handles, over what FatFs and the sockets do, which is a parameter.  The
callers pass pointers that are not null.  The handles have the objects of FatFs, which
`Woos.Net.Handles` leaves out.
-/

/-- `FILINFO`, as far as `vfs.c` reads it. -/
structure FilInfo where
  fname : CString
  fattrib : UInt8
  fsize : UInt32
  deriving DecidableEq

/-- `AM_DIR` -/
def amDir : UInt8 := 0x10

/-- The functions that `vfs.c` calls.  `V` is the state of the volume and of the sockets, `Fil` and
`Dir` are the objects of open files and directories.  A `FRESULT` is 0 for success; the bytes are
those that the function stores to the buffer. -/
structure Backend (V Fil Dir : Type) where
  fOpen : V → CString → UInt8 → UInt8 × V × Fil
  fOpendir : V → CString → UInt8 × V × Dir
  fRead : V → Fil → UInt32 → UInt8 × UInt32 × List UInt8 × V × Fil
  fWrite : V → Fil → List UInt8 → UInt8 × UInt32 × V × Fil
  fLseek : V → Fil → UInt32 → UInt8 × V × Fil
  fTell : Fil → UInt32
  fSize : Fil → UInt32
  fSync : V → Fil → UInt8 × V × Fil
  /-- the name is empty at the end of the directory -/
  fReaddir : V → Dir → UInt8 × FilInfo × V × Dir
  fClose : V → Fil → V × Fil
  fClosedir : V → Dir → V × Dir
  netSocketRecv : V → Int32 → UInt32 → Int32 × List UInt8 × V
  netSocketSend : V → Int32 → List UInt8 → Int32 × V
  netSocketClose : V → Int32 → V

/-- `vfs_dirent_t` -/
structure VfsDirent where
  name : CString
  isDir : Bool
  size : UInt32
  deriving DecidableEq

namespace Vfs

/-- `vfs_handle_t` -/
structure Handle (Fil Dir : Type) where
  inUse : Bool
  type : HandleType
  fil : Fil
  dir : Dir
  socketId : Int32

end Vfs

/-- `g_vfs_ready`, `g_handles`, the volume and the sockets, and what has been written to the serial
port. -/
structure Vfs (V Fil Dir : Type) where
  ready : Bool
  handles : Fin maxHandles → Vfs.Handle Fil Dir
  volume : V
  serial : List UInt8

namespace Vfs

variable {V Fil Dir : Type} (B : Backend V Fil Dir) (s : Vfs V Fil Dir)

/-! ### Handles -/

/-- Change a handle. -/
def setHandle (i : Fin maxHandles) (v : Handle Fil Dir) : Vfs V Fil Dir :=
  { s with handles := Function.update s.handles i v }

/-- The object of a file after a call of FatFs. -/
def setFil (i : Fin maxHandles) (r : V × Fil) : Vfs V Fil Dir :=
  { s.setHandle i { s.handles i with fil := r.2 } with volume := r.1 }

/-- The object of a directory after a call of FatFs. -/
def setDir (i : Fin maxHandles) (r : V × Dir) : Vfs V Fil Dir :=
  { s.setHandle i { s.handles i with dir := r.2 } with volume := r.1 }

/-- The handle of a number when it is in use. -/
def lookup (h : Int32) : Option (Fin maxHandles) :=
  (NetVfs.handle h.toInt).filter (fun i => (s.handles i).inUse)

/-- The same, when there is a volume. -/
def lookupReady (h : Int32) : Option (Fin maxHandles) := if s.ready then s.lookup h else none

/-- The same, for a handle of the given type. -/
def lookupType (type : HandleType) (h : Int32) : Option (Fin maxHandles) :=
  (s.lookupReady h).filter (fun i => (s.handles i).type = type)

/-- `allocate_handle` -/
def allocateHandle : Option (Vfs V Fil Dir × Fin maxHandles) :=
  ((List.finRange maxHandles).find? (fun i => !(s.handles i).inUse)).map
    (fun i => (s.setHandle i { s.handles i with inUse := true, type := .file, socketId := -1 }, i))

/-- The number of a handle. -/
def number (i : Fin maxHandles) : Int32 := Int32.ofNat i.val

/-! ### Open and close -/

/-- `VFS_MODE_READ` -/
def modeRead : UInt8 := 0x01

/-- `VFS_MODE_WRITE` -/
def modeWrite : UInt8 := 0x02

/-- `VFS_MODE_CREATE` -/
def modeCreate : UInt8 := 0x04

/-- `VFS_MODE_TRUNC` -/
def modeTrunc : UInt8 := 0x08

/-- The mode for `f_open`: `FA_READ`, `FA_WRITE`, and `FA_CREATE_ALWAYS`, `FA_OPEN_ALWAYS` or
`FA_OPEN_EXISTING`. -/
def fatMode (mode : UInt8) : UInt8 :=
  (if mode &&& modeRead ≠ 0 then 0x01 else 0) ||| (if mode &&& modeWrite ≠ 0 then 0x02 else 0)
    ||| (if mode &&& modeCreate ≠ 0 then if mode &&& modeTrunc ≠ 0 then 0x08 else 0x10
      else if mode &&& modeTrunc ≠ 0 then 0x08 else 0x00)

/-- Open the directory in a new handle, or give the handle back. -/
def openDir (i : Fin maxHandles) (path : CString) : Int32 × Vfs V Fil Dir :=
  let (res, r) := B.fOpendir s.volume path
  let s := s.setDir i r
  if res = 0 then
    (number i, s.setHandle i { s.handles i with type := .dir })
  else
    (-1, s.setHandle i { s.handles i with inUse := false })

/-- `vfs_open` -/
def vfsOpen (path : CString) (mode : UInt8) : Int32 × Vfs V Fil Dir :=
  if !s.ready then
    (-1, s)
  else
    match s.allocateHandle with
    | none => (-1, s)
    | some (s, i) =>
        if path.bytes = [0x2F] then
          s.openDir B i path
        else
          let (res, r) := B.fOpen s.volume path (fatMode mode)
          let s := s.setFil i r
          if res = 0 then
            (number i, s.setHandle i { s.handles i with type := .file })
          else
            s.openDir B i path

/-- `vfs_close` -/
def vfsClose (h : Int32) : Vfs V Fil Dir :=
  match s.lookup h with
  | none => s
  | some i =>
      let closed (s : Vfs V Fil Dir) :=
        s.setHandle i { s.handles i with inUse := false, type := .file, socketId := -1 }
      match (s.handles i).type with
      | .socket =>
          let s' := closed s
          { s' with volume := B.netSocketClose s.volume (s.handles i).socketId }
      | .dir => closed (s.setDir i (B.fClosedir s.volume (s.handles i).dir))
      | .file => closed (s.setFil i (B.fClose s.volume (s.handles i).fil))

/-! ### Files -/

/-- What `vfs_read` prints when `f_read` fails. -/
def readError (res : UInt8) (h : Int32) (bytes : UInt32) : List UInt8 :=
  ("[VFS] f_read error: " ++ toString res ++ " (handle=" ++ toString h ++ ", bytes="
    ++ toString bytes ++ ")\n").toUTF8.toList

/-- `vfs_read`: the number of bytes, and those stored to the buffer. -/
def vfsRead (h : Int32) (bytes : UInt32) : UInt32 × List UInt8 × Vfs V Fil Dir :=
  if bytes = 0 then
    (0, [], s)
  else
    match s.lookupReady h with
    | none => (0, [], s)
    | some i =>
        match (s.handles i).type with
        | .socket =>
            let (res, data, v) := B.netSocketRecv s.volume (s.handles i).socketId bytes
            (if res < 0 then 0 else res.toUInt32, data, { s with volume := v })
        | .dir => (0, [], s)
        | .file =>
            let (res, br, data, r) := B.fRead s.volume (s.handles i).fil bytes
            let s := s.setFil i r
            if res = 0 then
              (br, data, s)
            else
              (0, data, { s with serial := s.serial ++ readError res h bytes })

/-- `vfs_write` -/
def vfsWrite (h : Int32) (buffer : List UInt8) : UInt32 × Vfs V Fil Dir :=
  if buffer.length = 0 then
    (0, s)
  else
    match s.lookupReady h with
    | none => (0, s)
    | some i =>
        match (s.handles i).type with
        | .socket =>
            let (res, v) := B.netSocketSend s.volume (s.handles i).socketId buffer
            (if res < 0 then 0 else res.toUInt32, { s with volume := v })
        | .dir => (0, s)
        | .file =>
            let (res, bw, r) := B.fWrite s.volume (s.handles i).fil buffer
            (if res = 0 then bw else 0, s.setFil i r)

/-- `vfs_seek` -/
def vfsSeek (h : Int32) (offset : UInt32) : Int32 × Vfs V Fil Dir :=
  match s.lookupType .file h with
  | none => (-1, s)
  | some i =>
      let (res, r) := B.fLseek s.volume (s.handles i).fil offset
      (if res = 0 then 0 else -1, s.setFil i r)

/-- `vfs_tell` -/
def vfsTell (h : Int32) : UInt32 :=
  match s.lookupType .file h with
  | none => 0
  | some i => B.fTell (s.handles i).fil

/-- `vfs_size` -/
def vfsSize (h : Int32) : UInt32 :=
  match s.lookupType .file h with
  | none => 0
  | some i => B.fSize (s.handles i).fil

/-- `vfs_sync` -/
def vfsSync (h : Int32) : Int32 × Vfs V Fil Dir :=
  match s.lookupType .file h with
  | none => (-1, s)
  | some i =>
      let (res, r) := B.fSync s.volume (s.handles i).fil
      (if res = 0 then 0 else -1, s.setFil i r)

/-! ### Directories and attributes -/

/-- `vfs_readdir`: the result is positive when there is an entry. -/
def vfsReaddir (h : Int32) : Int32 × Option VfsDirent × Vfs V Fil Dir :=
  match s.lookupType .dir h with
  | none => (-1, none, s)
  | some i =>
      let (res, fno, r) := B.fReaddir s.volume (s.handles i).dir
      let s := s.setDir i r
      if res ≠ 0 ∨ fno.fname.bytes = [] then
        (0, none, s)
      else
        (1, some ⟨fno.fname.truncate 23, fno.fattrib &&& amDir ≠ 0, fno.fsize⟩, s)

/-- `vfs_get_handle_type` -/
def vfsGetHandleType (h : Int32) : Option HandleType :=
  (s.lookup h).map (fun i => (s.handles i).type)

/-- `vfs_fstat` -/
def vfsFstat (h : Int32) : Option VfsDirent :=
  (s.lookupReady h).map (fun i =>
    match (s.handles i).type with
    | .dir => ⟨CString.empty, true, 0⟩
    | .socket => ⟨CString.empty, false, 0⟩
    | .file => ⟨CString.empty, false, B.fSize (s.handles i).fil⟩)

end Vfs

/-! ### A volume with nothing but a root directory -/

/-- FatFs on a volume whose root directory has the given entries, which cannot be opened, and no
network. -/
def Backend.rootOnly (entries : List FilInfo) : Backend Unit Unit (List FilInfo) where
  fOpen v _ _ := (4, v, ())
  fOpendir v path := if path.bytes = [0x2F] then (0, v, entries) else (5, v, [])
  fRead v f _ := (9, 0, [], v, f)
  fWrite v f _ := (9, 0, v, f)
  fLseek v f _ := (9, v, f)
  fTell _ := 0
  fSize _ := 0
  fSync v f := (9, v, f)
  fReaddir v d := (0, d.headD ⟨CString.empty, 0, 0⟩, v, d.tail)
  fClose v f := (v, f)
  fClosedir v d := (v, d)
  netSocketRecv v _ _ := (-1, [], v)
  netSocketSend v _ _ := (-1, v)
  netSocketClose v _ := v

/-- The handles of `vfs_init` on such a volume. -/
def Vfs.boot : Vfs Unit Unit (List FilInfo) :=
  ⟨true, fun _ => ⟨false, .file, (), [], 0⟩, (), []⟩
