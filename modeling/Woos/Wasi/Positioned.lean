import Woos.Wasi.Seek

/-!
# Input and output at an offset

`wasi_fd_pread` and `wasi_fd_pwrite` seek to the offset, move the buffers, and seek back;
`wasi_fd_filestat_set_size` seeks to the new size and cuts the file off there.  `Framed` says what
these calls should keep: the position of the file on every exit, the contents of a file that is
read, and that the bytes moved are those at the offset.

They do not seek back when a buffer lies outside of the memory, nor after a change of the size;
the offset is cut to 32 bits; and seeking past the end of a file that can be written makes it grow.
`Keeps` is the condition under which none of this shows.
-/

/-- The calls that name an offset. -/
inductive PositionedCall where
  | pread (fd iovs iovsLen : UInt32) (offset : UInt64) (nread : UInt32)
  | pwrite (fd iovs iovsLen : UInt32) (offset : UInt64) (nwritten : UInt32)
  | setSize (fd : UInt32) (size : UInt64)

/-- The descriptor of a call. -/
def PositionedCall.fd : PositionedCall → UInt32
  | .pread fd _ _ _ _ => fd
  | .pwrite fd _ _ _ _ => fd
  | .setSize fd _ => fd

/-- What can be read of a file. -/
def File.readableContents (F : File) : List UInt8 := if F.readable then F.contents else []

namespace Wasi

variable {V Fil Dir : Type}

/-- `wasi_fd_filestat_set_size` -/
def fdFilestatSetSize (B : Backend V Fil Dir) (fTruncate : V → Fil → UInt8 × V × Fil)
    (s : Wasi V Fil Dir) (fd : UInt32) (size : UInt64) : Outcome × Wasi V Fil Dir :=
  if 4 ≤ fd then
    let (res, vfs) := s.vfs.vfsTruncate B fTruncate (handleOf fd) size.toUInt32
    (.ret (if res = 0 then wasiEsuccess else wasiEio), { s with vfs := vfs })
  else
    (.ret wasiEbadf, s)

/-- Execute a call. -/
def positionedCall (B : Backend V Fil Dir) (fTruncate : V → Fil → UInt8 × V × Fil)
    (s : Wasi V Fil Dir) : PositionedCall → Outcome × Wasi V Fil Dir
  | .pread fd iovs iovsLen offset nread => s.fdPread B fd iovs iovsLen offset nread
  | .pwrite fd iovs iovsLen offset nwritten => s.fdPwrite B fd iovs iovsLen offset nwritten
  | .setSize fd size => s.fdFilestatSetSize B fTruncate fd size

/-! ### The buffers that a call comes to -/

/-- The loop over the buffers for a call that moves bytes as `move` says, given the number of those
moved before: whether it comes to a buffer outside of the memory, and the number of bytes moved. -/
def planned (move : Nat → Wasi V Fil Dir → UInt32 → UInt32 → Nat × Wasi V Fil Dir) (iovs : UInt32) :
    Nat → Nat → Nat → Wasi V Fil Dir → Bool × Nat
  | 0, _, moved, _ => (false, moved)
  | n + 1, i, moved, s =>
      let (bufPtr, bufLen) := s.iovec iovs i
      if !s.checkMem bufPtr bufLen.toNat then
        (true, moved)
      else
        let (k, s) := move moved s bufPtr bufLen
        if k < bufLen.toNat then (false, moved + k) else planned move iovs n (i + 1) (moved + k) s

/-- Fill a buffer with what the contents have from an offset on. -/
def readMove (contents : List UInt8) (start moved : Nat) (s : Wasi V Fil Dir)
    (bufPtr bufLen : UInt32) : Nat × Wasi V Fil Dir :=
  let data := (contents.drop (start + moved)).take bufLen.toNat
  (data.length, s.write bufPtr.toNat data)

/-- Store a buffer, as far as there is room. -/
def writeMove (capacity moved : Nat) (s : Wasi V Fil Dir) (_ bufLen : UInt32) :
    Nat × Wasi V Fil Dir :=
  (min bufLen.toNat (capacity - moved), s)

/-- The loop of a call follows the plan, when what the call does with a buffer does. -/
theorem bufferLoop_planned {io : Wasi V Fil Dir → UInt32 → UInt32 → UInt32 × Wasi V Fil Dir}
    {move : Nat → Wasi V Fil Dir → UInt32 → UInt32 → Nat × Wasi V Fil Dir}
    {R : Nat → Wasi V Fil Dir → Wasi V Fil Dir → Prop}
    (hmemory : ∀ moved s t, R moved s t → s.memory = t.memory ∧ s.memorySize = t.memorySize)
    (hstep : ∀ moved s t bufPtr bufLen, R moved s t →
      (io s bufPtr bufLen).1.toNat = (move moved t bufPtr bufLen).1
        ∧ R (moved + (move moved t bufPtr bufLen).1) (io s bufPtr bufLen).2 (move moved t bufPtr bufLen).2)
    (iovs : UInt32) (n i moved : Nat) (total : UInt32) {s t : Wasi V Fil Dir}
    (h : R moved s t) :
  ((bufferLoop io iovs n i total s).1 = none ↔ (planned move iovs n i moved t).1 = true)
    ∧ ∃ t', R (planned move iovs n i moved t).2 (bufferLoop io iovs n i total s).2 t'
  := by
  induction n generalizing i moved total s t with
  | zero => exact ⟨by simp [bufferLoop, planned], t, h⟩
  | succ n ih =>
      obtain ⟨hmem, hsize⟩ := hmemory moved s t h
      have hiovec : s.iovec iovs i = t.iovec iovs i := by rw [iovec, iovec, hmem]
      have hcheck (a : UInt32) (l : Nat) : s.checkMem a l = t.checkMem a l := by
        rw [checkMem, checkMem, hsize]
      obtain ⟨hcount, hnext⟩ := hstep moved s t (t.iovec iovs i).1 (t.iovec iovs i).2 h
      rw [bufferLoop, planned, hiovec]
      dsimp only
      rw [hcheck]
      split
      case isTrue => exact ⟨by simp, t, h⟩
      case isFalse =>
        simp only [UInt32.lt_iff_toNat_lt, hcount]
        split
        case isTrue => exact ⟨by simp, _, hnext⟩
        case isFalse => exact ih (i + 1) _ _ hnext

section

variable {B : Backend V Fil Dir} {fTruncate : V → Fil → UInt8 × V × Fil} {D : FatFs B fTruncate}
  {h : Int32} {i : Fin maxHandles} {F G : File} {moved : Nat} {s t : Wasi (V × List UInt8) Fil Dir}

/-- While the file `F` is read from its position on: the guest has the memory of the plan, and the
bytes moved are those that lie behind the position. -/
structure ReadsAlong (D : FatFs B fTruncate) (h : Int32) (i : Fin maxHandles) (F : File) (moved : Nat)
    (s t : Wasi (V × List UInt8) Fil Dir) : Prop where
  memory : s.memory = t.memory
  memorySize : s.memorySize = t.memorySize
  file : ∃ G, s.vfs.OpenFile D.logged h i G ∧ F.Reads moved G
  log : s.vfs.volume.2 = (F.readableContents.drop F.pos).take moved
  length : s.vfs.volume.2.length = moved

/-- A buffer that is read. -/
theorem readBuffer_along (hR : ReadsAlong D h i F moved s t) (bufPtr bufLen : UInt32) :
  (readBuffer B.logged h s bufPtr bufLen).1.toNat
      = (readMove F.readableContents F.pos moved t bufPtr bufLen).1
    ∧ ReadsAlong D h i F (moved + (readMove F.readableContents F.pos moved t bufPtr bufLen).1)
        (readBuffer B.logged h s bufPtr bufLen).2
        (readMove F.readableContents F.pos moved t bufPtr bufLen).2
  := by
  obtain ⟨G, hopen, hG⟩ := hR.file
  have hnext : G.next bufLen.toNat
      = (F.readableContents.drop (F.pos + moved)).take bufLen.toNat := by
    rw [File.next, File.readableContents, hG.mode.1, hG.pos, hG.contents]
    split
    · rfl
    · simp
  have hlog := Vfs.vfsRead_logged hopen bufLen
  obtain ⟨vfs, H, hread, hopen', hH⟩ := Vfs.vfsRead_open hopen bufLen
  have hlength := G.length_next_lt bufLen.toNat
  rw [hread] at hlog
  rw [hnext] at hread hlog hH hlength
  rw [readBuffer, hread, readMove]
  use UInt32.toNat_ofNat_of_lt' hlength
  constructor
  · change s.memory.write _ _ = t.memory.write _ _
    rw [hR.memory]
  · exact hR.memorySize
  · use H, hopen', hG.mode.trans hH.mode
    · rw [hH.pos, hG.pos, Nat.add_assoc]
    · rw [hH.contents, hG.contents]
  · change vfs.volume.2 = _
    rw [hlog, hR.log, List.take_add, List.drop_drop]
    congr 1
    rw [List.length_take, List.take_eq_take_min]
  · change vfs.volume.2.length = _
    rw [hlog, List.length_append, hR.length]

/-- While the file `F` is written from its position on: the memory stays as it is, and the bytes
moved are in the file behind the position. -/
structure WritesAlong (D : FatFs B fTruncate) (h : Int32) (i : Fin maxHandles) (F : File)
    (capacity moved : Nat) (s t : Wasi (V × List UInt8) Fil Dir) : Prop where
  memory : s.memory = t.memory
  memorySize : s.memorySize = t.memorySize
  file : ∃ G, s.vfs.OpenFile D.logged h i G ∧ F.SameMode G ∧ G.pos = F.pos + moved
    ∧ F.contents.length ≤ G.contents.length ∧ s.vfs.capacity D.logged i G = capacity - moved
    ∧ (G.contents.drop F.pos).take moved = s.vfs.volume.2
  le : moved ≤ capacity
  length : s.vfs.volume.2.length = moved

/-- Bytes that are written behind a position follow those that are there. -/
theorem drop_writes (h : F.pos ≤ G.pos) {data : List UInt8} {H : File} (hH : G.Writes data H) :
  (H.contents.drop F.pos).take (G.pos - F.pos + data.length)
    = (G.contents.drop F.pos).take (G.pos - F.pos) ++ data
  := by
  have hle := G.pos_le
  have hlength : ((G.contents.drop F.pos).take (G.pos - F.pos)).length = G.pos - F.pos := by
    rw [List.length_take, List.length_drop]
    omega
  have htaken : F.pos ≤ (G.contents.take G.pos).length := by
    rw [List.length_take]
    omega
  rw [hH.contents, List.append_assoc, List.drop_append_of_le_length htaken, List.drop_take,
    ← List.append_assoc]
  apply List.take_left'
  rw [List.length_append, hlength]

/-- A buffer that is written. -/
theorem writeBuffer_along {capacity : Nat} (hR : WritesAlong D h i F capacity moved s t)
    (bufPtr bufLen : UInt32) :
  (writeBuffer B.logged h s bufPtr bufLen).1.toNat = (writeMove capacity moved t bufPtr bufLen).1
    ∧ WritesAlong D h i F capacity (moved + (writeMove capacity moved t bufPtr bufLen).1)
        (writeBuffer B.logged h s bufPtr bufLen).2 (writeMove capacity moved t bufPtr bufLen).2
  := by
  obtain ⟨G, hopen, hmode, hpos, hlength, hcapacity, hmoved⟩ := hR.file
  have hread := s.memory.length_read bufPtr.toNat bufLen.toNat
  have hlt : (s.memory.read bufPtr.toNat bufLen.toNat).length < 2 ^ 32 := by
    rw [hread]
    exact bufLen.toNat_lt
  have hlog := Vfs.vfsWrite_logged hopen hlt
  obtain ⟨vfs, H, hwrite, hopen', hH, hcapacity'⟩ := Vfs.vfsWrite_open hopen hlt
  rw [hwrite, hcapacity] at hlog
  rw [hread, hcapacity] at hwrite hcapacity'
  rw [hcapacity] at hH
  have hmin : min bufLen.toNat (capacity - moved) < 2 ^ 32 := by
    have := bufLen.toNat_lt
    omega
  have hdata : ((s.memory.read bufPtr.toNat bufLen.toNat).take (capacity - moved)).length
      = min bufLen.toNat (capacity - moved) := by
    rw [List.length_take, hread, min_comm]
  have hle := hR.le
  rw [writeBuffer, hwrite, writeMove]
  use UInt32.toNat_ofNat_of_lt' hmin
  refine ⟨hR.memory, hR.memorySize, ⟨H, hopen', hmode.trans hH.mode, ?_, ?_, ?_, ?_⟩, ?_, ?_⟩
  · rw [hH.pos, hpos, hdata, Nat.add_assoc]
  · have hpos_le := G.pos_le
    rw [hH.contents]
    simp only [List.length_append, List.length_take, List.length_drop]
    omega
  · rw [hcapacity']
    omega
  · have hdrop := drop_writes (F := F) (by omega) hH
    rw [hpos, Nat.add_sub_cancel_left, hdata, hmoved] at hdrop
    rw [hdrop]
    exact hlog.symm
  · dsimp only
    omega
  · change vfs.volume.2.length = _
    rw [hlog, List.length_append, hR.length, hdata]

/-! ### The calls -/

/-- The places that a call at an offset checks first. -/
def Checked (s : Wasi V Fil Dir) (iovs iovsLen result : UInt32) : Prop :=
  s.checkMem iovs (8 * iovsLen.toNat) = true ∧ s.checkMem result 4 = true

/-- A call whose places are not in the memory changes nothing. -/
theorem atOffset_unchecked
    {io : Wasi V Fil Dir → UInt32 → UInt32 → UInt32 × Wasi V Fil Dir} {fd iovs iovsLen : UInt32}
    {s : Wasi V Fil Dir} {offset : UInt64} {result : UInt32} (h : ¬ s.Checked iovs iovsLen result) :
  s.atOffset B io fd iovs iovsLen offset result = (.trap, s)
  := by
  rw [atOffset, if_pos]
  rw [Checked] at h
  simp only [Bool.not_eq_true']
  by_contra hnot
  push Not at hnot
  exact h ⟨by simpa using hnot.1, by simpa using hnot.2⟩

/-- After a call at an offset the file is what the loop makes of it, and its position is the former
one unless the loop has ended with a trap. -/
theorem atOffset_final
    {io : Wasi (V × List UInt8) Fil Dir → UInt32 → UInt32 → UInt32 × Wasi (V × List UInt8) Fil Dir}
    {fd iovs iovsLen : UInt32} {offset : UInt64} {result : UInt32}
    {r : Option UInt32 × Wasi (V × List UInt8) Fil Dir}
    (hchecked : s.Checked iovs iovsLen result)
    (hopen : s.vfs.OpenFile D.logged (handleOf fd) i F)
    (hr : bufferLoop io iovs iovsLen.toNat 0 0
      { s with vfs := (s.vfs.vfsSeek B.logged (handleOf fd) offset.toUInt32).2 } = r)
    (hopen' : r.2.vfs.OpenFile D.logged (handleOf fd) i G)
    (hle : F.contents.length ≤ G.contents.length) :
  ∃ H, (s.atOffset B.logged io fd iovs iovsLen offset result).2.vfs.OpenFile D.logged (handleOf fd) i H
    ∧ H.contents = G.contents ∧ H.pos = (if r.1 = none then G.pos else F.pos)
    ∧ (s.atOffset B.logged io fd iovs iovsLen offset result).2.vfs.volume.2 = r.2.vfs.volume.2
  := by
  obtain ⟨vfs, K, hseek, -, -⟩ := Vfs.vfsSeek_open hopen offset.toUInt32
  rw [hseek] at hr
  rw [atOffset, if_neg (by simp [hchecked.1, hchecked.2]), if_neg (UInt32.not_lt.mpr (four_le_of_open hopen))]
  simp only [hseek, hr]
  rw [if_neg (by decide)]
  obtain ⟨total, s'⟩ := r
  cases total with
  | none => exact ⟨G, hopen', rfl, rfl, rfl⟩
  | some total =>
      obtain ⟨vfs', H, hback, hopen'', hH⟩ :=
        Vfs.vfsSeek_open hopen' (s.vfs.vfsTell B.logged (handleOf fd))
      have hlog := Vfs.vfsSeek_logged (B := B) s'.vfs (handleOf fd) (s.vfs.vfsTell B.logged (handleOf fd))
      have hpos : (s.vfs.vfsTell B.logged (handleOf fd)).toNat ≤ G.contents.length := by
        rw [Vfs.vfsTell_open hopen]
        exact F.pos_le.trans hle
      have htarget := File.target_of_le hpos
      rw [hback] at hlog
      simp only [hback]
      refine ⟨H, hopen'', hH.contents_eq (htarget.le.trans hpos), ?_, hlog⟩
      rw [hH.pos, htarget, Vfs.vfsTell_open hopen]
      rfl

end

/-! ### What the calls keep -/

variable {B : Backend V Fil Dir} {fTruncate : V → Fil → UInt8 × V × Fil}

/-- The call leaves the position of the file as it was, `wasi_fd_pread` leaves the contents as they
were, and the bytes moved, which are those of the record, are the bytes at the offset. -/
def Framed (D : FatFs B fTruncate) (c : PositionedCall) (s : Wasi (V × List UInt8) Fil Dir)
    (i : Fin maxHandles) (F : File) : Prop :=
  let s' := (s.positionedCall B.logged (loggedTruncate fTruncate) c).2
  let moved := s'.vfs.volume.2
  ∃ G, s'.vfs.OpenFile D.logged (handleOf c.fd) i G ∧ G.pos = F.pos
    ∧ match c with
      | .pread _ _ _ offset _ =>
          G.contents = F.contents ∧ moved = (F.contents.drop offset.toNat).take moved.length
      | .pwrite _ _ _ offset _ => moved = (G.contents.drop offset.toNat).take moved.length
      | .setSize _ _ => True

/-- The buffers that `wasi_fd_pread` comes to, reading from the low bits of the offset on. -/
def preadPlan (s : Wasi V Fil Dir) (F : File) (iovs iovsLen : UInt32) (offset : UInt64) : Bool × Nat :=
  planned (readMove F.readableContents (F.target offset.toUInt32.toNat)) iovs iovsLen.toNat 0 0 s

/-- The buffers that `wasi_fd_pwrite` comes to, given the room that there is from the low bits of the
offset on. -/
def pwritePlan (D : FatFs B fTruncate) (s : Wasi (V × List UInt8) Fil Dir) (i : Fin maxHandles)
    (F : File) (fd iovs iovsLen : UInt32) (offset : UInt64) : Bool × Nat :=
  let room := (s.vfs.vfsSeek B.logged (handleOf fd) offset.toUInt32).2.capacity D.logged i F
  planned (writeMove room) iovs iovsLen.toNat 0 0 s

/-- When the loop comes to a buffer outside of the memory, the bytes moved before lead from the
offset to the former position; and the offset has 32 bits, or no bytes are moved. -/
def PlanKeeps (F : File) (offset : UInt64) (plan : Bool × Nat) : Prop :=
  (plan.1 = true → F.target offset.toUInt32.toNat + plan.2 = F.pos)
    ∧ (offset.toNat < 2 ^ 32 ∨ plan.2 = 0)

/-- The condition under which a call is framed. -/
def Keeps (D : FatFs B fTruncate) (c : PositionedCall) (s : Wasi (V × List UInt8) Fil Dir)
    (i : Fin maxHandles) (F : File) : Prop :=
  match c with
  | .pread _ iovs iovsLen offset nread =>
      s.Checked iovs iovsLen nread →
        (F.writable = true → offset.toUInt32.toNat ≤ F.contents.length)
          ∧ PlanKeeps F offset (s.preadPlan F iovs iovsLen offset)
  | .pwrite fd iovs iovsLen offset nwritten =>
      s.Checked iovs iovsLen nwritten →
        PlanKeeps F offset (pwritePlan D s i F fd iovs iovsLen offset)
  | .setSize _ size => F.target size.toUInt32.toNat = F.pos

section

variable {D : FatFs B fTruncate} {s : Wasi (V × List UInt8) Fil Dir} {i : Fin maxHandles} {F : File}
  {fd iovs iovsLen : UInt32} {offset : UInt64} {result : UInt32}

/-- The bytes behind the position that the low bits of the offset give are those at the offset
exactly when the offset has 32 bits, or there are none. -/
theorem moved_iff (offset : UInt64) {C moved : List UInt8} {pos n : Nat} (hlt : C.length < 2 ^ 32)
    (hmoved : moved = (C.drop pos).take n) (hlength : moved.length = n)
    (hpos : moved ≠ [] → pos = offset.toUInt32.toNat) :
  moved = (C.drop offset.toNat).take n ↔ offset.toNat < 2 ^ 32 ∨ n = 0
  := by
  constructor
  · intro heq
    by_contra hnot
    push Not at hnot
    apply hnot.2
    rw [← hlength, heq, List.drop_eq_nil_of_le (by omega)]
    simp
  · rintro (hlow | rfl)
    · by_cases hne : moved = []
      · have hzero : n = 0 := by
          rw [← hlength, hne]
          rfl
        rw [hne, hzero, List.take_zero]
      · have heq : offset.toUInt32.toNat = offset.toNat := by
          rw [UInt64.toNat_toUInt32]
          exact Nat.mod_eq_of_lt hlow
        rw [hpos hne, heq] at hmoved
        exact hmoved
    · rw [List.length_eq_zero_iff.mp hlength, List.take_zero]

theorem setSize_iff (hopen : s.vfs.OpenFile D.logged (handleOf fd) i F) (size : UInt64) :
  Framed D (.setSize fd size) s i F ↔ F.target size.toUInt32.toNat = F.pos
  := by
  obtain ⟨r, vfs, G, htruncate, hopen', hG⟩ := Vfs.vfsTruncate_open hopen size.toUInt32
  have hfinal : (s.fdFilestatSetSize B.logged (loggedTruncate fTruncate) fd size).2
      = { s with vfs := vfs } := by
    rw [fdFilestatSetSize, if_pos (four_le_of_open hopen), htruncate]
  rw [Framed, positionedCall, hfinal]
  constructor
  · rintro ⟨H, hH, hpos, -⟩
    rw [← hG, hopen'.unique hH]
    exact hpos
  · intro h
    exact ⟨G, hopen', hG.trans h, trivial⟩

/-- A call whose places are not in the memory. -/
theorem framed_unchecked (hopen : s.vfs.OpenFile D.logged (handleOf fd) i F)
    (hlog : s.vfs.volume.2 = []) (h : ¬ s.Checked iovs iovsLen result) :
  Framed D (.pread fd iovs iovsLen offset result) s i F
    ∧ Framed D (.pwrite fd iovs iovsLen offset result) s i F
  := by
  constructor
  · rw [Framed, positionedCall, fdPread, atOffset_unchecked h]
    refine ⟨F, hopen, rfl, rfl, ?_⟩
    rw [hlog]
    simp
  · rw [Framed, positionedCall, fdPwrite, atOffset_unchecked h]
    refine ⟨F, hopen, rfl, ?_⟩
    rw [hlog]
    simp

/-- Seeking leaves the contents alone unless it makes the file grow. -/
theorem seeks_contents_iff {G : File} {offset : Nat} (hG : F.Seeks offset G) :
  G.contents = F.contents ↔ (F.writable = true → offset ≤ F.contents.length)
  := by
  constructor
  · intro heq hwritable
    have hlength := hG.length
    rw [heq, File.target, if_pos hwritable] at hlength
    omega
  · intro hle
    apply hG.contents_eq
    rw [File.target]
    split
    case isTrue hwritable => exact hle hwritable
    case isFalse => exact Nat.min_le_right _ _

/-- Bytes that have been moved at the target of a seek have been moved at its offset. -/
theorem target_of_moved {offset n : Nat} (h : (F.contents.drop (F.target offset)).take n ≠ []) :
  F.target offset = offset
  := by
  rw [File.target] at h ⊢
  split
  case isTrue => rfl
  case isFalse hwritable =>
    rw [if_neg hwritable] at h
    apply Nat.min_eq_left
    by_contra hnot
    apply h
    rw [List.drop_eq_nil_of_le (by omega), List.take_nil]

/-- As many bytes as a plan has read are bytes of the file. -/
theorem readableContents_take {pos n : Nat}
    (h : ((F.readableContents.drop pos).take n).length = n) :
  (F.readableContents.drop pos).take n = (F.contents.drop pos).take n
  := by
  rw [File.readableContents] at h ⊢
  split at h
  case isTrue hreadable => rw [if_pos hreadable]
  case isFalse hreadable =>
    have hzero : n = 0 := by simpa using h.symm
    rw [hzero, List.take_zero, List.take_zero]

/-- The file after a call has the former position exactly when a trap, if there is one, occurs
there. -/
theorem pos_iff {pos moved : Nat} {r : Option UInt32} {trapped : Bool} (h : r = none ↔ trapped = true) :
  (if r = none then pos + moved else F.pos) = F.pos ↔ (trapped = true → pos + moved = F.pos)
  := by
  rw [← h]
  split
  case isTrue hnone => simp [hnone]
  case isFalse hsome => simp [hsome]

/-- The state after `wasi_fd_pread`: the file is the one after the first seek, and the bytes moved are
those that the plan reads there. -/
theorem fdPread_final (offset : UInt64) (hopen : s.vfs.OpenFile D.logged (handleOf fd) i F)
    (hlog : s.vfs.volume.2 = []) (hchecked : s.Checked iovs iovsLen result) :
  ∃ G K plan, F.Seeks offset.toUInt32.toNat G
    ∧ plan = planned (readMove G.readableContents G.pos) iovs iovsLen.toNat 0 0 s
    ∧ (s.fdPread B.logged fd iovs iovsLen offset result).2.vfs.OpenFile D.logged (handleOf fd) i K
    ∧ K.contents = G.contents ∧ (K.pos = F.pos ↔ (plan.1 = true → G.pos + plan.2 = F.pos))
    ∧ (s.fdPread B.logged fd iovs iovsLen offset result).2.vfs.volume.2
        = (G.readableContents.drop G.pos).take plan.2
    ∧ ((G.readableContents.drop G.pos).take plan.2).length = plan.2
  := by
  obtain ⟨vfs, G, hseek, hopenG, hG⟩ := Vfs.vfsSeek_open hopen offset.toUInt32
  have hlogG := Vfs.vfsSeek_logged (B := B) s.vfs (handleOf fd) offset.toUInt32
  rw [hseek, hlog] at hlogG
  have hstart : ReadsAlong D (handleOf fd) i G 0 { s with vfs := vfs } s := by
    refine ⟨rfl, rfl, ⟨G, hopenG, File.Reads.refl G⟩, ?_, ?_⟩
    · rw [List.take_zero]
      exact hlogG
    · exact congrArg List.length hlogG
  obtain ⟨htrap, t, hR⟩ := bufferLoop_planned (R := ReadsAlong D (handleOf fd) i G)
    (fun _ _ _ hR => ⟨hR.memory, hR.memorySize⟩)
    (fun _ _ _ bufPtr bufLen hR => readBuffer_along hR bufPtr bufLen) iovs iovsLen.toNat 0 0 0 hstart
  obtain ⟨H, hopenH, hH⟩ := hR.file
  have hle : F.contents.length ≤ H.contents.length := by
    rw [hH.contents, hG.length]
    apply le_max_left
  obtain ⟨K, hopenK, hcontents, hpos, hlogK⟩ :=
    atOffset_final hchecked hopen (by rw [hseek]) hopenH hle
  refine ⟨G, K, _, hG, rfl, hopenK, hcontents.trans hH.contents, ?_, hlogK.trans hR.log, ?_⟩
  · rw [hpos, hH.pos]
    apply pos_iff htrap
  · rw [← hR.log, hR.length]

theorem pread_iff (offset : UInt64) (hopen : s.vfs.OpenFile D.logged (handleOf fd) i F)
    (hlog : s.vfs.volume.2 = []) (hchecked : s.Checked iovs iovsLen result) :
  Framed D (.pread fd iovs iovsLen offset result) s i F
    ↔ (F.writable = true → offset.toUInt32.toNat ≤ F.contents.length)
      ∧ PlanKeeps F offset (s.preadPlan F iovs iovsLen offset)
  := by
  obtain ⟨G, K, plan, hG, hplan, hopenK, hcontents, hpos, hmoved, hlength⟩ :=
    fdPread_final offset hopen hlog hchecked
  rw [← seeks_contents_iff hG, ← hcontents]
  -- the bytes moved are those of the file when it has not grown
  have hbytes (hsame : K.contents = F.contents) :
      plan = s.preadPlan F iovs iovsLen offset
        ∧ ((G.readableContents.drop G.pos).take plan.2
            = (F.contents.drop offset.toNat).take plan.2 ↔ offset.toNat < 2 ^ 32 ∨ plan.2 = 0) := by
    have hreadable : G.readableContents = F.readableContents := by
      rw [File.readableContents, File.readableContents, hG.mode.1, ← hcontents, hsame]
    rw [hreadable, hG.pos] at hplan hlength ⊢
    use hplan
    have hcut := readableContents_take hlength
    rw [hcut] at hlength ⊢
    exact moved_iff offset F.length_lt rfl hlength target_of_moved
  rw [Framed, positionedCall, hmoved, hlength, PlanKeeps]
  constructor
  · rintro ⟨K', hopenK', hpos', hsame, hmoved'⟩
    obtain rfl := hopenK.unique hopenK'
    obtain ⟨heq, hiff⟩ := hbytes hsame
    rw [← heq, ← hG.pos]
    exact ⟨hsame, hpos.mp hpos', hiff.mp hmoved'⟩
  · rintro ⟨hsame, htrap, hlow⟩
    obtain ⟨heq, hiff⟩ := hbytes hsame
    rw [← heq] at htrap hlow
    rw [← hG.pos] at htrap
    exact ⟨K, hopenK, hpos.mpr htrap, hsame, hiff.mpr hlow⟩

/-- The state after `wasi_fd_pwrite`: the bytes moved are in the file behind the position of the
first seek. -/
theorem fdPwrite_final (offset : UInt64) (hopen : s.vfs.OpenFile D.logged (handleOf fd) i F)
    (hlog : s.vfs.volume.2 = []) (hchecked : s.Checked iovs iovsLen result) :
  ∃ K plan moved, plan = pwritePlan D s i F fd iovs iovsLen offset
    ∧ (s.fdPwrite B.logged fd iovs iovsLen offset result).2.vfs.OpenFile D.logged (handleOf fd) i K
    ∧ (K.pos = F.pos ↔ (plan.1 = true → F.target offset.toUInt32.toNat + plan.2 = F.pos))
    ∧ (s.fdPwrite B.logged fd iovs iovsLen offset result).2.vfs.volume.2 = moved
    ∧ moved = (K.contents.drop (F.target offset.toUInt32.toNat)).take plan.2
    ∧ moved.length = plan.2 ∧ (moved ≠ [] → F.writable = true)
  := by
  obtain ⟨vfs, G, hseek, hopenG, hG⟩ := Vfs.vfsSeek_open hopen offset.toUInt32
  have hlogG := Vfs.vfsSeek_logged (B := B) s.vfs (handleOf fd) offset.toUInt32
  rw [hseek, hlog] at hlogG
  have hstart : WritesAlong D (handleOf fd) i G (vfs.capacity D.logged i F) 0 { s with vfs := vfs } s := by
    refine ⟨rfl, rfl, ⟨G, hopenG, File.SameMode.refl G, rfl, le_rfl, ?_, ?_⟩, Nat.zero_le _, ?_⟩
    · rw [Vfs.capacity, Vfs.capacity, hG.mode.2, Nat.sub_zero]
    · rw [List.take_zero]
      exact hlogG.symm
    · exact congrArg List.length hlogG
  obtain ⟨htrap, t, hR⟩ := bufferLoop_planned
    (R := WritesAlong D (handleOf fd) i G (vfs.capacity D.logged i F))
    (fun _ _ _ hR => ⟨hR.memory, hR.memorySize⟩)
    (fun _ _ _ bufPtr bufLen hR => writeBuffer_along hR bufPtr bufLen) iovs iovsLen.toNat 0 0 0 hstart
  obtain ⟨H, hopenH, -, hposH, hle, -, hmoved⟩ := hR.file
  have hle' : F.contents.length ≤ H.contents.length := by
    apply le_trans _ hle
    rw [hG.length]
    apply le_max_left
  obtain ⟨K, hopenK, hcontents, hpos, hlogK⟩ :=
    atOffset_final hchecked hopen (by rw [hseek]) hopenH hle'
  refine ⟨K, _, _, ?_, hopenK, ?_, hlogK, ?_, hR.length, ?_⟩
  · rw [pwritePlan, hseek]
  · rw [hpos, hposH, hG.pos]
    apply pos_iff htrap
  · rw [hcontents, ← hG.pos, hmoved]
  · intro hne
    by_contra hwritable
    have hzero : vfs.capacity D.logged i F = 0 := if_neg hwritable
    have hle := hR.le
    have hlength := hR.length
    exact hne (List.length_eq_zero_iff.mp (by omega))

theorem pwrite_iff (offset : UInt64) (hopen : s.vfs.OpenFile D.logged (handleOf fd) i F)
    (hlog : s.vfs.volume.2 = []) (hchecked : s.Checked iovs iovsLen result) :
  Framed D (.pwrite fd iovs iovsLen offset result) s i F
    ↔ PlanKeeps F offset (pwritePlan D s i F fd iovs iovsLen offset)
  := by
  obtain ⟨K, plan, moved, hplan, hopenK, hpos, hlogK, hmoved, hlength, hwritable⟩ :=
    fdPwrite_final offset hopen hlog hchecked
  have hiff := moved_iff offset K.length_lt hmoved hlength
    (fun hne => if_pos (hwritable hne))
  rw [Framed, positionedCall, hlogK, hlength, PlanKeeps, ← hplan, ← hpos, ← hiff]
  constructor
  · rintro ⟨K', hopenK', hpos', hmoved'⟩
    obtain rfl := hopenK.unique hopenK'
    exact ⟨hpos', hmoved'⟩
  · rintro ⟨hpos', hmoved'⟩
    exact ⟨K, hopenK, hpos', hmoved'⟩

/-- A call at an offset keeps what it should exactly under the condition `Keeps`. -/
theorem framed_iff {c : PositionedCall} (hopen : s.vfs.OpenFile D.logged (handleOf c.fd) i F)
    (hlog : s.vfs.volume.2 = []) :
  Framed D c s i F ↔ Keeps D c s i F
  := by
  cases c with
  | pread fd iovs iovsLen offset nread =>
      by_cases hchecked : s.Checked iovs iovsLen nread
      · rw [Keeps, forall_prop_of_true hchecked]
        exact pread_iff offset hopen hlog hchecked
      · rw [Keeps, forall_prop_of_false hchecked, iff_true]
        exact (framed_unchecked hopen hlog hchecked).1
  | pwrite fd iovs iovsLen offset nwritten =>
      by_cases hchecked : s.Checked iovs iovsLen nwritten
      · rw [Keeps, forall_prop_of_true hchecked]
        exact pwrite_iff offset hopen hlog hchecked
      · rw [Keeps, forall_prop_of_false hchecked, iff_true]
        exact (framed_unchecked hopen hlog hchecked).2
  | setSize fd size => exact setSize_iff hopen size

end

theorem zero_le_three :
  0 ≤ ([1, 2, 3] : List UInt8).length
  := by
  decide

theorem three_lt :
  ([1, 2, 3] : List UInt8).length < 2 ^ 32
  := by
  decide

/-- A file of three bytes at its beginning. -/
def threeBytes (writable : Bool) : File := ⟨[1, 2, 3], 0, true, writable, zero_le_three, three_lt⟩

/-- A guest with the file as its descriptor 4, and 32 bytes of memory, of which the first 8 describe
a buffer of two bytes at 20. -/
def guestWithBuffer (F : File) : Wasi (Unit × List UInt8) File Unit where
  vfs :=
    { ready := true
      handles := fun _ => ⟨true, .file, F, (), -1⟩
      volume := ((), [])
      serial := [] }
  memory := fun a => if a = 0 then 20 else if a = 4 then 2 else 0
  memorySize := 32
  input := []
  timerTicks := 0
  timerFrequencyHz := 20

theorem guestWithBuffer_open (F : File) :
  (guestWithBuffer F).vfs.OpenFile FatFs.inMemory.logged (handleOf 4) ⟨0, by decide⟩ F
  := ⟨rfl, rfl⟩

/-- The case of a read of two bytes at offset 1. -/
theorem framed_iff_pread :
  Framed FatFs.inMemory (.pread 4 0 1 1 16) (guestWithBuffer (threeBytes false)) ⟨0, by decide⟩
    (threeBytes false)
  := by
  apply (framed_iff (c := .pread 4 0 1 1 16) (guestWithBuffer_open _) rfl).mpr
  have hplan : (guestWithBuffer (threeBytes false)).preadPlan (threeBytes false) 0 1 1 = (false, 2) :=
    rfl
  intro
  rw [hplan]
  exact ⟨nofun, nofun, Or.inl (by decide)⟩

/-- A change of the size moves the file to its new end. -/
theorem not_framed :
  ¬ Framed FatFs.inMemory (.setSize 4 2) (guestWithBuffer (threeBytes true)) ⟨0, by decide⟩
    (threeBytes true)
  := by
  rw [setSize_iff (guestWithBuffer_open _)]
  decide

end Wasi
