import Woos.Vfs.Files
import Woos.Wasi.Validity

/-!
# Seeking

`SeekLaw` says what `wasi_fd_seek` should do: move the position to the offset from the base that
`whence` names when this is a position that a file can have, and fail and leave the position alone
otherwise.  The function adds in 32 bits and reports the sum: a sum outside of 32 bits wraps around,
and a file that cannot be written is not moved past its end.
-/

namespace Wasi

variable {V Fil Dir : Type} {B : Backend V Fil Dir} {fTruncate : V → Fil → UInt8 × V × Fil}

/-- The position from which `whence` counts. -/
def seekBase (B : Backend V Fil Dir) (s : Wasi V Fil Dir) (fd whence : UInt32) : Option UInt32 :=
  if whence = 0 then some 0
  else if whence = 1 then some (s.vfs.vfsTell B (handleOf fd))
  else if whence = 2 then some (s.vfs.vfsSize B (handleOf fd))
  else none

/-- The sum of a base and an offset. -/
def seekSum (base : UInt32) (offset : Int64) : Int := base.toNat + offset.toInt

/-- The 64-bit word at an address of the guest. -/
def word64 (s : Wasi V Fil Dir) (addr : UInt32) : Nat :=
  LittleEndian.decode (s.memory.read addr.toNat 8)

/-- The call reports an error and leaves the position as it was. -/
def SeekFails (B : Backend V Fil Dir) (s : Wasi V Fil Dir) (fd : UInt32)
    (r : Outcome × Wasi V Fil Dir) : Prop :=
  (∃ errno, r.1 = .ret errno ∧ errno ≠ wasiEsuccess)
    ∧ r.2.vfs.vfsTell B (handleOf fd) = s.vfs.vfsTell B (handleOf fd)

/-- The call succeeds, and the offset that it reports and the one that `wasi_fd_tell` then reports
are the target. -/
def SeekReaches (B : Backend V Fil Dir) (fd newoffset told : UInt32) (target : Int)
    (r : Outcome × Wasi V Fil Dir) : Prop :=
  r.1 = .ret wasiEsuccess ∧ r.2.word64 newoffset = target
    ∧ (r.2.fdTell B fd told).1 = .ret wasiEsuccess
    ∧ (r.2.fdTell B fd told).2.word64 told = target

/-- The law of `wasi_fd_seek`. -/
def SeekLaw (B : Backend V Fil Dir) (s : Wasi V Fil Dir) (fd : UInt32) (offset : Int64)
    (whence newoffset told : UInt32) : Prop :=
  match seekBase B s fd whence with
  | none => SeekFails B s fd (s.fdSeek B fd offset whence newoffset)
  | some base =>
      if 0 ≤ seekSum base offset ∧ seekSum base offset < 2 ^ 32 then
        SeekReaches B fd newoffset told (seekSum base offset) (s.fdSeek B fd offset whence newoffset)
      else
        SeekFails B s fd (s.fdSeek B fd offset whence newoffset)

section

variable {D : FatFs B fTruncate} {s : Wasi V Fil Dir} {fd : UInt32} {i : Fin maxHandles} {F : File}

/-- The descriptor of an open file is not one of the first four. -/
theorem four_le_of_open (hopen : s.vfs.OpenFile D (handleOf fd) i F) :
  4 ≤ fd
  := by
  by_contra hfd
  have hlookup := hopen.lookup
  have hnone : NetVfs.handle (handleOf fd).toInt = none := by
    have hlt : fd.toNat < 4 := by
      rw [UInt32.le_iff_toNat_le] at hfd
      exact Nat.lt_of_not_le hfd
    have hcases : fd = 0 ∨ fd = 1 ∨ fd = 2 ∨ fd = 3 := by
      simp only [← UInt32.toNat_inj]
      have hnum : (0 : UInt32).toNat = 0 ∧ (1 : UInt32).toNat = 1 ∧ (2 : UInt32).toNat = 2
          ∧ (3 : UInt32).toNat = 3 := ⟨rfl, rfl, rfl, rfl⟩
      omega
    rcases hcases with rfl | rfl | rfl | rfl
    · rfl
    · rfl
    · rfl
    · rfl
  rw [Vfs.lookupType, Vfs.lookupReady, Vfs.lookup, hnone] at hlookup
  simp at hlookup

@[simp]
theorem word64_write64 (s : Wasi V Fil Dir) (addr : UInt32) (v : UInt64) :
  (s.write64 addr v).word64 addr = v.toNat
  := by
  rw [word64, write64, write]
  have hread := s.memory.read_write addr.toNat (LittleEndian.encode 8 v.toNat)
  rw [LittleEndian.length_encode] at hread
  rw [hread, LittleEndian.decode_encode (v.toNat_lt)]

/-- The target in 32 bits is the sum, modulo `2 ^ 32`. -/
theorem toNat_target (base : UInt32) (offset : Int64) :
  ((base + offset.toUInt64.toUInt32).toNat : Int) = seekSum base offset % 2 ^ 32
  := by
  have hlt := offset.toUInt64.toNat_lt
  have hcond : offset.toInt = if 2 * offset.toUInt64.toNat < 2 ^ 64 then (offset.toUInt64.toNat : Int)
      else offset.toUInt64.toNat - 2 ^ 64 := BitVec.toInt_eq_toNat_cond _
  rw [seekSum, hcond, UInt32.toNat_add, UInt64.toNat_toUInt32]
  split
  · omega
  · omega

/-- The end of `wasi_fd_seek` on an open file. -/
theorem seekTo_open (hopen : s.vfs.OpenFile D (handleOf fd) i F) (target newoffset : UInt32) :
  ∃ vfs G, s.seekTo B (handleOf fd) target newoffset
      = (.ret wasiEsuccess, { s with vfs := vfs }.write64 newoffset target.toUInt64)
    ∧ vfs.OpenFile D (handleOf fd) i G ∧ G.pos = F.target target.toNat
  := by
  obtain ⟨vfs, G, hseek, hopen', hG⟩ := Vfs.vfsSeek_open hopen target
  use vfs, G
  rw [seekTo, hseek]
  exact ⟨rfl, hopen', hG.pos⟩

/-- `wasi_fd_seek` adds in 32 bits. -/
theorem fdSeek_eq (hfd : 4 ≤ fd) (offset : Int64) (whence : UInt32) {newoffset : UInt32}
    (hmem : s.checkMem newoffset 8 = true) :
  s.fdSeek B fd offset whence newoffset
    = match seekBase B s fd whence with
      | none => (.ret wasiEinval, s)
      | some base => s.seekTo B (handleOf fd) (base + offset.toUInt64.toUInt32) newoffset
  := by
  rw [fdSeek, seekBase, hmem, if_neg (by simp), if_neg (UInt32.not_lt.mpr hfd)]
  by_cases hset : whence = 0
  · rw [if_pos hset, if_pos hset]
    simp
  rw [if_neg hset, if_neg hset]
  by_cases hcur : whence = 1
  · rw [if_pos hcur, if_pos hcur]
  rw [if_neg hcur, if_neg hcur]
  by_cases hend : whence = 2
  · rw [if_pos hend, if_pos hend]
  rw [if_neg hend, if_neg hend]

/-- `wasi_fd_tell` on an open file. -/
theorem fdTell_open (hopen : s.vfs.OpenFile D (handleOf fd) i F) {told : UInt32}
    (hmem : s.checkMem told 8 = true) :
  (s.fdTell B fd told).1 = .ret wasiEsuccess ∧ (s.fdTell B fd told).2.word64 told = F.pos
  := by
  rw [fdTell, hmem, if_neg (by simp), if_pos (four_le_of_open hopen)]
  use rfl
  rw [word64_write64, UInt32.toNat_toUInt64, Vfs.vfsTell_open hopen]

/-- A call of `wasi_fd_seek` that counts from a base reaches the target exactly when the sum fits
into 32 bits, and is within a file that cannot be written. -/
theorem seekReaches_iff (hopen : s.vfs.OpenFile D (handleOf fd) i F) (base : UInt32) (offset : Int64)
    {newoffset told : UInt32} (htold : s.checkMem told 8 = true) :
  SeekReaches B fd newoffset told (seekSum base offset)
      (s.seekTo B (handleOf fd) (base + offset.toUInt64.toUInt32) newoffset)
    ↔ (0 ≤ seekSum base offset ∧ seekSum base offset < 2 ^ 32)
      ∧ (F.writable = true ∨ seekSum base offset ≤ F.contents.length)
  := by
  obtain ⟨vfs, G, heq, hopen', hG⟩ := seekTo_open hopen (base + offset.toUInt64.toUInt32) newoffset
  obtain ⟨htell, hword⟩ := fdTell_open
    (s := { s with vfs := vfs }.write64 newoffset (base + offset.toUInt64.toUInt32).toUInt64)
    hopen' htold
  have hsum := toNat_target base offset
  rw [SeekReaches, heq]
  dsimp only
  rw [htell, hword, word64_write64, UInt32.toNat_toUInt64, hG, File.target]
  cases F.writable with
  | true =>
      simp only [if_true, true_and, true_or, and_true]
      omega
  | false =>
      simp only [Bool.false_eq_true, if_false, true_and, false_or]
      omega

/-- `wasi_fd_seek` does what it should exactly when the sum of the base and the offset fits into 32
bits, and is within a file that cannot be written; or when there is no base. -/
theorem seekLaw_iff (hopen : s.vfs.OpenFile D (handleOf fd) i F) (offset : Int64) (whence : UInt32)
    {newoffset told : UInt32} (hmem : s.checkMem newoffset 8 = true)
    (htold : s.checkMem told 8 = true) :
  SeekLaw B s fd offset whence newoffset told
    ↔ ∀ base, seekBase B s fd whence = some base →
        (0 ≤ seekSum base offset ∧ seekSum base offset < 2 ^ 32)
          ∧ (F.writable = true ∨ seekSum base offset ≤ F.contents.length)
  := by
  rw [SeekLaw, fdSeek_eq (four_le_of_open hopen) offset whence hmem]
  cases seekBase B s fd whence with
  | none =>
      simp only [SeekFails, reduceCtorEq, false_imp_iff, implies_true, iff_true]
      exact ⟨⟨_, rfl, by decide⟩, trivial⟩
  | some base =>
      simp only [Option.some.injEq, forall_eq']
      split
      case isTrue hrange =>
        apply seekReaches_iff hopen base offset htold
      case isFalse hrange =>
        -- the wrapped sum is a position, so that the call succeeds
        obtain ⟨vfs, G, heq, -, -⟩ := seekTo_open hopen (base + offset.toUInt64.toUInt32) newoffset
        rw [heq]
        constructor
        · rintro ⟨⟨errno, hret, hne⟩, -⟩
          cases hret
          exact (hne rfl).elim
        · intro h
          exact (hrange h.1).elim

end

/-- A guest with a file of three bytes at its beginning, and 32 bytes of memory. -/
def guestWithFile (readable writable : Bool) : Wasi Unit File Unit where
  vfs :=
    { ready := true
      handles := fun _ => ⟨true, .file, ⟨[1, 2, 3], 0, readable, writable, by decide, by decide⟩, (), -1⟩
      volume := ()
      serial := [] }
  memory := fun _ => 0
  memorySize := 32
  input := []
  timerTicks := 0
  timerFrequencyHz := 20

theorem guestWithFile_open (readable writable : Bool) :
  (guestWithFile readable writable).vfs.OpenFile FatFs.inMemory (handleOf 4) ⟨0, by decide⟩
    ⟨[1, 2, 3], 0, readable, writable, by decide, by decide⟩
  := ⟨rfl, rfl⟩

/-- The case of a seek to the end of a file. -/
theorem seekLaw_iff_end :
  SeekLaw Backend.inMemory (guestWithFile true false) 4 0 2 0 8
    ↔ ∀ base, seekBase Backend.inMemory (guestWithFile true false) 4 2 = some base →
        (0 ≤ seekSum base 0 ∧ seekSum base 0 < 2 ^ 32)
          ∧ (false = true ∨ seekSum base 0 ≤ ([1, 2, 3] : List UInt8).length)
  := seekLaw_iff (guestWithFile_open true false) 0 2 rfl rfl

/-- A seek to one byte before the beginning of a file succeeds. -/
theorem not_seekLaw :
  ¬ SeekLaw Backend.inMemory (guestWithFile true false) 4 (-1) 0 0 8
  := by
  intro h
  obtain ⟨errno, hret, hne⟩ := h.1
  cases hret
  exact hne rfl

end Wasi
