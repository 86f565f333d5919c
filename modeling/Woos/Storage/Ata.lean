import Woos.Lib.Packing
import Woos.Storage.Basic

/-!
# The ATA driver

`ataPioReadSectors` and `ataPioWriteSectors` are translated from `storage.c`: they write the command
registers of the primary channel and then move every sector through the data register, word by word,
after they have waited for the drive.

The drive behind the ports is a parameter.  `AtaDrive` states what is documented of one: a command
with the 28-bit address in its registers starts at that sector and goes on sector by sector, and
before each of them the drive asks for the data or reports an error.  `Bad` are the sectors whose
transfer fails; that of a bad sector that is written shows when the next one is awaited.
-/

namespace Storage

/-- The ports of the drive, with `σ` for its states. -/
structure Ports (σ : Type) where
  inb : UInt16 → σ → UInt8 × σ
  outb : UInt16 → UInt8 → σ → σ
  inw : UInt16 → σ → UInt16 × σ
  outw : UInt16 → UInt16 → σ → σ

namespace Ata

/-- `ATA_REG_DATA`. -/
def regData : UInt16 := 0x1F0
/-- `ATA_REG_SECTOR_COUNT`. -/
def regSectorCount : UInt16 := 0x1F2
/-- `ATA_REG_LBA_LOW`. -/
def regLbaLow : UInt16 := 0x1F3
/-- `ATA_REG_LBA_MID`. -/
def regLbaMid : UInt16 := 0x1F4
/-- `ATA_REG_LBA_HIGH`. -/
def regLbaHigh : UInt16 := 0x1F5
/-- `ATA_REG_DRIVE_HEAD`. -/
def regDriveHead : UInt16 := 0x1F6
/-- `ATA_REG_STATUS`. -/
def regStatus : UInt16 := 0x1F7
/-- `ATA_REG_COMMAND`. -/
def regCommand : UInt16 := 0x1F7
/-- `ATA_REG_ALT_STATUS`. -/
def regAltStatus : UInt16 := 0x3F6
/-- `ATA_REG_DEVICE_CONTROL`. -/
def regDeviceControl : UInt16 := 0x3F6

/-- `ATA_CMD_READ_SECTORS`. -/
def cmdReadSectors : UInt8 := 0x20
/-- `ATA_CMD_WRITE_SECTORS`. -/
def cmdWriteSectors : UInt8 := 0x30
/-- `ATA_CMD_FLUSH`. -/
def cmdFlush : UInt8 := 0xE7

end Ata

open Ata

variable {σ : Type} (P : Ports σ)

/-- `io_wait`. -/
def ioWait (d : σ) : σ := P.outb 0x80 0 d

/-- `ata_wait_not_busy`. -/
def ataWaitNotBusy (d : σ) : Bool × σ :=
  let r := spin (fun d =>
    let (status, d) := P.inb regAltStatus d
    (if status &&& 0x80 = 0 then some true else none, d)) 100000 d
  (r.1 == some true, r.2)

/-- `ata_wait_drq`. -/
def ataWaitDrq (d : σ) : Bool × σ :=
  let r := spin (fun d =>
    let (status, d) := P.inb regStatus d
    (if status &&& 0x21 ≠ 0 then some false
      else if status &&& 0x80 = 0 ∧ status &&& 0x08 ≠ 0 then some true
      else none, d)) 100000 d
  (r.1 == some true, r.2)

/-- The registers that `ata_pio_read_sectors` and `ata_pio_write_sectors` write, in order. -/
def ataCommand (lba : UInt32) (sectorCount command : UInt8) (d : σ) : σ :=
  let d := P.outb regDeviceControl 0x02 d
  let d := P.outb regDriveHead ((0xE0 : UInt8) ||| ((lba >>> 24) &&& 0x0F).toUInt8) d
  let d := ioWait P d
  let d := P.outb regSectorCount sectorCount d
  let d := P.outb regLbaLow (lba &&& 0xFF).toUInt8 d
  let d := P.outb regLbaMid ((lba >>> 8) &&& 0xFF).toUInt8 d
  let d := P.outb regLbaHigh ((lba >>> 16) &&& 0xFF).toUInt8 d
  P.outb regCommand command d

/-- The words that are read into the buffer from `word` on. -/
def readWords (p : Nat) : (count word : Nat) → σ → Memory → σ × Memory
  | 0, _, d, m => (d, m)
  | count + 1, word, d, m =>
      let (value, d) := P.inw regData d
      readWords p count (word + 1) d (m.store 2 (p + 2 * word) value.toNat)

/-- The words of the buffer that are written from `word` on. -/
def writeWords (m : Memory) (p : Nat) : (count word : Nat) → σ → σ
  | 0, _, d => d
  | count + 1, word, d =>
      writeWords m p count (word + 1) (P.outw regData (.ofNat (m.load 2 (p + 2 * word))) d)

/-- The loop of `ata_pio_read_sectors` over the sectors. -/
def readLoop (lba : UInt32) (buffer : Nat) : (count sector : Nat) → State σ → Bool × State σ
  | 0, _, s => (true, s)
  | count + 1, sector, s =>
      match ataWaitDrq P s.drive with
      | (false, d) =>
          (false, { s with drive := d, lastReadOk := false, lastLba := lba + .ofNat sector })
      | (true, d) =>
          let (d, m) := readWords P (buffer + 512 * sector) 256 0 d s.mem
          readLoop lba buffer count (sector + 1) { s with drive := d, mem := m }

/-- `ata_pio_read_sectors`. -/
def ataPioReadSectors (lba : UInt32) (sectorCount : UInt8) (buffer : Nat) (s : State σ) :
    Bool × State σ :=
  if sectorCount = 0 ∨ buffer = 0 ∨ lba > 0x0FFFFFFF then (false, { s with lastReadOk := false })
  else
    match ataWaitNotBusy P s.drive with
    | (false, d) => (false, { s with drive := d, lastReadOk := false })
    | (true, d) =>
        let s := { s with drive := ataCommand P lba sectorCount cmdReadSectors d }
        match readLoop P lba buffer sectorCount.toNat 0 s with
        | (false, s) => (false, s)
        | (true, s) =>
            (true, { s with lastLba := lba + sectorCount.toUInt32 - 1, lastReadOk := true })

/-- The loop of `ata_pio_write_sectors` over the sectors. -/
def writeLoop (m : Memory) (buffer : Nat) : (count sector : Nat) → σ → Bool × σ
  | 0, _, d => (true, d)
  | count + 1, sector, d =>
      match ataWaitDrq P d with
      | (false, d) => (false, d)
      | (true, d) => writeLoop m buffer count (sector + 1) (writeWords P m (buffer + 512 * sector) 256 0 d)

/-- `ata_pio_write_sectors`. -/
def ataPioWriteSectors (lba : UInt32) (sectorCount : UInt8) (buffer : Nat) (s : State σ) :
    Bool × State σ :=
  if sectorCount = 0 ∨ buffer = 0 ∨ lba > 0x0FFFFFFF then (false, s)
  else
    match ataWaitNotBusy P s.drive with
    | (false, d) => (false, { s with drive := d })
    | (true, d) =>
        match writeLoop P s.mem buffer sectorCount.toNat 0
            (ataCommand P lba sectorCount cmdWriteSectors d) with
        | (false, d) => (false, { s with drive := d })
        | (true, d) =>
            match ataWaitNotBusy P (P.outb regCommand cmdFlush d) with
            | (false, d) => (false, { s with drive := d })
            | (true, d) => (true, { s with drive := d })

/-! ### The drive -/

/-- Where a drive is in the execution of a command. -/
inductive Phase
  /-- No command is executed. -/
  | idle
  /-- The sector `n` of a command is next, and `left` sectors are left. -/
  | next (write : Bool) (n left : Nat)
  /-- The word `i` of the sector `n` is in the data register. -/
  | reading (n left i : Nat)
  /-- The drive takes the words of the sector `n`, and has got these. -/
  | writing (n left : Nat) (words : List UInt16)
  /-- A sector could not be written. -/
  | failed

/-- The sector `n` of a command is next when sectors are left, or else the command has ended. -/
def Phase.ahead (write : Bool) (n left : Nat) : Phase :=
  if left = 0 then .idle else .next write n left

/-- The word `i` of a sector. -/
def Sector.word (b : Sector) (i : Fin 256) : UInt16 :=
  .ofNat ((b ⟨2 * i, by omega⟩).toNat + 256 * (b ⟨2 * i + 1, by omega⟩).toNat)

/-- The sector that these words make. -/
def Sector.ofWords (words : List UInt16) : Sector :=
  fun i => .ofNat ((words.getD (i / 2) 0).toNat / 256 ^ (i.val % 2))

/-- The 28-bit address in the registers of a command. -/
def lba28 (head low mid high : UInt8) : Nat :=
  low.toNat + 256 * mid.toNat + 65536 * high.toNat + 16777216 * (head.toNat % 16)

/-- The registers of a command are written, with these values. -/
def writeRegisters (head count low mid high command : UInt8) (d : σ) : σ :=
  let d := P.outb regDeviceControl 0x02 d
  let d := P.outb regDriveHead head d
  let d := P.outb 0x80 0 d
  let d := P.outb regSectorCount count d
  let d := P.outb regLbaLow low d
  let d := P.outb regLbaMid mid d
  let d := P.outb regLbaHigh high d
  P.outb regCommand command d

/-- What is documented of a drive behind the ports: `disk` is what it holds, `phase` is where it is,
and the transfers of the sectors `Bad` fail. -/
structure AtaDrive (disk : σ → Disk) (phase : σ → Phase) (Bad : Nat → Prop) : Prop where
  /-- A drive without a command is not busy. -/
  ready : ∀ {d}, phase d = .idle →
    ∃ d', ataWaitNotBusy P d = (true, d') ∧ phase d' = .idle ∧ disk d' = disk d
  /-- A command for the master in the mode with 28-bit addresses. -/
  command : ∀ {d} {head count low mid high : UInt8} {write : Bool}, phase d = .idle →
    head &&& 0xF0 = 0xE0 → count ≠ 0 →
    let d' := writeRegisters P head count low mid high
      (if write then cmdWriteSectors else cmdReadSectors) d
    phase d' = .next write (lba28 head low mid high) count.toNat ∧ disk d' = disk d
  /-- The drive offers the data of a sector that it can read, in time. -/
  offers : ∀ {d n left}, phase d = .next false n left → ¬ Bad n →
    ∃ d', ataWaitDrq P d = (true, d') ∧ phase d' = .reading n left 0 ∧ disk d' = disk d
  /-- Or it reports an error, or does not answer in time. -/
  refuses : ∀ {d n left}, phase d = .next false n left → Bad n →
    ∃ d', ataWaitDrq P d = (false, d') ∧ disk d' = disk d
  /-- The drive asks for the data of a sector that is written, unless it cannot write it. -/
  asks : ∀ {d n left}, phase d = .next true n left →
    (∃ d', ataWaitDrq P d = (true, d') ∧ phase d' = .writing n left [] ∧ disk d' = disk d)
      ∨ Bad n ∧ ∃ d', ataWaitDrq P d = (false, d') ∧ disk d' = disk d
  /-- The error of a sector that could not be written. -/
  reports : ∀ {d}, phase d = .failed → ∃ d', ataWaitDrq P d = (false, d') ∧ disk d' = disk d
  /-- A word is read. -/
  word : ∀ {d n left} {i : Fin 256}, phase d = .reading n left i →
    let r := P.inw regData d
    r.1 = ((disk d).sectors n).word i
      ∧ (i.val < 255 → phase r.2 = .reading n left (i + 1) ∧ disk r.2 = disk d)
      ∧ (i.val = 255 → phase r.2 = .ahead false (n + 1) (left - 1)
        ∧ disk r.2 = ⟨(disk d).sectors, (disk d).transferred ++ [n]⟩)
  /-- A word that is not the last of a sector is written. -/
  takes : ∀ {d n left words value}, phase d = .writing n left words → words.length < 255 →
    let d' := P.outw regData value d
    phase d' = .writing n left (words ++ [value]) ∧ disk d' = disk d
  /-- The last word of a sector is written, and the sector as well. -/
  writes : ∀ {d n left words value}, phase d = .writing n left words → words.length = 255 → ¬ Bad n →
    let d' := P.outw regData value d
    phase d' = .ahead true (n + 1) (left - 1) ∧ disk d' =
      ⟨Function.update (disk d).sectors n (.ofWords (words ++ [value])), (disk d).transferred ++ [n]⟩
  /-- The last word of a sector is written, and the sector cannot be. -/
  fails : ∀ {d n left words value}, phase d = .writing n left words → words.length = 255 → Bad n →
    let d' := P.outw regData value d
    phase d' = .failed ∧ (∀ m, m ≠ n → (disk d').sectors m = (disk d).sectors m)
      ∧ ((disk d').transferred = (disk d).transferred
        ∨ (disk d').transferred = (disk d).transferred ++ [n])
  /-- A flush keeps the data, and ends in time. -/
  flush : ∀ {d}, phase d = .idle →
    let d' := P.outb regCommand cmdFlush d
    phase d' = .idle ∧ disk d' = disk d

variable {P} {disk : σ → Disk} {phase : σ → Phase} {Bad : Nat → Prop}

/-! ### Words -/

/-- A word is written as two bytes. -/
theorem store_two (m : Memory) (a v : Nat) :
  m.store 2 a v = put m a 2 (fun i => .ofNat (v / 256 ^ i))
  := by
  funext x
  rw [put, Memory.store, Memory.store, Memory.store]
  by_cases hfirst : x = a
  · subst hfirst
    rw [Function.update_self, if_pos (by omega), Nat.sub_self, Nat.pow_zero, Nat.div_one]
    apply UInt8.toNat_inj.mp
    rw [UInt8.toNat_ofNat', UInt8.toNat_ofNat', Nat.mod_mod]
  · rw [Function.update_of_ne hfirst]
    by_cases hsecond : x = a + 1
    · subst hsecond
      rw [Function.update_self, if_pos (by omega), Nat.add_sub_cancel_left, Nat.pow_one]
      apply UInt8.toNat_inj.mp
      rw [UInt8.toNat_ofNat', UInt8.toNat_ofNat', Nat.mod_mod]
    · rw [Function.update_of_ne hsecond, if_neg (by omega)]

/-- The two bytes of a word of a sector. -/
theorem byte_word (b : Sector) (i : Fin 256) {j : Nat} (hj : j < 2) :
  UInt8.ofNat ((b.word i).toNat / 256 ^ j) = b ⟨2 * i + j, by omega⟩
  := by
  have hlow := (b ⟨2 * i, by omega⟩).toNat_lt
  have hhigh := (b ⟨2 * i + 1, by omega⟩).toNat_lt
  apply UInt8.toNat_inj.mp
  rw [Sector.word, UInt16.toNat_ofNat', UInt8.toNat_ofNat']
  obtain rfl | rfl : j = 0 ∨ j = 1 := by omega
  · rw [Nat.pow_zero, Nat.div_one]
    simp only [Nat.add_zero]
    omega
  · rw [Nat.pow_one]
    omega

/-- One word of a sector is read. -/
theorem readWord_spec (h : AtaDrive P disk phase Bad) {n left i : Nat} (p : Nat) {d : σ} (hi : i < 256)
    (hphase : phase d = .reading n left i) (m : Memory) :
  let r := P.inw regData d
  m.store 2 (p + 2 * i) r.1.toNat
      = put m (p + 2 * i) 2 (fun j => bytesFrom (disk d).sectors n (2 * i + j))
    ∧ (i < 255 → phase r.2 = .reading n left (i + 1) ∧ disk r.2 = disk d)
    ∧ (i = 255 → phase r.2 = .ahead false (n + 1) (left - 1)
      ∧ disk r.2 = ⟨(disk d).sectors, (disk d).transferred ++ [n]⟩)
  := by
  obtain ⟨hvalue, hmore, hlast⟩ := @AtaDrive.word _ _ _ _ _ h d n left ⟨i, hi⟩ hphase
  refine ⟨?_, hmore, hlast⟩
  rw [store_two]
  apply put_congr
  intro j hj
  have hsector : n + (2 * i + j) / 512 = n := by omega
  have hbyte : (2 * i + j) % 512 = 2 * i + j := by omega
  rw [hvalue, byte_word _ ⟨i, hi⟩ hj]
  simp only [bytesFrom, hsector, hbyte]

/-- The words of a sector are read one after the other. -/
theorem readWords_spec (h : AtaDrive P disk phase Bad) {n left : Nat} (p : Nat) {count i : Nat} {d : σ}
    (hcount : i + (count + 1) = 256) (hphase : phase d = .reading n left i) (m : Memory) :
  let r := readWords P p (count + 1) i d m
  phase r.1 = .ahead false (n + 1) (left - 1)
    ∧ disk r.1 = ⟨(disk d).sectors, (disk d).transferred ++ [n]⟩
    ∧ r.2 = put m (p + 2 * i) (2 * (count + 1)) (fun j => bytesFrom (disk d).sectors n (2 * i + j))
  := by
  induction count generalizing i d m with
  | zero =>
      obtain ⟨hmem, -, hlast⟩ := readWord_spec h p (by omega) hphase m
      obtain ⟨hphase', hdisk'⟩ := hlast (by omega)
      exact ⟨hphase', hdisk', hmem⟩
  | succ count ih =>
      obtain ⟨hmem, hmore, -⟩ := readWord_spec h p (by omega) hphase m
      obtain ⟨hphase', hdisk'⟩ := hmore (by omega)
      obtain ⟨hend, hdisk, hput⟩ := ih (by omega) hphase' (m.store 2 (p + 2 * i) (P.inw regData d).1.toNat)
      refine ⟨hend, ?_, ?_⟩
      · rw [readWords, hdisk, hdisk']
      · rw [readWords, hput, hmem, hdisk', show 2 * (count + 1 + 1) = 2 + 2 * (count + 1) by omega,
          ← put_put]
        congr 1
        funext j
        congr 1
        omega

/-! ### Reading -/

/-- The loop over the sectors, from a sector of the command on. -/
theorem readLoop_spec (h : AtaDrive P disk phase Bad) (lba : UInt32) (buffer : Nat)
    {count sector n : Nat} {s : State σ} (hphase : phase s.drive = .ahead false n count) :
  Meets fetching disk (fun d => phase d = .idle) Bad (fun _ _ => True) 1 n (buffer + 512 * sector) count
    s (readLoop P lba buffer count sector s)
  := by
  induction count generalizing sector n s with
  | zero => exact Transfers.nil hphase
  | succ count ih =>
      by_cases hbad : Bad n
      · obtain ⟨d, hwait, hdisk⟩ := h.refuses hphase hbad
        rw [readLoop, hwait]
        apply Transfers.of_bad hbad (Nat.succ_pos count)
        intro _
        use rfl
        rw [State.view, State.view, hdisk]
        exact fetching_untouched n _ _ _
      · obtain ⟨d, hwait, hphase', hdisk⟩ := h.offers hphase hbad
        obtain ⟨hend, hdisk', hmem⟩ :=
          @readWords_spec _ _ _ _ _ h n (count + 1) (buffer + 512 * sector) 255 0 d rfl hphase' s.mem
        rw [readLoop, hwait]
        -- What the words have made of the drive and of the memory.
        generalize hr : readWords P (buffer + 512 * sector) (255 + 1) 0 d s.mem = r at hend hdisk' hmem
        apply Transfers.cons hbad _ (fun _ _ => trivial)
        have hmove : fetching.move n (buffer + 512 * sector) 1 (s.view disk)
            = State.view disk { s with drive := r.1, mem := r.2 } := by
          ext1
          · rw [State.view, hmem, hdisk, Nat.mul_zero, Nat.add_zero]
            simp only [Nat.zero_add]
            rfl
          · show _ = disk r.1
            rw [hdisk', hdisk]
            rfl
        have hrest := @ih (sector + 1) (n + 1) { s with drive := r.1, mem := r.2 } hend
        rw [Nat.mul_add, ← Nat.add_assoc] at hrest
        rw [hmove]
        have hsame : readWords P (buffer + 512 * sector) 256 0 d s.mem = r := hr
        simp only [hsame]
        exact hrest

/-- The register with the upper four bits of the address and the mode. -/
theorem driveHead_spec (lba : UInt32) :
  let head := (0xE0 : UInt8) ||| ((lba >>> 24) &&& 0x0F).toUInt8
  head &&& 0xF0 = 0xE0 ∧ head.toNat % 16 = lba.toNat / 2 ^ 24 % 16
  := by
  have hall : ∀ v < 16, ((0xE0 : UInt8) ||| .ofNat v) &&& 0xF0 = 0xE0
      ∧ ((0xE0 : UInt8) ||| .ofNat v).toNat % 16 = v := by
    decide
  have hupper : ((lba >>> 24) &&& 0x0F).toNat = lba.toNat / 2 ^ 24 % 16 := by
    rw [UInt32.toNat_and, UInt32.toNat_shiftRight]
    show lba.toNat >>> 24 &&& (2 ^ 4 - 1) = _
    rw [Nat.and_two_pow_sub_one_eq_mod, Nat.shiftRight_eq_div_pow]
  have hbyte : ((lba >>> 24) &&& 0x0F).toUInt8 = .ofNat (lba.toNat / 2 ^ 24 % 16) := by
    apply UInt8.toNat_inj.mp
    rw [toNat_register (by omega), hupper, UInt8.toNat_ofNat']
    omega
  rw [hbyte]
  exact hall _ (Nat.mod_lt _ (by decide))

/-- The registers hold the address that the caller has asked for. -/
theorem ataCommand_spec (h : AtaDrive P disk phase Bad) {lba : UInt32} {count : UInt8} (write : Bool)
    {d : σ} (hphase : phase d = .idle) (hlba : lba.toNat < 2 ^ 28) (hcount : count ≠ 0) :
  let d' := ataCommand P lba count (if write then cmdWriteSectors else cmdReadSectors) d
  phase d' = .next write lba.toNat count.toNat ∧ disk d' = disk d
  := by
  obtain ⟨hmode, hhead⟩ := driveHead_spec lba
  have hlow : (lba &&& 0xFF).toNat = lba.toNat % 256 := Packing.toNat_low lba
  have hmid : ((lba >>> 8) &&& 0xFF).toNat = lba.toNat / 2 ^ 8 % 256 :=
    Packing.toNat_byte lba rfl (by decide)
  have hhigh : ((lba >>> 16) &&& 0xFF).toNat = lba.toNat / 2 ^ 16 % 256 :=
    Packing.toNat_byte lba rfl (by decide)
  have haddress : lba28 ((0xE0 : UInt8) ||| ((lba >>> 24) &&& 0x0F).toUInt8) (lba &&& 0xFF).toUInt8
      ((lba >>> 8) &&& 0xFF).toUInt8 ((lba >>> 16) &&& 0xFF).toUInt8 = lba.toNat := by
    rw [lba28, hhead, toNat_register (by omega), toNat_register (by omega), toNat_register (by omega),
      hlow, hmid, hhigh]
    omega
  have hcommand := @AtaDrive.command _ _ _ _ _ h d _ count (lba &&& 0xFF).toUInt8
    ((lba >>> 8) &&& 0xFF).toUInt8 ((lba >>> 16) &&& 0xFF).toUInt8 write hphase hmode hcount
  rw [haddress] at hcommand
  exact hcommand

/-- The check of the arguments. -/
theorem not_refused {lba : UInt32} {count : UInt8} {buffer : Nat}
    (hrange : lba.toNat + count.toNat ≤ 2 ^ 28) (hcount : count ≠ 0) (hbuffer : buffer ≠ 0) :
  lba.toNat < 2 ^ 28 ∧ count.toNat ≠ 0 ∧ ¬ (count = 0 ∨ buffer = 0 ∨ lba > 0x0FFFFFFF)
  := by
  have hpos : count.toNat ≠ 0 := fun hzero => hcount (UInt8.toNat_inj.mp hzero)
  have hlt : lba.toNat < 2 ^ 28 := by omega
  refine ⟨hlt, hpos, ?_⟩
  rintro (hzero | hnull | hlarge)
  · exact hcount hzero
  · exact hbuffer hnull
  · have hle : lba.toNat ≤ 0x0FFFFFFF := by omega
    exact absurd (UInt32.lt_iff_toNat_lt.mp hlarge) (Nat.not_lt.mpr hle)

/-- `ata_pio_read_sectors`: sector by sector. -/
theorem ataPioReadSectors_spec (h : AtaDrive P disk phase Bad) {lba : UInt32} {count : UInt8}
    {buffer : Nat} {s : State σ} (hphase : phase s.drive = .idle)
    (hrange : lba.toNat + count.toNat ≤ 2 ^ 28) (hcount : count ≠ 0) (hbuffer : buffer ≠ 0) :
  Meets fetching disk (fun d => phase d = .idle) Bad (fun _ _ => True) 1 lba.toNat buffer count.toNat s
    (ataPioReadSectors P lba count buffer s)
  := by
  obtain ⟨hlt, hpos, hargs⟩ := not_refused hrange hcount hbuffer
  obtain ⟨d, hwait, hidle, hdisk⟩ := h.ready hphase
  obtain ⟨hnext, hdisk'⟩ :=
    @ataCommand_spec _ _ _ _ _ h lba count false d hidle hlt hcount
  have hahead : phase (ataCommand P lba count cmdReadSectors d)
      = .ahead false lba.toNat count.toNat := hnext.trans (if_neg hpos).symm
  have hloop := @readLoop_spec _ _ _ _ _ h lba buffer count.toNat 0 lba.toNat
    { s with drive := ataCommand P lba count cmdReadSectors d } hahead
  have hview :
      State.view disk { s with drive := ataCommand P lba count cmdReadSectors d } = s.view disk := by
    ext1
    · rfl
    · exact hdisk'.trans hdisk
  rw [Meets, hview] at hloop
  rw [ataPioReadSectors, if_neg hargs, hwait]
  dsimp only
  generalize readLoop P lba buffer count.toNat 0
    { s with drive := ataCommand P lba count cmdReadSectors d } = r at hloop
  obtain ⟨ok, s'⟩ := r
  cases ok with
  | false => exact hloop
  | true => exact hloop

/-! ### Writing -/

/-- The words of a buffer. -/
def wordsFrom (m : Memory) (p i count : Nat) : List UInt16 :=
  (List.range' i count).map (fun w => .ofNat (m.load 2 (p + 2 * w)))

/-- The words of a buffer make the sector that is in it. -/
theorem ofWords_wordsFrom (m : Memory) (p : Nat) :
  Sector.ofWords (wordsFrom m p 0 256) = fun i : Fin 512 => m (p + i)
  := by
  funext i
  have hget : (wordsFrom m p 0 256).getD (i / 2) 0 = .ofNat (m.load 2 (p + 2 * (i / 2))) := by
    rw [wordsFrom, List.getD_eq_getElem _ _ (by simp; omega), List.getElem_map, List.getElem_range']
    rw [Nat.zero_add, Nat.one_mul]
  have hlow := (m (p + 2 * (i / 2))).toNat_lt
  have hhigh := (m (p + 2 * (i / 2) + 1)).toNat_lt
  have hload : m.load 2 (p + 2 * (i / 2))
      = (m (p + 2 * (i / 2))).toNat + 256 * (m (p + 2 * (i / 2) + 1)).toNat := rfl
  apply UInt8.toNat_inj.mp
  rw [Sector.ofWords, hget, UInt16.toNat_ofNat', UInt8.toNat_ofNat', hload]
  obtain heven | hodd : i.val % 2 = 0 ∨ i.val % 2 = 1 := by omega
  · have hplace : p + i = p + 2 * (i / 2) := by omega
    rw [heven, hplace, Nat.pow_zero, Nat.div_one]
    omega
  · have hplace : p + i = p + 2 * (i / 2) + 1 := by omega
    rw [hodd, hplace, Nat.pow_one]
    omega

/-- The words of a sector are written one after the other. -/
theorem writeWords_spec (h : AtaDrive P disk phase Bad) {n left : Nat} (m : Memory) (p : Nat)
    {count i : Nat} {words : List UInt16} {d : σ} (hcount : i + (count + 1) = 256)
    (hphase : phase d = .writing n left words) (hlen : words.length = i) :
  let d' := writeWords P m p (count + 1) i d
  (¬ Bad n → phase d' = .ahead true (n + 1) (left - 1) ∧ disk d' =
      ⟨Function.update (disk d).sectors n (.ofWords (words ++ wordsFrom m p i (count + 1))),
        (disk d).transferred ++ [n]⟩)
    ∧ (Bad n → phase d' = .failed ∧ (∀ l, l ≠ n → (disk d').sectors l = (disk d).sectors l)
      ∧ ((disk d').transferred = (disk d).transferred
        ∨ (disk d').transferred = (disk d).transferred ++ [n]))
  := by
  induction count generalizing i words d with
  | zero =>
      constructor
      · intro hgood
        exact h.writes hphase (by omega) hgood
      · intro hbad
        exact h.fails hphase (by omega) hbad
  | succ count ih =>
      obtain ⟨hphase', hdisk⟩ := @AtaDrive.takes _ _ _ _ _ h d n left words
        (.ofNat (m.load 2 (p + 2 * i))) hphase (by omega)
      have hlen' : (words ++ [UInt16.ofNat (m.load 2 (p + 2 * i))]).length = i + 1 := by
        rw [List.length_append, hlen, List.length_singleton]
      have hrest := ih (by omega) hphase' hlen'
      rw [hdisk, List.append_assoc] at hrest
      exact hrest

/-- The loop over the sectors, from a sector of the command on.  Nothing is known when only the last
sector is bad. -/
theorem writeLoop_spec (h : AtaDrive P disk phase Bad) (m : Memory) (buffer : Nat)
    {count sector n : Nat} {d : σ} (hphase : phase d = .ahead true n count) :
  let r := writeLoop P m buffer count sector d
  Transfers storing Bad (fun f k => f + 1 ≠ k) 1 n (buffer + 512 * sector) count ⟨m, disk d⟩
    (phase r.2 = .idle) r.1 ⟨m, disk r.2⟩
  := by
  induction count generalizing sector n d with
  | zero => exact Transfers.nil hphase
  | succ count ih =>
      by_cases hbad : Bad n
      · apply Transfers.of_bad hbad (Nat.succ_pos count)
        intro hseen
        obtain ⟨d', hwait, hphase', hdisk⟩ | ⟨-, d', hwait, hdisk⟩ := h.asks hphase
        · -- The data is taken, and the error shows before the next sector.
          obtain ⟨hfailed, hsectors, htransferred⟩ :=
            (@writeWords_spec _ _ _ _ _ h n _ m (buffer + 512 * sector) 255 0 [] d' rfl hphase' rfl).2 hbad
          cases count with
          | zero => exact absurd rfl hseen
          | succ count =>
              obtain ⟨d₂, hwait₂, hdisk₂⟩ := h.reports hfailed
              rw [hdisk] at hsectors htransferred
              rw [writeLoop, hwait]
              dsimp only
              rw [writeLoop, hwait₂]
              refine ⟨rfl, rfl, ?_, ?_⟩
              · intro l hl
                rw [hdisk₂, hsectors l (by omega)]
                exact (if_neg (by omega)).symm
              · rw [hdisk₂]
                obtain hnone | hone := htransferred
                · exact ⟨0, Nat.le_refl 0, Nat.zero_le _, hnone.trans (List.append_nil _).symm⟩
                · exact ⟨1, Nat.zero_le 1, by omega, hone⟩
        · rw [writeLoop, hwait]
          use rfl
          rw [hdisk]
          exact storing_untouched n _ _ _
      · obtain ⟨d', hwait, hphase', hdisk⟩ | ⟨hbad', -⟩ := h.asks hphase
        · obtain ⟨hahead, hdisk'⟩ :=
            (@writeWords_spec _ _ _ _ _ h n _ m (buffer + 512 * sector) 255 0 [] d' rfl hphase' rfl).1 hbad
          rw [List.nil_append, ofWords_wordsFrom, hdisk] at hdisk'
          have hmove : storing.move n (buffer + 512 * sector) 1 ⟨m, disk d⟩
              = ⟨m, disk (writeWords P m (buffer + 512 * sector) (255 + 1) 0 d')⟩ := by
            rw [hdisk', storing_move_one]
          have hrest := @ih (sector + 1) (n + 1) _ hahead
          rw [Nat.mul_add, ← Nat.add_assoc] at hrest
          rw [writeLoop, hwait]
          apply Transfers.cons hbad _ (fun f hf => by omega)
          rw [hmove]
          exact hrest
        · exact absurd hbad' hbad

/-- `ata_pio_write_sectors`: sector by sector, and the last one is not looked at. -/
theorem ataPioWriteSectors_spec (h : AtaDrive P disk phase Bad) {lba : UInt32} {count : UInt8}
    {buffer : Nat} {s : State σ} (hphase : phase s.drive = .idle)
    (hrange : lba.toNat + count.toNat ≤ 2 ^ 28) (hcount : count ≠ 0) (hbuffer : buffer ≠ 0) :
  Meets storing disk (fun d => phase d = .idle) Bad (fun f k => f + 1 ≠ k) 1 lba.toNat buffer
    count.toNat s (ataPioWriteSectors P lba count buffer s)
  := by
  obtain ⟨hlt, hpos, hargs⟩ := not_refused hrange hcount hbuffer
  obtain ⟨d, hwait, hidle, hdisk⟩ := h.ready hphase
  obtain ⟨hnext, hdisk'⟩ := @ataCommand_spec _ _ _ _ _ h lba count true d hidle hlt hcount
  have hahead : phase (ataCommand P lba count cmdWriteSectors d)
      = .ahead true lba.toNat count.toNat := hnext.trans (if_neg hpos).symm
  have hloop := @writeLoop_spec _ _ _ _ _ h s.mem buffer count.toNat 0 lba.toNat _ hahead
  have hview : disk (ataCommand P lba count cmdWriteSectors d) = disk s.drive := hdisk'.trans hdisk
  rw [hview] at hloop
  rw [ataPioWriteSectors, if_neg hargs, hwait]
  dsimp only at hloop ⊢
  generalize writeLoop P s.mem buffer count.toNat 0 (ataCommand P lba count cmdWriteSectors d) = r at hloop
  obtain ⟨ok, d'⟩ := r
  cases ok with
  | false => exact hloop
  | true =>
      dsimp only at hloop ⊢
      constructor
      · intro hgood
        obtain ⟨-, hidle', hmoved⟩ := hloop.whole hgood
        obtain ⟨hflush, hdisk₂⟩ := h.flush hidle'
        obtain ⟨d₃, hwait₃, hidle₃, hdisk₃⟩ := h.ready hflush
        rw [hwait₃]
        refine ⟨rfl, hidle₃, ?_⟩
        rw [State.view, hdisk₃, hdisk₂]
        exact hmoved
      · intro f hf hgood hbad hseen
        exact absurd (hloop.broken f hf hgood hbad hseen).1.symm Bool.false_ne_true

end Storage
