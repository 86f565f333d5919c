import Woos.Lib.Packing
import Woos.Storage.Basic

/-!
# The AHCI driver

`ahciRwSectors` is translated from `ahci.c`: it prepares a command for up to eight sectors in the
memory that the controller reads, lets it run, and copies the data from or to the bounce buffer of one
page. `ahciReadSectors` and `ahciWriteSectors` serve a request in groups of eight sectors.

The controller is a parameter.  `AhciDrive` states what is documented of one with a drive: it decodes
a command and moves the sectors that it names between the drive and the bounce buffer, or reports an
error or does not end in time when one of them is in `Bad`.  How far a failing command has come is
left open.
-/

namespace Storage

/-- What `ahci_rw_sectors` leaves in the memory that the controller reads: the fields of the header of
the command, its FIS, and the one entry of its table. -/
structure Command where
  cfl : Nat
  w : Bool
  prdtl : Nat
  cfis : List UInt8
  dba : UInt64
  dbc : Nat
  i : Bool

/-- The port of the controller that the drive is connected to, and its bounce buffer.  `active` tells
whether `ahci_init` has found a drive. -/
structure Port (σ : Type) where
  active : Bool
  dmaPhys : UInt64
  tfd : σ → UInt32 × σ
  is : σ → UInt32 × σ
  setIs : UInt32 → σ → σ
  ci : σ → UInt32 × σ
  /-- The command in slot 0 is issued. -/
  issue : Command → σ → σ
  /-- The bytes of the bounce buffer. -/
  dmaBuf : σ → Nat → UInt8
  /-- `memcpy` to the bounce buffer. -/
  copyIn : (Nat → UInt8) → (len : Nat) → σ → σ

/-- The command for `count` sectors from `lba` on. -/
def ahciCommand (dmaPhys : UInt64) (lba : UInt32) (count : UInt8) (isWrite : Bool) : Command where
  cfl := 5
  w := isWrite
  prdtl := 1
  cfis := [0x27, 0x80, if isWrite then 0x35 else 0x25, 0,
      (lba &&& 0xFF).toUInt8, ((lba >>> 8) &&& 0xFF).toUInt8, ((lba >>> 16) &&& 0xFF).toUInt8, 0x40,
      ((lba >>> 24) &&& 0xFF).toUInt8, 0, 0, 0,
      count &&& 0xFF, ((count.toUInt32 >>> 8) &&& 0xFF).toUInt8, 0, 0, 0, 0, 0, 0] ++ List.replicate 44 0
  dba := dmaPhys
  dbc := count.toNat * 512 - 1
  i := true

variable {σ : Type} (H : Port σ)

/-- One round of the loop that waits for the end of the command. -/
def ahciRound (d : σ) : Option Bool × σ :=
  let ci := H.ci d
  if ci.1 &&& 1 = 0 then (some true, ci.2)
  else
    let is := H.is ci.2
    if is.1 &&& 0x40000000 ≠ 0 then (some false, is.2) else (none, is.2)

/-- The checks behind the loop. -/
def ahciChecks (d : σ) : Bool × σ :=
  let ci := H.ci d
  if ci.1 &&& 1 ≠ 0 then (false, ci.2)
  else
    let is := H.is ci.2
    if is.1 &&& 0x40000000 ≠ 0 then (false, is.2) else (true, is.2)

/-- Wait for the end of the command. -/
def ahciComplete (d : σ) : Bool × σ :=
  match spin (ahciRound H) 1000000 d with
  | (some false, d) => (false, d)
  | (_, d) => ahciChecks H d

/-- Wait until the port is ready. -/
def ahciWaitReady (d : σ) : σ :=
  (spin (fun d => (if (H.tfd d).1 &&& 0x88 = 0 then some true else none, (H.tfd d).2)) 100000 d).2

/-- Issue the command, wait for its end, and copy what has been read. -/
def ahciIssue (command : Command) (count : UInt8) (buf : Nat) (isWrite : Bool) (s : State σ) (d : σ) :
    Bool × State σ :=
  match ahciComplete H (H.issue command d) with
  | (false, d) => (false, { s with drive := d })
  | (true, d) =>
      (true, { s with
        drive := d
        mem := if isWrite then s.mem else put s.mem buf (count.toNat * 512) (H.dmaBuf d) })

/-- `ahci_rw_sectors`. -/
def ahciRwSectors (lba : UInt32) (count : UInt8) (buf : Nat) (isWrite : Bool) (s : State σ) :
    Bool × State σ :=
  if H.active = false ∨ count = 0 then (false, s)
  else
    let (tfd, d) := H.tfd (ahciWaitReady H s.drive)
    if tfd &&& 0x88 ≠ 0 then (false, { s with drive := d })
    else
      let (is, d) := H.is d
      let d := H.setIs is d
      let d := if isWrite then H.copyIn (fun i => s.mem (buf + i)) (count.toNat * 512) d else d
      ahciIssue H (ahciCommand H.dmaPhys lba count isWrite) count buf isWrite s d

/-- `ahci_read_sectors`. -/
def ahciReadSectors (lba : UInt32) (sectorCount : UInt8) (buffer : Nat) (s : State σ) :
    Bool × State σ :=
  inChunks 8 (fun cur chunk dst => ahciRwSectors H cur (.ofNat chunk) dst false) lba sectorCount.toNat
    buffer s

/-- `ahci_write_sectors`. -/
def ahciWriteSectors (lba : UInt32) (sectorCount : UInt8) (buffer : Nat) (s : State σ) :
    Bool × State σ :=
  inChunks 8 (fun cur chunk src => ahciRwSectors H cur (.ofNat chunk) src true) lba sectorCount.toNat
    buffer s

/-! ### The drive -/

/-- The byte `i` of the FIS of a command. -/
def Command.byte (c : Command) (i : Nat) : Nat := (c.cfis.getD i 0).toNat

/-- The 48-bit address of a command. -/
def Command.lba (c : Command) : Nat :=
  c.byte 4 + 2 ^ 8 * c.byte 5 + 2 ^ 16 * c.byte 6 + 2 ^ 24 * c.byte 8 + 2 ^ 32 * c.byte 9
    + 2 ^ 40 * c.byte 10

/-- The number of sectors of a command. -/
def Command.count (c : Command) : Nat := c.byte 12 + 2 ^ 8 * c.byte 13

/-- The controller takes this for a command to read or write the `k` sectors from `n` on, from or to
the bounce buffer. -/
structure Command.Asks (c : Command) (dmaPhys : UInt64) (write : Bool) (n k : Nat) : Prop where
  header : c.cfl = 5 ∧ c.w = write ∧ c.prdtl = 1
  /-- A register FIS that carries a command. -/
  fis : c.byte 0 = 0x27 ∧ c.byte 1 = 0x80
  command : c.byte 2 = if write then 0x35 else 0x25
  /-- The address has 48 bits. -/
  lba : c.byte 7 = 0x40 ∧ n = c.lba
  count : 0 < k ∧ k = c.count
  /-- The table describes as many bytes of the bounce buffer, which is one page. -/
  entry : c.dba = dmaPhys ∧ c.dbc + 1 = 512 * k ∧ 512 * k ≤ 4096

/-- What is documented of a controller with a drive: `disk` is what the drive holds, `Idle` tells that
no command is executed, and the transfers of the sectors `Bad` fail. -/
structure AhciDrive (disk : σ → Disk) (Idle : σ → Prop) (Bad : Nat → Prop) : Prop where
  active : H.active = true
  /-- A drive without a command is not busy. -/
  ready : ∀ {d}, Idle d →
    let r := H.tfd d
    r.1 &&& 0x88 = 0 ∧ Idle r.2 ∧ disk r.2 = disk d
  /-- The interrupts are cleared. -/
  clear : ∀ {d}, Idle d →
    let d' := H.setIs (H.is d).1 (H.is d).2
    Idle d' ∧ disk d' = disk d
  copyIn : ∀ {d} f len, Idle d →
    let d' := H.copyIn f len d
    Idle d' ∧ disk d' = disk d ∧ ∀ i < len, H.dmaBuf d' i = f i
  /-- The sectors are read into the bounce buffer. -/
  reads : ∀ {d c n k}, Idle d → c.Asks H.dmaPhys false n k → (∀ i < k, ¬ Bad (n + i)) →
    ∃ d', ahciComplete H (H.issue c d) = (true, d') ∧ Idle d'
      ∧ disk d' = ⟨(disk d).sectors, (disk d).transferred ++ List.range' n k⟩
      ∧ ∀ i < 512 * k, H.dmaBuf d' i = bytesFrom (disk d).sectors n i
  /-- Or an error is reported, or there is no end in time. -/
  readFails : ∀ {d c n k f}, Idle d → c.Asks H.dmaPhys false n k → f < k → Bad (n + f) →
    ∃ d', ahciComplete H (H.issue c d) = (false, d') ∧ (disk d').sectors = (disk d).sectors
      ∧ ∃ j ≤ k, (disk d').transferred = (disk d).transferred ++ List.range' n j
  /-- The sectors are written from the bounce buffer. -/
  writes : ∀ {d c n k}, Idle d → c.Asks H.dmaPhys true n k → (∀ i < k, ¬ Bad (n + i)) →
    ∃ d', ahciComplete H (H.issue c d) = (true, d') ∧ Idle d' ∧ disk d' =
      ⟨hold (disk d).sectors n k (H.dmaBuf d), (disk d).transferred ++ List.range' n k⟩
  /-- Or an error is reported, or there is no end in time. -/
  writeFails : ∀ {d c n k f}, Idle d → c.Asks H.dmaPhys true n k → f < k → Bad (n + f) →
    ∃ d', ahciComplete H (H.issue c d) = (false, d')
      ∧ (∀ m, m < n ∨ n + k ≤ m → (disk d').sectors m = (disk d).sectors m)
      ∧ ∃ j ≤ k, (disk d').transferred = (disk d).transferred ++ List.range' n j

variable {H} {disk : σ → Disk} {Idle : σ → Prop} {Bad : Nat → Prop}

/-! ### One command -/

/-- The command names the sectors that the caller has asked for. -/
theorem ahciCommand_asks (dmaPhys : UInt64) (lba : UInt32) {count : UInt8} (isWrite : Bool)
    (hpos : 0 < count.toNat) (hle : count.toNat ≤ 8) :
  (ahciCommand dmaPhys lba count isWrite).Asks dmaPhys isWrite lba.toNat count.toNat
  := by
  constructor
  · exact ⟨rfl, rfl, rfl⟩
  · exact ⟨rfl, rfl⟩
  · cases isWrite with
    | false => rfl
    | true => rfl
  · obtain ⟨htop, hhigh, hmid, hlow⟩ := Packing.toNat_bytes lba
    have htop' : ((lba >>> 24) &&& 0xFF).toNat = lba.toNat / 2 ^ 24 % 256 :=
      Packing.toNat_byte lba rfl (by decide)
    have hlt := lba.toNat_lt
    have haddress : lba.toNat = ((lba &&& 0xFF).toUInt8).toNat + 2 ^ 8 * ((lba >>> 8) &&& 0xFF).toUInt8.toNat
        + 2 ^ 16 * ((lba >>> 16) &&& 0xFF).toUInt8.toNat + 2 ^ 24 * ((lba >>> 24) &&& 0xFF).toUInt8.toNat
        + 2 ^ 32 * 0 + 2 ^ 40 * 0 := by
      rw [toNat_register (by omega), toNat_register (by omega), toNat_register (by omega),
        toNat_register (by omega), hlow, hmid, hhigh, htop']
      omega
    exact ⟨rfl, haddress⟩
  · have hlow : (count &&& 0xFF).toNat = count.toNat := by
      rw [UInt8.toNat_and]
      exact (Nat.and_two_pow_sub_one_eq_mod _ 8).trans (Nat.mod_eq_of_lt count.toNat_lt)
    have hhigh : ((count.toUInt32 >>> 8) &&& 0xFF).toUInt8.toNat = 0 := by
      rw [UInt32.toNat_toUInt8, Packing.toNat_byte count.toUInt32 (show (8 : UInt32).toNat = 8 from rfl)
        (by decide), UInt8.toNat_toUInt32]
      have hlt := count.toNat_lt
      omega
    have hbytes : count.toNat = (count &&& 0xFF).toNat
        + 2 ^ 8 * ((count.toUInt32 >>> 8) &&& 0xFF).toUInt8.toNat := by
      rw [hlow, hhigh]
      omega
    exact ⟨hpos, hbytes⟩
  · refine ⟨rfl, ?_, by omega⟩
    show count.toNat * 512 - 1 + 1 = 512 * count.toNat
    omega

/-- What precedes a command. -/
theorem ahciRwSectors_eq (h : AhciDrive H disk Idle Bad) (lba : UInt32) {count : UInt8} (buf : Nat)
    (isWrite : Bool) {s : State σ} (hidle : Idle s.drive) (hcount : count ≠ 0) :
  ∃ d, Idle d ∧ disk d = disk s.drive
    ∧ (isWrite = true → ∀ i < count.toNat * 512, H.dmaBuf d i = s.mem (buf + i))
    ∧ ahciRwSectors H lba count buf isWrite s
      = ahciIssue H (ahciCommand H.dmaPhys lba count isWrite) count buf isWrite s d
  := by
  obtain ⟨hready, hidle₁, hdisk₁⟩ := h.ready hidle
  have hwait : ahciWaitReady H s.drive = (H.tfd s.drive).2 := by
    rw [ahciWaitReady, spin_of_verdict (Nat.succ_pos _)]
    rw [if_pos hready]
  obtain ⟨hready₂, hidle₂, hdisk₂⟩ := h.ready hidle₁
  obtain ⟨hidle₃, hdisk₃⟩ := h.clear hidle₂
  have hargs : ¬ (H.active = false ∨ count = 0) := by
    rw [h.active]
    rintro (hfalse | hzero)
    · exact Bool.false_ne_true hfalse.symm
    · exact hcount hzero
  rw [ahciRwSectors, if_neg hargs, hwait]
  dsimp only
  rw [if_neg (not_not.mpr hready₂)]
  cases isWrite with
  | false =>
      refine ⟨_, hidle₃, hdisk₃.trans (hdisk₂.trans hdisk₁), ?_, rfl⟩
      intro hfalse
      exact absurd hfalse Bool.false_ne_true
  | true =>
      obtain ⟨hidle₄, hdisk₄, hdma⟩ := h.copyIn (fun i => s.mem (buf + i)) (count.toNat * 512) hidle₃
      refine ⟨_, hidle₄, hdisk₄.trans (hdisk₃.trans (hdisk₂.trans hdisk₁)), fun _ => hdma, ?_⟩
      rfl

/-- One command reads all its sectors or none. -/
theorem ahciRwSectors_read (h : AhciDrive H disk Idle Bad) (lba : UInt32) {count : UInt8} (buf : Nat)
    {s : State σ} (hidle : Idle s.drive) (hpos : 0 < count.toNat) (hle : count.toNat ≤ 8) :
  Meets fetching disk Idle Bad (fun _ _ => True) 8 lba.toNat buf count.toNat s
    (ahciRwSectors H lba count buf false s)
  := by
  have hcount : count ≠ 0 := by
    rintro rfl
    exact absurd hpos (Nat.lt_irrefl 0)
  have hasks := ahciCommand_asks H.dmaPhys lba false hpos hle
  obtain ⟨d, hidle', hdisk, -, hcommand⟩ := ahciRwSectors_eq h lba buf false hidle hcount
  rw [hcommand, ahciIssue]
  constructor
  · intro hgood
    obtain ⟨d', hcomplete, hidle₂, hdisk', hdma⟩ := h.reads hidle' hasks hgood
    rw [hcomplete]
    refine ⟨rfl, hidle₂, ?_⟩
    rw [hdisk] at hdisk' hdma
    ext1
    · show put s.mem buf (count.toNat * 512) (H.dmaBuf d') = put s.mem buf (512 * count.toNat) _
      rw [Nat.mul_comm count.toNat 512]
      exact put_congr hdma
    · exact hdisk'
  · intro f hf hgood hbad _
    obtain ⟨d', hcomplete, hsectors, j, hj, htransferred⟩ := h.readFails hidle' hasks hf hbad
    rw [hcomplete]
    refine ⟨rfl, j, by omega, by omega, ?_⟩
    rw [hdisk] at hsectors htransferred
    have hnone : f - f % 8 = 0 := by omega
    ext1
    · dsimp only
      rw [hnone]
      exact (put_zero s.mem buf _).symm
    · ext1
      · exact hsectors
      · exact htransferred

/-- One command writes all its sectors, or what it leaves in them is not known. -/
theorem ahciRwSectors_write (h : AhciDrive H disk Idle Bad) (lba : UInt32) {count : UInt8} (buf : Nat)
    {s : State σ} (hidle : Idle s.drive) (hpos : 0 < count.toNat) (hle : count.toNat ≤ 8) :
  Meets storing disk Idle Bad (fun _ _ => True) 8 lba.toNat buf count.toNat s
    (ahciRwSectors H lba count buf true s)
  := by
  have hcount : count ≠ 0 := by
    rintro rfl
    exact absurd hpos (Nat.lt_irrefl 0)
  have hasks := ahciCommand_asks H.dmaPhys lba true hpos hle
  obtain ⟨d, hidle', hdisk, hdma, hcommand⟩ := ahciRwSectors_eq h lba buf true hidle hcount
  rw [hcommand, ahciIssue]
  constructor
  · intro hgood
    obtain ⟨d', hcomplete, hidle₂, hdisk'⟩ := h.writes hidle' hasks hgood
    rw [hcomplete]
    refine ⟨rfl, hidle₂, ?_⟩
    rw [hdisk] at hdisk'
    ext1
    · rfl
    · show disk d' = _
      rw [hdisk', hold_congr (hdma rfl)]
      rfl
  · intro f hf hgood hbad _
    obtain ⟨d', hcomplete, hsectors, j, hj, htransferred⟩ := h.writeFails hidle' hasks hf hbad
    rw [hcomplete]
    rw [hdisk] at hsectors htransferred
    refine ⟨rfl, rfl, ?_, j, by omega, by omega, htransferred⟩
    intro m hm
    have hnone : f - f % 8 = 0 := by omega
    rw [hnone] at hm ⊢
    show (disk d').sectors m = _
    rw [hsectors m (by omega)]
    exact (if_neg (by omega)).symm

/-! ### Requests -/

/-- A group of eight sectors at most, for the loops. -/
theorem toNat_chunk {k : Nat} (h : k ≤ 8) :
  (UInt8.ofNat k).toNat = k
  := by
  rw [UInt8.toNat_ofNat']
  exact Nat.mod_eq_of_lt (by omega)

/-- `ahci_read_sectors`: in groups of eight sectors. -/
theorem ahciReadSectors_spec (h : AhciDrive H disk Idle Bad) {lba : UInt32} {count : UInt8} {buffer : Nat}
    {s : State σ} (hidle : Idle s.drive) (hrange : lba.toNat + count.toNat ≤ 2 ^ 28) (hbuffer : buffer ≠ 0) :
  Meets fetching disk Idle Bad (fun _ _ => True) 8 lba.toNat buffer count.toNat s
    (ahciReadSectors H lba count buffer s)
  := by
  rw [← Nat.zero_add lba.toNat] at hrange ⊢
  apply inChunks_meets (by decide) (Nat.dvd_refl 8) (fun _ _ _ _ => trivial) (fun _ _ _ => trivial) _ lba
    count.toNat buffer s hrange hbuffer hidle
  intro cur k p s hpos hle _ _ hidle
  have hgroup := @ahciRwSectors_read _ _ _ _ _ h cur (.ofNat k) p s hidle
  rw [toNat_chunk hle] at hgroup
  rw [Nat.zero_add]
  exact hgroup hpos hle

/-- `ahci_write_sectors`: in groups of eight sectors. -/
theorem ahciWriteSectors_spec (h : AhciDrive H disk Idle Bad) {lba : UInt32} {count : UInt8} {buffer : Nat}
    {s : State σ} (hidle : Idle s.drive) (hrange : lba.toNat + count.toNat ≤ 2 ^ 28) (hbuffer : buffer ≠ 0) :
  Meets storing disk Idle Bad (fun _ _ => True) 8 lba.toNat buffer count.toNat s
    (ahciWriteSectors H lba count buffer s)
  := by
  rw [← Nat.zero_add lba.toNat] at hrange ⊢
  apply inChunks_meets (by decide) (Nat.dvd_refl 8) (fun _ _ _ _ => trivial) (fun _ _ _ => trivial) _ lba
    count.toNat buffer s hrange hbuffer hidle
  intro cur k p s hpos hle _ _ hidle
  have hgroup := @ahciRwSectors_write _ _ _ _ _ h cur (.ofNat k) p s hidle
  rw [toNat_chunk hle] at hgroup
  rw [Nat.zero_add]
  exact hgroup hpos hle

end Storage
