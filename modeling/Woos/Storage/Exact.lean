import Woos.Storage.Diskio

/-!
# Sector transfers are exact

`disk_exact` puts the two calls together, for any two machines: each meets its specification, and the
two agree when no transfer fails, whatever their drives.

`ataPorts` and `ahciPort` are two drives that answer at once.  They are as documented, and show that
the two drivers leave different contents in the buffer when a transfer fails within a group of eight
sectors.
-/

namespace Storage

/-- Two machines with the same contents of their memories and of their drives, of which the same
sectors are bad. -/
theorem disk_exact {σ τ : Type} {M : Machine σ} {N : Machine τ} {disk : σ → Disk} {disk' : τ → Disk}
    {Ready : σ → Prop} {Ready' : τ → Prop} {Bad : Nat → Prop} (hM : Drive M disk Ready Bad)
    (hN : Drive N disk' Ready' Bad) {buff : Nat} {sector count : UInt32} {s : State σ} {t : State τ}
    (hs : Ready s.drive) (ht : Ready' t.drive) (hstart : N.fatStartLba = M.fatStartLba)
    (hsame : t.view disk' = s.view disk)
    (hrange : M.fatStartLba.toNat + sector.toNat + count.toNat ≤ 2 ^ 28) (hcount : count ≠ 0)
    (hbuff : buff ≠ 0) :
  let n := M.fatStartLba.toNat + sector.toNat
  let read := diskRead M 0 buff sector count s
  let read' := diskRead N 0 buff sector count t
  let write := diskWrite M 0 buff sector count s
  let write' := diskWrite N 0 buff sector count t
  Reads Bad M.type.group n buff count.toNat (s.view disk) (read.2.view disk) read.1
    ∧ Writes Bad M.type.Seen M.type.group n buff count.toNat (s.view disk) (write.2.view disk) write.1
    ∧ ((∀ i < count.toNat, ¬ Bad (n + i)) →
      (read'.1 = read.1 ∧ read'.2.view disk' = read.2.view disk)
        ∧ write'.1 = write.1 ∧ write'.2.view disk' = write.2.view disk)
  := by
  have hrange' : N.fatStartLba.toNat + sector.toNat + count.toNat ≤ 2 ^ 28 := by
    rw [hstart]
    exact hrange
  have hread := diskRead_spec hM hs hrange hcount hbuff
  have hwrite := diskWrite_spec hM hs hrange hcount hbuff
  have hread' := diskRead_spec hN ht hrange' hcount hbuff
  have hwrite' := diskWrite_spec hN ht hrange' hcount hbuff
  rw [hstart, hsame] at hread' hwrite'
  refine ⟨hread, hwrite, ?_⟩
  intro hgood
  constructor
  · obtain ⟨hok, hmem, hsectors, htransferred⟩ := hread.whole hgood
    obtain ⟨hok', hmem', hsectors', htransferred'⟩ := hread'.whole hgood
    use hok'.trans hok.symm
    ext1
    · exact hmem'.trans hmem.symm
    · ext1
      · exact hsectors'.trans hsectors.symm
      · exact htransferred'.trans htransferred.symm
  · obtain ⟨hok, hmem, hsectors, htransferred⟩ := hwrite.whole hgood
    obtain ⟨hok', hmem', hsectors', htransferred'⟩ := hwrite'.whole hgood
    use hok'.trans hok.symm
    ext1
    · exact hmem'.trans hmem.symm
    · ext1
      · exact hsectors'.trans hsectors.symm
      · exact htransferred'.trans htransferred.symm

/-! ### A drive behind the ports -/

/-- The state of a drive with the registers of a command. -/
structure AtaState where
  disk : Disk
  phase : Phase
  head : UInt8
  count : UInt8
  low : UInt8
  mid : UInt8
  high : UInt8

/-- The status that the drive shows, and what it goes on with. -/
def AtaState.answer (bad : Nat → Bool) (d : AtaState) : UInt8 × AtaState :=
  match d.phase with
  | .next false n left =>
      if bad n then (0x01, { d with phase := .failed })
      else (0x08, { d with phase := .reading n left 0 })
  | .next true n left => (0x08, { d with phase := .writing n left [] })
  | .failed => (0x01, d)
  | _ => (0x40, d)

/-- The ports of a drive that answers at once, and reports the error of a sector before the next
one. -/
def ataPorts (bad : Nat → Bool) : Ports AtaState where
  inb port d := if port = Ata.regStatus then d.answer bad else (0x40, d)
  outb port value d :=
    if port = Ata.regDriveHead then { d with head := value }
    else if port = Ata.regSectorCount then { d with count := value }
    else if port = Ata.regLbaLow then { d with low := value }
    else if port = Ata.regLbaMid then { d with mid := value }
    else if port = Ata.regLbaHigh then { d with high := value }
    else if port = Ata.regCommand ∧ value = Ata.cmdReadSectors then
      { d with phase := .next false (lba28 d.head d.low d.mid d.high) d.count.toNat }
    else if port = Ata.regCommand ∧ value = Ata.cmdWriteSectors then
      { d with phase := .next true (lba28 d.head d.low d.mid d.high) d.count.toNat }
    else d
  inw _ d :=
    match d.phase with
    | .reading n left i =>
        if h : i < 256 then
          ((d.disk.sectors n).word ⟨i, h⟩,
            if i = 255 then
              { d with
                phase := .ahead false (n + 1) (left - 1)
                disk := ⟨d.disk.sectors, d.disk.transferred ++ [n]⟩ }
            else { d with phase := .reading n left (i + 1) })
        else (0, d)
    | _ => (0, d)
  outw _ value d :=
    match d.phase with
    | .writing n left words =>
        if words.length < 255 then { d with phase := .writing n left (words ++ [value]) }
        else if bad n then { d with phase := .failed }
        else { d with
          phase := .ahead true (n + 1) (left - 1)
          disk := ⟨Function.update d.disk.sectors n (.ofWords (words ++ [value])),
            d.disk.transferred ++ [n]⟩ }
    | _ => d

/-- Waiting ends with the first status. -/
theorem ataWaitDrq_ready {bad : Nat → Bool} {d d' : AtaState} (h : d.answer bad = (0x08, d')) :
  ataWaitDrq (ataPorts bad) d = (true, d')
  := by
  have hstatus : (ataPorts bad).inb Ata.regStatus d = (0x08, d') := h
  rw [ataWaitDrq, @spin_of_verdict _ _ _ d d' true (Nat.succ_pos _)]
  · rfl
  · rw [hstatus]
    rfl

theorem ataWaitDrq_error {bad : Nat → Bool} {d d' : AtaState} (h : d.answer bad = (0x01, d')) :
  ataWaitDrq (ataPorts bad) d = (false, d')
  := by
  have hstatus : (ataPorts bad).inb Ata.regStatus d = (0x01, d') := h
  rw [ataWaitDrq, @spin_of_verdict _ _ _ d d' false (Nat.succ_pos _)]
  · rfl
  · rw [hstatus]
    rfl

/-- The drive is as documented. -/
theorem ataPorts_drive (bad : Nat → Bool) :
  AtaDrive (ataPorts bad) AtaState.disk AtaState.phase (fun n => bad n = true)
  := by
  constructor
  case ready =>
    intro d hidle
    have hne : Ata.regAltStatus ≠ Ata.regStatus := by decide
    have hstatus : (ataPorts bad).inb Ata.regAltStatus d = (0x40, d) := by
      simp only [ataPorts, if_neg hne]
    refine ⟨d, ?_, hidle, rfl⟩
    rw [ataWaitNotBusy, @spin_of_verdict _ _ _ d d true (Nat.succ_pos _)]
    · rfl
    · rw [hstatus]
      rfl
  case command =>
    intro d head count low mid high write hidle hmode hcount
    cases write with
    | false => exact ⟨rfl, rfl⟩
    | true => exact ⟨rfl, rfl⟩
  case offers =>
    intro d n left hphase hgood
    refine ⟨{ d with phase := .reading n left 0 }, ataWaitDrq_ready ?_, rfl, rfl⟩
    rw [AtaState.answer, hphase]
    exact if_neg hgood
  case refuses =>
    intro d n left hphase hbad
    refine ⟨{ d with phase := .failed }, ataWaitDrq_error ?_, rfl⟩
    rw [AtaState.answer, hphase]
    exact if_pos hbad
  case asks =>
    intro d n left hphase
    left
    refine ⟨{ d with phase := .writing n left [] }, ataWaitDrq_ready ?_, rfl, rfl⟩
    rw [AtaState.answer, hphase]
  case reports =>
    intro d hphase
    refine ⟨d, ataWaitDrq_error ?_, rfl⟩
    rw [AtaState.answer, hphase]
  case word =>
    intro d n left i hphase
    have hread : (ataPorts bad).inw Ata.regData d = ((d.disk.sectors n).word i,
        if i.val = 255 then
          { d with
            phase := .ahead false (n + 1) (left - 1)
            disk := ⟨d.disk.sectors, d.disk.transferred ++ [n]⟩ }
        else { d with phase := .reading n left (i + 1) }) := by
      simp only [ataPorts, hphase]
      exact dif_pos i.isLt
    rw [hread]
    refine ⟨rfl, ?_, ?_⟩
    · intro hlt
      dsimp only
      rw [if_neg (by omega)]
      exact ⟨rfl, rfl⟩
    · intro hlast
      dsimp only
      rw [if_pos hlast]
      exact ⟨rfl, rfl⟩
  case takes =>
    intro d n left words value hphase hlen
    have hwrite : (ataPorts bad).outw Ata.regData value d
        = { d with phase := .writing n left (words ++ [value]) } := by
      simp only [ataPorts, hphase]
      exact if_pos hlen
    rw [hwrite]
    exact ⟨rfl, rfl⟩
  case writes =>
    intro d n left words value hphase hlen hgood
    have hwrite : (ataPorts bad).outw Ata.regData value d = { d with
        phase := .ahead true (n + 1) (left - 1)
        disk := ⟨Function.update d.disk.sectors n (.ofWords (words ++ [value])),
          d.disk.transferred ++ [n]⟩ } := by
      simp only [ataPorts, hphase]
      rw [if_neg (by omega), if_neg hgood]
    rw [hwrite]
    exact ⟨rfl, rfl⟩
  case fails =>
    intro d n left words value hphase hlen hbad
    have hwrite : (ataPorts bad).outw Ata.regData value d = { d with phase := .failed } := by
      simp only [ataPorts, hphase]
      rw [if_neg (by omega), if_pos hbad]
    rw [hwrite]
    exact ⟨rfl, fun _ _ => rfl, Or.inl rfl⟩
  case flush =>
    intro d hidle
    exact ⟨hidle, rfl⟩

/-! ### A controller with a drive -/

/-- The state of a controller: what the drive holds, the bounce buffer, and whether a command has
failed. -/
structure AhciState where
  disk : Disk
  dma : Nat → UInt8
  failed : Bool

/-- A port that executes a command at once, or fails before the first sector. -/
def ahciPort (bad : Nat → Bool) : Port AhciState where
  active := true
  dmaPhys := 0x100000
  tfd d := (0x50, d)
  is d := (if d.failed then 0x40000000 else 0, d)
  setIs _ d := d
  ci d := (if d.failed then 1 else 0, d)
  issue c d :=
    if (List.range c.count).any (fun i => bad (c.lba + i)) then { d with failed := true }
    else if c.w then
      { d with disk := ⟨hold d.disk.sectors c.lba c.count d.dma,
          d.disk.transferred ++ List.range' c.lba c.count⟩ }
    else
      { d with
        dma := bytesFrom d.disk.sectors c.lba
        disk := ⟨d.disk.sectors, d.disk.transferred ++ List.range' c.lba c.count⟩ }
  dmaBuf d := d.dma
  copyIn f len d := { d with dma := fun i => if i < len then f i else d.dma i }

theorem ahciComplete_idle {bad : Nat → Bool} {d : AhciState} (h : d.failed = false) :
  ahciComplete (ahciPort bad) d = (true, d)
  := by
  have hci : (ahciPort bad).ci d = (0, d) := by
    simp only [ahciPort, h, Bool.false_eq_true, if_false]
  have his : (ahciPort bad).is d = (0, d) := by
    simp only [ahciPort, h, Bool.false_eq_true, if_false]
  have hclear : (0 : UInt32) &&& 1 = 0 := by decide
  have hnone : (0 : UInt32) &&& 0x40000000 = 0 := by decide
  have hround : ahciRound (ahciPort bad) d = (some true, d) := by
    simp only [ahciRound, hci]
    exact if_pos hclear
  have hchecks : ahciChecks (ahciPort bad) d = (true, d) := by
    simp only [ahciChecks, hci, his]
    rw [if_neg (not_not.mpr hclear)]
    exact if_neg (not_not.mpr hnone)
  rw [ahciComplete, spin_of_verdict (Nat.succ_pos _) hround]
  exact hchecks

theorem ahciComplete_failed {bad : Nat → Bool} {d : AhciState} (h : d.failed = true) :
  ahciComplete (ahciPort bad) d = (false, d)
  := by
  have hci : (ahciPort bad).ci d = (1, d) := by
    simp only [ahciPort, h, if_true]
  have his : (ahciPort bad).is d = (0x40000000, d) := by
    simp only [ahciPort, h, if_true]
  have hset : ¬ (1 : UInt32) &&& 1 = 0 := by decide
  have herror : (0x40000000 : UInt32) &&& 0x40000000 ≠ 0 := by decide
  have hround : ahciRound (ahciPort bad) d = (some false, d) := by
    simp only [ahciRound, hci, his]
    rw [if_neg hset]
    exact if_pos herror
  rw [ahciComplete, spin_of_verdict (Nat.succ_pos _) hround]

theorem issue_good {bad : Nat → Bool} {c : Command} {d : AhciState}
    (h : ∀ i < c.count, ¬ bad (c.lba + i) = true) :
  (ahciPort bad).issue c d =
    if c.w then
      { d with disk := ⟨hold d.disk.sectors c.lba c.count d.dma,
          d.disk.transferred ++ List.range' c.lba c.count⟩ }
    else
      { d with
        dma := bytesFrom d.disk.sectors c.lba
        disk := ⟨d.disk.sectors, d.disk.transferred ++ List.range' c.lba c.count⟩ }
  := by
  apply if_neg
  rw [List.any_eq_true]
  rintro ⟨i, hi, hbad⟩
  exact h i (List.mem_range.mp hi) hbad

theorem issue_bad {bad : Nat → Bool} {c : Command} {d : AhciState} {f : Nat} (hf : f < c.count)
    (h : bad (c.lba + f) = true) :
  (ahciPort bad).issue c d = { d with failed := true }
  := by
  apply if_pos
  rw [List.any_eq_true]
  exact ⟨f, List.mem_range.mpr hf, h⟩

/-- The port is as documented. -/
theorem ahciPort_drive (bad : Nat → Bool) :
  AhciDrive (ahciPort bad) AhciState.disk (fun d => d.failed = false) (fun n => bad n = true)
  := by
  constructor
  case active => rfl
  case ready =>
    intro d hidle
    have hready : (0x50 : UInt32) &&& 0x88 = 0 := by decide
    exact ⟨hready, hidle, rfl⟩
  case clear =>
    intro d hidle
    exact ⟨hidle, rfl⟩
  case copyIn =>
    intro d f len hidle
    exact ⟨hidle, rfl, fun i hi => if_pos hi⟩
  case reads =>
    intro d c n k hidle hasks hgood
    obtain ⟨-, rfl⟩ := hasks.lba
    obtain ⟨-, rfl⟩ := hasks.count
    rw [issue_good hgood, hasks.header.2.1, if_neg Bool.false_ne_true]
    refine ⟨_, ahciComplete_idle hidle, hidle, rfl, fun _ _ => rfl⟩
  case readFails =>
    intro d c n k f hidle hasks hf hbad
    obtain ⟨-, rfl⟩ := hasks.lba
    obtain ⟨-, rfl⟩ := hasks.count
    rw [issue_bad hf hbad]
    refine ⟨_, ahciComplete_failed rfl, rfl, 0, Nat.zero_le _, (List.append_nil _).symm⟩
  case writes =>
    intro d c n k hidle hasks hgood
    obtain ⟨-, rfl⟩ := hasks.lba
    obtain ⟨-, rfl⟩ := hasks.count
    rw [issue_good hgood, hasks.header.2.1, if_pos rfl]
    exact ⟨_, ahciComplete_idle hidle, hidle, rfl⟩
  case writeFails =>
    intro d c n k f hidle hasks hf hbad
    obtain ⟨-, rfl⟩ := hasks.lba
    obtain ⟨-, rfl⟩ := hasks.count
    rw [issue_bad hf hbad]
    exact ⟨_, ahciComplete_failed rfl, fun _ _ => rfl, 0, Nat.zero_le _, (List.append_nil _).symm⟩

/-! ### The same contents -/

/-- No controller. -/
def Port.absent {σ : Type} : Port σ where
  active := false
  dmaPhys := 0
  tfd d := (0xFFFFFFFF, d)
  is d := (0xFFFFFFFF, d)
  setIs _ d := d
  ci d := (0xFFFFFFFF, d)
  issue _ d := d
  dmaBuf _ _ := 0
  copyIn _ _ d := d

/-- No drive at the ports. -/
def Ports.absent {σ : Type} : Ports σ where
  inb _ d := (0xFF, d)
  outb _ _ d := d
  inw _ d := (0xFFFF, d)
  outw _ _ d := d

/-- A machine with a drive at the ports. -/
def ataMachine (bad : Nat → Bool) : Machine AtaState := ⟨.ataPio, .absent, ataPorts bad, 0⟩

/-- A machine with a controller. -/
def ahciMachine (bad : Nat → Bool) : Machine AhciState := ⟨.ahci, ahciPort bad, .absent, 0⟩

/-- Every byte of the drive is one, and every byte of memory is zero. -/
def ataStart : State AtaState := ⟨⟨⟨fun _ _ => 1, []⟩, .idle, 0, 0, 0, 0, 0⟩, fun _ => 0, false, 0⟩

/-- Every byte of the drive is one, and every byte of memory is zero. -/
def ahciStart : State AhciState := ⟨⟨⟨fun _ _ => 1, []⟩, fun _ => 0, false⟩, fun _ => 0, false, 0⟩

theorem ataMachine_drive (bad : Nat → Bool) :
  Drive (ataMachine bad) AtaState.disk (fun d => d.phase = .idle) (fun n => bad n = true)
  := ⟨AtaState.phase, ataPorts_drive bad, fun _ => Iff.rfl⟩

theorem ahciMachine_drive (bad : Nat → Bool) :
  Drive (ahciMachine bad) AhciState.disk (fun d => d.failed = false) (fun n => bad n = true)
  := ahciPort_drive bad

/-- Two sectors are read from either drive. -/
theorem disk_exact_two :
  ((diskRead (ahciMachine (fun _ => false)) 0 1 0 2 ahciStart).2.view AhciState.disk)
    = (diskRead (ataMachine (fun _ => false)) 0 1 0 2 ataStart).2.view AtaState.disk
  := by
  have hexact := @disk_exact _ _ _ _ _ _ _ _ _ (ataMachine_drive (fun _ => false))
    (ahciMachine_drive (fun _ => false)) 1 0 2 ataStart ahciStart rfl rfl rfl rfl (by decide) (by decide)
    (by decide)
  exact (hexact.2.2 (fun _ _ => Bool.false_ne_true)).1.2

/-- The second sector is bad. -/
def secondBad (n : Nat) : Bool := n == 1

/-- The second of two sectors is bad: the ATA driver has read the first one into the buffer, and the
AHCI driver has not. -/
theorem not_same_buffer :
  ¬ ∀ (σ τ : Type) (M : Machine σ) (N : Machine τ) (disk : σ → Disk) (disk' : τ → Disk)
    (Ready : σ → Prop) (Ready' : τ → Prop) (Bad : Nat → Prop) (buff : Nat) (sector count : UInt32)
    (s : State σ) (t : State τ), Drive M disk Ready Bad → Drive N disk' Ready' Bad → Ready s.drive →
    Ready' t.drive → N.fatStartLba = M.fatStartLba → t.view disk' = s.view disk →
    M.fatStartLba.toNat + sector.toNat + count.toNat ≤ 2 ^ 28 → count ≠ 0 → buff ≠ 0 →
    (diskRead M 0 buff sector count s).2.mem = (diskRead N 0 buff sector count t).2.mem
  := by
  intro hall
  have hsame := hall _ _ (ataMachine secondBad) (ahciMachine secondBad) _ _ _ _ _ 1 0 2 ataStart
    ahciStart (ataMachine_drive secondBad) (ahciMachine_drive secondBad) rfl rfl rfl rfl (by decide)
    (by decide) (by decide)
  have hfirst : ∀ i < 1, ¬ secondBad (0 + i) = true := by decide
  have hata := @diskRead_spec _ _ _ _ _ (ataMachine_drive secondBad) 1 0 2 ataStart rfl (by decide)
    (by decide) (by decide)
  have hahci := @diskRead_spec _ _ _ _ _ (ahciMachine_drive secondBad) 1 0 2 ahciStart rfl (by decide)
    (by decide) (by decide)
  obtain ⟨-, hmem, -⟩ := hata.broken 1 (by decide) hfirst rfl
  obtain ⟨-, hmem', -⟩ := hahci.broken 1 (by decide) hfirst rfl
  have hbyte := congrFun (hmem.symm.trans (hsame.trans hmem')) 1
  exact absurd hbyte (by decide)

end Storage
