import Woos.Storage.Ahci
import Woos.Storage.Ata

/-!
# Reading and writing sectors

`storageReadSectors` and `storageWriteSectors` choose the driver, and `diskRead` and `diskWrite` are
what FatFs calls, translated from `diskio.c`: they add the start of the partition and split a request
into parts of 128 sectors.

`Drive` says that the drive that `storage_init` has found is as documented.  `Reads` and `Writes` are
the specifications of the two calls, in which the groups are of one sector for the ATA driver and of
eight sectors for the AHCI driver.
-/

namespace Storage

/-- `storage_type_t`. -/
inductive StorageType
  | none
  | ahci
  | ataPio

/-- `DRESULT`. -/
inductive DResult
  | ok
  | error
  | wrPrt
  | notRdy
  | parErr
  deriving DecidableEq

/-- `g_storage_type`, the two ways to a drive, and `g_fat_start_lba`. -/
structure Machine (σ : Type) where
  type : StorageType
  port : Port σ
  ports : Ports σ
  fatStartLba : UInt32

section

variable {σ : Type} (M : Machine σ)

/-- `storage_read_sectors`. -/
def storageReadSectors (lba : UInt32) (sectorCount : UInt8) (buffer : Nat) (s : State σ) :
    Bool × State σ :=
  match M.type with
  | .ahci =>
      let (ok, s) := ahciReadSectors M.port lba sectorCount buffer s
      (ok, { s with
        lastReadOk := ok
        lastLba := if ok then lba + sectorCount.toUInt32 - 1 else s.lastLba })
  | .ataPio => ataPioReadSectors M.ports lba sectorCount buffer s
  | .none => (false, s)

/-- `storage_write_sectors`. -/
def storageWriteSectors (lba : UInt32) (sectorCount : UInt8) (buffer : Nat) (s : State σ) :
    Bool × State σ :=
  match M.type with
  | .ahci => ahciWriteSectors M.port lba sectorCount buffer s
  | .ataPio => ataPioWriteSectors M.ports lba sectorCount buffer s
  | .none => (false, s)

/-- `disk_read`. -/
def diskRead (pdrv : UInt8) (buff : Nat) (sector count : UInt32) (s : State σ) : DResult × State σ :=
  if pdrv ≠ 0 ∨ count = 0 then (.parErr, s)
  else
    match inChunks 128 (fun cur chunk ptr => storageReadSectors M (M.fatStartLba + cur) (.ofNat chunk) ptr)
        sector count.toNat buff s with
    | (false, s) => (.error, s)
    | (true, s) => (.ok, s)

/-- `disk_write`. -/
def diskWrite (pdrv : UInt8) (buff : Nat) (sector count : UInt32) (s : State σ) : DResult × State σ :=
  if pdrv ≠ 0 ∨ count = 0 then (.parErr, s)
  else
    match inChunks 128 (fun cur chunk ptr => storageWriteSectors M (M.fatStartLba + cur) (.ofNat chunk) ptr)
        sector count.toNat buff s with
    | (false, s) => (.error, s)
    | (true, s) => (.ok, s)

/-! ### Specifications -/

/-- The drive that has been found is as documented: `disk` is what it holds, `Ready` tells that it
executes no command, and the transfers of the sectors `Bad` fail. -/
def Drive (disk : σ → Disk) (Ready : σ → Prop) (Bad : Nat → Prop) : Prop :=
  match M.type with
  | .ahci => AhciDrive M.port disk Ready Bad
  | .ataPio => ∃ phase, AtaDrive M.ports disk phase Bad ∧ ∀ d, Ready d ↔ phase d = .idle
  | .none => False

/-- How many sectors the driver transfers at a time. -/
def StorageType.group : StorageType → Nat
  | .ahci => 8
  | _ => 1

/-- The places among `k` sectors at which the driver looks for an error of a write:
`ata_pio_write_sectors` does not after the last sector of its command, which is one of 128 sectors at
most. -/
def StorageType.Seen : StorageType → Nat → Nat → Prop
  | .ahci, _, _ => True
  | _, f, k => (f + 1) % 128 ≠ 0 ∧ f + 1 ≠ k

end

/-- The `k` sectors from `n` on have been read to `p`, in groups of `g`: all of them and in order,
each to its own place, when none is bad; or else those of the groups before the first bad one. -/
structure Reads (Bad : Nat → Prop) (g n p k : Nat) (s s' : Contents) (result : DResult) : Prop where
  whole : (∀ i < k, ¬ Bad (n + i)) → result = .ok
    ∧ s'.mem = put s.mem p (512 * k) (bytesFrom s.disk.sectors n)
    ∧ s'.disk.sectors = s.disk.sectors
    ∧ s'.disk.transferred = s.disk.transferred ++ List.range' n k
  broken : ∀ f < k, (∀ i < f, ¬ Bad (n + i)) → Bad (n + f) → result = .error
    ∧ s'.mem = put s.mem p (512 * (f - f % g)) (bytesFrom s.disk.sectors n)
    ∧ s'.disk.sectors = s.disk.sectors
    ∧ ∃ j, f - f % g ≤ j ∧ j ≤ min k (f - f % g + g)
      ∧ s'.disk.transferred = s.disk.transferred ++ List.range' n j

/-- The `k` sectors from `n` on have been written from `p`, in groups of `g`: all of them and in
order, each from its own place, when none is bad; or else those of the groups before the first bad
one, when the driver looks for its error, and no sector behind its group is touched. -/
structure Writes (Bad : Nat → Prop) (Seen : Nat → Nat → Prop) (g n p k : Nat) (s s' : Contents)
    (result : DResult) : Prop where
  whole : (∀ i < k, ¬ Bad (n + i)) → result = .ok
    ∧ s'.mem = s.mem
    ∧ s'.disk.sectors = hold s.disk.sectors n k (fun i => s.mem (p + i))
    ∧ s'.disk.transferred = s.disk.transferred ++ List.range' n k
  broken : ∀ f < k, (∀ i < f, ¬ Bad (n + i)) → Bad (n + f) → Seen f k → result = .error
    ∧ s'.mem = s.mem
    ∧ (∀ m, m < n + (f - f % g) ∨ n + min k (f - f % g + g) ≤ m →
      s'.disk.sectors m = hold s.disk.sectors n (f - f % g) (fun i => s.mem (p + i)) m)
    ∧ ∃ j, f - f % g ≤ j ∧ j ≤ min k (f - f % g + g)
      ∧ s'.disk.transferred = s.disk.transferred ++ List.range' n j

variable {σ : Type} {M : Machine σ} {disk : σ → Disk} {Ready : σ → Prop} {Bad : Nat → Prop}

/-! ### The two drivers -/

theorem Meets.of_iff {Ready' : σ → Prop} (hiff : ∀ d, Ready' d ↔ Ready d) {N : Movement 512 Contents}
    {Seen : Nat → Nat → Prop} {g n p k : Nat} {s : State σ} {r : Bool × State σ}
    (h : Meets N disk Ready Bad Seen g n p k s r) :
  Meets N disk Ready' Bad Seen g n p k s r
  := by
  constructor
  · intro hgood
    obtain ⟨hok, hready, hview⟩ := h.whole hgood
    exact ⟨hok, (hiff _).mpr hready, hview⟩
  · exact h.broken

/-- A part of a request to read, whatever the drive. -/
theorem storageReadSectors_spec (h : Drive M disk Ready Bad) {lba : UInt32} {count : UInt8} {buffer : Nat}
    {s : State σ} (hready : Ready s.drive) (hrange : lba.toNat + count.toNat ≤ 2 ^ 28)
    (hcount : count ≠ 0) (hbuffer : buffer ≠ 0) :
  Meets fetching disk Ready Bad (fun _ _ => True) M.type.group lba.toNat buffer count.toNat s
    (storageReadSectors M lba count buffer s)
  := by
  rw [storageReadSectors]
  rw [Drive] at h
  cases htype : M.type with
  | none =>
      rw [htype] at h
      exact h.elim
  | ahci =>
      rw [htype] at h
      exact ahciReadSectors_spec h hready hrange hbuffer
  | ataPio =>
      rw [htype] at h
      obtain ⟨phase, hdrive, hiff⟩ := h
      exact Meets.of_iff hiff (ataPioReadSectors_spec hdrive ((hiff _).mp hready) hrange hcount hbuffer)

/-- A part of a request to write, whatever the drive. -/
theorem storageWriteSectors_spec (h : Drive M disk Ready Bad) {lba : UInt32} {count : UInt8} {buffer : Nat}
    {s : State σ} (hready : Ready s.drive) (hrange : lba.toNat + count.toNat ≤ 2 ^ 28)
    (hcount : count ≠ 0) (hbuffer : buffer ≠ 0) :
  Meets storing disk Ready Bad M.type.Seen M.type.group lba.toNat buffer count.toNat s
    (storageWriteSectors M lba count buffer s)
  := by
  rw [storageWriteSectors]
  rw [Drive] at h
  cases htype : M.type with
  | none =>
      rw [htype] at h
      exact h.elim
  | ahci =>
      rw [htype] at h
      exact ahciWriteSectors_spec h hready hrange hbuffer
  | ataPio =>
      rw [htype] at h
      obtain ⟨phase, hdrive, hiff⟩ := h
      have hwrite := ataPioWriteSectors_spec hdrive ((hiff _).mp hready) hrange hcount hbuffer
      exact Meets.of_iff hiff (hwrite.mono (fun f _ hseen => hseen.2))

/-! ### The two calls -/

/-- The sector and the number of sectors of a part of a request. -/
theorem part_spec {start cur : UInt32} {k : Nat} (hpos : 0 < k) (hle : k ≤ 128)
    (hrange : start.toNat + cur.toNat + k ≤ 2 ^ 28) :
  (start + cur).toNat = start.toNat + cur.toNat ∧ (UInt8.ofNat k).toNat = k ∧ UInt8.ofNat k ≠ 0
  := by
  have hcount : (UInt8.ofNat k).toNat = k := by
    rw [UInt8.toNat_ofNat']
    exact Nat.mod_eq_of_lt (by omega)
  refine ⟨?_, hcount, ?_⟩
  · rw [UInt32.toNat_add]
    exact Nat.mod_eq_of_lt (by omega)
  · intro hzero
    rw [hzero] at hcount
    exact hpos.ne hcount

theorem group_dvd (type : StorageType) :
  type.group ∣ 128
  := by
  cases type <;> decide

/-- The first part ends where the driver does not look for an error. -/
theorem seen_first (type : StorageType) (b f : Nat) (_ : f < 128) (h : type.Seen f (128 + b)) :
  type.Seen f 128
  := by
  have hsingle : (f + 1) % 128 ≠ 0 → (f + 1) % 128 ≠ 0 ∧ f + 1 ≠ 128 := by omega
  cases type with
  | ahci => trivial
  | none => exact hsingle h.1
  | ataPio => exact hsingle h.1

theorem seen_rest (type : StorageType) (b f : Nat) (h : type.Seen (128 + f) (128 + b)) :
  type.Seen f b
  := by
  have hsingle : (128 + f + 1) % 128 ≠ 0 ∧ 128 + f + 1 ≠ 128 + b → (f + 1) % 128 ≠ 0 ∧ f + 1 ≠ b := by
    omega
  cases type with
  | ahci => trivial
  | none => exact hsingle h
  | ataPio => exact hsingle h

/-- `disk_read`. -/
theorem diskRead_spec (h : Drive M disk Ready Bad) {buff : Nat} {sector count : UInt32} {s : State σ}
    (hready : Ready s.drive) (hrange : M.fatStartLba.toNat + sector.toNat + count.toNat ≤ 2 ^ 28)
    (hcount : count ≠ 0) (hbuff : buff ≠ 0) :
  let r := diskRead M 0 buff sector count s
  Reads Bad M.type.group (M.fatStartLba.toNat + sector.toNat) buff count.toNat (s.view disk)
    (r.2.view disk) r.1
  := by
  have hloop : Meets fetching disk Ready Bad (fun _ _ => True) M.type.group
      (M.fatStartLba.toNat + sector.toNat) buff count.toNat s
      (inChunks 128 (fun cur chunk ptr => storageReadSectors M (M.fatStartLba + cur) (.ofNat chunk) ptr)
        sector count.toNat buff s) := by
    apply inChunks_meets (by decide) (group_dvd M.type) (fun _ _ _ _ => trivial) (fun _ _ _ => trivial) _
      sector count.toNat buff s hrange hbuff hready
    intro cur k p s hpos hle hrange hp hready
    obtain ⟨hlba, hk, hne⟩ := part_spec hpos hle hrange
    have hpart := @storageReadSectors_spec _ _ _ _ _ h (M.fatStartLba + cur) (.ofNat k) p s hready
    rw [hlba, hk] at hpart
    exact hpart hrange hne hp
  rw [diskRead, if_neg (by simp [hcount])]
  generalize inChunks 128
    (fun cur chunk ptr => storageReadSectors M (M.fatStartLba + cur) (.ofNat chunk) ptr)
    sector count.toNat buff s = r at hloop
  obtain ⟨ok, s'⟩ := r
  constructor
  · intro hgood
    obtain ⟨hok, -, hview⟩ := hloop.whole hgood
    cases hok
    rw [hview]
    exact ⟨rfl, rfl, rfl, rfl⟩
  · intro f hf hgood hbad
    obtain ⟨hok, j, hlo, hhi, hview⟩ := hloop.broken f hf hgood hbad trivial
    cases hok
    rw [hview]
    exact ⟨rfl, rfl, rfl, j, hlo, hhi, rfl⟩

/-- `disk_write`. -/
theorem diskWrite_spec (h : Drive M disk Ready Bad) {buff : Nat} {sector count : UInt32} {s : State σ}
    (hready : Ready s.drive) (hrange : M.fatStartLba.toNat + sector.toNat + count.toNat ≤ 2 ^ 28)
    (hcount : count ≠ 0) (hbuff : buff ≠ 0) :
  let r := diskWrite M 0 buff sector count s
  Writes Bad M.type.Seen M.type.group (M.fatStartLba.toNat + sector.toNat) buff count.toNat (s.view disk)
    (r.2.view disk) r.1
  := by
  have hloop : Meets storing disk Ready Bad M.type.Seen M.type.group
      (M.fatStartLba.toNat + sector.toNat) buff count.toNat s
      (inChunks 128 (fun cur chunk ptr => storageWriteSectors M (M.fatStartLba + cur) (.ofNat chunk) ptr)
        sector count.toNat buff s) := by
    apply inChunks_meets (by decide) (group_dvd M.type) (seen_first M.type) (seen_rest M.type) _
      sector count.toNat buff s hrange hbuff hready
    intro cur k p s hpos hle hrange hp hready
    obtain ⟨hlba, hk, hne⟩ := part_spec hpos hle hrange
    have hpart := @storageWriteSectors_spec _ _ _ _ _ h (M.fatStartLba + cur) (.ofNat k) p s hready
    rw [hlba, hk] at hpart
    exact hpart hrange hne hp
  rw [diskWrite, if_neg (by simp [hcount])]
  generalize inChunks 128
    (fun cur chunk ptr => storageWriteSectors M (M.fatStartLba + cur) (.ofNat chunk) ptr)
    sector count.toNat buff s = r at hloop
  obtain ⟨ok, s'⟩ := r
  constructor
  · intro hgood
    obtain ⟨hok, -, hview⟩ := hloop.whole hgood
    cases hok
    rw [hview]
    exact ⟨rfl, rfl, rfl, rfl⟩
  · intro f hf hgood hbad hseen
    obtain ⟨hok, hmem, hsectors, j, hlo, hhi, htransferred⟩ := hloop.broken f hf hgood hbad hseen
    cases hok
    refine ⟨rfl, hmem, ?_, j, hlo, hhi, htransferred⟩
    intro m hm
    apply hsectors
    omega

end Storage
