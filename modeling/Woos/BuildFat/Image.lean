import Woos.BuildFat.Reading

/-!
# The image as a whole

The boot sector, FSInfo, the backups and the copies of the FAT lie below the data of the clusters
(`writeBoot_spec`, `finish_spec`).
-/

namespace BuildFat

open Extent

/-- The boot sector lies in the first 512 bytes. -/
theorem writeBoot_spec {img : Bytearray} (h : 512 ≤ img.size) :
  ∃ img', writeBoot img = some img' ∧ img.SameFrom 512 img'
  := by
  have hjump : img.SameFrom 512 (img.assign 0 3 [0xEB, 0x58, 0x90]) :=
    Bytearray.assign_sameFrom rfl (by decide) (le_trans (by decide) h)
  have hname := hjump.trans (@Bytearray.assign_sameFrom (img.assign 0 3 [0xEB, 0x58, 0x90]) 3
    (ascii "WOOSFS10") 11 512 rfl (by decide) (le_trans (by decide) (hjump.1.symm ▸ h)))
  obtain ⟨img₁, himg₁, hsame₁⟩ := @Bytearray.packInto_sameFrom
    ((img.assign 0 3 [0xEB, 0x58, 0x90]).assign 3 11 (ascii "WOOSFS10")) 11
    (Bytearray.pack [(2, sectorSize), (1, sectorsPerCluster), (2, reservedSectors), (1, fatCount), (2, 0),
      (2, 0), (1, 0xF8), (2, 0), (2, 63), (2, 16), (4, 0), (4, totalSectors)]) 512 (by decide)
    (le_trans (by decide) (hname.1.symm ▸ h))
  have hsame₁ := hname.trans hsame₁
  obtain ⟨img₂, himg₂, hsame₂⟩ := @Bytearray.packInto_sameFrom img₁ 36
    (Bytearray.pack [(4, sectorsPerFat), (2, 0), (2, 0), (4, 2), (2, 1), (2, 6)] ++ List.replicate 12 0
      ++ Bytearray.pack [(1, 0x80), (1, 0), (1, 0x29), (4, 0x12345678)] ++ ascii "WOOS FAT32 "
      ++ ascii "FAT32   ") 512 (by decide) (le_trans (by decide) (hsame₁.1.symm ▸ h))
  have hsame₂ := hsame₁.trans hsame₂
  have hsame₃ := hsame₂.trans (@Bytearray.assign_sameFrom img₂ 510 [0x55] 511 512 rfl (by decide)
    (le_trans (by decide) (hsame₂.1.symm ▸ h)))
  have hsame₄ := hsame₃.trans (@Bytearray.assign_sameFrom (img₂.assign 510 511 [0x55]) 511 [0xAA] 512 512 rfl
    (by decide) (hsame₃.1.symm ▸ h))
  refine ⟨_, ?_, hsame₄⟩
  rw [writeBoot, himg₁, Option.bind_eq_bind, Option.bind_some, himg₂]
  rfl

/-! ### FSInfo and the copies -/

theorem length_fsInfo (free next : Nat) :
  (fsInfo free next).length = 512
  := by
  rw [fsInfo, List.length_append, List.length_append, List.length_append, List.length_append,
    List.length_replicate, List.length_replicate, Bytearray.length_pack, Bytearray.length_pack,
    Bytearray.length_pack]
  rfl

/-- The count of free clusters in FSInfo. -/
theorem fsInfo_free {free : Nat} (next : Nat) (h : free < 2 ^ 32) :
  LittleEndian.decode (((fsInfo free next).drop 488).take 4) = free
  := by
  have hprefix : (Bytearray.pack [(4, 0x41615252)] ++ List.replicate 480 0).length = 484 := by
    rw [List.length_append, List.length_replicate, Bytearray.length_pack]
    rfl
  have hdrop : (fsInfo free next).drop 484 = Bytearray.pack [(4, 0x61417272), (4, free), (4, next)]
      ++ (List.replicate 14 0 ++ Bytearray.pack [(2, 0xAA55)]) := by
    rw [fsInfo, List.append_assoc, List.append_assoc]
    exact List.drop_left' hprefix
  have hfree : ((fsInfo free next).drop 488).take 4 = LittleEndian.encode 4 free := by
    rw [← List.drop_drop (i := 4) (j := 484), hdrop]
    rfl
  rw [hfree, LittleEndian.decode_encode h]

/-- FSInfo is written, and it and the boot sector are copied; then the FAT is written twice, and the
root directory. -/
theorem finish_eq {root : Directory} {v : Volume} (himg : v.img.size = 67108864)
    (hfat : v.fat.size = 524288) (hroot : root.data.size = 2048)
    (hused : v.currentCluster - 2 ≤ totalDataClusters) :
  ∃ (img : Bytearray) (m : Memory), finish root v = some img ∧ img.size = v.img.size
    ∧ img.bytes = ((m.write 16384 (v.fat.slice 0 v.fat.size)).write 540672 (v.fat.slice 0 v.fat.size)).write
        1064960 (root.data.slice 0 root.data.size)
    ∧ m.read 512 512 = fsInfo (totalDataClusters - (v.currentCluster - 2)) v.currentCluster
    ∧ ∀ a, 4096 ≤ a → m a = v.img.bytes a
  := by
  have hinfo := length_fsInfo (totalDataClusters - (v.currentCluster - 2)) v.currentCluster
  have hfats := Bytearray.length_slice (i := 0) (Nat.le_refl v.fat.size)
  have hdir := Bytearray.length_slice (i := 0) (Nat.le_refl root.data.size)
  obtain ⟨b₁, hb₁, hsize₁, hbytes₁⟩ := @Bytearray.packInto_fields v.img 512
    (fsInfo (totalDataClusters - (v.currentCluster - 2)) v.currentCluster) (by omega)
  have hboot := @Bytearray.length_slice b₁ 0 512 (by omega)
  obtain ⟨b₂, hb₂, hsize₂, hbytes₂⟩ := @Bytearray.assign_fields b₁ 3072 (b₁.slice 0 512) 3584
    (by omega) (by omega)
  have hcopy := @Bytearray.length_slice b₂ 512 1024 (by omega)
  obtain ⟨b₃, hb₃, hsize₃, hbytes₃⟩ := @Bytearray.assign_fields b₂ 3584 (b₂.slice 512 1024) 4096
    (by omega) (by omega)
  obtain ⟨b₄, hb₄, hsize₄, hbytes₄⟩ := @Bytearray.assign_fields b₃ 16384 (v.fat.slice 0 v.fat.size) 540672
    (by omega) (by omega)
  obtain ⟨b₅, hb₅, hsize₅, hbytes₅⟩ := @Bytearray.assign_fields b₄ 540672 (v.fat.slice 0 v.fat.size) 1064960
    (by omega) (by omega)
  obtain ⟨b₆, hb₆, hsize₆, hbytes₆⟩ := @Bytearray.assign_fields b₅ 1064960
    (root.data.slice 0 root.data.size) 1067008 (by omega) (by omega)
  refine ⟨b₆, b₃.bytes, ?_, by omega, ?_, ?_, ?_⟩
  · rw [finish, if_neg (Nat.not_lt.mpr hused), hb₁, Option.bind_eq_bind, Option.bind_some]
    apply congrArg some
    rw [← hb₆, ← hb₅, ← hb₄, ← hb₃, ← hb₂]
    rfl
  · rw [hbytes₆, hbytes₅, hbytes₄]
  · rw [hbytes₃, hbytes₂, hbytes₁, Memory.read_write_disjoint _ (by omega),
      Memory.read_write_disjoint _ (by omega)]
    have hread := v.img.bytes.read_write 512
      (fsInfo (totalDataClusters - (v.currentCluster - 2)) v.currentCluster)
    rwa [hinfo] at hread
  · intro a ha
    rw [hbytes₃, hbytes₂, hbytes₁, Memory.write_apply_outside _ (by omega),
      Memory.write_apply_outside _ (by omega), Memory.write_apply_outside _ (by omega)]

/-- What is written below the data of the clusters leaves the extents alone. -/
theorem Holds.sameFrom {v : Volume} {xs : List (Extent UInt8)} (h : Holds v xs) {img : Bytearray}
    (hsame : v.img.SameFrom (dataOffset 2) img) :
  Holds { v with img } xs
  := by
  refine ⟨hsame.1.trans h.img_size, h.fat_size, h.tiles, h.linked, h.unused, ?_, ?_⟩
  · intro x hx
    rw [← h.data x hx]
    apply Memory.read_congr
    intro i _
    have hle := dataOffset_le (Nat.le_refl 2) (h.tiles.mem hx).1
    exact hsame.2 _ (by omega)
  · intro a ha
    have hle := dataOffset_le (Nat.le_refl 2) h.two_le
    exact (hsame.2 a (hle.trans ha)).trans (h.blank a ha)

/-- The finished image. -/
theorem finish_spec {root : Directory} {v : Volume} {es : List (List UInt8)} {c : List UInt8}
    {xs : List (Extent UInt8)} (hroot : root.Lists (4 * clusterBytes) es) (hv : Holds v (⟨2, 4, c⟩ :: xs))
    (hroom : v.currentCluster ≤ totalDataClusters + 2) :
  ∃ img, finish root v = some img ∧ img.size = totalSectors * sectorSize
    ∧ Shows img v.currentCluster (⟨2, 4, dirBytes (4 * clusterBytes) es⟩ :: xs)
    ∧ img.bytes.read (fat1Start * sectorSize) (sectorsPerFat * sectorSize)
      = img.bytes.read (fat2Start * sectorSize) (sectorsPerFat * sectorSize)
    ∧ freeCount img = totalDataClusters - (v.currentCluster - 2)
  := by
  have htotal : totalDataClusters = 128992 := rfl
  have hsize : v.fat.size = 524288 := hv.fat_size
  have hlen := hroot.length_dirBytes
  have hroots : root.data.size = 2048 := by rw [hroot.size_eq, clusterBytes_eq]
  obtain ⟨img, m, himg, hsame, hbytes, hinfo, hrest⟩ := finish_eq hv.img_size hsize hroots (by omega)
  have hfat : v.fat.slice 0 v.fat.size = v.fat.bytes.read 0 524288 := by
    rw [Bytearray.slice_eq (Nat.le_refl _), hsize]
  have hcopies := Memory.length_read v.fat.bytes 0 524288
  rw [hfat, hroot.size_eq, hroot.slice_eq] at hbytes
  have hfat₁ : img.bytes.read 16384 524288 = v.fat.bytes.read 0 524288 := by
    have hread := m.read_write 16384 (v.fat.bytes.read 0 524288)
    rw [hcopies] at hread
    rw [hbytes, Memory.read_write_disjoint _ (by omega), Memory.read_write_disjoint _ (by omega), hread]
  have hfat₂ : img.bytes.read 540672 524288 = v.fat.bytes.read 0 524288 := by
    have hread := (m.write 16384 (v.fat.bytes.read 0 524288)).read_write 540672 (v.fat.bytes.read 0 524288)
    rw [hcopies] at hread
    rw [hbytes, Memory.read_write_disjoint _ (by omega), hread]
  -- the root directory fills its extent, and all the rest is below
  have hfilled := @Holds.fill v [] xs ⟨2, 4, c⟩ hv (dirBytes (4 * clusterBytes) es) hlen
  have habove : ∀ a, dataOffset 2 ≤ a →
      img.bytes a = v.img.bytes.write (dataOffset 2) (dirBytes (4 * clusterBytes) es) a := by
    have hoff : dataOffset 2 = 1064960 := by rw [dataOffset_eq (Nat.le_refl 2)]
    intro a ha
    rw [hoff] at ha ⊢
    rw [hbytes]
    apply Memory.write_apply_congr
    rw [Memory.write_apply_outside _ (by omega), Memory.write_apply_outside _ (by omega),
      hrest a (by omega)]
  have hheld := @Holds.sameFrom _ _ hfilled img ⟨hsame, habove⟩
  have hentry (k : Nat) (hk : k < totalDataClusters + 2) : entry img k = next v.fat k := by
    have hpart := img.bytes.read_part (a := 16384) (show k * 4 + 4 ≤ 524288 by omega)
    rw [hfat₁, Memory.read_part _ (by omega), Nat.zero_add] at hpart
    exact congrArg LittleEndian.decode hpart.symm
  refine ⟨img, himg, hsame.trans hv.img_size, hheld.shows hroom hentry, hfat₁.trans hfat₂.symm, ?_⟩
  have hfree : img.bytes.read 1000 4 = ((fsInfo (totalDataClusters - (v.currentCluster - 2))
      v.currentCluster).drop 488).take 4 := by
    rw [← hinfo, Memory.read_part _ (by decide), hbytes, Memory.read_write_disjoint _ (by omega),
      Memory.read_write_disjoint _ (by omega), Memory.read_write_disjoint _ (by omega)]
  rw [freeCount]
  exact (congrArg LittleEndian.decode hfree).trans (fsInfo_free _ (by omega))

end BuildFat
