import Woos.BuildFat.Directory

/-!
# Reading the image

What a FAT driver finds in an image whose FAT is that of a volume: the chain of every extent goes through
its clusters and its bytes are the contents, chains of different extents are disjoint, and the entries
that are zero are those of the clusters not in use.
-/

namespace BuildFat

open Extent

/-- The chains from `c` and from `d` have no cluster in common. -/
def Apart (img : Bytearray) (c d : Nat) : Prop :=
  ∀ cs ds, chain img c = some cs → chain img d = some ds → cs.Disjoint ds

theorem apart_symm {img : Bytearray} {c d : Nat} (h : Apart img c d) :
  Apart img d c
  := fun ds cs hd hc => List.disjoint_comm.mp (h cs ds hc hd)

/-- The image holds the extents, and its first FAT is that of the volume. -/
structure Shows (img : Bytearray) (last : Nat) (xs : List (Extent UInt8)) : Prop where
  tiles : Tiles 2 xs last
  room : last ≤ totalDataClusters + 2
  linked : ∀ x ∈ xs, x.Linked endOfChain (entry img)
  unused : ∀ c, last ≤ c → c < totalDataClusters + 2 → entry img c = 0
  data : ∀ x ∈ xs, img.bytes.read (dataOffset x.start) (x.count * clusterBytes) = x.contents

theorem Holds.shows {v : Volume} {xs : List (Extent UInt8)} (h : Holds v xs)
    (hroom : v.currentCluster ≤ totalDataClusters + 2)
    (hentry : ∀ c < totalDataClusters + 2, entry v.img c = next v.fat c) :
  Shows v.img v.currentCluster xs
  := by
  refine ⟨h.tiles, hroom, ?_, ?_, h.data⟩
  · intro x hx c hle hlt
    obtain ⟨-, -, hend⟩ := h.tiles.mem hx
    rw [hentry c (by omega)]
    exact h.linked x hx c hle hlt
  · intro c hle hlt
    rw [hentry c hlt]
    exact h.unused c hle

namespace Shows

variable {img : Bytearray} {last : Nat} {xs ys : List (Extent UInt8)} {x y : Extent UInt8}

/-- The chain of an extent. -/
theorem chain_eq (h : Shows img last xs) (hx : x ∈ xs) :
  chain img x.start = some (List.range' x.start x.count)
  := by
  obtain ⟨hstart, hpos, hend⟩ := h.tiles.mem hx
  have hroom := h.room
  have htotal : totalDataClusters = 128992 := rfl
  apply @follow_linked UInt8 endOfChain (entry img) isEnd rfl x (h.linked x hx) hpos
  · intro c hc
    exact decide_eq_false (by omega)
  · omega

/-- The bytes of clusters one behind the other. -/
theorem read_range (m : Memory) {c : Nat} (hc : 2 ≤ c) (n : Nat) :
  (List.range' c n).flatMap (fun c => m.read (dataOffset c) clusterBytes)
    = m.read (dataOffset c) (n * clusterBytes)
  := by
  induction n generalizing c with
  | zero => rw [Nat.zero_mul, List.range'_zero, List.flatMap_nil, Memory.read, List.range_zero, List.map_nil]
  | succ n ih =>
      have hnext := dataOffset_add hc 1
      rw [Nat.one_mul] at hnext
      rw [List.range'_succ, List.flatMap_cons, ih (Nat.le_succ_of_le hc), hnext, Memory.read_append,
        Nat.succ_mul, Nat.add_comm]

/-- The bytes of an extent. -/
theorem read_eq (h : Shows img last xs) (hx : x ∈ xs) :
  read img x.start = some x.contents
  := by
  rw [read, h.chain_eq hx, Option.map_some, read_range _ (h.tiles.mem hx).1, h.data x hx]

/-- The chain of an extent ends in a mark. -/
theorem chain_ends (h : Shows img last xs) (hx : x ∈ xs) :
  ∃ cs l, chain img x.start = some cs ∧ cs.getLast? = some l ∧ isEnd (entry img l) = true
  := by
  have hchain := h.chain_eq hx
  obtain ⟨l, hl, hend⟩ := follow_ends hchain
  exact ⟨_, l, hchain, hl, hend⟩

/-- Extents in a tiling have disjoint chains. -/
theorem apart (h : Shows img last xs) :
  (xs.map Extent.start).Pairwise (Apart img)
  := by
  rw [List.pairwise_map]
  apply h.tiles.pairwise.imp_of_mem
  intro x y hx hy hle cs ds hcs hds
  rw [h.chain_eq hx] at hcs
  rw [h.chain_eq hy] at hds
  cases hcs
  cases hds
  intro c hc hd
  have hbelow := (List.mem_range'_1.mp hc).2
  have habove := (List.mem_range'_1.mp hd).1
  omega

/-- The free clusters of the image are those not in use. -/
theorem free_eq (h : Shows img last xs) :
  (List.range' 2 totalDataClusters).countP (fun c => entry img c = 0) = totalDataClusters - (last - 2)
  := by
  have hle := h.tiles.le
  have hroom := h.room
  have hsplit : List.range' 2 totalDataClusters
      = List.range' 2 (last - 2) ++ List.range' last (totalDataClusters - (last - 2)) := by
    have happend := @List.range'_append_1 2 (last - 2) (totalDataClusters - (last - 2))
    rwa [Nat.add_sub_cancel' hle, Nat.add_sub_cancel' (by omega), eq_comm] at happend
  have hused : (List.range' 2 (last - 2)).countP (fun c => entry img c = 0) = 0 := by
    rw [List.countP_eq_zero]
    intro c hc
    obtain ⟨htwo, hlt⟩ := List.mem_range'_1.mp hc
    rw [decide_eq_true_iff]
    exact next_ne_zero (by decide) h.tiles h.linked htwo (by omega)
  have hfree : (List.range' last (totalDataClusters - (last - 2))).countP (fun c => entry img c = 0)
      = totalDataClusters - (last - 2) := by
    rw [List.countP_eq_length.mpr, List.length_range']
    intro c hc
    obtain ⟨hlast, hlt⟩ := List.mem_range'_1.mp hc
    rw [decide_eq_true_iff]
    exact h.unused c hlast (by omega)
  rw [hsplit, List.countP_append, hused, hfree, Nat.zero_add]

end Shows

end BuildFat
