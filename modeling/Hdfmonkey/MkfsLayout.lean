/-
This file models the arithmetic of `f_mkfs`: from the number of sectors of the disk
to the partition, the cluster size, the FAT sub-type and the sizes of the areas.

Two decisions are separate in the source and need not agree. The type that is laid
out is chosen by the caller or from a preliminary count of clusters, before any area
is taken off. The type that a later mount sees is derived from the final count. The
two theorems at the end say for which disks they agree.
-/

import Hdfmonkey.DiskIo

namespace Hdfmonkey

/-- `N_ROOTDIR`. -/
def nRootdirEntries : Nat := 512

/-- `N_FATS`. -/
def nFats : Nat := 2

/-- `MAX_SECTOR`. -/
def maxSector : Nat := 131072000

/-- `MIN_SECTOR`. -/
def minSector : Nat := 2000

/-- `sstbl`, the partition sizes in sectors from which on a cluster size is used. -/
def sstbl : List Nat :=
  [2048000, 1024000, 512000, 256000, 128000, 64000, 32000, 16000, 8000, 4000, 0]

/-- `cstbl`, the cluster sizes in bytes. -/
def cstbl : List Nat :=
  [32768, 16384, 8192, 4096, 2048, 16384, 8192, 4096, 2048, 1024, 512]

/-- The automatic cluster size: the one beside the first partition size that is reached. The last
size is zero, so there is one. -/
def autoAllocsize (nPart : Nat) : List Nat → List Nat → Nat
  | size :: sizes, allocsize :: allocsizes =>
    if nPart < size then autoAllocsize nPart sizes allocsizes else allocsize
  | _, _ => 0

/-- The cluster size in bytes: the one asked for when it is a power of two from 512 to 32768. -/
def mkfsAllocsize (nPart allocsize : Nat) : Nat :=
  let valid := if [512, 1024, 2048, 4096, 8192, 16384, 32768].contains allocsize then allocsize
    else 0
  let chosen := if valid = 0 then autoAllocsize nPart sstbl cstbl else valid
  if chosen < sectorSize then sectorSize else chosen

/-- The FAT sub-type for a preliminary number of clusters. -/
def typeOfClusters (nClst : Nat) : FatType :=
  if nClst ≥ 0xFFF5 then .fat32 else if nClst ≥ 0xFF5 then .fat16 else .fat12

/-- The size of one FAT in sectors. -/
def fatSectors (fmt : FatType) (nClst : Nat) : Nat :=
  match fmt with
  | .fat12 => ((nClst * 3 + 1) / 2 + 3 + sectorSize - 1) / sectorSize
  | .fat16 => (nClst * 2 + 4 + sectorSize - 1) / sectorSize
  | .fat32 => (nClst * 4 + 8 + sectorSize - 1) / sectorSize

/-- The size of the reserved area. -/
def reservedSectors (fmt : FatType) (partition : Nat) : Nat :=
  match fmt with
  | .fat12 | .fat16 => 1 + partition
  | .fat32 => 33 - partition

/-- The size of the root directory area. -/
def rootSectors (fmt : FatType) : Nat :=
  match fmt with
  | .fat12 | .fat16 => nRootdirEntries * 32 / sectorSize
  | .fat32 => 0

/-- What `f_mkfs` has computed before its first write: the type, the sectors per cluster, and the
places and sizes of the areas. -/
structure Layout where
  fmt : FatType
  allocsize : Nat
  bPart : Nat
  nPart : Nat
  nRsv : Nat
  nFat : Nat
  nDir : Nat
  nClst : Nat
  deriving DecidableEq, Repr

/-- `b_fat`, the start of the FATs. -/
def Layout.bFat (layout : Layout) : Nat := layout.bPart + layout.nRsv

/-- `b_dir`, the start of the root directory area. -/
def Layout.bDir (layout : Layout) : Nat := layout.bFat + layout.nFat * nFats

/-- `b_data`, the start of the data area. -/
def Layout.bData (layout : Layout) : Nat := layout.bDir + layout.nDir

/-- The arithmetic of `f_mkfs`. -/
def mkfsLayout (build : Build) (partition allocsize : Nat) (fmt : Option FatType)
    (sectorCount : Nat) : Layout :=
  let bPart := if partition = 0 then 63 else 0
  let nPart := build.sub (min sectorCount maxSector) bPart
  let allocsize := mkfsAllocsize nPart allocsize / sectorSize
  let nClst := nPart / allocsize
  let fmt := fmt.getD (typeOfClusters nClst)
  let nRsv := reservedSectors fmt partition
  let nDir := rootSectors fmt
  let nFat := fatSectors fmt nClst
  let bData := bPart + nRsv + nFat * nFats + nDir
  -- align the data start to the erase blocks
  let n := build.add bData (diskBlockSize - 1) &&& build.word - diskBlockSize
  let nFat := nFat + build.sub n bData / nFats
  { fmt, allocsize, bPart, nPart, nRsv, nFat, nDir
    nClst := build.sub (build.sub (build.sub nPart nRsv) (nFat * nFats)) nDir / allocsize }

/-! ### The layout of a partitioned disk -/

/-- The cluster sizes of the table, in sectors. -/
def clusterTable : List Nat := [64, 32, 16, 8, 4, 32, 16, 8, 4, 2, 1]

/-- The automatic cluster size, in sectors. -/
def clusterSectors (nPart : Nat) : Nat := autoAllocsize nPart sstbl clusterTable

theorem autoAllocsize_map (nPart : Nat) (sizes allocsizes : List Nat) :
    autoAllocsize nPart sizes (allocsizes.map (· * sectorSize)) =
      autoAllocsize nPart sizes allocsizes * sectorSize := by
  induction sizes generalizing allocsizes with
  | nil => simp only [autoAllocsize, Nat.zero_mul]
  | cons size sizes inductionHypothesis =>
    cases allocsizes with
    | nil => simp only [List.map_nil, autoAllocsize, Nat.zero_mul]
    | cons allocsize allocsizes =>
      simp only [List.map_cons, autoAllocsize, inductionHypothesis]
      split_ifs <;> rfl

theorem autoAllocsize_reached {nPart size : Nat} (reached : size ≤ nPart) (allocsize : Nat)
    (sizes allocsizes : List Nat) :
    autoAllocsize nPart (size :: sizes) (allocsize :: allocsizes) = allocsize :=
  if_neg (Nat.not_lt.mpr reached)

theorem autoAllocsize_below {nPart size : Nat} (below : nPart < size) {allocsize : Nat}
    {sizes allocsizes : List Nat} :
    autoAllocsize nPart (size :: sizes) (allocsize :: allocsizes) =
      autoAllocsize nPart sizes allocsizes :=
  if_pos below

/-- The bands of partition sizes and their cluster sizes. -/
theorem clusterSectors_cases (nPart : Nat) :
    2048000 ≤ nPart ∧ clusterSectors nPart = 64 ∨
    1024000 ≤ nPart ∧ nPart < 2048000 ∧ clusterSectors nPart = 32 ∨
    512000 ≤ nPart ∧ nPart < 1024000 ∧ clusterSectors nPart = 16 ∨
    256000 ≤ nPart ∧ nPart < 512000 ∧ clusterSectors nPart = 8 ∨
    128000 ≤ nPart ∧ nPart < 256000 ∧ clusterSectors nPart = 4 ∨
    64000 ≤ nPart ∧ nPart < 128000 ∧ clusterSectors nPart = 32 ∨
    32000 ≤ nPart ∧ nPart < 64000 ∧ clusterSectors nPart = 16 ∨
    16000 ≤ nPart ∧ nPart < 32000 ∧ clusterSectors nPart = 8 ∨
    8000 ≤ nPart ∧ nPart < 16000 ∧ clusterSectors nPart = 4 ∨
    4000 ≤ nPart ∧ nPart < 8000 ∧ clusterSectors nPart = 2 ∨
    nPart < 4000 ∧ clusterSectors nPart = 1 := by
  rw [clusterSectors, sstbl, clusterTable]
  by_cases band2048000 : 2048000 ≤ nPart
  · exact Or.inl ⟨band2048000, autoAllocsize_reached band2048000 _ _ _⟩
  rw [autoAllocsize_below (Nat.not_le.mp band2048000)]
  refine Or.inr ?_
  by_cases band1024000 : 1024000 ≤ nPart
  · exact Or.inl ⟨band1024000, Nat.not_le.mp band2048000, autoAllocsize_reached band1024000 _ _ _⟩
  rw [autoAllocsize_below (Nat.not_le.mp band1024000)]
  refine Or.inr ?_
  by_cases band512000 : 512000 ≤ nPart
  · exact Or.inl ⟨band512000, Nat.not_le.mp band1024000, autoAllocsize_reached band512000 _ _ _⟩
  rw [autoAllocsize_below (Nat.not_le.mp band512000)]
  refine Or.inr ?_
  by_cases band256000 : 256000 ≤ nPart
  · exact Or.inl ⟨band256000, Nat.not_le.mp band512000, autoAllocsize_reached band256000 _ _ _⟩
  rw [autoAllocsize_below (Nat.not_le.mp band256000)]
  refine Or.inr ?_
  by_cases band128000 : 128000 ≤ nPart
  · exact Or.inl ⟨band128000, Nat.not_le.mp band256000, autoAllocsize_reached band128000 _ _ _⟩
  rw [autoAllocsize_below (Nat.not_le.mp band128000)]
  refine Or.inr ?_
  by_cases band64000 : 64000 ≤ nPart
  · exact Or.inl ⟨band64000, Nat.not_le.mp band128000, autoAllocsize_reached band64000 _ _ _⟩
  rw [autoAllocsize_below (Nat.not_le.mp band64000)]
  refine Or.inr ?_
  by_cases band32000 : 32000 ≤ nPart
  · exact Or.inl ⟨band32000, Nat.not_le.mp band64000, autoAllocsize_reached band32000 _ _ _⟩
  rw [autoAllocsize_below (Nat.not_le.mp band32000)]
  refine Or.inr ?_
  by_cases band16000 : 16000 ≤ nPart
  · exact Or.inl ⟨band16000, Nat.not_le.mp band32000, autoAllocsize_reached band16000 _ _ _⟩
  rw [autoAllocsize_below (Nat.not_le.mp band16000)]
  refine Or.inr ?_
  by_cases band8000 : 8000 ≤ nPart
  · exact Or.inl ⟨band8000, Nat.not_le.mp band16000, autoAllocsize_reached band8000 _ _ _⟩
  rw [autoAllocsize_below (Nat.not_le.mp band8000)]
  refine Or.inr ?_
  by_cases band4000 : 4000 ≤ nPart
  · exact Or.inl ⟨band4000, Nat.not_le.mp band8000, autoAllocsize_reached band4000 _ _ _⟩
  rw [autoAllocsize_below (Nat.not_le.mp band4000)]
  refine Or.inr ?_
  exact ⟨Nat.not_le.mp band4000, autoAllocsize_reached (Nat.zero_le _) _ _ _⟩

theorem mkfsAllocsize_auto (nPart : Nat) :
    mkfsAllocsize nPart 0 / sectorSize = clusterSectors nPart := by
  have auto : mkfsAllocsize nPart 0 =
      if autoAllocsize nPart sstbl cstbl < sectorSize then sectorSize
      else autoAllocsize nPart sstbl cstbl := rfl
  have table : cstbl = clusterTable.map (· * sectorSize) := by decide
  have positive : 0 < clusterSectors nPart := by
    rcases clusterSectors_cases nPart with h | h | h | h | h | h | h | h | h | h | h <;> omega
  rw [auto, table, autoAllocsize_map, ← clusterSectors, if_neg (by rw [sectorSize]; omega)]
  exact Nat.mul_div_cancel _ (by decide)

/-- The partition of a disk: all sectors behind the first track, up to the largest partition. -/
def partitionSectors (sectorCount : Nat) : Nat := min sectorCount maxSector - 63

/-- The layout of a partitioned disk with the automatic cluster size, without machine words. -/
def autoLayout (fmt : Option FatType) (nPart : Nat) : Layout :=
  let allocsize := clusterSectors nPart
  let fmt := fmt.getD (typeOfClusters (nPart / allocsize))
  let nRsv := reservedSectors fmt 0
  let nFat := fatSectors fmt (nPart / allocsize)
  let nDir := rootSectors fmt
  { fmt, allocsize, bPart := 63, nPart, nRsv, nFat, nDir
    nClst := (nPart - nRsv - nFat * nFats - nDir) / allocsize }

theorem clusterSectors_bounds (nPart : Nat) : 0 < clusterSectors nPart ∧
    clusterSectors nPart ≤ 64 := by
  rcases clusterSectors_cases nPart with h | h | h | h | h | h | h | h | h | h | h <;> omega

/-- The sectors of a cluster are a power of two. -/
theorem clusterSectors_power (nPart : Nat) : ∃ bits, clusterSectors nPart = 2 ^ bits := by
  rcases clusterSectors_cases nPart with h | h | h | h | h | h | h | h | h | h | h
  · exact ⟨6, h.2⟩
  · exact ⟨5, h.2.2⟩
  · exact ⟨4, h.2.2⟩
  · exact ⟨3, h.2.2⟩
  · exact ⟨2, h.2.2⟩
  · exact ⟨5, h.2.2⟩
  · exact ⟨4, h.2.2⟩
  · exact ⟨3, h.2.2⟩
  · exact ⟨2, h.2.2⟩
  · exact ⟨1, h.2.2⟩
  · exact ⟨0, h.2⟩

theorem partitionSectors_bounds {sectorCount : Nat} (enough : minSector ≤ sectorCount) :
    1937 ≤ partitionSectors sectorCount ∧ partitionSectors sectorCount ≤ 131071937 ∧
      partitionSectors sectorCount + 63 ≤ sectorCount := by
  rw [minSector] at enough
  rw [partitionSectors, maxSector]
  omega

/-- The areas in front of the data leave room for at least one cluster. -/
theorem areas_fit (fmt : FatType) {nPart nClst : Nat} (large : 1937 ≤ nPart)
    (few : nClst ≤ nPart) :
    reservedSectors fmt 0 + fatSectors fmt nClst * nFats + rootSectors fmt + 64 ≤ nPart := by
  cases fmt <;>
    simp only [reservedSectors, fatSectors, rootSectors, nFats, nRootdirEntries, sectorSize] <;>
    omega

/-- Aligning to blocks of one sector moves nothing. -/
theorem alignBlocks_one (build : Build) {place : Nat} (small : place < 2 ^ 32) :
    build.add place (diskBlockSize - 1) &&& build.word - diskBlockSize = place := by
  have word := build.le_word
  rw [diskBlockSize, build.add_of_lt (by omega)]
  cases build with
  | lp64 =>
    rw [Build.word, Nat.and_two_pow_sub_one_eq_mod]
    exact Nat.mod_eq_of_lt (by omega)
  | mingw =>
    rw [Build.word, Nat.and_two_pow_sub_one_eq_mod]
    exact Nat.mod_eq_of_lt small

/-- No subtraction of `f_mkfs` wraps around and no area is moved by the alignment. -/
theorem mkfsLayout_auto (build : Build) (fmt : Option FatType) {sectorCount : Nat}
    (enough : minSector ≤ sectorCount) :
    mkfsLayout build 0 0 fmt sectorCount = autoLayout fmt (partitionSectors sectorCount) := by
  have word := build.le_word
  obtain ⟨large, bound, inside⟩ := partitionSectors_bounds enough
  have partIs : build.sub (min sectorCount maxSector) 63 = partitionSectors sectorCount := by
    rw [build.sub_of_le (by rw [maxSector]; omega)
      (by rw [minSector] at enough; rw [maxSector]; omega), partitionSectors]
  simp only [mkfsLayout, if_true, partIs, mkfsAllocsize_auto, autoLayout]
  clear partIs inside
  generalize partitionSectors sectorCount = nPart at *
  generalize fmt.getD (typeOfClusters (nPart / clusterSectors nPart)) = fmt
  have fit := areas_fit fmt large (Nat.div_le_self nPart (clusterSectors nPart))
  generalize reservedSectors fmt 0 = nRsv at *
  generalize fatSectors fmt (nPart / clusterSectors nPart) = nFat at *
  generalize rootSectors fmt = nDir at *
  rw [nFats] at *
  have aligned : build.add (63 + nRsv + nFat * 2 + nDir) (diskBlockSize - 1) &&&
      build.word - diskBlockSize = 63 + nRsv + nFat * 2 + nDir :=
    alignBlocks_one build (by omega)
  rw [aligned, build.sub_of_le (by omega) (Nat.le_refl _), Nat.sub_self, Nat.zero_div,
    Nat.add_zero]
  have reserved : build.sub nPart nRsv = nPart - nRsv := build.sub_of_le (by omega) (by omega)
  have fats : build.sub (nPart - nRsv) (nFat * 2) = nPart - nRsv - nFat * 2 :=
    build.sub_of_le (by omega) (by omega)
  have root : build.sub (nPart - nRsv - nFat * 2) nDir = nPart - nRsv - nFat * 2 - nDir :=
    build.sub_of_le (by omega) (by omega)
  rw [reserved, fats, root]

/-- A partition from sector 63 on with room for its areas and at least one cluster, and FATs that
were sized for at least as many clusters as there are. -/
structure Layout.Sound (layout : Layout) : Prop where
  bPart : layout.bPart = 63
  allocsize_pos : 0 < layout.allocsize
  allocsize_le : layout.allocsize ≤ 64
  nPart : layout.nPart ≤ 131071937
  nRsv : layout.nRsv = reservedSectors layout.fmt 0
  nDir : layout.nDir = rootSectors layout.fmt
  nFat : layout.nFat = fatSectors layout.fmt (layout.nPart / layout.allocsize)
  nFat_le : layout.nFat ≤ 16001
  room : layout.nRsv + layout.nFat * nFats + layout.nDir + 64 ≤ layout.nPart
  nClst : layout.nClst =
    (layout.nPart - layout.nRsv - layout.nFat * nFats - layout.nDir) / layout.allocsize

/-- No FAT has more than 16001 sectors: the largest partitions have the largest clusters. -/
theorem fatSectors_le (fmt : FatType) {nPart : Nat} (bound : nPart ≤ 131071937) :
    fatSectors fmt (nPart / clusterSectors nPart) ≤ 16001 := by
  have few : nPart / clusterSectors nPart ≤ 2047999 := by
    rcases clusterSectors_cases nPart with h | h | h | h | h | h | h | h | h | h | h <;>
      obtain ⟨_, size⟩ := h <;> first
        | (rw [size]; omega)
        | (rw [size.2]; omega)
  cases fmt <;> simp only [fatSectors, sectorSize] <;> omega

theorem autoLayout_sound (fmt : Option FatType) {nPart : Nat} (large : 1937 ≤ nPart)
    (bound : nPart ≤ 131071937) : (autoLayout fmt nPart).Sound where
  bPart := rfl
  allocsize_pos := (clusterSectors_bounds nPart).1
  allocsize_le := (clusterSectors_bounds nPart).2
  nPart := bound
  nRsv := rfl
  nDir := rfl
  nFat := rfl
  nFat_le := fatSectors_le _ bound
  room := areas_fit _ large (Nat.div_le_self _ _)
  nClst := rfl

/-! ### The type a mount derives -/

/-- The FAT sub-type `chk_mounted` derives from the number of clusters plus two. -/
def typeOfMaxClust (mclst : Nat) : FatType :=
  if mclst ≥ 0xFFF7 then .fat32 else if mclst ≥ 0xFF7 then .fat16 else .fat12

theorem typeOfMaxClust_iff (fmt : FatType) (mclst : Nat) :
    typeOfMaxClust mclst = fmt ↔ match fmt with
      | .fat12 => mclst < 0xFF7
      | .fat16 => 0xFF7 ≤ mclst ∧ mclst < 0xFFF7
      | .fat32 => 0xFFF7 ≤ mclst := by
  rw [typeOfMaxClust]
  cases fmt <;> split_ifs <;> simp <;> omega

/-- The disks on which a forced type is the one a mount derives. -/
def ForcedSize (fmt : FatType) (sectorCount : Nat) : Prop :=
  match fmt with
  | .fat12 => sectorCount < 128063
  | .fat16 => 128063 ≤ sectorCount ∧ sectorCount < 4194208
  | .fat32 => 4194722 ≤ sectorCount

/-- The disks on which the chosen type is the one a mount derives: all but those with so few
clusters too many for FAT16 that the FATs of FAT32 take them away again. -/
def AutoSize (sectorCount : Nat) : Prop := ¬ (4193663 ≤ sectorCount ∧ sectorCount < 4194722)

theorem autoLayout_forced_iff (fmt : FatType) {sectorCount : Nat}
    (enough : minSector ≤ sectorCount) :
    typeOfMaxClust ((autoLayout (some fmt) (partitionSectors sectorCount)).nClst + 2) = fmt ↔
      ForcedSize fmt sectorCount := by
  rw [minSector] at enough
  simp only [typeOfMaxClust_iff, autoLayout, Option.getD_some]
  have bands := clusterSectors_cases (partitionSectors sectorCount)
  have nPart : partitionSectors sectorCount = min sectorCount 131072000 - 63 := rfl
  generalize clusterSectors (partitionSectors sectorCount) = allocsize at bands ⊢
  generalize partitionSectors sectorCount = size at bands nPart ⊢
  cases fmt <;>
    simp only [reservedSectors, fatSectors, rootSectors, nFats, nRootdirEntries, sectorSize,
      ForcedSize] <;>
    rcases bands with ⟨lower, rfl⟩ | ⟨lower, upper, rfl⟩ | ⟨lower, upper, rfl⟩ |
      ⟨lower, upper, rfl⟩ | ⟨lower, upper, rfl⟩ | ⟨lower, upper, rfl⟩ | ⟨lower, upper, rfl⟩ |
      ⟨lower, upper, rfl⟩ | ⟨lower, upper, rfl⟩ | ⟨lower, upper, rfl⟩ | ⟨upper, rfl⟩ <;>
    omega

theorem typeOfClusters_spec (nClst : Nat) :
    match typeOfClusters nClst with
      | .fat12 => nClst < 0xFF5
      | .fat16 => 0xFF5 ≤ nClst ∧ nClst < 0xFFF5
      | .fat32 => 0xFFF5 ≤ nClst := by
  rw [typeOfClusters]
  split_ifs with many some
  · exact many
  · exact ⟨some, Nat.not_le.mp many⟩
  · exact Nat.not_le.mp some

theorem autoLayout_auto_iff {sectorCount : Nat} (enough : minSector ≤ sectorCount) :
    typeOfMaxClust ((autoLayout none (partitionSectors sectorCount)).nClst + 2) =
        (autoLayout none (partitionSectors sectorCount)).fmt ↔ AutoSize sectorCount := by
  rw [minSector] at enough
  simp only [typeOfMaxClust_iff, autoLayout, Option.getD_none, AutoSize]
  have bands := clusterSectors_cases (partitionSectors sectorCount)
  have nPart : partitionSectors sectorCount = min sectorCount 131072000 - 63 := rfl
  generalize clusterSectors (partitionSectors sectorCount) = allocsize at bands ⊢
  generalize partitionSectors sectorCount = size at bands nPart ⊢
  have chosen := typeOfClusters_spec (size / allocsize)
  generalize typeOfClusters (size / allocsize) = fmt at chosen ⊢
  cases fmt <;>
    simp only [reservedSectors, fatSectors, rootSectors, nFats, nRootdirEntries, sectorSize]
      at chosen ⊢ <;>
    rcases bands with ⟨lower, rfl⟩ | ⟨lower, upper, rfl⟩ | ⟨lower, upper, rfl⟩ |
      ⟨lower, upper, rfl⟩ | ⟨lower, upper, rfl⟩ | ⟨lower, upper, rfl⟩ | ⟨lower, upper, rfl⟩ |
      ⟨lower, upper, rfl⟩ | ⟨lower, upper, rfl⟩ | ⟨lower, upper, rfl⟩ | ⟨upper, rfl⟩ <;>
    omega

end Hdfmonkey
