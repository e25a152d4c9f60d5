/-
This file says which cylinder, head and sector counts an HDF header carries.

Below the size of a large disk the two factor searches split the sector count exactly,
so the three numbers multiply back to it. Where the searches leave too many cylinders,
as they do for a large prime, the header falls back on the values of a large disk: they
say nothing about the image, which may be far smaller.
-/

import Hdfmonkey.HdfRoundTrip

namespace Hdfmonkey

/-! ### The factor searches -/

/-- A search ends at a divisor that is no larger than its limit. -/
theorem largestFactor_spec (value : Nat) {limit : Nat} (positive : 0 < limit) :
    0 < largestFactor value limit ∧ largestFactor value limit ≤ limit ∧
      largestFactor value limit ∣ value := by
  induction limit using largestFactor.induct value with
  | case1 => exact absurd positive (Nat.lt_irrefl 0)
  | case2 => exact ⟨Nat.one_pos, Nat.le_refl 1, Nat.one_dvd value⟩
  | case3 limit divides =>
    rw [largestFactor, if_pos divides]
    exact ⟨positive, Nat.le_refl _, Nat.dvd_of_mod_eq_zero divides⟩
  | case4 limit fails inductionHypothesis =>
    rw [largestFactor, if_neg fails]
    obtain ⟨found, bounded, divides⟩ := inductionHypothesis (Nat.succ_pos limit)
    exact ⟨found, Nat.le_succ_of_le bounded, divides⟩

/-- The values that the two searches give, whatever becomes of them. -/
def searchedGeometry (sectorCount : Nat) : Geometry :=
  let headCount := largestFactor sectorCount 16
  let sectorsPerHead := sectorCount / headCount
  let sectorsPerTrack := largestFactor sectorsPerHead 63
  { cylCount := sectorsPerHead / sectorsPerTrack, headCount, sectorsPerTrack }

/-- The number of sectors a geometry describes. -/
def Geometry.sectors (geometry : Geometry) : Nat :=
  geometry.cylCount * geometry.headCount * geometry.sectorsPerTrack

/-- The values are in the ranges of the ATA identity block. -/
structure Geometry.InRange (geometry : Geometry) : Prop where
  cylCount_pos : 1 ≤ geometry.cylCount
  headCount_pos : 1 ≤ geometry.headCount
  headCount_le : geometry.headCount ≤ 16
  sectorsPerTrack_pos : 1 ≤ geometry.sectorsPerTrack
  sectorsPerTrack_le : geometry.sectorsPerTrack ≤ 63

/-- The searches split the sector count without a remainder. -/
theorem searchedGeometry_sectors (sectorCount : Nat) :
    (searchedGeometry sectorCount).sectors = sectorCount := by
  obtain ⟨_, _, heads⟩ := largestFactor_spec sectorCount (show 0 < 16 by decide)
  obtain ⟨_, _, tracks⟩ :=
    largestFactor_spec (sectorCount / largestFactor sectorCount 16) (show 0 < 63 by decide)
  rw [Geometry.sectors, searchedGeometry]
  dsimp only
  rw [Nat.mul_right_comm, Nat.div_mul_cancel tracks, Nat.div_mul_cancel heads]

theorem searchedGeometry_inRange {sectorCount : Nat} (positive : 1 ≤ sectorCount) :
    (searchedGeometry sectorCount).InRange := by
  obtain ⟨heads, headsLe, _⟩ := largestFactor_spec sectorCount (show 0 < 16 by decide)
  obtain ⟨tracks, tracksLe, _⟩ :=
    largestFactor_spec (sectorCount / largestFactor sectorCount 16) (show 0 < 63 by decide)
  refine ⟨?_, heads, headsLe, tracks, tracksLe⟩
  have whole := searchedGeometry_sectors sectorCount
  by_contra none
  rw [Geometry.sectors, Nat.lt_one_iff.mp (Nat.not_le.mp none), Nat.zero_mul, Nat.zero_mul] at whole
  omega

theorem largeDisk_inRange : largeDisk.InRange := by constructor <;> decide

theorem hdfGeometry_large {sectorCount : Nat} (large : 16383 * 16 * 63 ≤ sectorCount) :
    hdfGeometry sectorCount = largeDisk := if_pos large

/-- Below the size of a large disk the searches are used unless they leave too many cylinders. -/
theorem hdfGeometry_small {sectorCount : Nat} (small : sectorCount < 16383 * 16 * 63) :
    hdfGeometry sectorCount =
      if (searchedGeometry sectorCount).cylCount > 16384 then largeDisk
      else searchedGeometry sectorCount := if_neg (Nat.not_le.mpr small)

theorem hdfGeometry_inRange {sectorCount : Nat} (positive : 1 ≤ sectorCount) :
    (hdfGeometry sectorCount).InRange ∧ (hdfGeometry sectorCount).cylCount ≤ 16384 := by
  by_cases small : sectorCount < 16383 * 16 * 63
  · rw [hdfGeometry_small small]
    split_ifs with many
    · exact ⟨largeDisk_inRange, by decide⟩
    · exact ⟨searchedGeometry_inRange positive, Nat.not_lt.mp many⟩
  · rw [hdfGeometry_large (Nat.not_lt.mp small)]
    exact ⟨largeDisk_inRange, by decide⟩

/-! ### The identity block -/

/-- The geometry that an identity block says: its words 1, 3 and 6. -/
def identityGeometry (header : Buffer) : Geometry where
  cylCount := header.loadWord (identityOffset + 2)
  headCount := header.loadWord (identityOffset + 6)
  sectorsPerTrack := header.loadWord (identityOffset + 12)

/-- The three words hold the geometry that was chosen. -/
theorem identityGeometry_hdfHeader {sectorCount : Nat} (positive : 1 ≤ sectorCount) :
    identityGeometry (hdfHeader sectorCount) = hdfGeometry sectorCount := by
  obtain ⟨range, cylinders⟩ := hdfGeometry_inRange positive
  obtain ⟨_, _, heads, _, tracks⟩ := range
  have low : hdfHeader sectorCount (identityOffset + 2) =
      UInt8.ofNat ((hdfGeometry sectorCount).cylCount % 2 ^ 8) := by
    simp [hdfHeader, identityOffset, Buffer.store, Buffer.storeList, Buffer.blit]
  have high : hdfHeader sectorCount (identityOffset + 2 + 1) =
      UInt8.ofNat ((hdfGeometry sectorCount).cylCount / 2 ^ 8) := by
    simp [hdfHeader, identityOffset, Buffer.store, Buffer.storeList, Buffer.blit]
  have head : hdfHeader sectorCount (identityOffset + 6) =
      UInt8.ofNat (hdfGeometry sectorCount).headCount := by
    simp [hdfHeader, identityOffset, Buffer.store, Buffer.storeList, Buffer.blit]
  have track : hdfHeader sectorCount (identityOffset + 12) =
      UInt8.ofNat (hdfGeometry sectorCount).sectorsPerTrack := by
    simp [hdfHeader, identityOffset, Buffer.store, Buffer.storeList, Buffer.blit]
  have zero {offset : Nat} (unset : offset = 7 ∨ offset = 13) :
      hdfHeader sectorCount (identityOffset + offset) = 0 := by
    rcases unset with rfl | rfl <;>
      simp [hdfHeader, identityOffset, Buffer.store, Buffer.storeList, Buffer.blit, Buffer.zero,
        hdfPreamble, hdfSignature]
  simp only [identityGeometry, Buffer.loadWord, low, high, head, track, Nat.add_assoc,
    zero (.inl rfl), zero (.inr rfl), UInt8.toNat_ofNat']
  clear low high head track zero
  generalize hdfGeometry sectorCount = geometry at *
  obtain ⟨cylCount, headCount, sectorsPerTrack⟩ := geometry
  dsimp only at *
  refine Geometry.mk.injEq .. ▸ ⟨?_, ?_, ?_⟩
  · omega
  · exact Nat.mod_eq_of_lt (by omega)
  · exact Nat.mod_eq_of_lt (by omega)

/-! ### What the header says of the disk -/

/-- What the geometry in a header says of a disk: its values are in range, and it describes no more
sectors than there are, and every one below the size of a large disk, unless the searches leave too
many cylinders. Then it is the geometry of a large disk. -/
structure GeometrySound (sectorCount : Nat) (geometry : Geometry) : Prop where
  inRange : geometry.InRange
  large : 16383 * 16 * 63 ≤ sectorCount → geometry.sectors ≤ sectorCount
  exact : sectorCount < 16383 * 16 * 63 → (searchedGeometry sectorCount).cylCount ≤ 16384 →
    geometry.sectors = sectorCount
  dummy : sectorCount < 16383 * 16 * 63 → 16384 < (searchedGeometry sectorCount).cylCount →
    geometry = largeDisk

section Written

variable {fuel : Nat} {sys : Schedule} {fd : Fd} {file written : ByteFile} {sectorCount : Nat}

theorem identityGeometry_written (positive : 1 ≤ sectorCount)
    (run : hdfWriteHeader fuel sys fd file sectorCount = some (0, written)) :
    identityGeometry written.byte = hdfGeometry sectorCount := by
  have byte {index : Nat} (below : index < hdfHeaderSize) :
      written.byte index = hdfHeader sectorCount index := by
    rw [hdfWriteHeader_spec run, ByteFile.byte_write,
      Buffer.blit_inside _ _ _ _ (Nat.zero_le _) (by omega), Nat.sub_zero]
  have word {place : Nat} (inside : place + 2 ≤ hdfHeaderSize) :
      written.byte.loadWord place = (hdfHeader sectorCount).loadWord place :=
    Buffer.loadWord_congr (byte (by omega)) (byte (by omega))
  rw [← identityGeometry_hdfHeader positive, identityGeometry, identityGeometry,
    word (by decide), word (by decide), word (by decide)]

/-- What the geometry in a header that was written says. -/
theorem hdfWriteHeader_geometry (positive : 1 ≤ sectorCount)
    (run : hdfWriteHeader fuel sys fd file sectorCount = some (0, written)) :
    GeometrySound sectorCount (identityGeometry written.byte) := by
  rw [identityGeometry_written positive run]
  refine ⟨(hdfGeometry_inRange positive).1, fun large => ?_, fun small few => ?_,
    fun small many => ?_⟩
  · rw [hdfGeometry_large large]
    exact large
  · rw [hdfGeometry_small small, if_neg (Nat.not_lt.mpr few), searchedGeometry_sectors]
  · rw [hdfGeometry_small small, if_pos many]

end Written

/-- A header is written with a kernel that serves. -/
theorem hdfWriteHeader_kernel (sectorCount : Nat) :
    hdfWriteHeader hdfHeaderSize Schedule.kernel { node := 0, writeable := true } ByteFile.empty
        sectorCount =
      some (0, ByteFile.empty.write 0 hdfHeaderSize (hdfHeader sectorCount)) :=
  hdfWriteHeader_steady Schedule.kernel_steady rfl ByteFile.empty sectorCount (Nat.le_refl _)

/-- The header of a disk of 20480 sectors. -/
theorem hdfWriteHeader_geometry_tenMiB :
    ∃ written, hdfWriteHeader hdfHeaderSize Schedule.kernel { node := 0, writeable := true }
        ByteFile.empty 20480 = some (0, written) ∧
      GeometrySound 20480 (identityGeometry written.byte) :=
  ⟨_, hdfWriteHeader_kernel 20480,
    hdfWriteHeader_geometry (by decide) (hdfWriteHeader_kernel 20480)⟩

/-- The header of a disk of 16411 sectors, a prime, describes sixteen million. -/
theorem not_sectors_le_prime :
    ¬ ∀ sectorCount written, 1 ≤ sectorCount →
      hdfWriteHeader hdfHeaderSize Schedule.kernel { node := 0, writeable := true } ByteFile.empty
        sectorCount = some (0, written) →
      (identityGeometry written.byte).sectors ≤ sectorCount := by
  intro always
  have few := always 16411 _ (by decide) (hdfWriteHeader_kernel 16411)
  rw [identityGeometry_written (by decide) (hdfWriteHeader_kernel 16411)] at few
  exact absurd few (by decide)

end Hdfmonkey
