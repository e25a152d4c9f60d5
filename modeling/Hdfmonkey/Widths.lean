/-
This file says when the products of sector numbers and sector sizes are exact.

They are formed in the type of their wider operand, and only then converted to `off_t` or
`size_t`. In the 64-bit build that is wide enough for every disk whose size is an `off_t`.
In the 32-bit build an image of 4 GiB is created with the low 32 bits of its length, and a
sector from there on is looked for at the start of the disk.
-/

import Hdfmonkey.Clone
import Hdfmonkey.DiskIo

namespace Hdfmonkey

/-- `total_size` of `cmd_clone`. -/
def cloneTotal (build : Build) (source : VolumeContainer) : Nat :=
  build.mul source.bytesPerSector source.sectorCount

theorem cmdClone_total (build : Build) (fuel : Nat) (sys : Nat → Schedule)
    {program command sourceFilename destinationFilename : FileName} {rest : List FileName}
    (buffer : Buffer) {files created : Files} {source destination : VolumeContainer}
    (opened : openVolume build sys files sourceFilename false = some source)
    (made : createVolume build fuel (sys 2) files destinationFilename source.sectorCount =
      some (some destination, created)) :
    cmdClone build fuel sys
        (program :: command :: sourceFilename :: destinationFilename :: rest) buffer files =
      cloneLoop fuel sys source destination (cloneTotal build source) fuel 3 0 buffer created := by
  simp only [cmdClone, opened, made, cloneTotal]

/-- Every product of a number of sectors and a sector size is the mathematical one: the lengths of
created images, the length that is cloned, and the positions of the sectors. -/
structure ExactSizes (build : Build) (bytesPerSector sectorCount : Nat) : Prop where
  raw : ∀ sys files pathname volume created,
    rawImageCreate build sys files pathname sectorCount = (some volume, created) →
      (created.file volume.fd.node).size = sectorCount * 512
  hdf : ∀ fuel sys files pathname volume created,
    hdfImageCreate build fuel sys files pathname sectorCount = some (some volume, created) →
      (created.file volume.fd.node).size = sectorCount * 512 + hdfHeaderSize
  total : ∀ source : VolumeContainer, source.bytesPerSector = bytesPerSector →
    source.sectorCount = sectorCount → cloneTotal build source = bytesPerSector * sectorCount
  position : ∀ (volume : VolumeContainer) (sector : Nat), volume.bytesPerSector = bytesPerSector →
    sector < sectorCount → diskPosition build volume sector = (sector * bytesPerSector : Nat)

section Exact

variable {build : Build} {sys : Schedule} {files created : Files} {pathname : FileName}
  {sectorCount bytesPerSector : Nat} {volume : VolumeContainer}

theorem rawImageCreate_size
    (run : rawImageCreate build sys files pathname sectorCount = (some volume, created)) :
    (created.file volume.fd.node).size = build.mul sectorCount 512 := by
  rw [rawImageCreate] at run
  split at run
  · simp at run
  · split at run
    · simp at run
    · rename_i node opened _ file extended
      obtain ⟨made, rfl⟩ := Prod.mk.inj run
      obtain rfl := Option.some.inj made
      cases result : sys 1 with
      | fail => simp [ftruncate, result] at extended
      | done limit =>
        simp only [ftruncate, result] at extended
        split_ifs at extended
        obtain rfl := Option.some.inj extended
        dsimp only
        rw [FileStore.file_put_self, ByteFile.size_truncate]

theorem hdfImageCreate_size {fuel : Nat}
    (run : hdfImageCreate build fuel sys files pathname sectorCount =
      some (some volume, created)) :
    (created.file volume.fd.node).size =
      max (build.add (build.mul sectorCount 512) hdfHeaderSize) hdfHeaderSize := by
  obtain ⟨length, rfl, _, rfl, rfl⟩ := hdfImageCreate_spec run
  have there : (hdfContainer (files.create pathname).1 true sectorCount).fd.node =
      (files.create pathname).1 := rfl
  rw [there, FileStore.file_put_self, ByteFile.size_write_pos _ _ _ (by decide),
    ByteFile.size_truncate, Nat.zero_add]

/-- The products are exact exactly if the longest of them, the length of an HDF image, fits the
word of the build. -/
theorem exactSizes_iff (sectors : bytesPerSector = 512 ∨ bytesPerSector = 256)
    (representable : sectorCount * 512 + hdfHeaderSize < 2 ^ 63) :
    ExactSizes build bytesPerSector sectorCount ↔
      build = .lp64 ∨ sectorCount * 512 + hdfHeaderSize < 2 ^ 32 := by
  constructor
  · intro exact
    cases build with
    | lp64 => exact .inl rfl
    | mingw =>
      right
      have word (first second : Nat) : Build.mingw.add first second < 2 ^ 32 :=
        Nat.mod_lt _ (by decide)
      have length := word (Build.mingw.mul sectorCount 512) hdfHeaderSize
      have run := @hdfImageCreate_runs .mingw hdfHeaderSize Schedule.kernel FileStore.empty []
        sectorCount Schedule.kernel_steady (Nat.le_refl _) (by omega)
      have size := exact.hdf _ _ _ _ _ _ run
      rw [hdfImageCreate_size run] at size
      have header : hdfHeaderSize < 2 ^ 32 := by decide
      omega
  · intro fits
    have room : sectorCount * 512 + hdfHeaderSize < build.word := by
      rcases fits with rfl | small
      · rw [Build.word]
        omega
      · exact Nat.lt_of_lt_of_le small build.le_word
    have header : 0 < hdfHeaderSize := by decide
    have short : sectorCount * 512 < build.word := Nat.lt_of_le_of_lt (Nat.le_add_right _ _) room
    have product : build.mul sectorCount 512 = sectorCount * 512 := build.mul_of_lt short
    have bytes : bytesPerSector * sectorCount ≤ sectorCount * 512 := by
      rcases sectors with rfl | rfl <;> omega
    refine ⟨fun _ _ _ _ _ run => ?_, fun _ _ _ _ _ _ run => ?_, fun source sector count => ?_,
      fun volume sector size inside => ?_⟩
    · rw [rawImageCreate_size run, product]
    · rw [hdfImageCreate_size run, product, build.add_of_lt room]
      omega
    · rw [cloneTotal, sector, count, build.mul_of_lt (Nat.lt_of_le_of_lt bytes short)]
    · have place : sector * bytesPerSector ≤ sectorCount * 512 := by
        rcases sectors with rfl | rfl <;> omega
      rw [diskPosition, size, build.mul_of_lt (Nat.lt_of_le_of_lt place short),
        offT_of_lt (by omega)]

end Exact

/-- An image of 2 GiB, in the 32-bit build. -/
theorem exactSizes_iff_twoGiB : ExactSizes .mingw 512 (2 ^ 22) :=
  (exactSizes_iff (.inl rfl) (by decide)).mpr (.inr (by decide))

/-- In the 32-bit build an image of 4 GiB is created as an empty file, and its last sector is looked
for at the end of the first 4 GiB less one sector of nothing. -/
theorem not_exactSizes_fourGiB : ¬ ExactSizes .mingw 512 (2 ^ 23) := by
  intro exact
  obtain ⟨volume, created, run⟩ : ∃ volume created,
      rawImageCreate .mingw Schedule.kernel FileStore.empty [] (2 ^ 23) =
        (some volume, created) := ⟨_, _, rfl⟩
  have size := exact.raw _ _ _ _ _ run
  rw [rawImageCreate_size run] at size
  exact absurd size (by decide)

end Hdfmonkey
