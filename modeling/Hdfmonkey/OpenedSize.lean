/-
This file says when an opened image shows no more disk than its file holds.

The sector count of an HDF image is a signed length divided by the sector size and stored
in an unsigned field. A file that ends before the place where its header puts the payload
has a negative length there, and shows almost every sector an `unsigned long` can count.
-/

import Hdfmonkey.CloneDisk

namespace Hdfmonkey

/-- The sectors of the volume lie inside the file. -/
def VolumeContainer.Within (volume : VolumeContainer) (file : ByteFile) : Prop :=
  volume.dataOffset + volume.sectorCount * volume.bytesPerSector ≤ file.size

/-- The payload starts inside the file, if the file is taken for an HDF image. -/
def PayloadInside (sys : Nat → Schedule) (files : Files) (pathname : FileName)
    (file : ByteFile) : Prop :=
  imageFileIsHdf (sys 0) files pathname = true → file.byte.loadWord 0x09 ≤ file.size

instance (volume : VolumeContainer) (file : ByteFile) : Decidable (volume.Within file) :=
  inferInstanceAs (Decidable (_ ≤ _))

section Within

variable {build : Build} {files : Files} {node : Nat} {writeable : Bool}

/-- The sectors behind a header are those that fit, on either build. -/
theorem hdfSectorCount_mul_le {size dataOffset bytesPerSector : Nat} (le : dataOffset ≤ size) :
    dataOffset + hdfSectorCount build size dataOffset bytesPerSector * bytesPerSector ≤ size := by
  have payload : ((size : Int) - dataOffset) = (size - dataOffset : Nat) := by omega
  rw [hdfSectorCount, payload, ← Int.ofNat_tdiv, ← Int.natCast_emod, Int.toNat_natCast]
  have fewer := Nat.mod_le ((size - dataOffset) / bytesPerSector) build.word
  have whole := Nat.mul_le_mul_right bytesPerSector fewer
  have fits := Nat.div_mul_le_self (size - dataOffset) bytesPerSector
  omega

theorem hdfVolume_within_iff :
    (hdfVolume build files node writeable).Within (files.file node) ↔
      (files.file node).byte.loadWord 0x09 ≤ (files.file node).size := by
  constructor
  · exact fun within => Nat.le_trans (Nat.le_add_right _ _) within
  · exact fun inside => hdfSectorCount_mul_le inside

theorem rawVolume_within : (rawVolume build files node writeable).Within (files.file node) := by
  have fewer := Nat.mod_le ((files.file node).size / 512) build.word
  rw [VolumeContainer.Within, rawVolume]
  dsimp only
  omega

end Within

/-- An image that was opened shows no more than its file holds exactly if its payload starts inside
the file. -/
theorem openVolume_within_iff {build : Build} {sys : Nat → Schedule} {files : Files}
    {pathname : FileName} {writeable : Bool} {volume : VolumeContainer} {node : Nat}
    (refers : files.node pathname = some node)
    (run : openVolume build sys files pathname writeable = some volume) :
    volume.Within (files.file node) ↔ PayloadInside sys files pathname (files.file node) := by
  rw [openVolume] at run
  rw [PayloadInside]
  split_ifs at run with hdf
  · obtain ⟨node', refers', _, _, rfl⟩ := hdfImageOpen_spec run
    obtain rfl := Option.some.inj (refers.symm.trans refers')
    rw [hdfVolume_within_iff, forall_prop_of_true hdf]
  · obtain ⟨node', refers', _, rfl⟩ := rawImageOpen_spec run
    obtain rfl := Option.some.inj (refers.symm.trans refers')
    exact iff_of_true rawVolume_within fun taken => absurd taken hdf

/-- A raw file of two sectors. -/
theorem openVolume_within_iff_twoSectors :
    ∃ volume, openVolume .lp64 (fun _ => Schedule.kernel)
        (oneFile (ByteFile.empty.truncate 1024)) [0x61] false = some volume ∧
      volume.Within (ByteFile.empty.truncate 1024) := by
  have opened : openVolume .lp64 (fun _ => Schedule.kernel)
      (oneFile (ByteFile.empty.truncate 1024)) [0x61] false =
      some (rawVolume .lp64 (oneFile (ByteFile.empty.truncate 1024)) 0 false) := by decide
  have unsigned : imageFileIsHdf Schedule.kernel (oneFile (ByteFile.empty.truncate 1024)) [0x61] =
      false := by decide
  have inside : PayloadInside (fun _ => Schedule.kernel) (oneFile (ByteFile.empty.truncate 1024))
      [0x61] ((oneFile (ByteFile.empty.truncate 1024)).file 0) :=
    fun taken => absurd (unsigned.symm.trans taken) Bool.false_ne_true
  exact ⟨_, opened, (openVolume_within_iff rfl opened).mpr inside⟩

/-- A file that is the first eleven bytes of an HDF header shows disk that it does not hold. -/
theorem openVolume_not_within_preamble :
    ¬ ∀ files node volume, files.node [0x61] = some node →
      openVolume .lp64 (fun _ => Schedule.kernel) files [0x61] false = some volume →
      volume.Within (files.file node) := by
  intro always
  have opened : openVolume .lp64 (fun _ => Schedule.kernel)
      (oneFile (ByteFile.ofBuffer 11 (hdfHeader 1))) [0x61] false =
      some {
        fd := { node := 0, writeable := false }
        dataOffset := 534
        bytesPerSector := 512
        sectorCount := 2 ^ 64 - 1 } := by decide
  exact absurd (always _ 0 _ rfl opened) (by decide)

end Hdfmonkey
