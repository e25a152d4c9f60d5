/-
This file says which ranges of an image volume can be reached through its `read`
and `write`. The 64-bit offset that `lseek` returns is stored in an `int` before
its sign is tested, so an offset whose bit 31 is set looks like a failed seek:
every other 2 GiB of a large image is out of reach. With a steady kernel that is
the only obstacle.
-/

import Hdfmonkey.ImageFile

namespace Hdfmonkey

/-- The range is reached: a read delivers it and, through a writeable descriptor, a write
replaces it and nothing else. -/
def Addressable (fuel : Nat) (sys : Schedule) (volume : VolumeContainer) (file : ByteFile)
    (position count : Nat) : Prop :=
  (∀ buf, imageFileRead sys volume file position buf count =
    some ((count : Int), buf.blit 0 count fun index =>
      file.byte (volume.dataOffset + position + index))) ∧
  (volume.fd.writeable = true → ∀ buf, imageFileWrite fuel sys volume file position buf count =
    some ((count : Int), file.write (volume.dataOffset + position) count buf))

/-- A range inside the file is reached exactly when bit 31 of its offset is clear. -/
theorem addressable_iff {fuel : Nat} {sys : Schedule} (steady : sys.Steady)
    (volume : VolumeContainer) (file : ByteFile) {position count : Nat}
    (small : count ≤ 2 ^ 20) (enough : count ≤ fuel)
    (inside : volume.dataOffset + position + count ≤ file.size) :
    Addressable fuel sys volume file position count ↔
      (volume.dataOffset + position) % 2 ^ 32 < 2 ^ 31 := by
  rw [Nat.add_comm volume.dataOffset position] at inside ⊢
  constructor
  · rintro ⟨read, _⟩
    by_contra set
    have short := read Buffer.zero
    rw [imageFileRead_truncated steady Buffer.zero (Nat.not_lt.mp set)] at short
    simp only [Option.some.injEq, Prod.mk.injEq] at short
    have negative := (int32_natCast_neg (position + volume.dataOffset)).mpr (Nat.not_lt.mp set)
    omega
  · intro clear
    unfold Addressable
    rw [Nat.add_comm volume.dataOffset position]
    exact ⟨fun buf => imageFileRead_steady steady buf (by omega) clear inside,
      fun mode buf => imageFileWrite_steady steady buf (by omega) enough mode clear⟩

/-- The last sector of a raw image of 2 MiB is reached. -/
theorem addressable_iff_small :
    Addressable 512 Schedule.kernel
        { fd := { node := 0, writeable := true }, dataOffset := 0, bytesPerSector := 512,
          sectorCount := 4096 }
        (ByteFile.empty.truncate (2 ^ 21)) (4095 * 512) 512 ↔
      (0 + 4095 * 512) % 2 ^ 32 < 2 ^ 31 :=
  addressable_iff Schedule.kernel_steady _ _ (by decide) (by decide) (by decide)

/-- In a raw image of 4 GiB the sector at 2 GiB is inside the volume and inside the file, and it
is not reached. -/
theorem not_addressable_rawImageCreate :
    ∃ volume files,
      rawImageCreate .lp64 Schedule.kernel FileStore.empty [] (2 ^ 23) = (some volume, files) ∧
      2 ^ 31 + 512 ≤ volume.bytesPerSector * volume.sectorCount ∧
      volume.dataOffset + 2 ^ 31 + 512 ≤ (files.file volume.fd.node).size ∧
      ¬ Addressable 512 Schedule.kernel volume (files.file volume.fd.node) (2 ^ 31) 512 := by
  refine ⟨_, _, rfl, by decide, by decide, ?_⟩
  rintro ⟨read, _⟩
  have short := read Buffer.zero
  rw [imageFileRead_truncated Schedule.kernel_steady Buffer.zero (by decide)] at short
  simp only [Option.some.injEq, Prod.mk.injEq] at short
  exact absurd short.1 (by decide)

end Hdfmonkey
