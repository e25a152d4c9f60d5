/-
This file says when the disk functions keep the sectors that the FAT driver is built for.

The driver has one sector size, 512 bytes, and passes buffers of that many bytes for every
sector. The law it relies on gives each sector a place of its own in the file, from which
a read that succeeds fills the whole buffer and to which a write that succeeds stores it.
A volume with halved sectors breaks it, and so does a position that is reduced to the word
of the build.
-/

import Hdfmonkey.CloneDisk
import Hdfmonkey.DiskIo

namespace Hdfmonkey

/-- A transfer that the driver may ask for, of sectors below a limit. -/
def Transfers (limit sector count : Nat) : Prop :=
  1 ≤ count ∧ count ≤ 255 ∧ sector + count ≤ limit

/-- The sectors below a limit have places of their own in the file behind a volume, of 512 bytes
each: what a read delivers is there, what a write was given is there afterwards, and nothing else
changes. -/
structure SectorLaw (build : Build) (volume : VolumeContainer) (limit : Nat)
    (place : Nat → Nat) : Prop where
  apart : ∀ sector other, sector < limit → other < limit → sector ≠ other →
    ∀ index index', index < sectorSize → index' < sectorSize →
      place sector + index ≠ place other + index'
  read : ∀ machine drive buff sector count filled after, machine.build = build →
    machine.volumeContainers drive = some volume → Transfers limit sector count →
    (diskRead drive buff sector count).Outcome machine (.ok, filled) after →
      ∀ index, index < count * sectorSize → filled index =
        (machine.files.file volume.fd.node).byte
          (place (sector + index / sectorSize) + index % sectorSize)
  write : ∀ machine drive buff sector count after, machine.build = build →
    machine.volumeContainers drive = some volume → Transfers limit sector count →
    (diskWrite drive buff sector count).Outcome machine .ok after →
      ∀ index, index < count * sectorSize →
        (after.files.file volume.fd.node).byte
          (place (sector + index / sectorSize) + index % sectorSize) = buff index
  kept : ∀ machine drive buff sector count result after, machine.build = build →
    machine.volumeContainers drive = some volume → Transfers limit sector count →
    (diskWrite drive buff sector count).Outcome machine result after →
      ∀ other, other < limit → (other < sector ∨ sector + count ≤ other) →
        ∀ index, index < sectorSize → (after.files.file volume.fd.node).byte (place other + index) =
          (machine.files.file volume.fd.node).byte (place other + index)
  reread : ∀ machine drive buff buff' sector count filled middle after, machine.build = build →
    machine.volumeContainers drive = some volume → Transfers limit sector count →
    (diskWrite drive buff sector count).Outcome machine .ok middle →
    (diskRead drive buff' sector count).Outcome middle (.ok, filled) after →
      ∀ index, index < count * sectorSize → filled index = buff index

/-- The disk functions honour the sector size of the driver. -/
def HonoursSectors (build : Build) (volume : VolumeContainer) (limit : Nat) : Prop :=
  ∃ place, SectorLaw build volume limit place

/-! ### Full sectors -/

section Full

variable {build : Build} {volume : VolumeContainer} {limit sector count : Nat}
  {machine after : Machine} {drive : Nat} {buff filled : Buffer}

theorem diskPosition_exact (full : volume.bytesPerSector = sectorSize)
    (places : limit * sectorSize ≤ 2 ^ 63) (room : limit * sectorSize ≤ build.word)
    (inside : sector < limit) :
    diskPosition build volume sector = (sector * sectorSize : Nat) := by
  have below : sector * sectorSize < limit * sectorSize :=
    Nat.mul_lt_mul_of_pos_right inside (by decide)
  rw [diskPosition, full, build.mul_of_lt (Nat.lt_of_lt_of_le below room),
    offT_of_lt (Nat.lt_of_lt_of_le below places)]

/-- Where a byte of a run of sectors lies. -/
theorem sector_index (sector index : Nat) :
    volume.dataOffset + (sector + index / sectorSize) * sectorSize + index % sectorSize =
      sector * sectorSize + volume.dataOffset + index := by
  rw [sectorSize]
  omega

theorem diskRead_full (full : volume.bytesPerSector = sectorSize) (few : count ≤ 255)
    (mapped : machine.volumeContainers drive = some volume)
    (position : diskPosition machine.build volume sector = (sector * sectorSize : Nat))
    (run : (diskRead drive buff sector count).Outcome machine (.ok, filled) after) :
    ∀ index, index < count * sectorSize → filled index =
      (machine.files.file volume.fd.node).byte
        (sector * sectorSize + volume.dataOffset + index) := by
  obtain ⟨moved, read, succeeded, _⟩ := (diskRead_iff mapped).mp run
  rw [position, full] at read
  rw [full] at succeeded
  have short : count * sectorSize < 2 ^ 31 := by
    rw [sectorSize]
    omega
  intro index inside
  rcases imageFileRead_spec short read with ⟨_, _, _, rfl⟩ | ⟨negative, _⟩
  · rw [Buffer.blit_inside _ _ _ _ (Nat.zero_le _) (by omega), Nat.sub_zero]
  · rw [if_neg (by omega)] at succeeded
    exact absurd succeeded (by decide)

/-- A write stores its run, or a part of it if it fails. -/
theorem diskWrite_full {result : DResult} (full : volume.bytesPerSector = sectorSize)
    (few : count ≤ 255) (mapped : machine.volumeContainers drive = some volume)
    (position : diskPosition machine.build volume sector = (sector * sectorSize : Nat))
    (run : (diskWrite drive buff sector count).Outcome machine result after) :
    ∃ part ≤ count * sectorSize, (result = .ok → part = count * sectorSize) ∧
      after.files.file volume.fd.node = (machine.files.file volume.fd.node).write
        (sector * sectorSize + volume.dataOffset) part buff := by
  obtain ⟨moved, file, write, rfl, rfl⟩ := (diskWrite_iff mapped).mp run
  rw [position, full] at write
  have short : count * sectorSize < 2 ^ 31 := by
    rw [sectorSize]
    omega
  dsimp only
  rw [FileStore.file_put_self, full]
  rcases imageFileWrite_spec short write with ⟨_, _, _, rfl⟩ | ⟨negative, part, le, rfl⟩
  · exact ⟨_, Nat.le_refl _, fun _ => rfl, rfl⟩
  · refine ⟨part, le, fun succeeded => ?_, rfl⟩
    rw [if_neg (by omega)] at succeeded
    exact absurd succeeded (by decide)

/-- Full sectors lie one behind the other. -/
theorem sectorLaw_full (full : volume.bytesPerSector = sectorSize)
    (places : limit * sectorSize ≤ 2 ^ 63) (room : limit * sectorSize ≤ build.word) :
    SectorLaw build volume limit fun sector => volume.dataOffset + sector * sectorSize := by
  have position {machine : Machine} {sector count : Nat} (same : machine.build = build)
      (transfers : Transfers limit sector count) :
      diskPosition machine.build volume sector = (sector * sectorSize : Nat) := by
    obtain ⟨positive, _, inside⟩ := transfers
    exact same ▸ diskPosition_exact full places room (by omega)
  have read {machine : Machine} {drive sector count : Nat} {buff filled : Buffer}
      {after : Machine} (same : machine.build = build)
      (mapped : machine.volumeContainers drive = some volume)
      (transfers : Transfers limit sector count)
      (run : (diskRead drive buff sector count).Outcome machine (.ok, filled) after) :=
    diskRead_full full transfers.2.1 mapped (position same transfers) run
  have write {machine : Machine} {drive sector count : Nat} {buff : Buffer} {after : Machine}
      {result : DResult} (same : machine.build = build)
      (mapped : machine.volumeContainers drive = some volume)
      (transfers : Transfers limit sector count)
      (run : (diskWrite drive buff sector count).Outcome machine result after) :=
    diskWrite_full full transfers.2.1 mapped (position same transfers) run
  constructor
  · intro sector other _ _ different index index' inside inside' meet
    rw [sectorSize] at inside inside' meet
    omega
  · intro machine drive buff sector count filled after same mapped transfers run index inside
    rw [sector_index, read same mapped transfers run index inside]
  · intro machine drive buff sector count after same mapped transfers run index inside
    obtain ⟨part, _, whole, stored⟩ := write same mapped transfers run
    rw [sector_index, stored, whole rfl, ByteFile.byte_write,
      Buffer.blit_inside _ _ _ _ (Nat.le_add_right _ _) (by omega), Nat.add_sub_cancel_left]
  · intro machine drive buff sector count result after same mapped transfers run other _ outside
      index inside
    obtain ⟨part, le, _, stored⟩ := write same mapped transfers run
    rw [stored, ByteFile.byte_write]
    rw [sectorSize] at inside le ⊢
    rcases outside with below | above
    · exact Buffer.blit_below _ _ _ _ (by omega)
    · exact Buffer.blit_above _ _ _ _ (by omega)
  · intro machine drive buff buff' sector count filled middle after same mapped transfers wrote run
      index inside
    obtain ⟨part, _, whole, stored⟩ := write same mapped transfers wrote
    obtain ⟨_, _, _, _, becomes⟩ := (diskWrite_iff mapped).mp wrote
    have between : middle.volumeContainers drive = some volume := becomes ▸ mapped
    have kept : middle.build = build := becomes ▸ same
    rw [read kept between transfers run index inside, stored, whole rfl, ByteFile.byte_write,
      Buffer.blit_inside _ _ _ _ (Nat.le_add_right _ _) (by omega), Nat.add_sub_cancel_left]

end Full

/-! ### A machine that shows a byte -/

/-- A machine with a volume on drive 0 over a file, and a kernel that serves. -/
def diskMachine (build : Build) (volume : VolumeContainer) (file : ByteFile) : Machine where
  build
  fuel := 255 * sectorSize
  sys _ := Schedule.kernel
  transfers := 0
  files := FileStore.empty.put volume.fd.node file
  volumeContainers drive := if drive = 0 then some volume else none
  fatFs _ := none
  fsid := 0
  lfnBuf _ := 0
  time _ := 0
  ticks := 0
  written := []

/-- A sector whose position is zero is read from the start of the payload. -/
theorem diskRead_diskMachine {build : Build} {volume : VolumeContainer} (file : ByteFile)
    {sector : Nat} (buff : Buffer) (image : volume.OfImage)
    (position : diskPosition build volume sector = 0)
    (long : volume.dataOffset + volume.bytesPerSector ≤ file.size) :
    ∃ after, (diskRead 0 buff sector 1).Outcome (diskMachine build volume file)
      (.ok, buff.blit 0 volume.bytesPerSector fun index => file.byte (volume.dataOffset + index))
      after := by
  have near := image.near
  have short : volume.bytesPerSector < 2 ^ 31 := by
    rcases image.sectors with full | half <;> omega
  have there : (diskMachine build volume file).files.file volume.fd.node = file :=
    FileStore.file_put_self _ _ _
  have start : diskPosition (diskMachine build volume file).build volume sector = (0 : Nat) :=
    position
  have steady : ((diskMachine build volume file).sys 0).Steady := Schedule.kernel_steady
  refine ⟨_, (diskRead_iff rfl).mpr ⟨volume.bytesPerSector, ?_, by rw [Nat.one_mul, if_pos rfl],
    rfl⟩⟩
  rw [there, start, Nat.one_mul]
  have read := imageFileRead_steady steady buff short
    (show (0 + volume.dataOffset) % 2 ^ 32 < 2 ^ 31 by omega)
    (show 0 + volume.dataOffset + volume.bytesPerSector ≤ file.size by omega)
  rwa [Nat.zero_add] at read

/-- A file that is zero but for the first byte of the payload. -/
def markedFile (volume : VolumeContainer) : ByteFile :=
  (ByteFile.empty.truncate (volume.dataOffset + sectorSize)).write volume.dataOffset 1 fun _ => 1

theorem markedFile_byte (volume : VolumeContainer) (index : Nat) :
    (markedFile volume).byte index = if index = volume.dataOffset then 1 else 0 := by
  rw [markedFile, ByteFile.byte_write, Buffer.blit, ByteFile.byte_truncate_empty]
  exact if_congr (by omega) rfl rfl

theorem markedFile_size (volume : VolumeContainer) :
    (markedFile volume).size = volume.dataOffset + sectorSize :=
  ByteFile.size_write_inside _ _
    (by rw [ByteFile.size_truncate, sectorSize]; omega)

section Broken

variable {build : Build} {volume : VolumeContainer} {limit sector : Nat} {place : Nat → Nat}

/-- Whatever place the law gives to a sector whose position is zero, it is the start of the
payload. -/
theorem SectorLaw.place_zero (law : SectorLaw build volume limit place) (image : volume.OfImage)
    (inside : sector < limit) (position : diskPosition build volume sector = 0) :
    place sector = volume.dataOffset := by
  have size := markedFile_size volume
  have long : volume.dataOffset + volume.bytesPerSector ≤ (markedFile volume).size := by
    rw [size, sectorSize]
    rcases image.sectors with full | half <;> omega
  obtain ⟨after, run⟩ := diskRead_diskMachine (markedFile volume) Buffer.zero image position long
  have first := law.read _ _ _ _ _ _ _ rfl rfl ⟨Nat.le_refl 1, by decide, inside⟩ run 0 (by decide)
  have there : (diskMachine build volume (markedFile volume)).files.file volume.fd.node =
      markedFile volume := FileStore.file_put_self _ _ _
  have positive : 0 < volume.bytesPerSector := by
    rcases image.sectors with full | half <;> omega
  rw [Buffer.blit_inside _ _ _ _ (Nat.le_refl _) (by omega), there, markedFile_byte,
    markedFile_byte, if_pos (by omega)] at first
  by_contra different
  exact absurd (first.trans (if_neg different)) (by decide)

/-- Halved sectors break the law: the second half of a buffer is not filled. -/
theorem SectorLaw.full (law : SectorLaw build volume limit place) (image : volume.OfImage)
    (positive : 0 < limit) (position : diskPosition build volume 0 = 0) :
    volume.bytesPerSector = sectorSize := by
  refine image.sectors.resolve_right fun half => ?_
  have long : volume.dataOffset + volume.bytesPerSector ≤ (markedFile volume).size := by
    rw [markedFile_size, half, sectorSize]
    omega
  have stale (value : UInt8) : value = (markedFile volume).byte (place 0 + 256) := by
    obtain ⟨after, run⟩ := diskRead_diskMachine (markedFile volume) (fun _ => value) image position
      long
    have last := law.read _ _ _ _ _ _ _ rfl rfl ⟨Nat.le_refl 1, by decide, positive⟩ run 256
      (by decide)
    have there : (diskMachine build volume (markedFile volume)).files.file volume.fd.node =
        markedFile volume := FileStore.file_put_self _ _ _
    rwa [Buffer.blit_above _ _ _ _ (by omega), there] at last
  exact absurd ((stale 0).trans (stale 1).symm) (by decide)

end Broken

/-- The disk functions honour the sectors below a limit exactly if the volume has full sectors and
the position of none is reduced to the word of the build. -/
theorem honoursSectors_iff {build : Build} {volume : VolumeContainer} {limit : Nat}
    (image : volume.OfImage) (positive : 0 < limit) (places : limit * sectorSize ≤ 2 ^ 63) :
    HonoursSectors build volume limit ↔
      volume.bytesPerSector = sectorSize ∧ limit * sectorSize ≤ build.word := by
  constructor
  · rintro ⟨place, law⟩
    have start : diskPosition build volume 0 = 0 := by
      rw [diskPosition, Build.mul, Nat.zero_mul, Nat.zero_mod]
      rfl
    have full := law.full image positive start
    refine ⟨full, ?_⟩
    by_contra wide
    cases build with
    | lp64 => exact wide (Nat.le_trans places (by decide))
    | mingw =>
      -- the sector at 4 GiB is taken for the first one
      have beyond : 2 ^ 23 < limit := by
        rw [Build.word, sectorSize] at wide
        omega
      have wrapped : diskPosition .mingw volume (2 ^ 23) = 0 := by
        rw [diskPosition, full]
        decide
      refine law.apart 0 (2 ^ 23) positive beyond (by decide) 0 0 (by decide) (by decide) ?_
      rw [law.place_zero image positive start, law.place_zero image beyond wrapped]
  · rintro ⟨full, room⟩
    exact ⟨_, sectorLaw_full full places room⟩

/-- The first 4 GiB of a raw image in the 32-bit build. -/
theorem honoursSectors_iff_raw :
    HonoursSectors .mingw (rawVolume .mingw (oneFile ByteFile.empty) 0 true) (2 ^ 23) :=
  (honoursSectors_iff ⟨by decide, .inl rfl⟩ (by decide) (by decide)).mpr ⟨rfl, by decide⟩

/-- An HDF image with halved sectors can be opened, and its sectors are not honoured. -/
theorem not_honoursSectors_halved :
    ∃ volume, openVolume .lp64 (fun _ => Schedule.kernel)
        (oneFile (ByteFile.ofBuffer (534 + 256) ((hdfHeader 1).store 0x08 0x01))) [0x61] true =
          some volume ∧
      ¬ HonoursSectors .lp64 volume 1 := by
  have opened : openVolume .lp64 (fun _ => Schedule.kernel)
      (oneFile (ByteFile.ofBuffer (534 + 256) ((hdfHeader 1).store 0x08 0x01))) [0x61] true =
      some {
        fd := { node := 0, writeable := true }
        dataOffset := 534
        bytesPerSector := 256
        sectorCount := 1 } := by decide
  refine ⟨_, opened, ?_⟩
  rintro ⟨place, law⟩
  exact absurd (law.full (openVolume_ofImage opened) Nat.one_pos (by decide)) (by decide)

end Hdfmonkey
