/-
This file models `diskio.c`, the sectors the FAT driver reads and writes, and the
machine they live in: the local files, the volume behind each drive, the file system
object of each drive, the buffer for long names, and what the kernel and the clock will
do next.

A sector is `bytes_per_sector` bytes of the volume, but the driver is built for
sectors of 512 bytes: on a volume with halved sectors the second half of the buffer
it passes is neither filled nor stored.

The machine also lists the calls of `disk_write` with their results, newest first. A
call that does not return is in the list as one that failed. Nothing reads the list;
it is there to say which sectors a command has written.
-/

import Hdfmonkey.ImageFile
import Hdfmonkey.Program

namespace Hdfmonkey

/-- `FRESULT`. -/
inductive FResult where
  | ok
  | diskErr
  | intErr
  | notReady
  | noFile
  | noPath
  | invalidName
  | denied
  | exist
  | invalidObject
  | writeProtected
  | invalidDrive
  | notEnabled
  | noFilesystem
  | mkfsAborted
  | timeout
  deriving DecidableEq, Repr

/-- The FAT sub-types, `FS_FAT12`, `FS_FAT16` and `FS_FAT32`. Zero, for "not mounted" or "choose
one", is the absence of a type. -/
inductive FatType where
  | fat12
  | fat16
  | fat32
  deriving DecidableEq, Repr

/-- `FATFS`, the file system object of a drive. -/
structure Fatfs where
  fsType : Option FatType
  drive : Nat
  csize : Nat
  nFats : Nat
  wflag : Bool
  fsiFlag : Bool
  id : Nat
  nRootdir : Nat
  lastClust : Nat
  freeClust : Nat
  fsiSector : Nat
  sectsFat : Nat
  maxClust : Nat
  fatbase : Nat
  dirbase : Nat
  database : Nat
  winsect : Nat
  win : Buffer

/-- `DRESULT`: success or `RES_PARERR`, the only error the disk functions return. -/
inductive DResult where
  | ok
  | parErr
  deriving DecidableEq, Repr

/-- A call of `disk_write` and its result. -/
structure DiskWrite where
  drive : Nat
  sector : Nat
  count : Nat
  result : DResult
  deriving DecidableEq, Repr

/-- Everything a run of the program can see and change. -/
structure Machine where
  build : Build
  fuel : Nat
  sys : Nat → Schedule
  transfers : Nat
  files : Files
  volumeContainers : Nat → Option VolumeContainer
  fatFs : Nat → Option Fatfs
  fsid : Nat
  lfnBuf : Nat → Nat
  time : Nat → Nat
  ticks : Nat
  written : List DiskWrite

/-- Put a file system object into `FatFs`. -/
def Machine.register (machine : Machine) (vol : Nat) (fs : Option Fatfs) : Machine :=
  { machine with fatFs := Function.update machine.fatFs vol fs }

@[simp]
theorem Machine.fatFs_register (machine : Machine) (vol : Nat) (fs : Option Fatfs) :
    (machine.register vol fs).fatFs vol = fs := Function.update_self _ _ _

/-- The sector size the driver is built for, `SS(fs)`. -/
def sectorSize : Nat := 512

/-- `_DRIVES`. -/
def drives : Nat := 2

/-! ### The disk functions -/

/-- `disk_map`. -/
def diskMap (drive : Nat) (volume : VolumeContainer) (machine : Machine) : Machine :=
  { machine with volumeContainers := Function.update machine.volumeContainers drive (some volume) }

/-- `disk_read`: the result and the buffer. A drive that is not mapped has no volume to call. -/
def diskRead (drive : Nat) (buff : Buffer) (sector count : Nat) :
    Program Machine (DResult × Buffer) := fun machine =>
  match machine.volumeContainers drive with
  | none => .error machine
  | some volume =>
    let sizeRequested := count * volume.bytesPerSector
    match imageFileRead (machine.sys machine.transfers) volume
        (machine.files.file volume.fd.node)
        (offT (machine.build.mul sector volume.bytesPerSector)) buff
        sizeRequested with
    | none => .error machine
    | some (moved, filled) =>
      .ok ((if moved = sizeRequested then .ok else .parErr, filled),
        { machine with transfers := machine.transfers + 1 })

/-- `disk_write`. -/
def diskWrite (drive : Nat) (buff : Buffer) (sector count : Nat) : Program Machine DResult :=
  fun machine =>
  let stuck := { machine with
    written := { drive, sector, count, result := .parErr } :: machine.written }
  match machine.volumeContainers drive with
  | none => .error stuck
  | some volume =>
    let sizeRequested := count * volume.bytesPerSector
    match imageFileWrite machine.fuel (machine.sys machine.transfers) volume
        (machine.files.file volume.fd.node)
        (offT (machine.build.mul sector volume.bytesPerSector)) buff
        sizeRequested with
    | none => .error stuck
    | some (moved, file) =>
      let result := if moved = sizeRequested then .ok else .parErr
      .ok (result, { machine with
        transfers := machine.transfers + 1
        files := machine.files.put volume.fd.node file
        written := { drive, sector, count, result } :: machine.written })

/-- `disk_ioctl` with `GET_SECTOR_COUNT`. -/
def diskSectorCount (drive : Nat) : Program Machine Nat := fun machine =>
  match machine.volumeContainers drive with
  | none => .error machine
  | some volume => .ok (volume.sectorCount, machine)

/-- `disk_ioctl` with `GET_BLOCK_SIZE`. -/
def diskBlockSize : Nat := 1

/-- `get_fattime`. -/
def getFattime : Program Machine Nat := fun machine =>
  .ok (machine.time machine.ticks, { machine with ticks := machine.ticks + 1 })

/-- The position that `disk_read` and `disk_write` hand to the volume. -/
def diskPosition (build : Build) (volume : VolumeContainer) (sector : Nat) : Int :=
  offT (build.mul sector volume.bytesPerSector)

section Calls

variable {machine after : Machine} {drive sector count : Nat} {volume : VolumeContainer}
  {buff filled : Buffer} {result : DResult}

/-- A read of a mapped drive is a read of its volume. -/
theorem diskRead_iff (mapped : machine.volumeContainers drive = some volume) :
    (diskRead drive buff sector count).Outcome machine (result, filled) after ↔
      ∃ moved, imageFileRead (machine.sys machine.transfers) volume
          (machine.files.file volume.fd.node) (diskPosition machine.build volume sector) buff
          (count * volume.bytesPerSector) = some (moved, filled) ∧
        result = (if moved = (count * volume.bytesPerSector : Nat) then .ok else .parErr) ∧
        after = { machine with transfers := machine.transfers + 1 } := by
  unfold Program.Outcome diskRead
  simp only [mapped]
  rw [← diskPosition]
  split
  · rename_i stuck
    simp [stuck]
  · rename_i moved bytes read
    simp only [read, Except.ok.injEq, Option.some.injEq, Prod.mk.injEq]
    constructor
    · rintro ⟨⟨rfl, rfl⟩, rfl⟩
      exact ⟨moved, ⟨rfl, rfl⟩, rfl, rfl⟩
    · rintro ⟨_, ⟨rfl, rfl⟩, rfl, rfl⟩
      exact ⟨⟨rfl, rfl⟩, rfl⟩

/-- A write to a mapped drive is a write to its volume. -/
theorem diskWrite_iff (mapped : machine.volumeContainers drive = some volume) :
    (diskWrite drive buff sector count).Outcome machine result after ↔
      ∃ moved file, imageFileWrite machine.fuel (machine.sys machine.transfers) volume
          (machine.files.file volume.fd.node) (diskPosition machine.build volume sector) buff
          (count * volume.bytesPerSector) = some (moved, file) ∧
        result = (if moved = (count * volume.bytesPerSector : Nat) then .ok else .parErr) ∧
        after = { machine with
          transfers := machine.transfers + 1
          files := machine.files.put volume.fd.node file
          written := { drive, sector, count, result } :: machine.written } := by
  unfold Program.Outcome diskWrite
  simp only [mapped]
  rw [← diskPosition]
  split
  · rename_i stuck
    simp [stuck]
  · rename_i moved file write
    simp only [write, Except.ok.injEq, Option.some.injEq, Prod.mk.injEq]
    constructor
    · rintro ⟨rfl, rfl⟩
      exact ⟨moved, file, ⟨rfl, rfl⟩, rfl, rfl⟩
    · rintro ⟨_, _, ⟨rfl, rfl⟩, rfl, rfl⟩
      exact ⟨rfl, rfl⟩

end Calls

/-! ### Transfers of one sector -/

/-- The machine after some bytes of one sector were written. -/
def Machine.wrote (machine : Machine) (drive : Nat) (volume : VolumeContainer) (sector : Nat)
    (buff : Buffer) (part : Nat) (result : DResult) : Machine :=
  { machine with
    transfers := machine.transfers + 1
    files := machine.files.put volume.fd.node
      ((machine.files.file volume.fd.node).write
        (sector * volume.bytesPerSector + volume.dataOffset) part buff)
    written := { drive, sector, count := 1, result } :: machine.written }

/-- A bound below which the place of a sector in the image file fits an `int`, however long the
header in front of the volume is. The header is shorter than `2 ^ 7` sectors. -/
def reach : Nat := 2 ^ 22 - 2 ^ 7

theorem reach_pos : 0 < reach := by decide

section Transfer

variable {machine : Machine} {drive : Nat} {volume : VolumeContainer} {buff : Buffer}
  {sector : Nat}

/-- The place of a sector within reach does not wrap around. -/
theorem sector_place (build : Build) (small : volume.bytesPerSector ≤ sectorSize)
    (near : sector < reach) :
    offT (build.mul sector volume.bytesPerSector) =
      (sector * volume.bytesPerSector : Nat) := by
  have product : sector * volume.bytesPerSector ≤ sector * sectorSize :=
    Nat.mul_le_mul_left _ small
  have word := build.le_word
  rw [sectorSize] at product
  rw [reach] at near
  rw [build.mul_of_lt (by omega), offT_of_lt (by omega)]

/-- A write of one sector that ends has written it whole, or an initial part of it and failed. -/
theorem diskWrite_outcome {result : DResult} {after : Machine}
    (mapped : machine.volumeContainers drive = some volume)
    (small : volume.bytesPerSector ≤ sectorSize) (near : sector < reach)
    (run : (diskWrite drive buff sector 1).Outcome machine result after) :
    ∃ part ≤ volume.bytesPerSector, (result = .ok → part = volume.bytesPerSector) ∧
      after = machine.wrote drive volume sector buff part result := by
  have short : volume.bytesPerSector < 2 ^ 31 := Nat.lt_of_le_of_lt small (by decide)
  unfold Program.Outcome diskWrite at run
  simp only [mapped, sector_place machine.build small near, Nat.one_mul] at run
  split at run
  · exact absurd run (by simp)
  · rename_i moved file write
    obtain ⟨rfl, rfl⟩ := Prod.mk.inj (Except.ok.inj run)
    rcases imageFileWrite_spec short write with ⟨rfl, _, _, rfl⟩ | ⟨negative, part, le, rfl⟩
    · exact ⟨_, Nat.le_refl _, fun _ => rfl, rfl⟩
    · refine ⟨part, le, fun succeeded => ?_, rfl⟩
      rw [if_neg (by omega)] at succeeded
      exact absurd succeeded (by decide)

/-- A read never touches the buffer behind the bytes it asks for. -/
theorem diskRead_behind {count : Nat} {filled : Buffer} {result : DResult} {after : Machine}
    (mapped : machine.volumeContainers drive = some volume)
    (sectors : count * volume.bytesPerSector < 2 ^ 31)
    (run : (diskRead drive buff sector count).Outcome machine (result, filled) after)
    (index : Nat) (behind : count * volume.bytesPerSector ≤ index) :
    filled index = buff index := by
  unfold Program.Outcome diskRead at run
  simp only [mapped] at run
  split at run
  · exact absurd run (by simp)
  · rename_i moved bytes read
    obtain ⟨⟨_, rfl⟩, _⟩ := Prod.mk.inj (Except.ok.inj run) |>.imp_left Prod.mk.inj
    exact imageFileRead_behind sectors read index behind

end Transfer

/-! ### A drive that serves -/

/-- The drive is mapped to a volume, and the kernel serves every call to come. -/
structure Machine.Reads (machine : Machine) (drive : Nat) (volume : VolumeContainer) : Prop where
  mapped : machine.volumeContainers drive = some volume
  near : volume.dataOffset < 2 ^ 16
  small : volume.bytesPerSector ≤ sectorSize
  steady : ∀ call, machine.transfers ≤ call → (machine.sys call).Steady

/-- The volume may also be written, and there is fuel for a sector. -/
structure Machine.Serves (machine : Machine) (drive : Nat) (volume : VolumeContainer) : Prop
    extends machine.Reads drive volume where
  writeable : volume.fd.writeable = true
  enough : sectorSize ≤ machine.fuel

/-- A sector of a volume with full sectors holds the given bytes. -/
structure Machine.Holds (machine : Machine) (volume : VolumeContainer) (sector : Nat)
    (bytes : Buffer) : Prop where
  inside : sector * sectorSize + volume.dataOffset + sectorSize ≤
    (machine.files.file volume.fd.node).size
  byte : ∀ index, index < sectorSize →
    (machine.files.file volume.fd.node).byte (sector * sectorSize + volume.dataOffset + index) =
      bytes index

section Serve

variable {machine : Machine} {drive : Nat} {volume : VolumeContainer} {buff : Buffer}
  {sector : Nat}

theorem Machine.Serves.wrote {part : Nat} {result : DResult}
    (serves : machine.Serves drive volume) :
    (machine.wrote drive volume sector buff part result).Serves drive volume where
  mapped := serves.mapped
  writeable := serves.writeable
  near := serves.near
  small := serves.small
  steady call later := serves.steady call (Nat.le_of_succ_le later)
  enough := serves.enough

/-- A sector within reach is written. -/
theorem diskWrite_serves (serves : machine.Serves drive volume) (near : sector < reach) :
    (diskWrite drive buff sector 1).Outcome machine .ok
      (machine.wrote drive volume sector buff volume.bytesPerSector .ok) := by
  have small := serves.small
  have enough := serves.enough
  have displaced := serves.near
  have product : sector * volume.bytesPerSector ≤ sector * sectorSize :=
    Nat.mul_le_mul_left _ small
  have clear : (sector * volume.bytesPerSector + volume.dataOffset) % 2 ^ 32 < 2 ^ 31 := by
    rw [reach] at near
    rw [sectorSize] at product
    omega
  unfold Program.Outcome diskWrite
  simp only [serves.mapped, sector_place machine.build small near, Nat.one_mul,
    imageFileWrite_steady (serves.steady _ (Nat.le_refl _)) buff
      (Nat.lt_of_le_of_lt small (by decide)) (Nat.le_trans small enough) serves.writeable clear,
    if_true]
  rfl

/-- A sector that was written whole holds what was written. -/
theorem holds_wrote_self (full : volume.bytesPerSector = sectorSize) (result : DResult) :
    (machine.wrote drive volume sector buff volume.bytesPerSector result).Holds volume sector
      buff := by
  have file : ((machine.wrote drive volume sector buff volume.bytesPerSector result).files.file
      volume.fd.node) = (machine.files.file volume.fd.node).write
        (sector * sectorSize + volume.dataOffset) sectorSize buff := by
    rw [Machine.wrote, full]
    exact FileStore.file_put_self _ _ _
  constructor
  · rw [file]
    exact ByteFile.le_size_write _ _ _ (by decide)
  · intro index inside
    rw [file, ByteFile.byte_write, Buffer.blit_inside _ _ _ _ (Nat.le_add_right _ _)
      (Nat.add_lt_add_left inside _), Nat.add_sub_cancel_left]

/-- Every other sector holds what it did. -/
theorem holds_wrote_of_ne {other part : Nat} {bytes : Buffer} {result : DResult}
    (full : volume.bytesPerSector = sectorSize) (different : other ≠ sector)
    (le : part ≤ volume.bytesPerSector) (holds : machine.Holds volume other bytes) :
    (machine.wrote drive volume sector buff part result).Holds volume other bytes := by
  have file : ((machine.wrote drive volume sector buff part result).files.file
      volume.fd.node) = (machine.files.file volume.fd.node).write
        (sector * sectorSize + volume.dataOffset) part buff := by
    rw [Machine.wrote, full]
    exact FileStore.file_put_self _ _ _
  constructor
  · rw [file]
    exact Nat.le_trans holds.inside (ByteFile.size_le_write _ _ _ _)
  · intro index inside
    have away : other * sectorSize + volume.dataOffset + index <
        sector * sectorSize + volume.dataOffset ∨
        sector * sectorSize + volume.dataOffset + part ≤
          other * sectorSize + volume.dataOffset + index := by
      rw [full] at le
      rw [sectorSize] at inside le ⊢
      omega
    rw [file, ByteFile.byte_write]
    rcases away with below | above
    · rw [Buffer.blit_below _ _ _ _ below, holds.byte index inside]
    · rw [Buffer.blit_above _ _ _ _ above, holds.byte index inside]

/-- Reading a sector within reach delivers what it holds. -/
theorem diskRead_holds {bytes : Buffer} (serves : machine.Reads drive volume)
    (full : volume.bytesPerSector = sectorSize) (holds : machine.Holds volume sector bytes)
    (near : sector < reach) :
    (diskRead drive buff sector 1).Outcome machine (.ok, buff.blit 0 sectorSize bytes)
      { machine with transfers := machine.transfers + 1 } := by
  have displaced := serves.near
  have clear : (sector * sectorSize + volume.dataOffset) % 2 ^ 32 < 2 ^ 31 := by
    rw [reach] at near
    rw [sectorSize]
    omega
  have place := sector_place machine.build serves.small near
  rw [full] at place
  unfold Program.Outcome diskRead
  simp only [serves.mapped, full, place, Nat.one_mul,
    imageFileRead_steady (serves.steady _ (Nat.le_refl _)) buff (show sectorSize < 2 ^ 31 by decide)
      clear holds.inside, if_true, Buffer.blit_congr _ _ _ _ _ holds.byte]

end Serve

end Hdfmonkey
