/-
This file says when the disk functions stay inside the volume.

No layer compares a sector with the sector count, so what keeps a call inside the volume
is the call itself: a write through a descriptor that may be written has to end inside the
file and below the sector count, and a read that the file can serve has to lie below it.
A call whose offset does not survive the `int` it is stored in moves nothing.
-/

import Hdfmonkey.SectorLaw

namespace Hdfmonkey

/-- A call of `disk_read` or `disk_write`. -/
inductive DiskCall where
  | read (buff : Buffer) (sector count : Nat)
  | write (buff : Buffer) (sector count : Nat)

namespace DiskCall

/-- The first sector of a call. -/
def sector : DiskCall → Nat
  | .read _ sector _ => sector
  | .write _ sector _ => sector

/-- The number of sectors of a call. -/
def count : DiskCall → Nat
  | .read _ _ count => count
  | .write _ _ count => count

/-- What the driver may pass: a `DWORD` sector and a positive `BYTE` count. -/
def Valid (call : DiskCall) : Prop :=
  call.sector < 2 ^ 32 ∧ 1 ≤ call.count ∧ call.count ≤ 255

/-- The result of a call and the machine it leaves. -/
def Answers (drive : Nat) (machine : Machine) (result : DResult) (after : Machine) :
    DiskCall → Prop
  | .read buff sector count =>
    ∃ filled, (diskRead drive buff sector count).Outcome machine (result, filled) after
  | .write buff sector count => (diskWrite drive buff sector count).Outcome machine result after

end DiskCall

/-- A call that was made. -/
structure DiskStep where
  call : DiskCall
  before : Machine
  result : DResult
  after : Machine

/-- A sequence of calls on one drive. -/
inductive DiskRun (drive : Nat) : Machine → List DiskStep → Machine → Prop where
  | nil (machine : Machine) : DiskRun drive machine [] machine
  | cons {step : DiskStep} {steps : List DiskStep} {last : Machine}
      (answers : step.call.Answers drive step.before step.result step.after)
      (rest : DiskRun drive step.after steps last) : DiskRun drive step.before (step :: steps) last

/-- A step leaves the length of the file and the bytes before the payload as they were at the
start, and a call beyond the volume fails without a trace. -/
structure DiskStep.Contained (step : DiskStep) (volume : VolumeContainer) (file : ByteFile) :
    Prop where
  size : (step.after.files.file volume.fd.node).size = file.size
  header : ∀ index, index < volume.dataOffset →
    (step.after.files.file volume.fd.node).byte index = file.byte index
  beyond : volume.sectorCount < step.call.sector + step.call.count →
    step.result ≠ .ok ∧
      step.after.files.file volume.fd.node = step.before.files.file volume.fd.node

/-- Where a call on the volume starts in the file. -/
def diskOffset (build : Build) (volume : VolumeContainer) (sector : Nat) : Nat :=
  build.mul sector volume.bytesPerSector + volume.dataOffset

/-- The seek is not taken for a failed one. -/
def SeekKept (build : Build) (volume : VolumeContainer) (sector : Nat) : Prop :=
  diskOffset build volume sector % 2 ^ 32 < 2 ^ 31

/-- A write that is not refused ends inside the file and the volume, and a read that the file can
serve ends inside the volume. -/
def DiskCall.Fits (build : Build) (volume : VolumeContainer) (size : Nat) : DiskCall → Prop
  | .read _ sector count => SeekKept build volume sector →
    diskOffset build volume sector + count * volume.bytesPerSector ≤ size →
      sector + count ≤ volume.sectorCount
  | .write _ sector count => volume.fd.writeable = true → SeekKept build volume sector →
    diskOffset build volume sector + count * volume.bytesPerSector ≤ size ∧
      sector + count ≤ volume.sectorCount

/-- Every run of permitted calls on the file stays inside the volume. -/
def WritesInside (build : Build) (volume : VolumeContainer) (file : ByteFile)
    (permitted : DiskCall → Prop) : Prop :=
  ∀ drive start steps last, start.build = build → start.volumeContainers drive = some volume →
    start.files.file volume.fd.node = file → DiskRun drive start steps last →
    (∀ step ∈ steps, permitted step.call) → ∀ step ∈ steps, step.Contained volume file

/-! ### What one call does -/

section Step

variable {volume : VolumeContainer} {machine after : Machine} {drive sector count : Nat}
  {buff : Buffer} {result : DResult}

/-- The place of a sector fits an `off_t` on either build. -/
theorem diskPosition_natCast (build : Build) (image : volume.OfImage) (small : sector < 2 ^ 32) :
    diskPosition build volume sector = (build.mul sector volume.bytesPerSector : Nat) := by
  have width : volume.bytesPerSector ≤ 512 := by
    rcases image.sectors with full | half <;> omega
  have product : sector * volume.bytesPerSector ≤ 2 ^ 32 * 512 :=
    Nat.mul_le_mul (Nat.le_of_lt small) width
  have fewer : build.mul sector volume.bytesPerSector ≤ 2 ^ 32 * 512 :=
    Nat.le_trans (Nat.mod_le _ _) product
  exact offT_of_lt (Nat.lt_of_le_of_lt fewer (by decide))

theorem transfer_short (image : volume.OfImage) (few : count ≤ 255) :
    count * volume.bytesPerSector < 2 ^ 31 := by
  rcases image.sectors with full | half
  · rw [full]
    omega
  · rw [half]
    omega

/-- A read that succeeds was served by the file. -/
theorem diskRead_served {filled : Buffer} (image : volume.OfImage) (small : sector < 2 ^ 32)
    (positive : 1 ≤ count) (few : count ≤ 255)
    (mapped : machine.volumeContainers drive = some volume)
    (run : (diskRead drive buff sector count).Outcome machine (.ok, filled) after) :
    SeekKept machine.build volume sector ∧
      diskOffset machine.build volume sector + count * volume.bytesPerSector ≤
        (machine.files.file volume.fd.node).size := by
  obtain ⟨moved, read, succeeded, _⟩ := (diskRead_iff mapped).mp run
  rw [diskPosition_natCast machine.build image small] at read
  rcases imageFileRead_spec (transfer_short image few) read with ⟨_, clear, inside, _⟩ |
    ⟨negative, _⟩
  · have bytes : 0 < count * volume.bytesPerSector :=
      Nat.mul_pos positive (by rcases image.sectors with full | half <;> omega)
    exact ⟨clear, inside bytes⟩
  · rw [if_neg (by omega)] at succeeded
    exact absurd succeeded (by decide)

/-- A write that ends has stored an initial part of its run, all of it if it succeeded and nothing
if it was refused. -/
theorem diskWrite_stored (image : volume.OfImage) (small : sector < 2 ^ 32)
    (few : count ≤ 255) (mapped : machine.volumeContainers drive = some volume)
    (run : (diskWrite drive buff sector count).Outcome machine result after) :
    ∃ part ≤ count * volume.bytesPerSector,
      (¬ (volume.fd.writeable = true ∧ SeekKept machine.build volume sector) → part = 0) ∧
      after.files.file volume.fd.node = (machine.files.file volume.fd.node).write
        (diskOffset machine.build volume sector) part buff := by
  obtain ⟨moved, file, write, rfl, rfl⟩ := (diskWrite_iff mapped).mp run
  rw [diskPosition_natCast machine.build image small] at write
  dsimp only
  rw [FileStore.file_put_self]
  by_cases served : volume.fd.writeable = true ∧ SeekKept machine.build volume sector
  · rcases imageFileWrite_spec (transfer_short image few) write with
      ⟨_, _, _, rfl⟩ | ⟨_, part, le, rfl⟩
    · exact ⟨_, Nat.le_refl _, fun refused => absurd served refused, rfl⟩
    · exact ⟨part, le, fun refused => absurd served refused, rfl⟩
  · have kept := imageFileWrite_refused
      (fun mode => Nat.not_lt.mp fun clear => served ⟨mode, clear⟩) write
    exact ⟨0, Nat.zero_le _, fun _ => rfl, kept.trans (ByteFile.write_zero_count _ _ _).symm⟩

/-- A write that succeeds was not refused. -/
theorem diskWrite_served (image : volume.OfImage) (small : sector < 2 ^ 32)
    (positive : 1 ≤ count) (few : count ≤ 255)
    (mapped : machine.volumeContainers drive = some volume)
    (run : (diskWrite drive buff sector count).Outcome machine .ok after) :
    volume.fd.writeable = true ∧ SeekKept machine.build volume sector := by
  obtain ⟨moved, file, write, succeeded, _⟩ := (diskWrite_iff mapped).mp run
  rw [diskPosition_natCast machine.build image small] at write
  rcases imageFileWrite_spec (transfer_short image few) write with
    ⟨_, clear, mode, _⟩ | ⟨negative, _⟩
  · have bytes : 0 < count * volume.bytesPerSector :=
      Nat.mul_pos positive (by rcases image.sectors with full | half <;> omega)
    exact ⟨mode bytes, clear⟩
  · rw [if_neg (by omega)] at succeeded
    exact absurd succeeded (by decide)

end Step

/-! ### Runs -/

section Run

variable {build : Build} {volume : VolumeContainer} {drive : Nat} {file : ByteFile}

/-- What stays the same between the calls of a contained run. -/
structure Machine.Contains (machine : Machine) (build : Build) (drive : Nat)
    (volume : VolumeContainer) (file : ByteFile) : Prop where
  build : machine.build = build
  mapped : machine.volumeContainers drive = some volume
  size : (machine.files.file volume.fd.node).size = file.size
  header : ∀ index, index < volume.dataOffset →
    (machine.files.file volume.fd.node).byte index = file.byte index

section Calls

variable {machine after : Machine} {sector count : Nat} {buff : Buffer} {result : DResult}

/-- A read that fits fails if it goes beyond the volume. -/
theorem diskRead_contains {filled : Buffer} (image : volume.OfImage) (small : sector < 2 ^ 32)
    (positive : 1 ≤ count) (few : count ≤ 255)
    (contains : machine.Contains build drive volume file)
    (fits : (DiskCall.read buff sector count).Fits build volume file.size)
    (run : (diskRead drive buff sector count).Outcome machine (result, filled) after) :
    after.Contains build drive volume file ∧ after.files = machine.files ∧
      (volume.sectorCount < sector + count → result ≠ .ok) := by
  obtain ⟨same, mapped, size, header⟩ := contains
  obtain ⟨_, _, _, becomes⟩ := (diskRead_iff mapped).mp run
  have kept : after.files = machine.files := by rw [becomes]
  refine ⟨⟨becomes ▸ same, becomes ▸ mapped, kept ▸ size, kept ▸ header⟩, kept, ?_⟩
  rintro beyond rfl
  obtain ⟨reached, inside⟩ := diskRead_served image small positive few mapped run
  rw [same] at reached inside
  rw [size] at inside
  exact absurd (fits reached inside) (Nat.not_le.mpr beyond)

/-- A write that fits stays inside the file, and stores nothing if it goes beyond the volume. -/
theorem diskWrite_contains (image : volume.OfImage) (small : sector < 2 ^ 32)
    (positive : 1 ≤ count) (few : count ≤ 255)
    (contains : machine.Contains build drive volume file)
    (fits : (DiskCall.write buff sector count).Fits build volume file.size)
    (run : (diskWrite drive buff sector count).Outcome machine result after) :
    after.Contains build drive volume file ∧ (volume.sectorCount < sector + count →
      result ≠ .ok ∧ after.files.file volume.fd.node = machine.files.file volume.fd.node) := by
  obtain ⟨same, mapped, size, header⟩ := contains
  obtain ⟨part, le, refused, stored⟩ := diskWrite_stored image small few mapped run
  obtain ⟨_, _, _, _, becomes⟩ := (diskWrite_iff mapped).mp run
  rw [same] at refused stored
  -- a write that stores anything was not refused, so it fits
  have inside : part = 0 ∨ (diskOffset build volume sector + part ≤ file.size ∧
      sector + count ≤ volume.sectorCount) := by
    by_cases served : volume.fd.writeable = true ∧ SeekKept build volume sector
    · obtain ⟨bytes, sectors⟩ := fits served.1 served.2
      exact Or.inr ⟨Nat.le_trans (Nat.add_le_add_left le _) bytes, sectors⟩
    · exact Or.inl (refused served)
  have size' : (after.files.file volume.fd.node).size = file.size := by
    rw [stored]
    rcases inside with rfl | ⟨bytes, _⟩
    · rw [ByteFile.write_zero_count, size]
    · rw [ByteFile.size_write_inside _ _ (by rw [size]; exact bytes), size]
  have header' (index : Nat) (before : index < volume.dataOffset) :
      (after.files.file volume.fd.node).byte index = file.byte index := by
    have below : index < diskOffset build volume sector :=
      Nat.lt_of_lt_of_le before (Nat.le_add_left _ _)
    rw [stored, ByteFile.byte_write, Buffer.blit_below _ _ _ _ below, header index before]
  refine ⟨⟨becomes ▸ same, becomes ▸ mapped, size', header'⟩, fun beyond => ⟨?_, ?_⟩⟩
  · rintro rfl
    obtain ⟨mode, reached⟩ := diskWrite_served image small positive few mapped run
    rw [same] at reached
    exact absurd (fits mode reached).2 (Nat.not_le.mpr beyond)
  · rcases inside with rfl | ⟨_, sectors⟩
    · rw [stored, ByteFile.write_zero_count]
    · exact absurd sectors (Nat.not_le.mpr beyond)

end Calls

/-- A call that fits is contained, and the next call finds what this one did. -/
theorem DiskStep.contained {step : DiskStep} (image : volume.OfImage)
    (valid : step.call.Valid) (contains : step.before.Contains build drive volume file)
    (answers : step.call.Answers drive step.before step.result step.after)
    (fits : step.call.Fits build volume file.size) :
    step.Contained volume file ∧ step.after.Contains build drive volume file := by
  obtain ⟨call, before, result, after⟩ := step
  obtain ⟨small, positive, few⟩ := valid
  cases call with
  | read buff sector count =>
    obtain ⟨filled, run⟩ := answers
    obtain ⟨contains', kept, beyond⟩ :=
      diskRead_contains image small positive few contains fits run
    exact ⟨⟨contains'.size, contains'.header, fun far => ⟨beyond far, by rw [kept]⟩⟩, contains'⟩
  | write buff sector count =>
    obtain ⟨contains', beyond⟩ := diskWrite_contains image small positive few contains fits answers
    exact ⟨⟨contains'.size, contains'.header, beyond⟩, contains'⟩

/-- A run of calls that fit is contained. -/
theorem DiskRun.contained {start last : Machine} {steps : List DiskStep} (image : volume.OfImage)
    (run : DiskRun drive start steps last) (contains : start.Contains build drive volume file)
    (fits : ∀ step ∈ steps, step.call.Valid ∧ step.call.Fits build volume file.size) :
    ∀ step ∈ steps, step.Contained volume file := by
  induction run with
  | nil => exact fun step member => absurd member List.not_mem_nil
  | cons answers rest inductionHypothesis =>
    obtain ⟨valid, fit⟩ := fits _ List.mem_cons_self
    obtain ⟨contained, contains'⟩ := DiskStep.contained image valid contains answers fit
    have later := inductionHypothesis contains' fun step member =>
      fits step (List.mem_cons_of_mem _ member)
    intro step member
    rcases List.mem_cons.mp member with rfl | member'
    · exact contained
    · exact later step member'

end Run

/-! ### Calls that leave the volume -/

section Escape

variable {build : Build} {volume : VolumeContainer} {file : ByteFile} {call : DiskCall}

/-- A call that is contained when the kernel serves it fits. -/
theorem DiskCall.fits_of_contained (image : volume.OfImage) (valid : call.Valid)
    (contained : ∀ result after,
      call.Answers 0 (diskMachine build volume file) result after →
        DiskStep.Contained
          { call, before := diskMachine build volume file, result, after } volume file) :
    call.Fits build volume file.size := by
  have there : (diskMachine build volume file).files.file volume.fd.node = file :=
    FileStore.file_put_self _ _ _
  have mapped : (diskMachine build volume file).volumeContainers 0 = some volume := rfl
  have steady : ((diskMachine build volume file).sys 0).Steady := Schedule.kernel_steady
  obtain ⟨small, positive, few⟩ := valid
  cases call with
  | read buff sector count =>
    have place : diskPosition (diskMachine build volume file).build volume sector =
      (build.mul sector volume.bytesPerSector : Nat) := diskPosition_natCast build image small
    intro reached inside
    have read := imageFileRead_steady steady buff (transfer_short image few) reached inside
    have run := (diskRead_iff mapped).mpr
      ⟨_, by rw [there, place]; exact read, (if_pos rfl).symm, rfl⟩
    by_contra beyond
    exact ((contained .ok _ ⟨_, run⟩).beyond (Nat.lt_of_not_le beyond)).1 rfl
  | write buff sector count =>
    have place : diskPosition (diskMachine build volume file).build volume sector =
      (build.mul sector volume.bytesPerSector : Nat) := diskPosition_natCast build image small
    intro mode reached
    have enough : count * volume.bytesPerSector ≤ (diskMachine build volume file).fuel :=
      Nat.mul_le_mul few (by rw [sectorSize]; rcases image.sectors with full | half <;> omega)
    have write := @imageFileWrite_steady _ volume file _ _ _ steady buff
      (transfer_short image few) enough mode reached
    have run := (diskWrite_iff mapped).mpr
      ⟨_, _, by rw [there, place]; exact write, (if_pos rfl).symm, rfl⟩
    obtain ⟨size, _, beyond⟩ := contained .ok _ run
    constructor
    · rw [FileStore.file_put_self] at size
      rw [← size]
      exact ByteFile.le_size_write _ _ _
        (Nat.mul_pos positive (by rcases image.sectors with full | half <;> omega))
    · by_contra far
      exact (beyond (Nat.lt_of_not_le far)).1 rfl

/-- Where every run stays inside the volume, every permitted call fits. -/
theorem WritesInside.fits {permitted : DiskCall → Prop}
    (inside : WritesInside build volume file permitted) (image : volume.OfImage)
    (valid : call.Valid) (allowed : permitted call) : call.Fits build volume file.size := by
  have single (step : DiskStep) (allowed : permitted step.call)
      (same : step.before.build = build)
      (mapped : step.before.volumeContainers 0 = some volume)
      (there : step.before.files.file volume.fd.node = file)
      (answers : step.call.Answers 0 step.before step.result step.after) :
      step.Contained volume file := by
    refine inside 0 step.before [step] step.after same mapped there
      (.cons answers (.nil step.after)) (fun other member => ?_) step List.mem_cons_self
    rw [List.mem_singleton.mp member]
    exact allowed
  exact DiskCall.fits_of_contained image valid fun result after answers =>
    single _ allowed rfl rfl (FileStore.file_put_self _ _ _) answers

end Escape

/-- The disk functions stay inside the volume exactly if every permitted call fits. -/
theorem disk_writesInside_iff {build : Build} {volume : VolumeContainer} {file : ByteFile}
    {permitted : DiskCall → Prop} (image : volume.OfImage)
    (valid : ∀ call, permitted call → call.Valid) :
    WritesInside build volume file permitted ↔
      ∀ call, permitted call → call.Fits build volume file.size := by
  constructor
  · exact fun inside call allowed => inside.fits image (valid call allowed) allowed
  · intro fits drive start steps last same mapped there run allowed
    exact run.contained image ⟨same, mapped, by rw [there], fun _ _ => by rw [there]⟩
      fun step member => ⟨valid _ (allowed step member), fits _ (allowed step member)⟩

/-- Writes of the first sector of a raw image of two. -/
theorem disk_writesInside_iff_first :
    WritesInside .lp64 (rawVolume .lp64 (oneFile (ByteFile.empty.truncate 1024)) 0 true)
      (ByteFile.empty.truncate 1024) (fun call => ∃ buff, call = .write buff 0 1) := by
  refine (disk_writesInside_iff ⟨by decide, .inl rfl⟩ ?_).mpr ?_
  · rintro _ ⟨buff, rfl⟩
    exact ⟨Nat.two_pow_pos 32, Nat.le_refl 1, show 1 ≤ 255 by decide⟩
  · rintro _ ⟨buff, rfl⟩
    exact fun _ _ => ⟨by decide, by decide⟩

/-- The sector behind the last one of an opened image is written all the same. -/
theorem not_disk_writesInside_behind :
    ∃ volume, openVolume .lp64 (fun _ => Schedule.kernel)
        (oneFile (ByteFile.empty.truncate 512)) [0x61] true = some volume ∧
      ¬ WritesInside .lp64 volume (ByteFile.empty.truncate 512) DiskCall.Valid := by
  have opened : openVolume .lp64 (fun _ => Schedule.kernel)
      (oneFile (ByteFile.empty.truncate 512)) [0x61] true =
      some {
        fd := { node := 0, writeable := true }
        dataOffset := 0
        bytesPerSector := 512
        sectorCount := 1 } := by decide
  refine ⟨_, opened, fun inside => ?_⟩
  have valid : (DiskCall.write Buffer.zero 1 1).Valid := ⟨by decide, by decide, by decide⟩
  have fits := inside.fits (openVolume_ofImage opened) valid valid
  exact absurd (fits rfl (by unfold SeekKept; decide)).2 (by decide)

end Hdfmonkey
