/-
This file proves that a format leaves a sound and empty volume, whatever was in the
image before, and says on which volumes.

What is on the volume afterwards is what can be read from it: a sector is said to
deliver its bytes when every later machine that reads the image into any buffer gets
them. On a volume with halved sectors nothing is delivered in the second half of a
buffer, so that not even the root directory reads as empty.
-/

import Hdfmonkey.FatVolume

namespace Hdfmonkey

/-- Every machine that reads the sector gets the bytes, whatever its buffer held. -/
def Machine.Delivers (after : Machine) (volume : VolumeContainer) (sector : Nat)
    (bytes : Buffer) : Prop :=
  ∀ next reopened vol buff, Rereads after next volume vol reopened →
    ∃ filled finish, (diskRead vol buff sector 1).Outcome next (.ok, filled) finish ∧
      Shows filled bytes

/-- Every `disk_write` since the start succeeded. -/
def WritesSucceed (start after : Machine) : Prop :=
  ∀ recent, after.written = recent ++ start.written → ∀ write ∈ recent, write.result = .ok

/-- The writes stay in the volume, and what they leave is a sound and empty volume. -/
structure FormatSound (start after : Machine) (volume : VolumeContainer) (layout : Layout) :
    Prop where
  written : ∃ recent, after.written = recent ++ start.written ∧
    ∀ write ∈ recent, write.sector + write.count ≤ volume.sectorCount
  volume : ∃ content, EmptyVolume start.build layout volume.sectorCount content ∧
    ∀ sector, layout.Checked sector ∨ layout.Unchecked sector →
      after.Delivers volume sector (content sector)

section Sound

variable {start after : Machine} {drive : Nat} {volume : VolumeContainer} {layout : Layout}
  {volumeLabel : Option (List UInt8)}

theorem Machine.Holds.delivers {sector : Nat} {bytes : Buffer}
    (full : volume.bytesPerSector = sectorSize) (holds : after.Holds volume sector bytes)
    (near : sector < reach) : after.Delivers volume sector bytes := by
  intro next reopened vol buff same
  exact ⟨_, _, diskRead_holds same.reads (same.bytesPerSector.trans full) (same.holds holds) near,
    shows_blit _ _⟩

theorem rereads_restarted (mapped : after.volumeContainers drive = some volume)
    (near : volume.dataOffset < 2 ^ 16) (small : volume.bytesPerSector ≤ sectorSize) :
    Rereads after (after.restarted drive) volume drive volume :=
  ⟨⟨mapped, near, small, fun _ _ => Schedule.kernel_steady⟩, rfl, rfl, rfl⟩

/-- A volume with less than full sectors never delivers a sector of zeros. -/
theorem not_delivers_zero (mapped : after.volumeContainers drive = some volume)
    (near : volume.dataOffset < 2 ^ 16) (short : volume.bytesPerSector < sectorSize) {sector : Nat}
    {bytes : Buffer} (zero : ∀ index, index < sectorSize → bytes index = 0) :
    ¬ after.Delivers volume sector bytes := by
  intro delivers
  have same := rereads_restarted mapped near (Nat.le_of_lt short)
  obtain ⟨filled, finish, read, shows⟩ := delivers _ _ _ (fun _ => 1) same
  rw [sectorSize] at short
  have behind := diskRead_behind same.reads.mapped (by omega) read 511 (by omega)
  have shown := shows 511 (by decide)
  rw [behind, zero 511 (by decide)] at shown
  exact absurd shown (by decide)

/-- A sector that the plan touches lies in the partition or is the partition table. -/
theorem Layout.Sound.planned_lt (sound : layout.Sound) {sector : Nat}
    (planned : layout.Checked sector ∨ layout.Unchecked sector) :
    sector < layout.bPart + layout.nPart ∧ sector < reach := by
  have room := sound.room
  have start := sound.bPart
  have fats := sound.bFat
  have root := sound.nDir
  have csize := sound.allocsize_le
  have passes := sound.rootPasses_eq
  obtain ⟨_, near⟩ := sound.bounds
  rw [Layout.bDir, Layout.bFat] at near
  rcases planned with (rfl | rfl | ⟨lower, upper⟩) | ⟨fat32, place⟩
  · exact ⟨by omega, reach_pos⟩
  · exact ⟨by omega, by rw [start, reach]; omega⟩
  · have fits : rootPasses layout ≤ layout.nDir + 64 := by
      split_ifs at passes with fat32
      · omega
      · omega
    rw [Layout.bDir, Layout.bFat] at upper
    exact ⟨by omega, by omega⟩
  · rw [if_pos fat32, Layout.bFat] at fats
    exact ⟨by omega, by omega⟩

/-- On full sectors a format whose writes succeed leaves what it planned. -/
theorem mkfsWrite_formatSound (sound : layout.Sound)
    (fits : layout.bPart + layout.nPart ≤ volume.sectorCount)
    (mapped : start.volumeContainers drive = some volume)
    (full : volume.bytesPerSector = sectorSize)
    (run : (mkfsWrite start.build drive 0 layout volumeLabel).Outcome start .ok after)
    (succeeds : WritesSucceed start after) : FormatSound start after volume layout := by
  obtain ⟨time, log, wrote, formats⟩ := mkfsWrite_wrote sound mapped (Nat.le_of_eq full) run
  have succeeded (sector : Nat) (result : DResult) (member : (sector, result) ∈ log) :
      result = .ok :=
    succeeds _ wrote.written ⟨drive, sector, 1, result⟩ (List.mem_map.mpr ⟨_, member, rfl⟩)
  refine ⟨⟨_, wrote.written, fun write member => ?_⟩, layout.content start.build volumeLabel time,
    emptyVolume_content sound start.build volumeLabel time fits, fun sector planned => ?_⟩
  · obtain ⟨⟨sector, result⟩, logged, rfl⟩ := List.mem_map.mp member
    have inside := sound.planned_lt
      ((formats.planned sector result logged).imp_left And.left)
    exact Nat.le_trans inside.1 fits
  · have ok : (sector, .ok) ∈ log := by
      rcases planned with checked | unchecked
      · exact formats.checked sector checked
      · obtain ⟨result, member⟩ := formats.unchecked sector unchecked
        rwa [succeeded sector result member] at member
    exact (wrote.stored full sector ok fun failed =>
      DResult.noConfusion (succeeded _ _ failed)).delivers full (sound.planned_lt planned).2

/-- On less than full sectors the root directory never reads as empty. -/
theorem mkfsWrite_not_formatSound (sound : layout.Sound)
    (mapped : start.volumeContainers drive = some volume) (near : volume.dataOffset < 2 ^ 16)
    (short : volume.bytesPerSector < sectorSize)
    (run : (mkfsWrite start.build drive 0 layout volumeLabel).Outcome start .ok after) :
    ¬ FormatSound start after volume layout := by
  rintro ⟨_, content, empty, delivers⟩
  have still : after.volumeContainers drive = some volume := by
    obtain ⟨_, _, wrote, _⟩ := mkfsWrite_wrote sound mapped (Nat.le_of_lt short) run
    rw [wrote.containers, mapped]
  have positive := sound.allocsize_pos
  have passes := sound.rootPasses_eq
  have root : layout.RootSector layout.bDir :=
    ⟨Nat.le_refl _, by split_ifs at passes <;> omega⟩
  have checked : layout.Checked layout.bDir := Or.inr (Or.inr ⟨Nat.le_add_right _ _, root.2⟩)
  exact not_delivers_zero still near short (empty.root _ root) (delivers _ (Or.inl checked))

end Sound

/-! ### Formatting with the automatic cluster size -/

section Format

variable {start after : Machine} {drive : Nat} {volume : VolumeContainer}
  {volumeLabel : Option (List UInt8)} {fmt : Option FatType}

theorem formatSound_unmounted {layout : Layout} :
    FormatSound (start.unmounted drive) after volume layout ↔
      FormatSound start after volume layout :=
  ⟨fun sound => ⟨sound.written, sound.volume⟩, fun sound => ⟨sound.written, sound.volume⟩⟩

/-- A format all of whose writes succeed leaves a sound and empty volume exactly when the volume
has full sectors. -/
theorem fMkfs_formatSound_iff (image : volume.OfImage)
    (mapped : start.volumeContainers drive = some volume)
    (run : (fMkfs drive 0 0 volumeLabel fmt).Outcome start .ok after)
    (succeeds : WritesSucceed start after) :
    FormatSound start after volume (mkfsLayout start.build 0 0 fmt volume.sectorCount) ↔
      volume.bytesPerSector = sectorSize := by
  obtain ⟨sound, fits, write⟩ := fMkfs_layout mapped run
  have still : (start.unmounted drive).volumeContainers drive = some volume := mapped
  rw [← formatSound_unmounted]
  constructor
  · intro formatted
    rcases image.sectors with full | half
    · exact full
    · have short : volume.bytesPerSector < sectorSize := by
        rw [half]
        decide
      exact absurd formatted (mkfsWrite_not_formatSound sound still image.near short write)
  · intro full
    exact mkfsWrite_formatSound sound fits still full write succeeds

theorem Served.writesSucceed
    (served : Served drive volume (start.unmounted drive) after) : WritesSucceed start after := by
  obtain ⟨recent, written, succeeded⟩ := served.written
  intro other otherIs write member
  rw [List.append_cancel_right (otherIs.symm.trans written)] at member
  exact succeeded write member

/-- A raw image of 2000 sectors is formatted soundly. -/
theorem fMkfs_formatSound_iff_small :
    ∃ after, (fMkfs 0 0 0 none none).Outcome (imageMachine (rawImage 2000)) .ok after ∧
      WritesSucceed (imageMachine (rawImage 2000)) after ∧
      (FormatSound (imageMachine (rawImage 2000)) after (rawImage 2000) (rawLayout none 2000) ↔
        (rawImage 2000).bytesPerSector = sectorSize) := by
  obtain ⟨after, run, served⟩ :=
    imageMachine_fMkfs (rawImage_ofImage 2000) rfl (by decide) none none
  exact ⟨after, run, served.writesSucceed, fMkfs_formatSound_iff (rawImage_ofImage 2000)
    (imageMachine_mapped _) run served.writesSucceed⟩

/-- An HDF image with halved sectors. -/
def halvedImage (sectorCount : Nat) : VolumeContainer where
  fd := { node := 0, writeable := true }
  dataOffset := hdfHeaderSize
  bytesPerSector := 256
  sectorCount

/-- An image of 2000 halved sectors is formatted, every write succeeds, and the volume is not
sound. -/
theorem not_formatSound_halved :
    ∃ after, (fMkfs 0 0 0 none none).Outcome (imageMachine (halvedImage 2000)) .ok after ∧
      WritesSucceed (imageMachine (halvedImage 2000)) after ∧
      ¬ FormatSound (imageMachine (halvedImage 2000)) after (halvedImage 2000)
        (mkfsLayout (imageMachine (halvedImage 2000)).build 0 0 none
          (halvedImage 2000).sectorCount) := by
  have image : (halvedImage 2000).OfImage := ⟨show hdfHeaderSize < 2 ^ 16 by decide, Or.inr rfl⟩
  obtain ⟨after, run, served⟩ := imageMachine_fMkfs image rfl (by decide) none none
  obtain ⟨sound, _, write⟩ := fMkfs_layout (imageMachine_mapped _) run
  have still : ((imageMachine (halvedImage 2000)).unmounted 0).volumeContainers 0 =
      some (halvedImage 2000) := rfl
  have short : (halvedImage 2000).bytesPerSector < sectorSize := by decide
  have unsound := mkfsWrite_not_formatSound sound still image.near short write
  exact ⟨after, run, served.writesSucceed,
    fun claimed => unsound (formatSound_unmounted.mpr claimed)⟩

end Format

end Hdfmonkey
