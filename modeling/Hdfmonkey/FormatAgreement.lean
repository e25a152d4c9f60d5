/-
This file compares the FAT sub-type a format lays out with the one the next mount of
the image derives.

`f_mkfs` takes the type from its caller, or chooses it from a preliminary number of
clusters; `chk_mounted` derives it from the final one. They agree on some sizes of
disks only, and no volume with halved sectors can be relied on to mount at all: the
driver writes and reads the first half of each sector it builds, and looks for the
signature in the other half.
-/

import Hdfmonkey.Mount

namespace Hdfmonkey

/-! ### The next mount of an image -/

/-- A machine that can read the image as another machine has left it. -/
structure Rereads (after next : Machine) (volume : VolumeContainer) (vol : Nat)
    (reopened : VolumeContainer) : Prop where
  reads : next.Reads vol reopened
  image : next.files.file reopened.fd.node = after.files.file volume.fd.node
  dataOffset : reopened.dataOffset = volume.dataOffset
  bytesPerSector : reopened.bytesPerSector = volume.bytesPerSector

/-- A machine that is about to mount the image. The object of the drive is marked as not mounted;
the rest of its memory may hold anything. -/
structure Reopened (after next : Machine) (volume : VolumeContainer) (vol : Nat)
    (reopened : VolumeContainer) (fs : Fatfs) : Prop
    extends Rereads after next volume vol reopened where
  inside : vol < drives
  registered : next.fatFs vol = some fs
  unmounted : fs.fsType = none

/-- The sectors of the root directory of a mounted volume: the first of its clusters on FAT32, the
area between the FATs and the data otherwise. -/
def Fatfs.RootSector (fs : Fatfs) (sector : Nat) : Prop :=
  if fs.fsType = some .fat32 then
    fs.database + (fs.dirbase - 2) * fs.csize ≤ sector ∧
      sector < fs.database + (fs.dirbase - 2) * fs.csize + fs.csize
  else fs.dirbase ≤ sector ∧ sector < fs.dirbase + fs.nRootdir / (sectorSize / 32)

/-- The sectors `f_mkfs` initialises as the root directory. -/
def Layout.RootSector (layout : Layout) (sector : Nat) : Prop :=
  layout.bDir ≤ sector ∧ sector < layout.bDir + rootPasses layout

/-- Every next mount of the image succeeds with the given type and finds the root directory of the
layout, which is empty. -/
def MountsAs (after : Machine) (volume : VolumeContainer) (fmt : FatType) (layout : Layout) :
    Prop :=
  ∀ next reopened vol fs, Reopened after next volume vol reopened fs →
    ∃ finish mounted, (chkMounted vol).Outcome next .ok finish ∧
      finish.fatFs vol = some mounted ∧ mounted.fsType = some fmt ∧
      (∀ sector, mounted.RootSector sector ↔ layout.RootSector sector) ∧
      ∀ sector, layout.RootSector sector → next.Holds reopened sector Buffer.zero

section Reopened

variable {after next : Machine} {volume reopened : VolumeContainer} {vol : Nat}

theorem Rereads.holds {sector : Nat} {bytes : Buffer}
    (same : Rereads after next volume vol reopened) (holds : after.Holds volume sector bytes) :
    next.Holds reopened sector bytes := by
  constructor
  · rw [same.image, same.dataOffset]
    exact holds.inside
  · intro index inside
    rw [same.image, same.dataOffset]
    exact holds.byte index inside

/-- A sector in front of one that is there is there. -/
theorem Machine.Holds.below {sector other : Nat} {bytes : Buffer}
    (holds : after.Holds volume sector bytes) (le : other ≤ sector) :
    ∃ bytes, after.Holds volume other bytes := by
  have product := Nat.mul_le_mul_right sectorSize le
  have inside := holds.inside
  exact ⟨fun index => (after.files.file volume.fd.node).byte
    (other * sectorSize + volume.dataOffset + index), by omega, fun _ _ => rfl⟩

end Reopened

/-! ### The mount of a formatted volume -/

section Mount

variable {after next finish : Machine} {volume reopened : VolumeContainer} {vol time : Nat}
  {fs mounted : Fatfs} {layout : Layout} {volumeLabel : Option (List UInt8)}

/-- A mount of a formatted volume that succeeds derives its type from the number of clusters. -/
theorem chkMounted_type (reads : next.Reads vol volume)
    (full : volume.bytesPerSector = sectorSize) (sound : layout.Sound)
    (formatted : Formatted next volume layout volumeLabel time) (inside : vol < drives)
    (registered : next.fatFs vol = some fs) (unmounted : fs.fsType = none)
    (run : (chkMounted vol).Outcome next .ok finish) (object : finish.fatFs vol = some mounted) :
    mounted.fsType = some (typeOfMaxClust (layout.nClst + 2)) := by
  obtain ⟨win, shows, mountIff⟩ := mountVolume_formatted reads full sound formatted fs
  obtain ⟨_, middle, mount, rfl⟩ := (chkMounted_unmounted inside registered unmounted).mp run
  obtain ⟨informed, _, info, rfl, rfl⟩ := (mountIff _ _).mp mount
  rw [Machine.fatFs_register] at object
  rw [← Option.some.inj object, (readFsInfo_matches info).1]
  exact congrArg (fun clusters => some (typeOfMaxClust clusters)) (maxClust_formatted sound shows _)

/-- When the type derived is the one laid out, the mount succeeds and finds the root directory. -/
theorem chkMounted_formatted (reads : next.Reads vol volume)
    (full : volume.bytesPerSector = sectorSize) (sound : layout.Sound)
    (formatted : Formatted next volume layout volumeLabel time) (inside : vol < drives)
    (registered : next.fatFs vol = some fs) (unmounted : fs.fsType = none)
    (behind : ∃ bytes, next.Holds volume (layout.bPart + 1) bytes)
    (agrees : typeOfMaxClust (layout.nClst + 2) = layout.fmt) :
    ∃ finish mounted, (chkMounted vol).Outcome next .ok finish ∧
      finish.fatFs vol = some mounted ∧ mounted.fsType = some layout.fmt ∧
      ∀ sector, mounted.RootSector sector ↔ layout.RootSector sector := by
  obtain ⟨win, shows, mountIff⟩ := mountVolume_formatted reads full sound formatted fs
  let object : Fatfs := { fs with fsType := none, drive := vol, win }
  have shown : Shows object.win (bootSector layout 0 volumeLabel time) := shows
  let filled := initFatfs next.build layout.bPart object
  have clusters : filled.maxClust = layout.nClst + 2 := maxClust_formatted sound shown _
  have there (fat32 : typeOfMaxClust filled.maxClust = .fat32) :
      next.build.add layout.bPart (filled.win.loadWord bpbFsInfo) < reach ∧
        ∃ bytes, (next.called 2).Holds volume
          (next.build.add layout.bPart (filled.win.loadWord bpbFsInfo)) bytes := by
    rw [clusters, agrees] at fat32
    have place : next.build.add layout.bPart (filled.win.loadWord bpbFsInfo) =
        layout.bPart + 1 := by
      have word := next.build.le_word
      have one : filled.win.loadWord bpbFsInfo = 1 := by
        rw [← bootSector_fsInfo layout 0 volumeLabel time fat32]
        exact shows.word (by decide)
      rw [one, sound.bPart]
      exact next.build.add_of_lt (by omega)
    obtain ⟨bytes, holds⟩ := behind
    rw [place]
    exact ⟨by rw [sound.bPart, reach]; omega, bytes, holds.called 2⟩
  have bound : (next.called 2).Reads filled.drive volume := reads.called 2
  obtain ⟨informed, middle, info⟩ := readFsInfo_runs bound full there
  obtain ⟨sameClusters, sameRoot, same⟩ := readFsInfo_matches info
  have matched := same layout (initFatfs_formatted sound shown next.build)
  have dirbase : informed.dirbase = if layout.fmt = .fat32 then 2 else layout.bDir := by
    rw [sameRoot]
    exact initFatfs_dirbase sound shown next.build agrees
  have type : typeOfMaxClust informed.maxClust = layout.fmt := by
    rw [sameClusters, clusters, agrees]
  refine ⟨_, _, (chkMounted_unmounted inside registered unmounted).mpr
    ⟨_, _, (mountIff _ _).mpr ⟨informed, middle, info, rfl, rfl⟩, rfl⟩,
    Machine.fatFs_register _ _ _, congrArg some type, fun sector => ?_⟩
  have passes := sound.rootPasses_eq
  have root := sound.nDir
  simp only [Fatfs.RootSector, Layout.RootSector, type, matched.database, matched.csize,
    matched.nRootdir, dirbase]
  by_cases fat32 : layout.fmt = .fat32
  · rw [if_pos fat32] at passes
    rw [fat32, rootSectors] at root
    simp only [fat32, if_true, passes, Layout.bData, root]
    omega
  · have entries : sectorSize / 32 * layout.nDir / (sectorSize / 32) = rootPasses layout := by
      rw [passes, if_neg fat32, root, sectorSize]
      cases kind : layout.fmt
      · rfl
      · rfl
      · exact absurd kind fat32
    simp only [Option.some.injEq, fat32, if_false, entries]

end Mount

/-! ### The type laid out and the type derived -/

/-- A file system object all of whose memory is zero. -/
def blankFatfs : Fatfs where
  fsType := none
  drive := 0
  csize := 0
  nFats := 0
  wflag := false
  fsiFlag := false
  id := 0
  nRootdir := 0
  lastClust := 0
  freeClust := 0
  fsiSector := 0
  sectsFat := 0
  maxClust := 0
  fatbase := 0
  dirbase := 0
  database := 0
  winsect := 0
  win := Buffer.zero

/-- The machine with a blank file system object on a drive and a kernel that serves every call. -/
def Machine.restarted (machine : Machine) (drive : Nat) : Machine :=
  Machine.register { machine with sys := fun _ => Schedule.kernel } drive (some blankFatfs)

section Agreement

variable {start after : Machine} {drive : Nat} {volume : VolumeContainer}
  {volumeLabel : Option (List UInt8)} {fmt : Option FatType} {layout : Layout}

theorem reopened_restarted (mapped : after.volumeContainers drive = some volume)
    (near : volume.dataOffset < 2 ^ 16) (small : volume.bytesPerSector ≤ sectorSize)
    (inside : drive < drives) :
    Reopened after (after.restarted drive) volume drive volume blankFatfs where
  reads := ⟨mapped, near, small, fun _ _ => Schedule.kernel_steady⟩
  image := rfl
  dataOffset := rfl
  bytesPerSector := rfl
  inside := inside
  registered := Machine.fatFs_register _ _ _
  unmounted := rfl

/-- What a format that reports success leaves on a volume with full sectors. -/
theorem mkfsWrite_formatted {build : Build} (sound : layout.Sound)
    (mapped : start.volumeContainers drive = some volume)
    (full : volume.bytesPerSector = sectorSize)
    (run : (mkfsWrite build drive 0 layout volumeLabel).Outcome start .ok after) :
    (∃ time, Formatted after volume layout volumeLabel time) ∧
      ∀ sector, layout.RootSector sector → after.Holds volume sector Buffer.zero := by
  obtain ⟨time, log, wrote, formats⟩ := mkfsWrite_wrote sound mapped (Nat.le_of_eq full) run
  have positive := sound.nFat_pos
  have partitionStart := sound.bPart
  obtain ⟨twice, _⟩ := sound.bounds
  have holds (sector : Nat) (checked : layout.Checked sector)
      (sure : ¬ layout.Unchecked sector) :
      after.Holds volume sector (layout.content build volumeLabel time sector) := by
    refine wrote.stored full sector (formats.checked sector checked) fun failed => ?_
    rcases formats.planned sector .parErr failed with ⟨_, wrong⟩ | unchecked
    · exact DResult.noConfusion wrong
    · exact sure unchecked
  refine ⟨⟨time, ?_, ?_⟩, fun sector root => ?_⟩
  · have mbr := holds 0 (Or.inl rfl) (fun unchecked => by
      have place := unchecked.2
      omega)
    rwa [Layout.content_mbr] at mbr
  · have boot := holds layout.bPart (Or.inr (Or.inl rfl)) (fun unchecked => by
      have place := unchecked.2
      omega)
    rwa [sound.content_boot] at boot
  · obtain ⟨lower, upper⟩ := root
    have place := sound.bFat
    have zero := holds sector (Or.inr (Or.inr ⟨by omega, upper⟩)) (fun unchecked => by
      have high := unchecked.2
      rw [if_pos unchecked.1] at place
      omega)
    rwa [sound.content_zero build volumeLabel time (by omega) (by omega)] at zero

theorem mkfsWrite_mountsAs_iff {build : Build} (sound : layout.Sound) (inside : drive < drives)
    (mapped : start.volumeContainers drive = some volume) (near : volume.dataOffset < 2 ^ 16)
    (small : volume.bytesPerSector ≤ sectorSize)
    (run : (mkfsWrite build drive 0 layout volumeLabel).Outcome start .ok after) :
    MountsAs after volume layout.fmt layout ↔ volume.bytesPerSector = sectorSize ∧
      typeOfMaxClust (layout.nClst + 2) = layout.fmt := by
  have still : after.volumeContainers drive = some volume := by
    obtain ⟨_, _, wrote, _⟩ := mkfsWrite_wrote sound mapped small run
    rw [wrote.containers, mapped]
  constructor
  · intro mounts
    have reopened := reopened_restarted still near small inside
    obtain ⟨finish, mounted, mount, object, type, _⟩ := mounts _ _ _ _ reopened
    by_cases full : volume.bytesPerSector = sectorSize
    · obtain ⟨⟨time, formatted⟩, _⟩ := mkfsWrite_formatted sound mapped full run
      have derived := chkMounted_type reopened.reads full sound
        ⟨reopened.holds formatted.mbr, reopened.holds formatted.boot⟩ inside reopened.registered
        rfl mount object
      exact ⟨full, Option.some.inj (derived.symm.trans type)⟩
    · obtain ⟨_, _, volumeMount, _⟩ :=
        (chkMounted_unmounted inside reopened.registered rfl).mp mount
      exact absurd rfl (mountVolume_short reopened.reads.mapped (Nat.lt_of_le_of_ne small full) rfl
        volumeMount)
  · rintro ⟨full, agrees⟩ next reopened vol fs same
    obtain ⟨⟨time, formatted⟩, root⟩ := mkfsWrite_formatted sound mapped full run
    have fullAgain : reopened.bytesPerSector = sectorSize := same.bytesPerSector.trans full
    have first : layout.RootSector layout.bDir := by
      have positive := sound.allocsize_pos
      have passes := sound.rootPasses_eq
      refine ⟨Nat.le_refl _, ?_⟩
      split_ifs at passes <;> omega
    have behind : ∃ bytes, next.Holds reopened (layout.bPart + 1) bytes := by
      have place := sound.bFat
      have partitionStart := sound.bPart
      refine (same.holds (root _ first)).below ?_
      rw [Layout.bDir]
      split_ifs at place <;> omega
    obtain ⟨finish, mounted, mount, object, type, sectors⟩ := chkMounted_formatted same.reads
      fullAgain sound ⟨same.holds formatted.mbr, same.holds formatted.boot⟩ same.inside
      same.registered same.unmounted behind agrees
    exact ⟨finish, mounted, mount, object, type, sectors,
      fun sector member => same.holds (root sector member)⟩

/-- A format that reports success had a sound layout inside the volume. -/
theorem fMkfs_layout (mapped : start.volumeContainers drive = some volume)
    (run : (fMkfs drive 0 0 volumeLabel fmt).Outcome start .ok after) :
    (mkfsLayout start.build 0 0 fmt volume.sectorCount).Sound ∧
      (mkfsLayout start.build 0 0 fmt volume.sectorCount).bPart +
        (mkfsLayout start.build 0 0 fmt volume.sectorCount).nPart ≤ volume.sectorCount ∧
      (mkfsWrite start.build drive 0 (mkfsLayout start.build 0 0 fmt volume.sectorCount)
        volumeLabel).Outcome (start.unmounted drive) .ok after := by
  obtain ⟨_, _, enough, write⟩ := (fMkfs_ok_iff mapped).mp run
  obtain ⟨large, bound, inside⟩ := partitionSectors_bounds enough
  rw [mkfsLayout_auto _ _ enough]
  refine ⟨autoLayout_sound fmt large bound, ?_, write⟩
  show 63 + partitionSectors volume.sectorCount ≤ volume.sectorCount
  omega

/-- A format that reports success is followed by mounts with its type and root directory exactly
when the volume has full sectors and the final number of clusters is one of the type. -/
theorem fMkfs_mountsAs_iff (image : volume.OfImage)
    (mapped : start.volumeContainers drive = some volume)
    (run : (fMkfs drive 0 0 volumeLabel fmt).Outcome start .ok after)
    (same : mkfsLayout start.build 0 0 fmt volume.sectorCount = layout) :
    MountsAs after volume layout.fmt layout ↔ volume.bytesPerSector = sectorSize ∧
      typeOfMaxClust (layout.nClst + 2) = layout.fmt := by
  subst same
  obtain ⟨sound, _, write⟩ := fMkfs_layout mapped run
  obtain ⟨inside, _, _, _⟩ := (fMkfs_ok_iff mapped).mp run
  have still : (start.unmounted drive).volumeContainers drive = some volume := mapped
  have small : volume.bytesPerSector ≤ sectorSize := by
    rw [sectorSize]
    rcases image.sectors with full | half <;> omega
  exact mkfsWrite_mountsAs_iff sound inside still image.near small write

end Agreement

/-! ### Forced types -/

/-- A machine with a blank image mapped to drive 0, behind a blank file system object. -/
def imageMachine (volume : VolumeContainer) : Machine where
  build := .lp64
  fuel := sectorSize
  sys _ := Schedule.kernel
  transfers := 0
  files := FileStore.empty.put volume.fd.node
    (ByteFile.empty.truncate (volume.dataOffset + volume.sectorCount * volume.bytesPerSector))
  volumeContainers drive := if drive = 0 then some volume else none
  fatFs drive := if drive = 0 then some blankFatfs else none
  fsid := 0
  lfnBuf _ := 0
  time _ := 0
  ticks := 0
  written := []

theorem imageMachine_mapped (volume : VolumeContainer) :
    (imageMachine volume).volumeContainers 0 = some volume := rfl

/-- An image of enough sectors that may be written is formatted, and every write succeeds. -/
theorem imageMachine_fMkfs {volume : VolumeContainer} (image : volume.OfImage)
    (writeable : volume.fd.writeable = true) (enough : minSector ≤ volume.sectorCount)
    (volumeLabel : Option (List UInt8)) (fmt : Option FatType) :
    ∃ after, (fMkfs 0 0 0 volumeLabel fmt).Outcome (imageMachine volume) .ok after ∧
      Served 0 volume ((imageMachine volume).unmounted 0) after := by
  obtain ⟨large, bound, _⟩ := partitionSectors_bounds enough
  have small : volume.bytesPerSector ≤ sectorSize := by
    rw [sectorSize]
    rcases image.sectors with full | half <;> omega
  have serves : ((imageMachine volume).unmounted 0).Serves 0 volume :=
    ⟨⟨imageMachine_mapped _, image.near, small, fun _ _ => Schedule.kernel_steady⟩,
      writeable, Nat.le_refl _⟩
  obtain ⟨after, write, served⟩ := mkfsWrite_serves (autoLayout_sound fmt large bound) serves
  exact ⟨after, (fMkfs_ok_iff (imageMachine_mapped _)).mpr ⟨by decide, rfl, enough, write⟩,
    served⟩

/-- A raw image. -/
def rawImage (sectorCount : Nat) : VolumeContainer where
  fd := { node := 0, writeable := true }
  dataOffset := 0
  bytesPerSector := 512
  sectorCount

theorem rawImage_ofImage (sectorCount : Nat) : (rawImage sectorCount).OfImage :=
  ⟨Nat.two_pow_pos 16, Or.inl rfl⟩

/-- The layout of a raw image. -/
def rawLayout (fmt : Option FatType) (sectorCount : Nat) : Layout :=
  mkfsLayout (imageMachine (rawImage sectorCount)).build 0 0 fmt (rawImage sectorCount).sectorCount

section Forced

variable {start after : Machine} {drive : Nat} {volume : VolumeContainer}
  {volumeLabel : Option (List UInt8)}

/-- A forced type is the type of the next mount on full sectors and in the band of disk sizes of
that type. -/
theorem fMkfs_forced_mountsAs_iff {fmt : FatType} (image : volume.OfImage)
    (mapped : start.volumeContainers drive = some volume)
    (run : (fMkfs drive 0 0 volumeLabel (some fmt)).Outcome start .ok after) :
    MountsAs after volume fmt (mkfsLayout start.build 0 0 (some fmt) volume.sectorCount) ↔
      volume.bytesPerSector = sectorSize ∧ ForcedSize fmt volume.sectorCount := by
  obtain ⟨_, _, enough, _⟩ := (fMkfs_ok_iff mapped).mp run
  have mounts := fMkfs_mountsAs_iff image mapped run rfl
  have type : (mkfsLayout start.build 0 0 (some fmt) volume.sectorCount).fmt = fmt := rfl
  rw [type, mkfsLayout_auto _ _ enough, autoLayout_forced_iff fmt enough] at mounts
  rw [mkfsLayout_auto _ _ enough, mounts]

/-- A raw image of 2000 sectors is formatted as FAT12 and mounted as FAT12. -/
theorem fMkfs_forced_mountsAs_iff_fat12 :
    ∃ after, (fMkfs 0 0 0 none (some .fat12)).Outcome (imageMachine (rawImage 2000)) .ok after ∧
      (MountsAs after (rawImage 2000) .fat12 (rawLayout (some .fat12) 2000) ↔
        (rawImage 2000).bytesPerSector = sectorSize ∧
          ForcedSize .fat12 (rawImage 2000).sectorCount) := by
  obtain ⟨after, run, _⟩ :=
    imageMachine_fMkfs (rawImage_ofImage 2000) rfl (by decide) none (some .fat12)
  exact ⟨after, run, fMkfs_forced_mountsAs_iff (rawImage_ofImage 2000) (imageMachine_mapped _)
    run⟩

/-- A raw image of 2000 sectors that is formatted as FAT32 is not mounted as FAT32. -/
theorem not_mountsAs_fat32 :
    ∃ after, (fMkfs 0 0 0 none (some .fat32)).Outcome (imageMachine (rawImage 2000)) .ok after ∧
      ¬ MountsAs after (rawImage 2000) .fat32 (rawLayout (some .fat32) 2000) := by
  obtain ⟨after, run, _⟩ :=
    imageMachine_fMkfs (rawImage_ofImage 2000) rfl (by decide) none (some .fat32)
  have mounts :=
    fMkfs_mountsAs_iff (rawImage_ofImage 2000) (imageMachine_mapped _) run rfl
  exact ⟨after, run, fun claimed => absurd (mounts.mp claimed).2 (by decide)⟩

end Forced

/-! ### Chosen types -/

section Chosen

variable {start after : Machine} {drive : Nat} {volume : VolumeContainer}
  {volumeLabel : Option (List UInt8)}

/-- The type `f_mkfs` chooses is the type of the next mount on full sectors and outside the band of
disk sizes where FAT32 is chosen for clusters its own FATs take away. -/
theorem fMkfs_auto_mountsAs_iff (image : volume.OfImage)
    (mapped : start.volumeContainers drive = some volume)
    (run : (fMkfs drive 0 0 volumeLabel none).Outcome start .ok after) :
    MountsAs after volume (mkfsLayout start.build 0 0 none volume.sectorCount).fmt
        (mkfsLayout start.build 0 0 none volume.sectorCount) ↔
      volume.bytesPerSector = sectorSize ∧ AutoSize volume.sectorCount := by
  obtain ⟨_, _, enough, _⟩ := (fMkfs_ok_iff mapped).mp run
  have mounts := fMkfs_mountsAs_iff image mapped run rfl
  rw [mkfsLayout_auto _ _ enough, autoLayout_auto_iff enough] at mounts
  rw [mkfsLayout_auto _ _ enough, mounts]

/-- A raw image of 2000 sectors is mounted with the type chosen for it. -/
theorem fMkfs_auto_mountsAs_iff_small :
    ∃ after, (fMkfs 0 0 0 none none).Outcome (imageMachine (rawImage 2000)) .ok after ∧
      (MountsAs after (rawImage 2000) (rawLayout none 2000).fmt (rawLayout none 2000) ↔
        (rawImage 2000).bytesPerSector = sectorSize ∧
          AutoSize (rawImage 2000).sectorCount) := by
  obtain ⟨after, run, _⟩ := imageMachine_fMkfs (rawImage_ofImage 2000) rfl (by decide) none none
  exact ⟨after, run, fMkfs_auto_mountsAs_iff (rawImage_ofImage 2000) (imageMachine_mapped _)
    run⟩

/-- A raw image of 2 GiB is laid out as FAT32 and mounted as FAT16. -/
theorem not_mountsAs_twoGiB :
    ∃ after, (fMkfs 0 0 0 none none).Outcome (imageMachine (rawImage (2 ^ 22))) .ok after ∧
      ¬ MountsAs after (rawImage (2 ^ 22)) (rawLayout none (2 ^ 22)).fmt
        (rawLayout none (2 ^ 22)) := by
  obtain ⟨after, run, _⟩ :=
    imageMachine_fMkfs (rawImage_ofImage (2 ^ 22)) rfl (by decide) none none
  have mounts :=
    fMkfs_mountsAs_iff (rawImage_ofImage (2 ^ 22)) (imageMachine_mapped _) run rfl
  exact ⟨after, run, fun claimed => absurd (mounts.mp claimed).2 (by decide)⟩

end Chosen

end Hdfmonkey
