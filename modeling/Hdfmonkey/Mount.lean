/-
This file models how a drive is mounted: `f_mount`, which only registers a file
system object, and `chk_mounted`, which looks for a boot record on the first use of
the drive and fills in the object from it.

`disk_initialize` and `disk_status` always report a disk that is ready and may be
written, so the tests of their results never stop a mount and are left out.

On FAT12 and FAT16 nothing sets the last allocated cluster: it stays what the
memory of the object held before.
-/

import Hdfmonkey.Mkfs

namespace Hdfmonkey

/-! ### The functions -/

/-- What `check_fs` finds: a FAT boot record, another boot record, something else, or an error. -/
inductive CheckFs where
  | fat
  | boot
  | other
  | error
  deriving DecidableEq, Repr

/-- The part of `check_fs` behind the read. -/
def checkRecord (win : Buffer) : CheckFs :=
  if win.loadWord bs55AA ≠ 0xAA55 then .other
  else if SaysFat win bsFilSysType then .fat
  else if SaysFat win bsFilSysType32 then .fat
  else .boot

/-- `check_fs`. -/
def checkFs (fs : Fatfs) (sect : Nat) : Program Machine (CheckFs × Fatfs) := do
  let read ← diskRead fs.drive fs.win sect 1
  return (if read.1 = .ok then checkRecord read.2 else .error, { fs with win := read.2 })

/-- The search for a boot record: in sector 0, and in the first partition if sector 0 is not a FAT
boot record. -/
def findBoot (fs : Fatfs) : Program Machine (CheckFs × Nat × Fatfs) := do
  let top ← checkFs fs 0
  if top.1 = .boot ∧ top.2.win (mbrTable + 4) ≠ 0 then
    let bsect := top.2.win.loadDword (mbrTable + 8)
    let first ← checkFs top.2 bsect
    return (first.1, bsect, first.2)
  return (top.1, 0, top.2)

/-- The 16-bit field of a boot record, or the 32-bit one if that is zero. -/
def wordOrDword (win : Buffer) (short long : Nat) : Nat :=
  if win.loadWord short = 0 then win.loadDword long else win.loadWord short

/-- The number of clusters plus two that a boot record gives. -/
def maxClust (build : Build) (win : Buffer) : Nat :=
  let fsize := build.mul (wordOrDword win bpbFatSz16 bpbFatSz32) (win bpbNumFats).toNat
  let areas := build.sub (build.sub (wordOrDword win bpbTotSec16 bpbTotSec32)
    (win.loadWord bpbRsvdSecCnt)) fsize
  build.add (build.sub areas (win.loadWord bpbRootEntCnt / (sectorSize / 32)) /
    (win bpbSecPerClus).toNat) 2

/-- The file system object after its fields were set from the boot record in its window. -/
def initFatfs (build : Build) (bsect : Nat) (fs : Fatfs) : Fatfs :=
  let win := fs.win
  let sectsFat := wordOrDword win bpbFatSz16 bpbFatSz32
  let fsize := build.mul sectsFat (win bpbNumFats).toNat
  let fatbase := build.add bsect (win.loadWord bpbRsvdSecCnt)
  let nRootdir := win.loadWord bpbRootEntCnt
  let mclst := maxClust build win
  let fmt := typeOfMaxClust mclst
  { fs with
    sectsFat
    nFats := (win bpbNumFats).toNat
    fatbase
    csize := (win bpbSecPerClus).toNat
    nRootdir
    maxClust := mclst
    dirbase := if fmt = .fat32 then win.loadDword bpbRootClus else build.add fatbase fsize
    database := build.add (build.add fatbase fsize) (nRootdir / (sectorSize / 32))
    freeClust := 0xFFFFFFFF
    wflag := false }

/-- "Get fsinfo if needed". -/
def readFsInfo (build : Build) (bsect : Nat) (fs : Fatfs) : Program Machine Fatfs :=
  if typeOfMaxClust fs.maxClust = .fat32 then do
    let fsiSector := build.add bsect (fs.win.loadWord bpbFsInfo)
    let read ← diskRead fs.drive fs.win fsiSector 1
    let win := read.2
    let fs := { fs with fsiFlag := false, fsiSector, win }
    return if read.1 = .ok ∧ win.loadWord bs55AA = 0xAA55 ∧
        win.loadDword fsiLeadSig = 0x41615252 ∧ win.loadDword fsiStrucSig = 0x61417272 then
      { fs with
        lastClust := win.loadDword fsiNxtFree
        freeClust := win.loadDword fsiFreeCount }
    else fs
  else return fs

/-- `++Fsid`. -/
def nextFsid : Program Machine Nat := fun machine =>
  let fsid := (machine.fsid + 1) % 2 ^ 16
  .ok (fsid, { machine with fsid })

/-- The part of `chk_mounted` that "attempts to mount the volume". Dividing by a cluster size of
zero has no outcome. -/
def mountVolume (vol : Nat) (fs : Fatfs) : Program Machine (FResult × Fatfs) := do
  let found ← findBoot { fs with fsType := none, drive := vol }
  let fs := found.2.2
  if found.1 = .error then return (.diskErr, fs)
  if found.1 ≠ .fat ∨ fs.win.loadWord bpbBytsPerSec ≠ sectorSize then
    return (.noFilesystem, fs)
  let machine ← get
  if fs.win bpbSecPerClus = 0 then Program.undefined
  else
    let fs ← readFsInfo machine.build found.2.1 (initFatfs machine.build found.2.1 fs)
    let id ← nextFsid
    return (.ok, { fs with fsType := some (typeOfMaxClust fs.maxClust), winsect := 0, id })

/-- The logical drive at the front of a path, and the rest of the path. Drive 0 is taken if there is
none. -/
def logicalDrive : (path : List UInt8) → Nat × List UInt8
  | digit :: 0x3a :: rest =>
    if 0x30 ≤ digit ∧ digit ≤ 0x39 then (digit.toNat - 0x30, rest)
    else (0, digit :: 0x3a :: rest)
  | path => (0, path)

/-- `chk_mounted`, for a logical drive. The object is stored back whatever comes of the mount. -/
def chkMounted (vol : Nat) : Program Machine FResult := do
  if vol ≥ drives then return .invalidDrive
  let machine ← get
  match machine.fatFs vol with
  | none => return .notEnabled
  | some fs =>
    if fs.fsType.isSome then return .ok
    let mounted ← mountVolume vol fs
    modify fun machine => machine.register vol (some mounted.2)
    return mounted.1

/-- `f_mount`. -/
def fMount (vol : Nat) (fs : Option Fatfs) : Program Machine FResult := do
  if vol ≥ drives then return .invalidDrive
  modify fun machine => machine.register vol (fs.map fun fs => { fs with fsType := none })
  return .ok

/-! ### The fields of a boot record -/

/-- A window shows a sector. -/
def Shows (win bytes : Buffer) : Prop := ∀ index, index < sectorSize → win index = bytes index

theorem shows_blit (buff bytes : Buffer) : Shows (buff.blit 0 sectorSize bytes) bytes :=
  fun index inside => by rw [Buffer.blit_inside _ _ _ _ (Nat.zero_le _) (by omega), Nat.sub_zero]

theorem Shows.word {win bytes : Buffer} (shows : Shows win bytes) {place : Nat}
    (inside : place + 2 ≤ sectorSize) : win.loadWord place = bytes.loadWord place :=
  Buffer.loadWord_congr (shows _ (by omega)) (shows _ (by omega))

theorem Shows.dword {win bytes : Buffer} (shows : Shows win bytes) {place : Nat}
    (inside : place + 4 ≤ sectorSize) : win.loadDword place = bytes.loadDword place :=
  Buffer.loadDword_congr fun _ _ _ => shows _ (by omega)

theorem Shows.checkRecord {win bytes : Buffer} (shows : Shows win bytes) :
    checkRecord win = checkRecord bytes := by
  have named {place : Nat} (inside : place + 4 ≤ sectorSize) :
      SaysFat win place ↔ SaysFat bytes place := by rw [SaysFat, SaysFat, shows.dword inside]
  rw [Hdfmonkey.checkRecord, Hdfmonkey.checkRecord]
  exact if_congr (by rw [shows.word (by decide)]) rfl
    (if_congr (named (by decide)) rfl (if_congr (named (by decide)) rfl rfl))

/-- The partition table is a boot record without a file system. -/
theorem checkRecord_mbrSector (layout : Layout) : checkRecord (mbrSector layout) = .boot := by
  have plain {place : Nat} (before : place + 4 ≤ mbrTable) :
    ¬ SaysFat (mbrSector layout) place := by
    rw [SaysFat, mbrSector_plain layout before]
    decide
  rw [checkRecord, if_neg (not_not.mpr (mbrSector_signature layout)), if_neg (plain (by decide)),
    if_neg (plain (by decide))]

section Boot

variable {layout : Layout} {volumeLabel : Option (List UInt8)} {time : Nat} {fs : Fatfs}

theorem checkRecord_bootSector (layout : Layout) (volumeLabel : Option (List UInt8)) (time : Nat) :
    checkRecord (bootSector layout 0 volumeLabel time) = .fat := by
  have named := bootSector_saysFat layout 0 volumeLabel time
  rw [checkRecord, if_neg (not_not.mpr (bootSector_signature layout 0 volumeLabel time))]
  cases type : layout.fmt <;> rw [type] at named
  · exact if_pos named
  · exact if_pos named
  · rw [if_pos named]
    exact ite_self _

/-- The object describes the areas of a layout. -/
structure Fatfs.Matches (fs : Fatfs) (layout : Layout) : Prop where
  csize : fs.csize = layout.allocsize
  nFats : fs.nFats = Hdfmonkey.nFats
  nRootdir : fs.nRootdir = sectorSize / 32 * layout.nDir
  sectsFat : fs.sectsFat = layout.nFat
  fatbase : fs.fatbase = layout.bFat
  database : fs.database = layout.bData
  maxClust : fs.maxClust = layout.nClst + 2

theorem Layout.Sound.small (sound : layout.Sound) :
    layout.nDir ≤ 32 ∧ layout.nRsv ≤ 33 ∧ layout.allocsize ≤ 64 ∧ layout.nFat ≤ 16001 ∧
      layout.nPart ≤ 131071937 := by
  refine ⟨?_, ?_, sound.allocsize_le, sound.nFat_le, sound.nPart⟩
  · rw [sound.nDir]
    cases layout.fmt <;> decide
  · rw [sound.nRsv]
    cases layout.fmt <;> decide

variable (sound : layout.Sound) (shows : Shows fs.win (bootSector layout 0 volumeLabel time))

include sound shows

theorem wordOrDword_fatSz : wordOrDword fs.win bpbFatSz16 bpbFatSz32 = layout.nFat := by
  have fats := sound.nFat_le
  rw [wordOrDword, shows.word (by decide), shows.dword (by decide)]
  exact bootSector_fatSz layout 0 volumeLabel time sound.nFat_pos (by omega)

theorem wordOrDword_totSec : wordOrDword fs.win bpbTotSec16 bpbTotSec32 = layout.nPart := by
  have size := sound.nPart
  have room := sound.room
  rw [wordOrDword, shows.word (by decide), shows.dword (by decide)]
  exact bootSector_totSec layout 0 volumeLabel time (by omega) (by omega)

/-- The number of clusters a mount computes is the one the format has laid out. -/
theorem maxClust_formatted (build : Build) : maxClust build fs.win = layout.nClst + 2 := by
  obtain ⟨root, reserved, csize, fats, size⟩ := sound.small
  have room := sound.room
  have word := build.le_word
  have clusters : (layout.nPart - layout.nRsv - layout.nFat * nFats - layout.nDir) /
      layout.allocsize ≤ layout.nPart :=
    Nat.le_trans (Nat.div_le_self _ _) (by omega)
  have entries : fs.win.loadWord bpbRootEntCnt / (sectorSize / 32) = layout.nDir := by
    rw [shows.word (by decide), bootSector_rootEntCnt _ _ _ _ root, sectorSize]
    omega
  have perCluster : (fs.win bpbSecPerClus).toNat = layout.allocsize := by
    rw [shows _ (by decide), bootSector_secPerClus _ _ _ _ (by omega)]
  have reservedIs : fs.win.loadWord bpbRsvdSecCnt = layout.nRsv := by
    rw [shows.word (by decide), bootSector_rsvdSecCnt _ _ _ _ (by omega)]
  have copies : (fs.win bpbNumFats).toNat = nFats := by
    rw [shows _ (by decide), bootSector_numFats]
  simp only [maxClust, wordOrDword_fatSz sound shows, wordOrDword_totSec sound shows, entries,
    perCluster, reservedIs, copies, sound.nClst]
  rw [nFats] at *
  have fsize : build.mul layout.nFat 2 = layout.nFat * 2 := build.mul_of_lt (by omega)
  have behindReserved : build.sub layout.nPart layout.nRsv = layout.nPart - layout.nRsv :=
    build.sub_of_le (by omega) (by omega)
  have behindFats : build.sub (layout.nPart - layout.nRsv) (layout.nFat * 2) =
      layout.nPart - layout.nRsv - layout.nFat * 2 := build.sub_of_le (by omega) (by omega)
  have behindRoot : build.sub (layout.nPart - layout.nRsv - layout.nFat * 2) layout.nDir =
      layout.nPart - layout.nRsv - layout.nFat * 2 - layout.nDir :=
    build.sub_of_le (by omega) (by omega)
  rw [fsize, behindReserved, behindFats, behindRoot]
  exact build.add_of_lt (by omega)

/-- The fields of a formatted volume describe the layout. -/
theorem initFatfs_formatted (build : Build) :
    (initFatfs build layout.bPart fs).Matches layout := by
  obtain ⟨root, reserved, csize, fats, size⟩ := sound.small
  have start := sound.bPart
  have word := build.le_word
  have entries : fs.win.loadWord bpbRootEntCnt = sectorSize / 32 * layout.nDir := by
    rw [shows.word (by decide), bootSector_rootEntCnt _ _ _ _ root, sectorSize]
  have reservedIs : fs.win.loadWord bpbRsvdSecCnt = layout.nRsv := by
    rw [shows.word (by decide), bootSector_rsvdSecCnt _ _ _ _ (by omega)]
  have copies : (fs.win bpbNumFats).toNat = nFats := by
    rw [shows _ (by decide), bootSector_numFats]
  have fatbase : build.add layout.bPart (fs.win.loadWord bpbRsvdSecCnt) = layout.bFat := by
    rw [reservedIs, build.add_of_lt (by omega), Layout.bFat]
  have fsize : build.mul layout.nFat nFats = layout.nFat * nFats := by
    rw [nFats, build.mul_of_lt (by omega)]
  constructor
  · rw [initFatfs]
    dsimp only
    rw [shows _ (by decide), bootSector_secPerClus _ _ _ _ (by omega)]
  · exact copies
  · exact entries
  · exact wordOrDword_fatSz sound shows
  · exact fatbase
  · rw [initFatfs]
    dsimp only
    have rootIs : sectorSize / 32 * layout.nDir / (sectorSize / 32) = layout.nDir := by
      rw [sectorSize]
      omega
    have behindFats : build.add (63 + layout.nRsv) (layout.nFat * 2) =
        63 + layout.nRsv + layout.nFat * 2 := build.add_of_lt (by omega)
    rw [fatbase, wordOrDword_fatSz sound shows, copies, fsize, entries, rootIs, Layout.bData,
      Layout.bDir, Layout.bFat, start, nFats, behindFats]
    exact build.add_of_lt (by omega)
  · exact maxClust_formatted sound shows build

/-- The root directory is where it was laid out if the type is the one laid out. -/
theorem initFatfs_dirbase (build : Build)
    (agrees : typeOfMaxClust (layout.nClst + 2) = layout.fmt) :
    (initFatfs build layout.bPart fs).dirbase =
      if layout.fmt = .fat32 then 2 else layout.bDir := by
  obtain ⟨root, reserved, csize, fats, size⟩ := sound.small
  have start := sound.bPart
  have word := build.le_word
  have matched := initFatfs_formatted sound shows build
  have fatbase : build.add layout.bPart (fs.win.loadWord bpbRsvdSecCnt) = layout.bFat :=
    matched.fatbase
  have sectsFat : wordOrDword fs.win bpbFatSz16 bpbFatSz32 = layout.nFat := matched.sectsFat
  have copies : (fs.win bpbNumFats).toNat = nFats := matched.nFats
  have fsize : build.mul layout.nFat nFats = layout.nFat * nFats := by
    rw [nFats, build.mul_of_lt (by omega)]
  rw [initFatfs]
  dsimp only
  rw [maxClust_formatted sound shows build, agrees]
  split_ifs with fat32
  · rw [shows.dword (by decide), bootSector_rootClus _ _ _ _ fat32]
  · rw [fatbase, sectsFat, copies, fsize, Layout.bDir, Layout.bFat, start, nFats]
    exact build.add_of_lt (by omega)

end Boot

/-! ### Mounting a formatted volume -/

/-- The partition table and the boot record of a format are in place. -/
structure Formatted (machine : Machine) (volume : VolumeContainer) (layout : Layout)
    (volumeLabel : Option (List UInt8)) (time : Nat) : Prop where
  mbr : machine.Holds volume 0 (mbrSector layout)
  boot : machine.Holds volume layout.bPart (bootSector layout 0 volumeLabel time)

/-- The machine after some calls of the volume that left it as it was. -/
def Machine.called (machine : Machine) (calls : Nat) : Machine :=
  { machine with transfers := machine.transfers + calls }

theorem Machine.Reads.called {machine : Machine} {drive : Nat} {volume : VolumeContainer}
    (reads : machine.Reads drive volume) (calls : Nat) :
    (machine.called calls).Reads drive volume where
  mapped := reads.mapped
  near := reads.near
  small := reads.small
  steady call later := reads.steady call (Nat.le_trans (Nat.le_add_right _ _) later)

theorem Machine.Holds.called {machine : Machine} {volume : VolumeContainer} {sector : Nat}
    {bytes : Buffer} (holds : machine.Holds volume sector bytes) (calls : Nat) :
    (machine.called calls).Holds volume sector bytes := ⟨holds.inside, holds.byte⟩

section Run

variable {machine finish : Machine} {volume : VolumeContainer} {layout : Layout}
  {volumeLabel : Option (List UInt8)} {time : Nat} {fs mounted : Fatfs}

theorem checkFs_holds {sector : Nat} {bytes : Buffer} (reads : machine.Reads fs.drive volume)
    (full : volume.bytesPerSector = sectorSize) (holds : machine.Holds volume sector bytes)
    (near : sector < reach) :
    (checkFs fs sector).Outcome machine
      (checkRecord bytes, { fs with win := fs.win.blit 0 sectorSize bytes })
      (machine.called 1) := by
  refine Program.outcome_bind.mpr ⟨_, _, diskRead_holds reads full holds near,
    Program.outcome_pure.mpr ⟨?_, rfl⟩⟩
  rw [if_pos rfl, (shows_blit _ _).checkRecord]

/-- On a formatted volume the search passes over the partition table and ends at the boot
record. -/
theorem findBoot_formatted (reads : machine.Reads fs.drive volume)
    (full : volume.bytesPerSector = sectorSize) (sound : layout.Sound)
    (formatted : Formatted machine volume layout volumeLabel time) :
    ∃ win, Shows win (bootSector layout 0 volumeLabel time) ∧
      (findBoot fs).Outcome machine (.fat, layout.bPart, { fs with win }) (machine.called 2) := by
  have start := sound.bPart
  have shows := shows_blit fs.win (mbrSector layout)
  refine ⟨(fs.win.blit 0 sectorSize (mbrSector layout)).blit 0 sectorSize
    (bootSector layout 0 volumeLabel time), shows_blit _ _, ?_⟩
  refine Program.outcome_bind.mpr ⟨_, _,
    checkFs_holds reads full formatted.mbr (reach_pos), ?_⟩
  have first : (fs.win.blit 0 sectorSize (mbrSector layout)).loadDword (mbrTable + 8) =
      layout.bPart := by
    rw [shows.dword (by decide), mbrSector_start, start]
  have partitioned : checkRecord (mbrSector layout) = .boot ∧
      fs.win.blit 0 sectorSize (mbrSector layout) (mbrTable + 4) ≠ 0 := by
    rw [shows _ (by decide)]
    exact ⟨checkRecord_mbrSector layout, mbrSector_type layout⟩
  dsimp only
  rw [if_pos partitioned, first]
  refine Program.outcome_bind.mpr ⟨_, _, checkFs_holds (reads.called 1) full
    (formatted.boot.called 1) (by rw [start, reach]; omega), Program.outcome_pure.mpr ⟨?_, rfl⟩⟩
  rw [checkRecord_bootSector]

/-- Reading the FSInfo sector leaves the areas alone. -/
theorem readFsInfo_matches {build : Build} {bsect : Nat} {informed : Fatfs}
    (run : (readFsInfo build bsect fs).Outcome machine informed finish) :
    informed.maxClust = fs.maxClust ∧ informed.dirbase = fs.dirbase ∧
      ∀ layout, fs.Matches layout → informed.Matches layout := by
  rw [readFsInfo] at run
  split_ifs at run
  · obtain ⟨read, middle, _, run⟩ := Program.outcome_bind.mp run
    obtain ⟨rfl, _⟩ := Program.outcome_pure.mp run
    split_ifs <;> exact ⟨rfl, rfl, fun _ same => { same with }⟩
  · obtain ⟨rfl, _⟩ := Program.outcome_pure.mp run
    exact ⟨rfl, rfl, fun _ => id⟩

/-- The FSInfo sector can be read where a format has put it. -/
theorem readFsInfo_runs {build : Build} {bsect : Nat}
    (reads : machine.Reads fs.drive volume) (full : volume.bytesPerSector = sectorSize)
    (there : typeOfMaxClust fs.maxClust = .fat32 →
      build.add bsect (fs.win.loadWord bpbFsInfo) < reach ∧
        ∃ bytes, machine.Holds volume (build.add bsect (fs.win.loadWord bpbFsInfo)) bytes) :
    ∃ informed finish, (readFsInfo build bsect fs).Outcome machine informed finish := by
  rw [readFsInfo]
  split_ifs with fat32
  · obtain ⟨near, bytes, holds⟩ := there fat32
    exact ⟨_, _, Program.outcome_bind.mpr
      ⟨_, _, diskRead_holds reads full holds near, Program.outcome_pure.mpr ⟨rfl, rfl⟩⟩⟩
  · exact ⟨fs, machine, Program.outcome_pure.mpr ⟨rfl, rfl⟩⟩

/-- Mounting a formatted volume is reading its FSInfo sector. -/
theorem mountVolume_formatted {vol : Nat} (reads : machine.Reads vol volume)
    (full : volume.bytesPerSector = sectorSize) (sound : layout.Sound)
    (formatted : Formatted machine volume layout volumeLabel time) (fs : Fatfs) :
    ∃ win, Shows win (bootSector layout 0 volumeLabel time) ∧ ∀ mounted finish,
      (mountVolume vol fs).Outcome machine (.ok, mounted) finish ↔ ∃ informed middle,
        (readFsInfo machine.build layout.bPart (initFatfs machine.build layout.bPart
          { fs with fsType := none, drive := vol, win })).Outcome (machine.called 2) informed
            middle ∧
        mounted = { informed with
          fsType := some (typeOfMaxClust informed.maxClust)
          winsect := 0
          id := (middle.fsid + 1) % 2 ^ 16 } ∧
        finish = { middle with fsid := (middle.fsid + 1) % 2 ^ 16 } := by
  have bound : machine.Reads { fs with fsType := none, drive := vol }.drive volume := reads
  obtain ⟨win, shows, found⟩ := findBoot_formatted bound full sound formatted
  refine ⟨win, shows, fun mounted finish => ?_⟩
  have sectors : win.loadWord bpbBytsPerSec = sectorSize := by
    rw [shows.word (by decide), bootSector_bytsPerSec]
  have clusters : win bpbSecPerClus ≠ 0 := by
    intro zero
    have perCluster := bootSector_secPerClus layout 0 volumeLabel time
      (Nat.lt_of_le_of_lt sound.allocsize_le (by decide))
    rw [← shows _ (by decide), zero] at perCluster
    exact Nat.ne_of_gt sound.allocsize_pos perCluster.symm
  constructor
  · intro run
    obtain ⟨_, _, again, run⟩ := Program.outcome_bind.mp run
    obtain ⟨rfl, rfl⟩ := again.unique found
    dsimp only at run
    rw [if_neg (by decide), if_neg (by simp [sectors])] at run
    obtain ⟨_, _, taken, afterGet⟩ := Program.outcome_bind.mp run
    obtain ⟨rfl, rfl⟩ := Program.outcome_get.mp taken
    rw [if_neg clusters] at afterGet
    obtain ⟨informed, middle, info, afterInfo⟩ := Program.outcome_bind.mp afterGet
    obtain ⟨_, _, counted, afterCount⟩ := Program.outcome_bind.mp afterInfo
    obtain ⟨rfl, rfl⟩ := Prod.mk.inj (Except.ok.inj counted)
    obtain ⟨same, rfl⟩ := Program.outcome_pure.mp afterCount
    exact ⟨informed, middle, info, (Prod.mk.inj same).2, rfl⟩
  · rintro ⟨informed, middle, info, rfl, rfl⟩
    refine Program.outcome_bind.mpr ⟨_, _, found, ?_⟩
    dsimp only
    rw [if_neg (by decide), if_neg (by simp [sectors])]
    refine Program.outcome_bind.mpr ⟨_, _, Program.outcome_get.mpr ⟨rfl, rfl⟩, ?_⟩
    rw [if_neg clusters]
    exact Program.outcome_bind.mpr ⟨informed, middle, info, Program.outcome_bind.mpr ⟨_, _, rfl,
      Program.outcome_pure.mpr ⟨rfl, rfl⟩⟩⟩

/-- The first use of a registered drive mounts it. -/
theorem chkMounted_unmounted {vol : Nat} {result : FResult} (inside : vol < drives)
    (registered : machine.fatFs vol = some fs) (unmounted : fs.fsType = none) :
    (chkMounted vol).Outcome machine result finish ↔ ∃ mounted middle,
      (mountVolume vol fs).Outcome machine (result, mounted) middle ∧
        finish = middle.register vol (some mounted) := by
  have first : ¬ (none : Option FatType).isSome := by decide
  rw [chkMounted, if_neg (Nat.not_le.mpr inside)]
  constructor
  · intro run
    obtain ⟨_, _, taken, afterGet⟩ := Program.outcome_bind.mp run
    obtain ⟨rfl, rfl⟩ := Program.outcome_get.mp taken
    simp only [registered, unmounted, if_neg first] at afterGet
    obtain ⟨⟨_, mounted⟩, middle, mount, afterMount⟩ := Program.outcome_bind.mp afterGet
    obtain ⟨_, _, stored, returned⟩ := Program.outcome_bind.mp afterMount
    obtain ⟨rfl, rfl⟩ := Program.outcome_pure.mp returned
    exact ⟨mounted, middle, mount, Program.outcome_modify.mp stored⟩
  · rintro ⟨mounted, middle, mount, rfl⟩
    refine Program.outcome_bind.mpr ⟨_, _, Program.outcome_get.mpr ⟨rfl, rfl⟩, ?_⟩
    simp only [registered, unmounted, if_neg first]
    exact Program.outcome_bind.mpr ⟨_, _, mount, Program.outcome_bind.mpr ⟨(), _,
      Program.outcome_modify.mpr rfl, Program.outcome_pure.mpr ⟨rfl, rfl⟩⟩⟩

/-- With less than full sectors the signature is not read, so that a window of zeros is not taken
for a boot record. -/
theorem findBoot_short {found : CheckFs × Nat × Fatfs}
    (mapped : machine.volumeContainers fs.drive = some volume)
    (short : volume.bytesPerSector < sectorSize) (zero : fs.win = Buffer.zero)
    (run : (findBoot fs).Outcome machine found finish) : found.1 ≠ .fat := by
  obtain ⟨top, _, first, afterFirst⟩ := Program.outcome_bind.mp run
  obtain ⟨⟨result, bytes⟩, _, read, returned⟩ := Program.outcome_bind.mp first
  obtain ⟨rfl, _⟩ := Program.outcome_pure.mp returned
  rw [sectorSize] at short
  have behind : bytes 511 = 0 := by
    rw [diskRead_behind mapped (by omega) read 511 (by omega), zero]
    rfl
  have unsigned : checkRecord bytes = .other := by
    have low := (bytes 510).toNat_lt
    refine if_pos ?_
    rw [bs55AA, Buffer.loadWord, behind, UInt8.toNat_zero]
    omega
  simp only [unsigned] at afterFirst
  by_cases ok : result = .ok
  · rw [if_pos ok, if_neg (fun both => absurd both.1 (by decide))] at afterFirst
    rw [(Program.outcome_pure.mp afterFirst).1]
    exact CheckFs.noConfusion
  · rw [if_neg ok, if_neg (fun both => absurd both.1 (by decide))] at afterFirst
    rw [(Program.outcome_pure.mp afterFirst).1]
    exact CheckFs.noConfusion

theorem mountVolume_short {vol : Nat} {result : FResult}
    (mapped : machine.volumeContainers vol = some volume)
    (short : volume.bytesPerSector < sectorSize) (zero : fs.win = Buffer.zero)
    (run : (mountVolume vol fs).Outcome machine (result, mounted) finish) : result ≠ .ok := by
  obtain ⟨found, middle, search, afterSearch⟩ := Program.outcome_bind.mp run
  have lost := findBoot_short (by exact mapped) short (by exact zero) search
  by_cases failed : found.1 = .error
  · simp only [if_pos failed] at afterSearch
    rw [(Prod.mk.inj (Program.outcome_pure.mp afterSearch).1).1]
    decide
  · simp only [if_neg failed, if_pos (Or.inl lost)] at afterSearch
    rw [(Prod.mk.inj (Program.outcome_pure.mp afterSearch).1).1]
    decide

end Run

end Hdfmonkey
