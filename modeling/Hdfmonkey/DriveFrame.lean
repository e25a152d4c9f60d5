/-
This file proves what the calls of the driver keep.

A property of the machine is kept by the driver if reading does not hurt it, if
writing to certain drives does not, and if a file system object may be changed as long
as it stays bound to its drive and is not marked as changed on any other drive. Every
function of the driver then keeps the property: those that only look things up from any
object, those that write on the drives that may be written.
-/

import Hdfmonkey.FatFile

namespace Hdfmonkey

namespace Ff

open Program

/-- An object in use is bound to its drive, and its window is changed only on a drive that may be
written. -/
def Live (writable : Nat → Prop) (vol : Nat) (fs : Fatfs) : Prop :=
  fs.fsType.isSome = true ∧ fs.drive = vol ∧ (fs.wflag = true → writable vol)

/-- A property that the driver keeps. -/
structure Keeper (writable : Nat → Prop) (kept : Machine → Prop) : Prop where
  bound : ∀ {machine vol fs}, kept machine → machine.fatFs vol = some fs →
    fs.fsType.isSome = true → Live writable vol fs
  object : ∀ {machine vol fs}, kept machine → (fs.fsType.isSome = true → Live writable vol fs) →
    kept (machine.register vol (some fs))
  read : ∀ {machine drive buff sector count after}, kept machine →
    (diskRead drive buff sector count).Comes machine after → kept after
  write : ∀ {machine drive buff sector count after}, writable drive → kept machine →
    (diskWrite drive buff sector count).Comes machine after → kept after
  rest : ∀ {machine} transfers fsid lfnBuf ticks, kept machine →
    kept { machine with transfers, fsid, lfnBuf, ticks }

/-- The property holds, and a drive is mounted. -/
def Mounted (kept : Machine → Prop) (vol : Nat) (machine : Machine) : Prop :=
  kept machine ∧ ∃ fs, machine.fatFs vol = some fs ∧ fs.fsType.isSome = true

section Frame

variable {machine after : Machine} {drive sector count : Nat} {buff : Buffer}

/-- A read changes nothing but the number of the transfers. -/
theorem diskRead_comes (run : (diskRead drive buff sector count).Comes machine after) :
    ∃ transfers, after = { machine with transfers } := by
  unfold Comes Outcome diskRead at run
  rcases run with ⟨result, run⟩ | run
  · split at run
    · exact nomatch run
    · dsimp only at run
      split at run
      · exact nomatch run
      · exact ⟨_, (Prod.mk.inj (Except.ok.inj run)).2.symm⟩
  · split at run
    · exact ⟨machine.transfers, (Except.error.inj run).symm⟩
    · dsimp only at run
      split at run
      · exact ⟨machine.transfers, (Except.error.inj run).symm⟩
      · exact nomatch run

/-- A write is listed, whatever comes of it, and changes the file of its volume, if any. -/
theorem diskWrite_comes (run : (diskWrite drive buff sector count).Comes machine after) :
    ∃ transfers files result,
      after = { machine with
        transfers
        files
        written := { drive, sector, count, result } :: machine.written } ∧
      (files = machine.files ∨ ∃ volume sys position moved written,
        machine.volumeContainers drive = some volume ∧
        imageFileWrite machine.fuel sys volume (machine.files.file volume.fd.node) position buff
          (count * volume.bytesPerSector) = some (moved, written) ∧
        files = machine.files.put volume.fd.node written) := by
  unfold Comes Outcome diskWrite at run
  rcases run with ⟨result, run⟩ | run
  · dsimp only at run
    split at run
    · exact nomatch run
    · rename_i volume mapped
      split at run
      · exact nomatch run
      · rename_i moved written write
        exact ⟨_, _, _, (Prod.mk.inj (Except.ok.inj run)).2.symm,
          Or.inr ⟨volume, _, _, moved, written, mapped, write, rfl⟩⟩
  · dsimp only at run
    split at run
    · exact ⟨_, _, _, (Except.error.inj run).symm, Or.inl rfl⟩
    · split at run
      · exact ⟨_, _, _, (Except.error.inj run).symm, Or.inl rfl⟩
      · exact nomatch run

theorem diskRead_fatFs (run : (diskRead drive buff sector count).Comes machine after) :
    after.fatFs = machine.fatFs := by
  obtain ⟨_, rfl⟩ := diskRead_comes run
  rfl

theorem diskWrite_fatFs (run : (diskWrite drive buff sector count).Comes machine after) :
    after.fatFs = machine.fatFs := by
  obtain ⟨_, _, _, rfl, _⟩ := diskWrite_comes run
  rfl

end Frame

section Keep

variable {writable : Nat → Prop} {kept : Machine → Prop} {vol : Nat}
  (keeper : Keeper writable kept)

include keeper

/-! ### The calls that everything is made of -/

theorem diskRead_keeps {drive sector count : Nat} {buff : Buffer} :
    Keeps (Mounted kept vol) (diskRead drive buff sector count) fun _ => True := by
  refine keeps_of_comes fun machine after holds run => ⟨keeper.read holds.1 run, ?_⟩
  rw [diskRead_fatFs run]
  exact holds.2

theorem diskWrite_keeps {drive sector count : Nat} {buff : Buffer} (may : writable drive) :
    Keeps (Mounted kept vol) (diskWrite drive buff sector count) fun _ => True := by
  refine keeps_of_comes fun machine after holds run => ⟨keeper.write may holds.1 run, ?_⟩
  rw [diskWrite_fatFs run]
  exact holds.2

theorem fatfs_keeps : Keeps (Mounted kept vol) (fatfs vol) (Live writable vol) := by
  refine guards_get_bind fun machine ⟨holds, fs, registered, mounted⟩ => ?_
  rw [registered]
  refine guards_pure fun state same => ?_
  rw [same]
  exact ⟨⟨holds, fs, registered, mounted⟩, keeper.bound holds registered mounted⟩

theorem modifyFatfs_keeps {change : Fatfs → Fatfs}
    (stays : ∀ fs, Live writable vol fs → Live writable vol (change fs)) :
    Keeps (Mounted kept vol) (modifyFatfs vol change) fun _ => True := by
  refine keeps_modify ?_
  rintro machine ⟨holds, fs, registered, mounted⟩
  have live := stays fs (keeper.bound holds registered mounted)
  rw [registered]
  exact ⟨keeper.object holds fun _ => live, change fs, machine.fatFs_register _ _, live.1⟩

theorem lfnBuf_keeps {change : (Nat → Nat) → Nat → Nat} :
    Keeps (Mounted kept vol)
      (modify fun machine : Machine => { machine with lfnBuf := change machine.lfnBuf })
      fun _ => True :=
  keeps_modify fun machine holds =>
    ⟨keeper.rest machine.transfers machine.fsid
      (change machine.lfnBuf) machine.ticks holds.1, holds.2⟩

theorem getFattime_keeps : Keeps (Mounted kept vol) getFattime fun _ => True :=
  fun machine holds =>
    ⟨⟨keeper.rest machine.transfers machine.fsid machine.lfnBuf (machine.ticks + 1) holds.1,
      holds.2⟩, trivial⟩

/-! ### The window -/

theorem writeCopies_keeps {build : Build} {fs : Fatfs} (may : writable fs.drive)
    (count wsect : Nat) : Keeps (Mounted kept vol) (writeCopies build fs count wsect) fun _ =>
    True := by
  induction count generalizing wsect with
  | zero => exact keeps_pure trivial
  | succ count inductionHypothesis =>
    exact keeps_bind (diskWrite_keeps keeper may) fun _ _ => inductionHypothesis _

theorem writeBack_keeps : Keeps (Mounted kept vol) (writeBack vol) fun _ => True := by
  refine keeps_bind (fatfs_keeps keeper) fun fs live => keeps_ite (fun dirty => ?_) fun _ =>
    keeps_pure trivial
  have may : writable fs.drive := live.2.1.symm ▸ live.2.2 dirty
  refine keeps_bind (diskWrite_keeps keeper may) fun result _ => keeps_ite
    (fun _ => keeps_pure trivial) fun _ => ?_
  refine keeps_bind (modifyFatfs_keeps keeper fun fs live => ⟨live.1, live.2.1, nofun⟩) fun _ _ =>
    keeps_bind keeps_get fun machine _ => ?_
  refine keeps_ite (fun _ => ?_) fun _ => keeps_pure trivial
  exact keeps_bind (writeCopies_keeps keeper may _ _) fun _ _ => keeps_pure trivial

theorem moveWindow_keeps (sector : Nat) :
    Keeps (Mounted kept vol) (moveWindow vol sector) fun _ => True := by
  refine keeps_bind (fatfs_keeps keeper) fun fs _ => keeps_ite (fun _ => keeps_pure trivial)
    fun _ => keeps_bind (writeBack_keeps keeper) fun _ _ => keeps_ite
      (fun _ => keeps_pure trivial) fun _ => keeps_ite (fun _ => keeps_pure trivial) fun _ => ?_
  refine keeps_bind (diskRead_keeps keeper) fun _ _ =>
    keeps_bind (modifyFatfs_keeps keeper fun _ live => live) fun _ _ => keeps_ite
      (fun _ => keeps_pure trivial) fun _ => ?_
  exact keeps_bind (modifyFatfs_keeps keeper fun _ live => live) fun _ _ => keeps_pure trivial

/-! ### Clusters -/

theorem getFat_keeps (clst : Nat) : Keeps (Mounted kept vol) (getFat vol clst) fun _ => True := by
  refine keeps_bind (fatfs_keeps keeper) fun fs _ => keeps_ite (fun _ => keeps_pure trivial)
    fun _ => keeps_bind keeps_get fun machine _ => ?_
  cases fs.fsType with
  | none => exact keeps_pure trivial
  | some type =>
    cases type with
    | fat12 =>
      refine keeps_bind (moveWindow_keeps keeper _) fun _ _ => keeps_ite
        (fun _ => keeps_pure trivial) fun _ => keeps_bind (fatfs_keeps keeper) fun _ _ => ?_
      refine keeps_bind (moveWindow_keeps keeper _) fun _ _ => keeps_ite
        (fun _ => keeps_pure trivial) fun _ => keeps_bind (fatfs_keeps keeper) fun _ _ => ?_
      exact keeps_pure trivial
    | fat16 =>
      exact keeps_bind (moveWindow_keeps keeper _) fun _ _ => keeps_ite
        (fun _ => keeps_pure trivial) fun _ => keeps_bind (fatfs_keeps keeper) fun _ _ =>
          keeps_pure trivial
    | fat32 =>
      exact keeps_bind (moveWindow_keeps keeper _) fun _ _ => keeps_ite
        (fun _ => keeps_pure trivial) fun _ => keeps_bind (fatfs_keeps keeper) fun _ _ =>
          keeps_pure trivial

section Write

variable (may : writable vol)

include may

/-- On a drive that may be written the window may be marked as changed. -/
theorem dirty_keeps {change : Fatfs → Fatfs} (drive : ∀ fs, (change fs).drive = fs.drive)
    (type : ∀ fs, (change fs).fsType = fs.fsType) :
    Keeps (Mounted kept vol) (modifyFatfs vol change) fun _ => True := by
  refine modifyFatfs_keeps keeper fun fs live => ⟨?_, ?_, fun _ => may⟩
  · rw [type]
    exact live.1
  · rw [drive]
    exact live.2.1

theorem putEntry_keeps (clst val : Nat) (fs : Fatfs) :
    Keeps (Mounted kept vol) (putEntry vol clst val fs) fun _ => True := by
  refine keeps_bind keeps_get fun machine _ => ?_
  cases fs.fsType with
  | none => exact keeps_pure trivial
  | some type =>
    cases type with
    | fat12 =>
      refine keeps_bind (moveWindow_keeps keeper _) fun _ _ => keeps_ite
        (fun _ => keeps_pure trivial) fun _ =>
          keeps_bind (dirty_keeps keeper may (fun _ => rfl) fun _ => rfl) fun _ _ => ?_
      exact keeps_bind (moveWindow_keeps keeper _) fun _ _ => keeps_ite
        (fun _ => keeps_pure trivial) fun _ =>
          keeps_bind (modifyFatfs_keeps keeper fun _ live => live) fun _ _ => keeps_pure trivial
    | fat16 =>
      exact keeps_bind (moveWindow_keeps keeper _) fun _ _ => keeps_ite
        (fun _ => keeps_pure trivial) fun _ =>
          keeps_bind (modifyFatfs_keeps keeper fun _ live => live) fun _ _ => keeps_pure trivial
    | fat32 =>
      exact keeps_bind (moveWindow_keeps keeper _) fun _ _ => keeps_ite
        (fun _ => keeps_pure trivial) fun _ =>
          keeps_bind (modifyFatfs_keeps keeper fun _ live => live) fun _ _ => keeps_pure trivial

theorem putFat_keeps (clst val : Nat) :
    Keeps (Mounted kept vol) (putFat vol clst val) fun _ => True := by
  refine keeps_bind (fatfs_keeps keeper) fun fs _ => keeps_ite (fun _ => keeps_pure trivial)
    fun _ => keeps_bind (putEntry_keeps keeper may clst val fs) fun _ _ => ?_
  exact keeps_bind (dirty_keeps keeper may (fun _ => rfl) fun _ => rfl) fun _ _ =>
    keeps_pure trivial

theorem removeLinks_keeps (fuel clst : Nat) :
    Keeps (Mounted kept vol) (removeLinks vol fuel clst) fun _ => True := by
  induction fuel generalizing clst with
  | zero => exact keeps_undefined
  | succ fuel inductionHypothesis =>
    refine keeps_bind (fatfs_keeps keeper) fun fs _ => keeps_ite (fun _ => keeps_pure trivial)
      fun _ => keeps_bind (getFat_keeps keeper clst) fun nxt _ => ?_
    refine keeps_ite (fun _ => keeps_pure trivial) fun _ => keeps_ite
      (fun _ => keeps_pure trivial) fun _ => keeps_ite (fun _ => keeps_pure trivial) fun _ => ?_
    refine keeps_bind (putFat_keeps keeper may _ _) fun _ _ => keeps_ite
      (fun _ => keeps_pure trivial) fun _ => keeps_bind keeps_get fun machine _ => ?_
    refine keeps_bind (modifyFatfs_keeps keeper fun fs live => ?_) fun _ _ => inductionHypothesis _
    split_ifs
    · exact live
    · exact live

theorem removeChain_keeps (clst : Nat) :
    Keeps (Mounted kept vol) (removeChain vol clst) fun _ => True := by
  refine keeps_bind (fatfs_keeps keeper) fun fs _ => keeps_ite (fun _ => keeps_pure trivial)
    fun _ => keeps_bind keeps_get fun machine _ => ?_
  exact removeLinks_keeps keeper may _ _

omit may in
theorem chainStart_keeps (clst : Nat) :
    Keeps (Mounted kept vol) (chainStart vol clst) fun _ => True := by
  refine keeps_bind (fatfs_keeps keeper) fun fs _ => keeps_ite (fun _ => keeps_pure trivial)
    fun _ => keeps_bind (getFat_keeps keeper clst) fun cs _ => ?_
  exact keeps_ite (fun _ => keeps_pure trivial) fun _ => keeps_ite (fun _ => keeps_pure trivial)
    fun _ => keeps_pure trivial

omit may in
theorem searchFree_keeps (mcl scl fuel ncl : Nat) :
    Keeps (Mounted kept vol) (searchFree vol mcl scl fuel ncl) fun _ => True := by
  induction fuel generalizing ncl with
  | zero => exact keeps_undefined
  | succ fuel inductionHypothesis =>
    refine keeps_ite (fun _ => keeps_pure trivial) fun _ =>
      keeps_bind (getFat_keeps keeper _) fun cs _ => ?_
    exact keeps_ite (fun _ => keeps_pure trivial) fun _ => keeps_ite
      (fun _ => keeps_pure trivial) fun _ => keeps_ite (fun _ => keeps_pure trivial) fun _ =>
        inductionHypothesis _

theorem linkPrevious_keeps (clst ncl : Nat) :
    Keeps (Mounted kept vol) (linkPrevious vol clst ncl) fun _ => True :=
  keeps_ite (fun _ => keeps_pure trivial) fun _ => putFat_keeps keeper may _ _

theorem createChain_keeps (clst : Nat) :
    Keeps (Mounted kept vol) (createChain vol clst) fun _ => True := by
  refine keeps_bind (fatfs_keeps keeper) fun fs _ =>
    keeps_bind (chainStart_keeps keeper clst) fun start _ => ?_
  cases start with
  | error result => exact keeps_pure trivial
  | ok scl =>
    refine keeps_bind (searchFree_keeps keeper _ _ _ _) fun free _ => ?_
    cases free with
    | error result => exact keeps_pure trivial
    | ok ncl =>
      refine keeps_bind (putFat_keeps keeper may _ _) fun _ _ => keeps_ite
        (fun _ => keeps_pure trivial) fun _ => ?_
      refine keeps_bind (linkPrevious_keeps keeper may _ _) fun _ _ => keeps_ite
        (fun _ => keeps_pure trivial) fun _ => keeps_bind keeps_get fun machine _ => ?_
      refine keeps_bind (modifyFatfs_keeps keeper fun fs live => ?_) fun _ _ => keeps_pure trivial
      split_ifs
      · exact live
      · exact live

theorem sync_keeps : Keeps (Mounted kept vol) (sync vol) fun _ => True := by
  refine keeps_bind (moveWindow_keeps keeper 0) fun _ _ => keeps_ite
    (fun _ => keeps_pure trivial) fun _ => keeps_bind (fatfs_keeps keeper) fun fs _ =>
      keeps_ite (fun _ => ?_) fun _ => keeps_pure trivial
  refine keeps_bind (modifyFatfs_keeps keeper fun _ live => live) fun _ _ =>
    keeps_bind (fatfs_keeps keeper) fun fs live =>
      keeps_bind (diskWrite_keeps keeper (live.2.1.symm ▸ may)) fun _ _ => ?_
  exact keeps_bind (modifyFatfs_keeps keeper fun _ live => live) fun _ _ => keeps_pure trivial

end Write

/-! ### Directory tables -/

theorem followLinks_keeps (mcl links clst : Nat) :
    Keeps (Mounted kept vol) (followLinks vol mcl links clst) fun _ => True := by
  induction links generalizing clst with
  | zero => exact keeps_pure trivial
  | succ links inductionHypothesis =>
    exact keeps_bind (getFat_keeps keeper clst) fun next _ => keeps_ite
      (fun _ => keeps_pure trivial) fun _ => keeps_ite (fun _ => keeps_pure trivial)
        fun _ => inductionHypothesis _

theorem dirSeek_keeps (dj : Dir) (idx : Nat) :
    Keeps (Mounted kept dj.fs) (dirSeek dj idx) fun done => done.2.fs = dj.fs := by
  refine keeps_bind (fatfs_keeps keeper) fun fs _ => keeps_ite (fun _ => keeps_pure rfl)
    fun _ => keeps_bind keeps_get fun machine _ => keeps_ite (fun _ => ?_) fun _ => ?_
  · exact keeps_ite (fun _ => keeps_pure rfl) fun _ => keeps_pure rfl
  · refine keeps_bind (followLinks_keeps keeper _ _ _) fun followed _ => ?_
    cases followed with
    | error res => exact keeps_pure rfl
    | ok clst => exact keeps_bind (fatfs_keeps keeper) fun fs _ => keeps_pure rfl

theorem clearSectors_keeps (may : writable vol) (build : Build) (count : Nat) :
    Keeps (Mounted kept vol) (clearSectors build vol count) fun _ => True := by
  induction count with
  | zero => exact keeps_pure trivial
  | succ count inductionHypothesis =>
    refine keeps_bind (dirty_keeps keeper may (fun _ => rfl) fun _ => rfl) fun _ _ =>
      keeps_bind (moveWindow_keeps keeper 0) fun _ _ => keeps_ite (fun _ => keeps_pure trivial)
        fun _ => ?_
    exact keeps_bind (modifyFatfs_keeps keeper fun _ live => live) fun _ _ => inductionHypothesis

theorem stretchTable_keeps (may : writable vol) (clust : Nat) :
    Keeps (Mounted kept vol) (stretchTable vol clust) fun _ => True := by
  refine keeps_bind (createChain_keeps keeper may _) fun clst _ => keeps_ite
    (fun _ => keeps_pure trivial) fun _ => keeps_ite (fun _ => keeps_pure trivial) fun _ =>
      keeps_ite (fun _ => keeps_pure trivial) fun _ => ?_
  refine keeps_bind (moveWindow_keeps keeper 0) fun _ _ => keeps_ite
    (fun _ => keeps_pure trivial) fun _ => keeps_bind keeps_get fun machine _ => ?_
  refine keeps_bind (modifyFatfs_keeps keeper fun _ live => live) fun _ _ =>
    keeps_bind (fatfs_keeps keeper) fun fs _ => ?_
  refine keeps_bind (clearSectors_keeps keeper may _ _) fun _ _ => keeps_ite
    (fun _ => keeps_pure trivial) fun _ => ?_
  exact keeps_bind (modifyFatfs_keeps keeper fun _ live => live) fun _ _ => keeps_pure trivial

theorem nextCluster_keeps (dj : Dir) {stretch : Bool} (may : stretch = true → writable dj.fs) :
    Keeps (Mounted kept dj.fs) (nextCluster dj stretch) fun _ => True := by
  refine keeps_bind (getFat_keeps keeper _) fun clst _ => keeps_ite (fun _ => keeps_pure trivial)
    fun _ => keeps_ite (fun _ => keeps_pure trivial) fun _ =>
      keeps_bind (fatfs_keeps keeper) fun fs _ => keeps_ite (fun _ => ?_) fun _ =>
        keeps_pure trivial
  exact keeps_ite (fun _ => keeps_pure trivial) fun stretches =>
    stretchTable_keeps keeper (may (not_not.mp stretches)) _

theorem dirNext_keeps (dj : Dir) {stretch : Bool} (may : stretch = true → writable dj.fs) :
    Keeps (Mounted kept dj.fs) (dirNext dj stretch) fun done => done.2.fs = dj.fs := by
  refine keeps_ite (fun _ => keeps_pure rfl) fun _ => keeps_bind (fatfs_keeps keeper) fun fs _ =>
    keeps_bind keeps_get fun machine _ => keeps_ite (fun _ => keeps_pure rfl) fun _ =>
      keeps_ite (fun _ => ?_) fun _ => keeps_ite (fun _ => ?_) fun _ => keeps_pure rfl
  · exact keeps_ite (fun _ => keeps_pure rfl) fun _ => keeps_pure rfl
  · have next := @nextCluster_keeps _ _ keeper { dj with sect := machine.build.add dj.sect 1 }
      stretch may
    refine keeps_bind next fun followed _ => ?_
    cases followed with
    | error res => exact keeps_pure rfl
    | ok clst => exact keeps_bind (fatfs_keeps keeper) fun fs _ => keeps_pure rfl

theorem findLoop_keeps (fuel : Nat) (scan : Scan) (dj : Dir) :
    Keeps (Mounted kept dj.fs) (findLoop fuel scan dj) fun done => done.2.fs = dj.fs := by
  induction fuel generalizing scan dj with
  | zero => exact keeps_undefined
  | succ fuel inductionHypothesis =>
    refine keeps_bind (moveWindow_keeps keeper _) fun _ _ => keeps_ite (fun _ => keeps_pure rfl)
      fun _ => keeps_bind (fatfs_keeps keeper) fun fs _ => keeps_ite (fun _ => keeps_pure rfl)
        fun _ => keeps_bind keeps_get fun machine _ => ?_
    cases findEntry machine.lfnBuf fs.win dj scan with
    | none => exact keeps_undefined
    | some found =>
      have next := @dirNext_keeps _ _ keeper { dj with lfnIdx := found.2.lfnIdx } false nofun
      refine keeps_ite (fun _ => keeps_pure rfl) fun _ => keeps_bind next fun stepped same =>
        keeps_ite (fun _ => keeps_pure same) fun _ => ?_
      have rest := inductionHypothesis found.2 stepped.2
      rwa [show stepped.2.fs = dj.fs from same] at rest

theorem dirFind_keeps (dj : Dir) :
    Keeps (Mounted kept dj.fs) (dirFind dj) fun done => done.2.fs = dj.fs := by
  refine keeps_bind (dirSeek_keeps keeper dj 0) fun seek same => keeps_ite
    (fun _ => keeps_pure same) fun _ => ?_
  have found := findLoop_keeps keeper tableFuel ⟨0xFF, 0xFF, seek.2.lfnIdx⟩ seek.2
  rwa [same] at found

theorem readLoop_keeps (fuel : Nat) (res : FResult) (scan : Scan) (dj : Dir) :
    Keeps (Mounted kept dj.fs) (readLoop fuel res scan dj) fun done => done.2.fs = dj.fs := by
  induction fuel generalizing res scan dj with
  | zero => exact keeps_undefined
  | succ fuel inductionHypothesis =>
    refine keeps_ite (fun _ => keeps_pure rfl) fun _ =>
      keeps_bind (moveWindow_keeps keeper _) fun _ _ => keeps_ite (fun _ => keeps_pure rfl)
        fun _ => keeps_bind (fatfs_keeps keeper) fun fs _ => keeps_ite (fun _ => keeps_pure rfl)
          fun _ => keeps_bind keeps_get fun machine _ => ?_
    cases readEntry machine.lfnBuf fs.win dj scan with
    | none => exact keeps_undefined
    | some read =>
      have next := @dirNext_keeps _ _ keeper { dj with lfnIdx := read.2.1.lfnIdx } false nofun
      have captured := @lfnBuf_keeps _ _ dj.fs keeper fun _ => read.2.2
      refine keeps_bind captured fun _ _ => keeps_ite (fun _ => keeps_pure rfl)
        fun _ => keeps_bind next fun stepped same =>
          keeps_ite (fun _ => keeps_pure same) fun _ => ?_
      have rest := inductionHypothesis .ok read.2.1 stepped.2
      rwa [show stepped.2.fs = dj.fs from same] at rest

theorem dirRead_keeps (dj : Dir) :
    Keeps (Mounted kept dj.fs) (dirRead dj) fun done => done.2.fs = dj.fs :=
  readLoop_keeps keeper _ _ _ _

theorem followSegments_keeps (fuel : Nat) (dj : Dir) (path : FatPath) :
    Keeps (Mounted kept dj.fs) (followSegments fuel dj path) fun done => done.2.fs = dj.fs := by
  induction fuel generalizing dj path with
  | zero => exact keeps_undefined
  | succ fuel inductionHypothesis =>
    refine keeps_bind (lfnBuf_keeps keeper) fun _ _ => ?_
    cases createName (path.takeWhile fun b => !endsSegment b) with
    | none => exact keeps_pure rfl
    | some fn =>
      have find := dirFind_keeps keeper { dj with fn, lfn := true }
      refine keeps_bind find fun found same => keeps_ite (fun _ => keeps_pure same) fun _ =>
        keeps_ite (fun _ => keeps_pure same) fun _ => keeps_bind (fatfs_keeps keeper) fun fs _ =>
          keeps_ite (fun _ => keeps_pure same) fun _ => ?_
      have rest := inductionHypothesis
        { found.2 with sclust := startCluster fs.win found.2.entry }
        (path.drop (path.takeWhile fun b => !endsSegment b).length).tail
      rwa [show found.2.fs = dj.fs from same] at rest

theorem followPath_keeps (dj : Dir) (path : FatPath) :
    Keeps (Mounted kept dj.fs) (followPath dj path) fun done => done.2.fs = dj.fs := by
  have seek := dirSeek_keeps keeper { dj with sclust := 0 } 0
  refine keeps_ite (fun _ => keeps_bind seek fun found same => keeps_pure same) fun _ => ?_
  exact followSegments_keeps keeper _ { dj with sclust := 0 } _

/-! ### Registering a name -/

theorem numberName_keeps (sn : Name) (tries n : Nat) (dj : Dir) :
    Keeps (Mounted kept dj.fs) (numberName sn tries n dj) fun done => done.2.fs = dj.fs := by
  induction tries generalizing n dj with
  | zero => exact keeps_pure rfl
  | succ tries inductionHypothesis =>
    have find := dirFind_keeps keeper { dj with
      fn := ⟨genNumname sn.fn sn.lfn n, sn.lfn, false, false, false, false⟩, lfn := false }
    refine keeps_bind find fun found same => keeps_ite (fun _ => keeps_pure same) fun _ =>
      keeps_ite (fun _ => keeps_pure same) fun _ => ?_
    have rest := inductionHypothesis (n + 1) found.2
    rwa [show found.2.fs = dj.fs from same] at rest

theorem reserveLoop_keeps (ne fuel n start : Nat) (dj : Dir) (may : writable dj.fs) :
    Keeps (Mounted kept dj.fs) (reserveLoop ne fuel n start dj) fun done =>
      done.2.2.fs = dj.fs := by
  induction fuel generalizing n start dj with
  | zero => exact keeps_undefined
  | succ fuel inductionHypothesis =>
    refine keeps_bind (moveWindow_keeps keeper _) fun _ _ => keeps_ite (fun _ => keeps_pure rfl)
      fun _ => keeps_bind (fatfs_keeps keeper) fun fs _ => keeps_ite (fun _ => keeps_pure rfl)
        fun _ => keeps_bind (dirNext_keeps keeper dj fun _ => may) fun stepped same =>
          keeps_ite (fun _ => keeps_pure same) fun _ => ?_
    have rest := fun n start => inductionHypothesis n start stepped.2 (same.symm ▸ may)
    rw [same] at rest
    exact rest _ _

theorem storeLfn_keeps (sum : UInt8) (ne : Nat) (dj : Dir) (may : writable dj.fs) :
    Keeps (Mounted kept dj.fs) (storeLfn sum ne dj) fun done => done.2.fs = dj.fs := by
  induction ne generalizing dj with
  | zero => exact keeps_pure rfl
  | succ ne inductionHypothesis =>
    refine keeps_bind (moveWindow_keeps keeper _) fun _ _ => keeps_ite (fun _ => keeps_pure rfl)
      fun _ => keeps_bind keeps_get fun machine _ => ?_
    refine keeps_bind (dirty_keeps keeper may (fun _ => rfl) fun _ => rfl) fun _ _ =>
      keeps_bind (dirNext_keeps keeper dj nofun) fun stepped same =>
        keeps_ite (fun _ => keeps_pure same) fun _ => ?_
    have rest := inductionHypothesis stepped.2 (same.symm ▸ may)
    rwa [same] at rest

theorem initLfn_keeps (ne start : Nat) (dj : Dir) (may : writable dj.fs) :
    Keeps (Mounted kept dj.fs) (initLfn ne start dj) fun done => done.2.fs = dj.fs := by
  refine keeps_ite (fun _ => ?_) fun _ => keeps_pure rfl
  refine keeps_bind (dirSeek_keeps keeper dj _) fun seek same => keeps_ite
    (fun _ => keeps_pure same) fun _ => ?_
  have stored := storeLfn_keeps keeper (sumSfn dj.fn.fn) (ne - 1) seek.2 (same.symm ▸ may)
  rwa [same] at stored

theorem initSfn_keeps (dj : Dir) (may : writable dj.fs) :
    Keeps (Mounted kept dj.fs) (initSfn dj) fun done => done.2.fs = dj.fs := by
  refine keeps_bind (moveWindow_keeps keeper _) fun _ _ => keeps_ite (fun _ => keeps_pure rfl)
    fun _ => ?_
  exact keeps_bind (dirty_keeps keeper may (fun _ => rfl) fun _ => rfl) fun _ _ => keeps_pure rfl

theorem dirRegister_keeps (dj : Dir) (may : writable dj.fs) :
    Keeps (Mounted kept dj.fs) (dirRegister dj) fun done => done.2.fs = dj.fs := by
  have number : Keeps (Mounted kept dj.fs) (chooseSfn dj) fun done => done.2.fs = dj.fs :=
    keeps_ite (fun _ => numberName_keeps keeper _ _ _ _) fun _ => keeps_pure rfl
  refine keeps_bind number fun numbered same => keeps_ite (fun _ => keeps_pure same) fun _ => ?_
  have seek := dirSeek_keeps keeper numbered.2 0
  rw [same] at seek
  refine keeps_bind seek fun seek same => keeps_ite (fun _ => keeps_pure same) fun _ => ?_
  have reserve := reserveLoop_keeps keeper (entriesOf dj.fn) tableFuel 0 0 seek.2
    (same.symm ▸ may)
  rw [same] at reserve
  refine keeps_bind reserve fun reserved same => keeps_ite (fun _ => keeps_pure same) fun _ => ?_
  have long := initLfn_keeps keeper (entriesOf dj.fn) reserved.2.1 reserved.2.2 (same.symm ▸ may)
  rw [same] at long
  refine keeps_bind long fun long same => keeps_ite (fun _ => keeps_pure same) fun _ => ?_
  have short := initSfn_keeps keeper long.2 (same.symm ▸ may)
  rwa [same] at short

/-! ### Mounting -/

theorem checkFs_keeps (fs : Fatfs) (sect : Nat) :
    Keeps kept (checkFs fs sect) fun found =>
      found.2.drive = fs.drive ∧ found.2.fsType = fs.fsType := by
  have read : Keeps kept (diskRead fs.drive fs.win sect 1) fun _ => True :=
    keeps_of_comes fun _ _ holds run => keeper.read holds run
  exact keeps_bind read fun _ _ => keeps_pure ⟨rfl, rfl⟩

theorem findBoot_keeps (fs : Fatfs) :
    Keeps kept (findBoot fs) fun found =>
      found.2.2.drive = fs.drive ∧ found.2.2.fsType = fs.fsType := by
  refine keeps_bind (checkFs_keeps keeper fs 0) fun top same => keeps_ite (fun _ => ?_) fun _ =>
    keeps_pure same
  exact keeps_bind (checkFs_keeps keeper top.2 _) fun first again =>
    keeps_pure ⟨again.1.trans same.1, again.2.trans same.2⟩

theorem readFsInfo_keeps (build : Build) (bsect : Nat) (fs : Fatfs) :
    Keeps kept (readFsInfo build bsect fs) fun informed =>
      informed.drive = fs.drive ∧ informed.wflag = fs.wflag := by
  refine keeps_ite (fun _ => ?_) fun _ => keeps_pure ⟨rfl, rfl⟩
  have read : Keeps kept (diskRead fs.drive fs.win
      (build.add bsect (fs.win.loadWord bpbFsInfo)) 1) fun _ => True :=
    keeps_of_comes fun _ _ holds run => keeper.read holds run
  refine keeps_bind read fun read _ => keeps_pure ?_
  split_ifs
  · exact ⟨rfl, rfl⟩
  · exact ⟨rfl, rfl⟩

/-- What a mount makes of an object is bound to the drive, and its window is clean. -/
theorem mountVolume_keeps (fs : Fatfs) :
    Keeps kept (mountVolume vol fs) fun mounted =>
      (mounted.2.fsType.isSome = true → Live writable vol mounted.2) ∧
        (mounted.1 = .ok → mounted.2.fsType.isSome = true) := by
  refine keeps_bind (findBoot_keeps keeper { fs with fsType := none, drive := vol })
    fun found same => ?_
  have failed : ∀ res : FResult, res ≠ .ok →
      (found.2.2.fsType.isSome = true → Live writable vol found.2.2) ∧
        (res = .ok → found.2.2.fsType.isSome = true) := by
    intro res bad
    rw [same.2]
    exact ⟨nofun, fun good => absurd good bad⟩
  refine keeps_ite (fun _ => keeps_pure (failed .diskErr (by decide))) fun _ => keeps_ite
    (fun _ => keeps_pure (failed .noFilesystem (by decide))) fun _ =>
    keeps_bind keeps_get fun machine _ =>
      keeps_ite (fun _ => keeps_undefined) fun _ => ?_
  refine keeps_bind (readFsInfo_keeps keeper _ _ _) fun informed same' => ?_
  have next : Keeps kept nextFsid fun _ => True := fun start holds =>
    ⟨keeper.rest start.transfers _ start.lfnBuf start.ticks holds, trivial⟩
  refine keeps_bind next fun id _ => keeps_pure ⟨fun _ => ⟨rfl, ?_, ?_⟩, fun _ => rfl⟩
  · exact same'.1.trans same.1
  · intro dirty
    exact absurd (dirty.symm.trans same'.2) (by simp [initFatfs])

/-- A drive is mounted where `chk_mounted` succeeds. -/
theorem chkMounted_guards :
    Guards kept kept (chkMounted vol) fun res machine =>
      kept machine ∧ (res = .ok → Mounted kept vol machine) := by
  refine guards_ite (fun _ => guards_pure fun _ holds => ⟨holds, nofun⟩) fun _ =>
    guards_get_bind fun start holds => ?_
  cases registered : start.fatFs vol with
  | none => exact guards_pure fun _ same => same ▸ ⟨holds, nofun⟩
  | some fs =>
    refine guards_ite (fun already => guards_pure fun _ same => ?_) fun _ => ?_
    · rw [same]
      exact ⟨holds, fun _ => ⟨holds, fs, registered, already⟩⟩
    · refine guards_bind (Guards.mono (mountVolume_keeps keeper fs) (fun _ same => same ▸ holds)
        (fun _ => id) fun _ _ => id) fun mounted => ?_
      have stored : Guards (fun machine => kept machine ∧
          (mounted.2.fsType.isSome = true → Live writable vol mounted.2) ∧
            (mounted.1 = .ok → mounted.2.fsType.isSome = true)) kept
          (modify fun machine => machine.register vol (some mounted.2)) fun _ machine =>
            kept machine ∧ (mounted.1 = .ok → Mounted kept vol machine) := by
        refine guards_modify fun machine ⟨between, live, good⟩ => ?_
        have after := keeper.object between live
        exact ⟨after, fun ok => ⟨after, mounted.2, machine.fatFs_register _ _, good ok⟩⟩
      exact guards_bind stored fun _ => guards_pure fun _ => id

/-- A function that mounts its drive first keeps what the rest of it keeps on a mounted drive. -/
theorem keeps_mount {Result : Type} {rest : Program Machine Result} {failure : FResult → Result}
    {kind : Result → Prop} (fails : ∀ res, kind (failure res))
    (runs : Keeps (Mounted kept vol) rest kind) :
    Keeps kept (chkMounted vol >>= fun res =>
      if res ≠ .ok then pure (failure res) else rest) kind := by
  refine guards_bind (chkMounted_guards keeper) fun res => guards_ite (fun _ => guards_pure
    fun _ holds => ⟨holds.1, fails res⟩) fun ok => ?_
  exact Guards.mono runs (fun _ holds => holds.2 (not_not.mp ok)) (fun _ holds => holds.1)
    fun _ _ holds => ⟨holds.1.1, holds.2⟩

omit keeper in
/-- The drive of a valid object is mounted. -/
theorem validate_guards (fs : Option Nat) (id : Nat) :
    Guards kept kept (validate fs id) fun res machine =>
      kept machine ∧ (res = .ok → ∃ vol, fs = some vol ∧ Mounted kept vol machine) := by
  refine guards_get_bind fun start holds => guards_pure fun _ same => ?_
  rw [same]
  refine ⟨holds, fun ok => ?_⟩
  cases object : fs.bind start.fatFs with
  | none =>
    rw [object] at ok
    exact absurd ok (by simp)
  | some found =>
    rw [object] at ok
    dsimp only at ok
    split_ifs at ok with good
    obtain ⟨vol, drive, registered⟩ := Option.bind_eq_some_iff.mp object
    exact ⟨vol, drive, holds, found, registered, good.1⟩

omit keeper in
/-- A function that checks its object first keeps what the rest of it keeps on the mounted drive of
the object. -/
theorem keeps_valid {Result : Type} {rest : Program Machine Result} {failure : FResult → Result}
    {kind : Result → Prop} {fs : Option Nat} {id : Nat} (fails : ∀ res, kind (failure res))
    (runs : ∀ vol, fs = some vol → Keeps (Mounted kept vol) rest kind) :
    Keeps kept (validate fs id >>= fun res =>
      if res ≠ .ok then pure (failure res) else rest) kind := by
  refine guards_bind (validate_guards fs id) fun res => guards_ite (fun _ => guards_pure
    fun _ holds => ⟨holds.1, fails res⟩) fun ok machine holds => ?_
  obtain ⟨vol, drive, mounted⟩ := holds.2 (not_not.mp ok)
  exact Guards.mono (runs vol drive) (fun _ holds => holds) (fun _ holds => holds.1)
    (fun _ _ holds => ⟨holds.1.1, holds.2⟩) machine mounted

/-! ### Files -/

/-- A file of a drive. If the drive may not be written, then the file was not opened for writing and
has nothing to be written. -/
def Held (writable : Nat → Prop) (vol : Nat) (fp : Fil) : Prop :=
  fp.fs = some vol ∧
    (writable vol ∨ fp.write = false ∧ fp.written = false ∧ fp.dirty = false)

/-- A file that is closed, or of a drive. -/
def Proper (writable : Nat → Prop) (fp : Fil) : Prop :=
  ∀ vol, fp.fs = some vol → Held writable vol fp

section Files

variable {fp : Fil}

omit keeper in
theorem Held.proper (held : Held writable vol fp) : Proper writable fp := by
  intro other drive
  obtain rfl := Option.some.inj (held.1.symm.trans drive)
  exact held

/-- Only what was changed is written. -/
theorem flushBuffer_keeps (held : Held writable vol fp) :
    Keeps (Mounted kept vol) (flushBuffer vol fp) fun flushed => Held writable vol flushed.2 := by
  refine keeps_ite (fun dirty => ?_) fun _ => keeps_pure held
  have may : writable vol := by
    rcases held.2 with may | clean
    · exact may
    · exact absurd (dirty.symm.trans clean.2.2) (by decide)
  exact keeps_bind (fatfs_keeps keeper) fun fs live =>
    keeps_bind (diskWrite_keeps keeper (live.2.1.symm ▸ may)) fun _ _ => keeps_ite
      (fun _ => keeps_pure held) fun _ => keeps_pure ⟨held.1, Or.inl may⟩

/-! ### Reading a file -/

theorem readCluster_keeps (held : Held writable vol fp) :
    Keeps (Mounted kept vol) (readCluster vol fp) fun outcome =>
      ∀ after, outcome = .ok after → Held writable vol after := by
  have link : Keeps (Mounted kept vol) (readLink vol fp) fun _ => True :=
    keeps_ite (fun _ => keeps_pure trivial) fun _ => getFat_keeps keeper _
  refine keeps_bind (fatfs_keeps keeper) fun fs _ => keeps_ite (fun _ => ?_) fun _ =>
    keeps_pure fun after same => Except.ok.inj same ▸ held
  exact keeps_bind link fun clst _ => keeps_ite (fun _ => keeps_pure nofun) fun _ => keeps_ite
    (fun _ => keeps_pure nofun) fun _ => keeps_pure fun after same => Except.ok.inj same ▸ held

theorem readDirect_keeps (sect cc : Nat) (held : Held writable vol fp) :
    Keeps (Mounted kept vol) (readDirect vol sect cc fp) fun turn => Held writable vol turn.2 :=
  keeps_bind (fatfs_keeps keeper) fun _ _ => keeps_bind keeps_get fun _ _ =>
    keeps_bind (diskRead_keeps keeper) fun _ _ => keeps_ite (fun _ => keeps_pure held) fun _ =>
      keeps_pure held

theorem readSector_keeps (sect btr : Nat) (held : Held writable vol fp) :
    Keeps (Mounted kept vol) (readSector vol sect btr fp) fun turn => Held writable vol turn.2 := by
  refine keeps_bind (flushBuffer_keeps keeper held) fun flushed held' => keeps_ite
    (fun _ => keeps_pure held) fun _ => keeps_ite (fun _ => keeps_pure held') fun _ => ?_
  exact keeps_bind (fatfs_keeps keeper) fun _ _ => keeps_bind (diskRead_keeps keeper) fun _ _ =>
    keeps_ite (fun _ => keeps_pure held') fun _ => keeps_pure held'

theorem readTurn_keeps (btr : Nat) (held : Held writable vol fp) :
    Keeps (Mounted kept vol) (readTurn vol btr fp) fun turn => Held writable vol turn.2 := by
  refine keeps_ite (fun _ => keeps_pure held) fun _ =>
    keeps_bind (readCluster_keeps keeper held) fun cluster held' => ?_
  cases cluster with
  | error res => exact keeps_pure held
  | ok fp =>
    refine keeps_bind keeps_get fun machine _ => keeps_bind (fatfs_keeps keeper) fun fs _ =>
      keeps_ite (fun _ => keeps_pure (held' fp rfl)) fun _ => keeps_ite (fun _ => ?_) fun _ => ?_
    · exact readDirect_keeps keeper _ _ (held' fp rfl)
    · exact readSector_keeps keeper _ _ (held' fp rfl)

theorem readFile_keeps (fuel btr : Nat) (bytes : List UInt8) (held : Held writable vol fp) :
    Keeps (Mounted kept vol) (readFile vol fuel btr bytes fp) fun done =>
      Held writable vol done.2.2 := by
  induction fuel generalizing btr bytes fp with
  | zero => exact keeps_undefined
  | succ fuel inductionHypothesis =>
    refine keeps_ite (fun _ => keeps_pure held) fun _ =>
      keeps_bind (readTurn_keeps keeper btr held) fun turn held' => ?_
    cases turn.1 with
    | error res => exact keeps_pure held'
    | ok more =>
      exact @inductionHypothesis { turn.2 with fptr := turn.2.fptr + more.length } _ _ held'

theorem fRead_keeps (btr : Nat) (proper : Proper writable fp) :
    Keeps kept (fRead fp btr) fun done => Proper writable done.2.2 := by
  refine keeps_valid (fun _ => proper) fun vol drive => keeps_ite (fun _ => keeps_pure proper)
    fun _ => keeps_ite (fun _ => keeps_pure proper) fun _ =>
      keeps_bind keeps_get fun machine _ => ?_
  rw [drive, Option.getD_some]
  exact (readFile_keeps keeper _ _ _ (proper vol drive)).mono fun _ held => held.proper

/-! ### Writing a file -/

section Write

variable (may : writable vol)

include may

theorem writeCluster_keeps (drive : fp.fs = some vol) :
    Keeps (Mounted kept vol) (writeCluster vol fp) fun cluster => cluster.2.fs = some vol := by
  have link : Keeps (Mounted kept vol) (writeLink vol fp) fun _ => True :=
    keeps_ite (fun _ => createChain_keeps keeper may _) fun _ => keeps_ite
      (fun _ => createChain_keeps keeper may _) fun _ => keeps_pure trivial
  refine keeps_bind (fatfs_keeps keeper) fun fs _ => keeps_ite (fun _ => ?_) fun _ =>
    keeps_pure drive
  refine keeps_bind link fun clst _ => ?_
  have same : (if fp.fptr = 0 then { fp with orgClust := clst } else fp).fs = some vol := by
    split_ifs
    · exact drive
    · exact drive
  exact keeps_ite (fun _ => keeps_pure same) fun _ => keeps_ite (fun _ => keeps_pure same) fun _ =>
    keeps_ite (fun _ => keeps_pure same) fun _ => keeps_pure same

theorem writeDirect_keeps (sect cc : Nat) (wbuff : Buffer) (drive : fp.fs = some vol) :
    Keeps (Mounted kept vol) (writeDirect vol sect cc wbuff fp) fun turn =>
      turn.2.fs = some vol := by
  refine keeps_bind (fatfs_keeps keeper) fun fs live => keeps_bind keeps_get fun machine _ =>
    keeps_bind (diskWrite_keeps keeper (live.2.1.symm ▸ may)) fun _ _ => keeps_ite
      (fun _ => keeps_pure drive) fun _ => keeps_pure ?_
  dsimp only
  split_ifs
  · exact drive
  · exact drive

omit may in
theorem writeSector_keeps (sect btw : Nat) (wbuff : Buffer) (drive : fp.fs = some vol) :
    Keeps (Mounted kept vol) (writeSector vol sect btw wbuff fp) fun turn =>
      turn.2.fs = some vol := by
  refine keeps_ite (fun _ => ?_) fun _ => keeps_pure drive
  exact keeps_bind (fatfs_keeps keeper) fun _ _ => keeps_bind (diskRead_keeps keeper) fun _ _ =>
    keeps_ite (fun _ => keeps_pure drive) fun _ => keeps_pure drive

theorem writeTurn_keeps (btw : Nat) (wbuff : Buffer) (drive : fp.fs = some vol) :
    Keeps (Mounted kept vol) (writeTurn vol btw wbuff fp) fun turn => turn.2.fs = some vol := by
  refine keeps_ite (fun _ => keeps_pure drive) fun _ =>
    keeps_bind (writeCluster_keeps keeper may drive) fun cluster same => ?_
  cases cluster.1 with
  | error stop => exact keeps_pure same
  | ok _ =>
    refine keeps_bind (flushBuffer_keeps keeper ⟨same, Or.inl may⟩) fun flushed held => keeps_ite
      (fun _ => keeps_pure held.1) fun _ => keeps_bind keeps_get fun machine _ =>
        keeps_bind (fatfs_keeps keeper) fun fs _ => keeps_ite (fun _ => keeps_pure held.1)
          fun _ => keeps_ite (fun _ => ?_) fun _ => ?_
    · exact writeDirect_keeps keeper may _ _ _ held.1
    · exact writeSector_keeps keeper _ _ _ held.1

theorem writeFile_keeps (fuel : Nat) (buff : List UInt8) (bw : Nat) (drive : fp.fs = some vol) :
    Keeps (Mounted kept vol) (writeFile vol fuel buff bw fp) fun done =>
      done.2.2.fs = some vol := by
  induction fuel generalizing buff bw fp with
  | zero => exact keeps_undefined
  | succ fuel inductionHypothesis =>
    refine keeps_ite (fun _ => keeps_pure drive) fun _ =>
      keeps_bind (writeTurn_keeps keeper may _ _ drive) fun turn same => ?_
    cases turn.1 with
    | error stop =>
      cases stop with
      | full => exact keeps_pure same
      | abort res => exact keeps_pure same
    | ok wcnt => exact @inductionHypothesis { turn.2 with fptr := turn.2.fptr + wcnt } _ _ same

theorem updateEntry_keeps (fp : Fil) :
    Keeps (Mounted kept vol) (updateEntry vol fp) fun updated => updated.2.fs = fp.fs := by
  refine keeps_bind (moveWindow_keeps keeper _) fun _ _ => keeps_ite (fun _ => keeps_pure rfl)
    fun _ => keeps_bind (getFattime_keeps keeper) fun time _ => ?_
  exact keeps_bind (dirty_keeps keeper may (fun _ => rfl) fun _ => rfl) fun _ _ =>
    keeps_bind (sync_keeps keeper may) fun _ _ => keeps_pure rfl

end Write

/-- A file that was not opened for writing refuses to be written. -/
theorem fWrite_keeps (buff : List UInt8) (proper : Proper writable fp) :
    Keeps kept (fWrite fp buff) fun done => Proper writable done.2.2 := by
  refine keeps_valid (fun _ => proper) fun vol drive => keeps_ite (fun _ => keeps_pure proper)
    fun _ => keeps_ite (fun _ => keeps_pure proper) fun opened =>
      keeps_bind keeps_get fun machine _ => ?_
  have may : writable vol := by
    rcases (proper vol drive).2 with may | clean
    · exact may
    · exact absurd (clean.1.symm.trans (not_not.mp opened)) (by decide)
  rw [drive, Option.getD_some]
  refine keeps_bind (writeFile_keeps keeper may _ _ _ drive) fun done same => ?_
  cases done.1 with
  | error res => exact keeps_pure (Held.proper ⟨same, Or.inl may⟩)
  | ok _ => exact keeps_pure (@Held.proper _ vol _ ⟨same, Or.inl may⟩)

theorem fSync_keeps (proper : Proper writable fp) :
    Keeps kept (fSync fp) fun synced => Proper writable synced.2 := by
  refine keeps_valid (fun _ => proper) fun vol drive => keeps_ite (fun _ => keeps_pure proper)
    fun changed => ?_
  have may : writable vol := by
    rcases (proper vol drive).2 with may | clean
    · exact may
    · exact absurd (clean.2.1.symm.trans (not_not.mp changed)) (by decide)
  rw [drive, Option.getD_some]
  refine keeps_bind (flushBuffer_keeps keeper (proper vol drive)) fun flushed held => keeps_ite
    (fun _ => keeps_pure held.proper) fun _ => ?_
  exact (updateEntry_keeps keeper may _).mono fun updated same =>
    @Held.proper _ vol _ ⟨same.trans held.1, Or.inl may⟩

theorem fClose_keeps (proper : Proper writable fp) :
    Keeps kept (fClose fp) fun closed => Proper writable closed.2 := by
  refine keeps_bind (fSync_keeps keeper proper) fun synced proper' => keeps_pure ?_
  dsimp only
  split_ifs
  · exact fun _ => nofun
  · exact proper'

end Files

/-! ### Opening a file, and directories -/

theorem resizeToZero_keeps (dj : Dir) (may : writable dj.fs) :
    Keeps (Mounted kept dj.fs) (resizeToZero dj) fun _ => True := by
  refine keeps_bind (fatfs_keeps keeper) fun fs _ =>
    keeps_bind (dirty_keeps keeper may (fun _ => rfl) fun _ => rfl) fun _ _ =>
      keeps_ite (fun _ => ?_) fun _ => moveWindow_keeps keeper _
  refine keeps_bind (removeChain_keeps keeper may _) fun _ _ => keeps_ite
    (fun _ => keeps_pure trivial) fun _ => keeps_bind keeps_get fun machine _ => ?_
  exact keeps_bind (modifyFatfs_keeps keeper fun _ live => live) fun _ _ =>
    moveWindow_keeps keeper _

theorem createEntry_keeps (res : FResult) (dj : Dir) (may : writable dj.fs) :
    Keeps (Mounted kept dj.fs) (createEntry res dj) fun created => created.2.fs = dj.fs := by
  refine keeps_ite (fun _ => dirRegister_keeps keeper dj may) fun _ => keeps_ite
    (fun _ => keeps_pure rfl) fun _ => keeps_bind (fatfs_keeps keeper) fun fs _ => keeps_ite
      (fun _ => keeps_pure rfl) fun _ => ?_
  exact keeps_bind (resizeToZero_keeps keeper dj may) fun _ _ => keeps_pure rfl

/-- A file that is opened for reading is not written. -/
theorem fOpen_keeps (path : FatPath) (mode : OpenMode)
    (may : mode = .createAlways → writable (logicalDrive path).1) :
    Keeps kept (fOpen path mode) fun outcome => ∀ fp, outcome = .ok fp → Proper writable fp := by
  refine keeps_mount keeper (fun _ => nofun) ?_
  have follow := followPath_keeps keeper (Dir.blank (logicalDrive path).1) (logicalDrive path).2
  refine keeps_bind follow fun found same => ?_
  cases mode with
  | createAlways =>
    have may := may rfl
    have create := createEntry_keeps keeper found.1 found.2 (same.symm ▸ may)
    rw [same] at create
    refine keeps_bind create fun created same => keeps_ite (fun _ => keeps_pure nofun) fun _ => ?_
    have same : created.2.fs = (logicalDrive path).1 := same
    refine keeps_bind (getFattime_keeps keeper) fun time _ => ?_
    rw [same]
    refine keeps_bind (dirty_keeps keeper may (fun _ => rfl) fun _ => rfl) fun _ _ =>
      keeps_bind (fatfs_keeps keeper) fun fs _ => keeps_pure fun fp opened => ?_
    obtain rfl := Except.ok.inj opened
    exact Held.proper ⟨congrArg some same, Or.inl may⟩
  | read =>
    have same : found.2.fs = (logicalDrive path).1 := same
    refine keeps_ite (fun _ => keeps_pure nofun) fun _ => ?_
    rw [same]
    refine keeps_bind (fatfs_keeps keeper) fun fs _ => keeps_ite (fun _ => keeps_pure nofun)
      fun _ => keeps_pure fun fp opened => ?_
    obtain rfl := Except.ok.inj opened
    exact Held.proper ⟨congrArg some same, Or.inr ⟨rfl, rfl, rfl⟩⟩

theorem fOpendir_keeps (path : FatPath) : Keeps kept (fOpendir path) fun _ => True := by
  refine keeps_mount keeper (fun _ => trivial) ?_
  have follow := followPath_keeps keeper (Dir.blank (logicalDrive path).1) (logicalDrive path).2
  refine keeps_bind follow fun found same => keeps_ite (fun _ => keeps_pure trivial) fun _ =>
    keeps_bind (fatfs_keeps keeper) fun fs _ => keeps_ite (fun _ => keeps_pure trivial) fun _ => ?_
  have seek := dirSeek_keeps keeper (found.2.enter fs) 0
  rw [show (found.2.enter fs).fs = (logicalDrive path).1 from same] at seek
  exact keeps_bind seek fun seek _ => keeps_ite (fun _ => keeps_pure trivial) fun _ =>
    keeps_pure trivial

theorem readInfo_keeps (dj : Dir) :
    Keeps (Mounted kept dj.fs) (readInfo dj) fun _ => True := by
  refine keeps_bind keeps_get fun machine _ => keeps_bind (fatfs_keeps keeper) fun fs _ =>
    keeps_bind (dirNext_keeps keeper dj nofun) fun next _ => ?_
  exact keeps_ite (fun _ => keeps_pure trivial) fun _ => keeps_pure trivial

theorem fReaddir_keeps (dj : Dir) : Keeps kept (fReaddir dj) fun _ => True := by
  refine keeps_valid (fun _ => trivial) fun vol drive => ?_
  obtain rfl := Option.some.inj drive
  refine keeps_bind (dirRead_keeps keeper { dj with lfn := true }) fun read same => ?_
  have info := readInfo_keeps keeper read.2
  have last := readInfo_keeps keeper { read.2 with sect := 0 }
  rw [show read.2.fs = dj.fs from same] at info last
  exact keeps_ite (fun _ => info) fun _ => keeps_ite (fun _ => last) fun _ => keeps_pure trivial

theorem writeTable_keeps (may : writable vol) (build : Build) (count dsect : Nat) :
    Keeps (Mounted kept vol) (writeTable build vol count dsect) fun _ => True := by
  induction count generalizing dsect with
  | zero => exact keeps_pure trivial
  | succ count inductionHypothesis =>
    refine keeps_bind (dirty_keeps keeper may (fun _ => rfl) fun _ => rfl) fun _ _ =>
      keeps_bind (moveWindow_keeps keeper 0) fun _ _ => keeps_ite (fun _ => keeps_pure trivial)
        fun _ => ?_
    exact keeps_bind (modifyFatfs_keeps keeper fun _ live => live) fun _ _ => inductionHypothesis _

theorem makeTable_keeps (dj : Dir) (may : writable dj.fs) :
    Keeps (Mounted kept dj.fs) (makeTable dj) fun _ => True := by
  refine keeps_bind (createChain_keeps keeper may _) fun dclst _ => keeps_ite
    (fun _ => keeps_pure trivial) fun _ => keeps_ite (fun _ => keeps_pure trivial) fun _ =>
      keeps_ite (fun _ => keeps_pure trivial) fun _ =>
        keeps_bind (moveWindow_keeps keeper 0) fun _ _ => keeps_ite
          (fun _ => keeps_pure trivial) fun _ => ?_
  refine keeps_bind (fatfs_keeps keeper) fun fs _ => keeps_bind keeps_get fun machine _ =>
    keeps_bind (getFattime_keeps keeper) fun time _ =>
      keeps_bind (modifyFatfs_keeps keeper fun _ live => live) fun _ _ => ?_
  exact keeps_bind (writeTable_keeps keeper may _ _ _) fun _ _ => keeps_pure trivial

theorem fMkdir_keeps (path : FatPath) (may : writable (logicalDrive path).1) :
    Keeps kept (fMkdir path) fun _ => True := by
  refine keeps_mount keeper (fun _ => trivial) ?_
  have follow := followPath_keeps keeper (Dir.blank (logicalDrive path).1) (logicalDrive path).2
  refine keeps_bind follow fun found same => keeps_ite (fun _ => keeps_pure trivial) fun _ =>
    keeps_ite (fun _ => keeps_pure trivial) fun _ => ?_
  have make := makeTable_keeps keeper found.2 (same.symm ▸ may)
  have register := dirRegister_keeps keeper found.2 (same.symm ▸ may)
  rw [show found.2.fs = (logicalDrive path).1 from same] at make register
  refine keeps_bind make fun table _ => keeps_ite (fun _ => keeps_pure trivial) fun _ =>
    keeps_bind register fun registered _ => keeps_ite (fun _ => ?_) fun _ => ?_
  · exact keeps_bind (removeChain_keeps keeper may _) fun _ _ => keeps_pure trivial
  · exact keeps_bind (dirty_keeps keeper may (fun _ => rfl) fun _ => rfl) fun _ _ =>
      sync_keeps keeper may

end Keep

end Ff

end Hdfmonkey
