/-
This file lifts what the functions of the driver keep to the calls of the commands:
those behind the interface, which also keep the file objects in memory, the mounting
and the format of a drive, the opening of an image, and the whole of `rebuild`.
-/

import Hdfmonkey.DriveFrame
import Hdfmonkey.ImageCommands

namespace Hdfmonkey

/-- A name that is put behind a path stays on the drive of the path. -/
theorem logicalDrive_concatFilename (path name : FatPath) :
    (logicalDrive (concatFilename path name)).1 = (logicalDrive path).1 := by
  match path with
  | [] =>
    cases name with
    | nil => rfl
    | cons first rest =>
      by_cases colon : first = 0x3a
      · subst colon
        rfl
      · simp [concatFilename, logicalDrive, colon]
  | [digit] => simp [concatFilename, logicalDrive]
  | digit :: mark :: rest =>
    by_cases colon : mark = 0x3a
    · subst colon
      rw [concatFilename, List.cons_append, List.cons_append, logicalDrive, logicalDrive]
      split_ifs
      · rfl
      · rfl
    · simp [concatFilename, logicalDrive, colon]

namespace Ff

open Program

/-- The machine has the property, and every file object in memory is closed or of a drive. -/
def Driven (writable : Nat → Prop) (kept : Machine → Prop) (state : Driver) : Prop :=
  kept state.machine ∧ ∀ fp ∈ state.fils, Proper writable fp

section Calls

variable {writable : Nat → Prop} {kept : Machine → Prop} {vol : Nat}

theorem onMachine_keeps {Result : Type} {call : Program Machine Result} {kind : Result → Prop}
    (calls : Keeps kept call kind) : Keeps (Driven writable kept) (onMachine call) kind := by
  intro state holds
  have after := calls state.machine holds.1
  unfold onMachine
  cases run : call state.machine with
  | error machine =>
    rw [run] at after
    exact ⟨after, holds.2⟩
  | ok done =>
    rw [run] at after
    exact ⟨⟨after.1, holds.2⟩, after.2⟩

/-- A call on a file object puts back an object of the same drive. -/
theorem onFil_keeps {Result : Type} {file : Nat}
    {call : Fil → Program Machine (FResult × Result × Fil)}
    (calls : ∀ fp, Proper writable fp → Keeps kept (call fp) fun done =>
      Proper writable done.2.2) :
    Keeps (Driven writable kept) (onFil file call) fun _ => True := by
  refine guards_get_bind fun start holds => ?_
  cases present : start.fils[file]? with
  | none => exact guards_undefined fun _ same => same ▸ holds
  | some fp =>
    have proper := holds.2 fp (List.mem_of_getElem? present)
    have run : Keeps (Driven writable kept) (do
        let done ← onMachine (call fp)
        modify fun state => { state with fils := state.fils.set file done.2.2 }
        return if done.1 = .ok then .ok done.2.1 else .error done.1 :
          Program Driver (Except FResult Result)) fun _ => True := by
      refine keeps_bind (onMachine_keeps (calls fp proper)) fun done proper' =>
        keeps_bind (keeps_modify fun state holds => ⟨holds.1, fun other member => ?_⟩)
          fun _ _ => keeps_pure trivial
      rcases List.mem_or_eq_of_mem_set member with old | rfl
      · exact holds.2 other old
      · exact proper'
    exact Guards.mono run (fun _ same => same ▸ holds) (fun _ => id) fun _ _ => id

theorem newFil_keeps {fp : Fil} (proper : Proper writable fp) :
    Keeps (Driven writable kept) (newFil fp) fun _ => True := by
  refine keeps_bind keeps_get fun start _ =>
    keeps_bind (keeps_modify fun state holds => ⟨holds.1, fun other member => ?_⟩)
      fun _ _ => keeps_pure trivial
  rcases List.mem_append.mp member with old | new
  · exact holds.2 other old
  · rw [List.mem_singleton.mp new]
    exact proper

variable (keeper : Keeper writable kept)

include keeper

/-- The calls of the interface that do not go to the machine alone are those on files. -/
theorem driver_obeys :
    Obeys driver (Driven writable kept) (fun _ => True) fun path =>
      writable (logicalDrive path).1 where
  below _ _ _ := trivial
  under path name may := (logicalDrive_concatFilename path name).symm ▸ may
  fOpenRead path _ := by
    refine keeps_bind (onMachine_keeps (fOpen_keeps keeper path .read nofun))
      fun opened proper => ?_
    cases opened with
    | error res => exact keeps_pure trivial
    | ok fp => exact keeps_bind (newFil_keeps (proper fp rfl)) fun _ _ => keeps_pure trivial
  fOpenCreate path may := by
    refine keeps_bind (onMachine_keeps (fOpen_keeps keeper path .createAlways fun _ => may))
      fun opened proper => ?_
    cases opened with
    | error res => exact keeps_pure trivial
    | ok fp => exact keeps_bind (newFil_keeps (proper fp rfl)) fun _ _ => keeps_pure trivial
  fRead file btr := onFil_keeps fun fp proper =>
    keeps_bind (fRead_keeps keeper btr proper) fun _ proper' => keeps_pure proper'
  fWrite file buff := onFil_keeps fun fp proper =>
    keeps_bind (fWrite_keeps keeper buff proper) fun _ proper' => keeps_pure proper'
  fClose file := onFil_keeps fun fp proper =>
    keeps_bind (fClose_keeps keeper proper) fun _ proper' => keeps_pure proper'
  fOpendir path _ := onMachine_keeps (fOpendir_keeps keeper path)
  fReaddir dir :=
    keeps_bind (onMachine_keeps (fReaddir_keeps keeper dir)) fun _ _ => keeps_pure trivial
  fMkdir path may :=
    keeps_bind (onMachine_keeps (fMkdir_keeps keeper path may)) fun _ _ => keeps_pure trivial

/-! ### Mounting and formatting -/

theorem fMount_keeps (fs : Fatfs) : Keeps kept (fMount vol (some fs)) fun _ => True := by
  refine keeps_ite (fun _ => keeps_pure trivial) fun _ =>
    keeps_bind (keeps_modify fun machine holds => ?_) fun _ _ => keeps_pure trivial
  exact keeper.object holds nofun

/-- A change of the object of a drive, which need not be mounted or there at all. -/
theorem modifyFatfs_kept {change : Fatfs → Fatfs}
    (stays : ∀ fs, (fs.fsType.isSome = true → Live writable vol fs) →
      (change fs).fsType.isSome = true → Live writable vol (change fs)) :
    Keeps kept (modifyFatfs vol change) fun _ => True := by
  refine keeps_modify fun machine holds => ?_
  cases registered : machine.fatFs vol with
  | none =>
    have same : machine.register vol none = machine := by
      rw [← registered, Machine.register, Function.update_eq_self]
    rw [Option.map_none, same]
    exact holds
  | some fs => exact keeper.object holds (stays fs (keeper.bound holds registered))

theorem getFattime_kept : Keeps kept getFattime fun _ => True :=
  fun machine holds =>
    ⟨keeper.rest machine.transfers machine.fsid machine.lfnBuf (machine.ticks + 1) holds, trivial⟩

section Write

variable (may : writable vol)

include may

theorem writeWindow_keeps (win : Buffer) (sector : Nat) :
    Keeps kept (writeWindow vol win sector) fun _ => True :=
  keeps_bind (modifyFatfs_kept keeper fun _ live => live) fun _ _ =>
    keeps_of_comes fun _ _ holds run => keeper.write may holds run

theorem writeRun_keeps (win : Buffer) (sector count : Nat) :
    Keeps kept (writeRun vol win sector count) fun _ => True := by
  induction count generalizing sector with
  | zero => exact keeps_pure trivial
  | succ count inductionHypothesis =>
    exact keeps_bind (writeWindow_keeps keeper may win sector) fun _ _ => keeps_ite
      (fun _ => keeps_pure trivial) fun _ => inductionHypothesis _

theorem writeUnchecked_keeps (win : Buffer) (sectors : List Nat) :
    Keeps kept (writeUnchecked vol win sectors) fun _ => True := by
  induction sectors with
  | nil => exact keeps_pure trivial
  | cons sector sectors inductionHypothesis =>
    exact keeps_bind (writeWindow_keeps keeper may win sector) fun _ _ => inductionHypothesis

theorem writeFat_keeps (head : Buffer) (bFat nFat : Nat) :
    Keeps kept (writeFat vol head bFat nFat) fun _ => True :=
  keeps_bind (writeWindow_keeps keeper may head bFat) fun _ _ => keeps_ite
    (fun _ => keeps_pure trivial) fun _ => writeRun_keeps keeper may _ _ _

theorem mkfsWrite_keeps (build : Build) (partition : Nat) (layout : Layout)
    (volumeLabel : Option (List UInt8)) :
    Keeps kept (mkfsWrite build vol partition layout volumeLabel) fun _ => True := by
  have mbr : Keeps kept (writeMbr vol partition layout) fun _ => True :=
    keeps_ite (fun _ => writeWindow_keeps keeper may _ _) fun _ => keeps_pure trivial
  refine keeps_bind mbr fun _ _ => keeps_ite (fun _ => keeps_pure trivial) fun _ =>
    keeps_bind (getFattime_kept keeper) fun time _ => ?_
  refine keeps_bind (writeWindow_keeps keeper may _ _) fun _ _ => keeps_ite
    (fun _ => keeps_pure trivial) fun _ =>
      keeps_bind (writeUnchecked_keeps keeper may _ _) fun _ _ => ?_
  refine keeps_bind (writeFat_keeps keeper may _ _ _) fun _ _ => keeps_ite
    (fun _ => keeps_pure trivial) fun _ =>
      keeps_bind (writeFat_keeps keeper may _ _ _) fun _ _ => keeps_ite
        (fun _ => keeps_pure trivial) fun _ => ?_
  refine keeps_bind (writeRun_keeps keeper may _ _ _) fun _ _ => keeps_ite
    (fun _ => keeps_pure trivial) fun _ =>
      keeps_bind (writeUnchecked_keeps keeper may _ _) fun _ _ => keeps_pure trivial

omit keeper may in
theorem diskSectorCount_keeps (drive : Nat) : Keeps kept (diskSectorCount drive) fun _ => True := by
  refine keeps_of_comes fun start finish holds run => ?_
  unfold Comes Outcome diskSectorCount at run
  grind

theorem fMkfs_keeps (partition allocsize : Nat) (volumeLabel : Option (List UInt8))
    (fmt : Option FatType) :
    Keeps kept (fMkfs vol partition allocsize volumeLabel fmt) fun _ => True := by
  refine keeps_ite (fun _ => keeps_pure trivial) fun _ => keeps_ite
    (fun _ => keeps_pure trivial) fun _ => keeps_bind keeps_get fun machine _ => keeps_ite
      (fun _ => keeps_pure trivial) fun _ => ?_
  refine keeps_bind (modifyFatfs_kept keeper fun _ _ => nofun) fun _ _ =>
    keeps_bind (diskSectorCount_keeps vol) fun nPart _ => keeps_ite
      (fun _ => keeps_pure trivial) fun _ => mkfsWrite_keeps keeper may _ _ _ _

end Write

/-! ### Images -/

theorem nextCalls_keeps (count : Nat) : Keeps kept (nextCalls count) fun _ => True :=
  keeps_bind keeps_get fun _ _ => keeps_bind (keeps_modify fun machine holds =>
    keeper.rest (machine.transfers + count) machine.fsid machine.lfnBuf machine.ticks holds)
      fun _ _ => keeps_pure trivial

/-- Opening an image maps drive 0 to a volume and may register an object that is not mounted. -/
theorem openImage_keeps {pathname : FileName} {writeable : Bool} (fatfs : Option Fatfs)
    (maps : ∀ machine vol, kept machine → vol.fd.writeable = writeable →
      kept (diskMap 0 vol machine)) :
    Keeps kept (openImage pathname fatfs writeable) fun _ => True := by
  refine keeps_bind (nextCalls_keeps keeper 2) fun sys _ => keeps_bind keeps_get
    fun machine _ => ?_
  cases opened : openVolume machine.build sys machine.files pathname writeable with
  | none => exact keeps_pure trivial
  | some vol =>
    have readOnly : vol.fd.writeable = writeable := by
      obtain ⟨node, _, _, rfl | rfl⟩ := openVolume_spec opened
      · rfl
      · rfl
    refine keeps_bind (keeps_modify fun machine holds => maps machine vol holds readOnly)
      fun _ _ => ?_
    cases fatfs with
    | none => exact keeps_pure trivial
    | some fs => exact keeps_bind (fMount_keeps keeper fs) fun _ _ => keeps_pure trivial

/-- A rebuild keeps what opening the source and creating the destination keep, if drive 1 may be
written. -/
theorem cmdRebuild_keeps {created : VolumeContainer → Prop} (may : writable 1)
    (sourceFatfs destinationFatfs : Fatfs) (fuel : Nat) (argv : List FileName)
    (opens : Keeps kept
      (openImage (rebuildArguments argv).sourceFilename (some sourceFatfs) false) fun _ => True)
    (creates : ∀ sectorCount, Keeps kept
      (createImage (rebuildArguments argv).destinationFilename sectorCount) fun outcome =>
        ∀ vol, outcome = some vol → created vol)
    (maps : ∀ machine vol, created vol → kept machine → kept (diskMap 1 vol machine)) :
    Keeps (Driven writable kept) (cmdRebuild sourceFatfs destinationFatfs fuel argv)
      fun _ => True := by
  refine keeps_ite (fun _ => keeps_pure trivial) fun _ =>
    keeps_bind (onMachine_keeps opens) fun source _ => ?_
  cases source with
  | none => exact keeps_pure trivial
  | some sourceVol =>
    refine keeps_bind (onMachine_keeps (creates _)) fun destination made => ?_
    cases destination with
    | none => exact keeps_pure trivial
    | some destinationVol =>
      have mapped : Keeps kept (modify (diskMap 1 destinationVol)) fun _ => True :=
        keeps_modify fun machine holds => maps machine _ (made _ rfl) holds
      refine keeps_bind (onMachine_keeps mapped) fun _ _ =>
        keeps_bind (onMachine_keeps (fMount_keeps keeper destinationFatfs)) fun _ _ => keeps_ite
          (fun _ => keeps_pure trivial) fun _ => ?_
      refine keeps_bind (onMachine_keeps (fMkfs_keeps keeper may _ _ _ _)) fun _ _ => keeps_ite
        (fun _ => keeps_pure trivial) fun _ => ?_
      exact keeps_bind (copyDir_keeps (driver_obeys keeper) fuel trivial may) fun _ _ =>
        keeps_pure trivial

end Calls

end Ff

end Hdfmonkey
