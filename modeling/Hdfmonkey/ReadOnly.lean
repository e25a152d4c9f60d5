/-
This file proves that the commands that only read do not write: no run of `ls` or `get`
calls `disk_write`, and while `copy_dir` copies from drive 0 to drive 1 no call writes
to drive 0, in whatever order the calls come.

What is followed along a run is that the window of the file system object is clean, and
that no file is open for writing or has changed, on a drive that is only read. A run is
followed also if it does not end, as far as it goes.
-/

import Hdfmonkey.CallFrame
import Hdfmonkey.FormatAgreement
import Mathlib.Logic.Relation

namespace Hdfmonkey

/-- The writes to a drive, newest first. -/
def Machine.writes (machine : Machine) (drive : Nat) : List DiskWrite :=
  machine.written.filter fun entry => entry.drive = drive

/-- No drive is mounted, as when the program starts and after a format. -/
def Machine.Unmounted (machine : Machine) : Prop :=
  ∀ vol fs, machine.fatFs vol = some fs → fs.fsType = none

namespace Ff

open Program

/-! ### What is followed -/

/-- The object of every mounted drive is bound to it and unchanged on a drive that is only read,
and the list of the writes has a property. -/
structure OnlyReads (writable : Nat → Prop) (log : List DiskWrite → Prop) (machine : Machine) :
    Prop where
  bound : ∀ {vol fs}, machine.fatFs vol = some fs → fs.fsType.isSome = true →
    Live writable vol fs
  log : log machine.written

section Keeper

variable {machine after : Machine} {drive sector count : Nat} {buff : Buffer}

theorem diskRead_written (run : (diskRead drive buff sector count).Comes machine after) :
    after.written = machine.written := by
  obtain ⟨_, rfl⟩ := diskRead_comes run
  rfl

/-- Every call of `disk_write` is listed. -/
theorem diskWrite_written (run : (diskWrite drive buff sector count).Comes machine after) :
    ∃ entry : DiskWrite, entry.drive = drive ∧ after.written = entry :: machine.written := by
  obtain ⟨_, _, result, rfl, _⟩ := diskWrite_comes run
  exact ⟨⟨drive, sector, count, result⟩, rfl, rfl⟩

variable {writable : Nat → Prop} {log : List DiskWrite → Prop}

/-- The driver keeps what is followed if writes to the drives that may be written keep the property
of the list. -/
theorem onlyReads_keeper
    (grows : ∀ entry entries, writable entry.drive → log entries → log (entry :: entries)) :
    Keeper writable (OnlyReads writable log) where
  bound kept registered mounted := kept.bound registered mounted
  object {machine vol fs} kept live := by
    refine ⟨fun {other found} registered mounted => ?_, kept.log⟩
    by_cases same : other = vol
    · subst same
      rw [machine.fatFs_register] at registered
      obtain rfl := Option.some.inj registered
      exact live mounted
    · exact kept.bound ((Function.update_of_ne same _ _).symm.trans registered) mounted
  read kept run := by
    refine ⟨fun registered mounted => ?_, diskRead_written run ▸ kept.log⟩
    rw [diskRead_fatFs run] at registered
    exact kept.bound registered mounted
  write may kept run := by
    obtain ⟨entry, rfl, written⟩ := diskWrite_written run
    refine ⟨fun registered mounted => ?_, written ▸ grows _ _ may kept.log⟩
    rw [diskWrite_fatFs run] at registered
    exact kept.bound registered mounted
  rest _ _ _ _ kept := ⟨kept.bound, kept.log⟩

theorem OnlyReads.map {volume : VolumeContainer} (kept : OnlyReads writable log machine) :
    OnlyReads writable log (diskMap drive volume machine) := ⟨kept.bound, kept.log⟩

theorem filesOnly_pure {Result : Type} (value : Result) :
    FilesOnly (pure value : Program Machine Result) := by
  rintro start finish (⟨result, run⟩ | stopped)
  · obtain ⟨_, rfl⟩ := outcome_pure.mp run
    exact ⟨finish.files, finish.transfers, rfl⟩
  · exact nomatch stopped

/-- Nothing but the local files changes. -/
theorem FilesOnly.keeps {Result : Type} {program : Program Machine Result}
    (files : FilesOnly program) : Keeps (OnlyReads writable log) program fun _ => True :=
  keeps_of_comes fun start finish kept run => by
    obtain ⟨_, _, rfl⟩ := files start finish run
    exact ⟨kept.bound, kept.log⟩

theorem onlyReads_unmounted (unmounted : machine.Unmounted) (holds : log machine.written) :
    OnlyReads writable log machine where
  bound registered mounted := by
    rw [unmounted _ _ registered] at mounted
    exact nomatch mounted
  log := holds

end Keeper

/-! ### The commands -/

section Commands

variable {writable : Nat → Prop} {kept : Machine → Prop} (keeper : Keeper writable kept)

include keeper

theorem lsLoop_keeps (fuel : Nat) (dir : Dir) (lines : List (List UInt8)) :
    Keeps kept (lsLoop fuel dir lines) fun _ => True := by
  induction fuel generalizing dir lines with
  | zero => exact keeps_undefined
  | succ fuel inductionHypothesis =>
    exact keeps_bind (fReaddir_keeps keeper dir) fun read _ => keeps_ite
      (fun _ => keeps_pure trivial) fun _ => keeps_ite (fun _ => keeps_pure trivial) fun _ =>
        keeps_bind keeps_get fun machine _ => inductionHypothesis _ _

theorem cmdLs_keeps (fatfs : Fatfs) (fuel : Nat) (argv : List FileName)
    (maps : ∀ machine vol, kept machine → vol.fd.writeable = false →
      kept (diskMap 0 vol machine)) :
    Keeps kept (cmdLs fatfs fuel argv) fun _ => True := by
  match argv with
  | [] => exact keeps_pure trivial
  | [_] => exact keeps_pure trivial
  | [_, _] => exact keeps_pure trivial
  | _ :: _ :: imageFilename :: rest =>
    refine keeps_bind (openImage_keeps keeper (some fatfs) maps) fun opened _ => ?_
    cases opened with
    | none => exact keeps_pure trivial
    | some vol =>
      refine keeps_bind (fOpendir_keeps keeper _) fun found _ => ?_
      cases found with
      | error res => exact keeps_pure trivial
      | ok dir => exact lsLoop_keeps keeper fuel dir []

section Get

variable {stdio : Stdio} (writes : ∀ buffer outputStream,
    Keeps kept (stdio.fwrite buffer outputStream) fun _ => True)
  (closes : ∀ outputStream, Keeps kept (stdio.fclose outputStream) fun _ => True)

include writes closes

/-- The file that is read is not written, whether it is read to its end or not. -/
theorem getLoop_keeps (outputFilename : Option FileName) (fuel : Nat) (inputFile : Fil)
    (outputStream : stdio.Stream) (proper : Proper writable inputFile) :
    Keeps kept (getLoop stdio outputFilename fuel inputFile outputStream) fun _ => True := by
  induction fuel generalizing inputFile outputStream with
  | zero => exact keeps_undefined
  | succ fuel inductionHypothesis =>
    refine keeps_bind (fRead_keeps keeper bufferSize proper) fun read proper => ?_
    have close : Keeps kept (fClose read.2.2) fun _ => True :=
      (fClose_keeps keeper proper).mono fun _ _ => trivial
    refine keeps_ite (fun _ => keeps_bind close fun _ _ => keeps_pure trivial) fun _ =>
      keeps_bind (writes _ _) fun outputStream _ => keeps_ite
        (fun _ => inductionHypothesis _ _ proper) fun _ => ?_
    have output : Keeps kept (closeOutput stdio outputFilename outputStream) fun _ => True :=
      keeps_ite (fun _ => closes _) fun _ => keeps_pure trivial
    exact keeps_bind close fun _ _ => keeps_bind output fun _ _ => keeps_pure trivial

/-- What `cmd_get` does once the output is open. -/
theorem getImage_keeps (fatfs : Fatfs) (fuel : Nat) (outputFilename : Option FileName)
    (outputStream : stdio.Stream) (imageFilename : FileName) (sourceFilename : FatPath)
    (maps : ∀ machine vol, kept machine → vol.fd.writeable = false →
      kept (diskMap 0 vol machine)) :
    Keeps kept (do
      match ← openImage imageFilename (some fatfs) false with
      | none => return -1
      | some _ =>
        match ← fOpen sourceFilename .read with
        | .error _ => return -1
        | .ok inputFile => getLoop stdio outputFilename fuel inputFile outputStream) fun _ =>
      True := by
  refine keeps_bind (openImage_keeps keeper (some fatfs) maps) fun opened _ => ?_
  cases opened with
  | none => exact keeps_pure trivial
  | some vol =>
    refine keeps_bind (fOpen_keeps keeper _ .read nofun) fun found proper => ?_
    cases found with
    | error res => exact keeps_pure trivial
    | ok inputFile =>
      exact getLoop_keeps keeper writes closes outputFilename fuel inputFile outputStream
        (proper inputFile rfl)

theorem cmdGet_keeps (opens : ∀ pathname, Keeps kept (stdio.fopen pathname) fun _ => True)
    (fatfs : Fatfs) (fuel : Nat) (argv : List FileName)
    (maps : ∀ machine vol, kept machine → vol.fd.writeable = false →
      kept (diskMap 0 vol machine)) :
    Keeps kept (cmdGet stdio fatfs fuel argv) fun _ => True := by
  match argv with
  | [] => exact keeps_pure trivial
  | [_] => exact keeps_pure trivial
  | [_, _] => exact keeps_pure trivial
  | [_, _, _] => exact keeps_pure trivial
  | _ :: _ :: imageFilename :: sourceFilename :: rest =>
    have output : Keeps kept (openOutput stdio rest.head?) fun _ => True := by
      cases rest.head? with
      | none => exact keeps_pure trivial
      | some pathname => exact opens pathname
    refine keeps_bind output fun outputStream _ => ?_
    cases outputStream with
    | none => exact keeps_pure trivial
    | some outputStream => exact getImage_keeps keeper writes closes fatfs fuel _ _ _ _ maps

end Get

end Commands

/-! ### A copy, call by call -/

/-- A call of a program that copies from drive 0 to drive 1, or that makes ready for it. What a call
comes to need not be its end. The files and directories a call is on may be any. -/
inductive CopyStep : Driver → Driver → Prop where
  | map {state} (drive : Nat) (volume : VolumeContainer) :
      CopyStep state { state with machine := diskMap drive volume state.machine }
  | mount {state after} (vol : Nat) (fs : Fatfs) :
      (onMachine (fMount vol (some fs))).Comes state after → CopyStep state after
  | format {state after} (partition allocsize : Nat) (volumeLabel : Option (List UInt8))
      (fmt : Option FatType) :
      (onMachine (fMkfs 1 partition allocsize volumeLabel fmt)).Comes state after →
      CopyStep state after
  | openSource {state after} (path : FatPath) :
      (driver.fOpen path .read).Comes state after → CopyStep state after
  | openDestination {state after} (path : FatPath) : (logicalDrive path).1 = 1 →
      (driver.fOpen path .createAlways).Comes state after → CopyStep state after
  | read {state after} (file btr : Nat) :
      (driver.fRead file btr).Comes state after → CopyStep state after
  | write {state after} (file : Nat) (buff : List UInt8) :
      (driver.fWrite file buff).Comes state after → CopyStep state after
  | close {state after} (file : Nat) :
      (driver.fClose file).Comes state after → CopyStep state after
  | openDirectory {state after} (path : FatPath) :
      (driver.fOpendir path).Comes state after → CopyStep state after
  | readDirectory {state after} (dir : Dir) :
      (driver.fReaddir dir).Comes state after → CopyStep state after
  | makeDirectory {state after} (path : FatPath) : (logicalDrive path).1 = 1 →
      (driver.fMkdir path).Comes state after → CopyStep state after

/-- Such calls in any number and order. -/
abbrev CopyRun : Driver → Driver → Prop := Relation.ReflTransGen CopyStep

/-- What is followed along a copy: drive 0 is only read, and these were the writes to it. -/
def SourceRead (writes : List DiskWrite) : Driver → Prop :=
  Driven (· ≠ 0) (OnlyReads (· ≠ 0) fun entries =>
    entries.filter (fun entry => entry.drive = 0) = writes)

section Copy

variable {writes : List DiskWrite} {state after : Driver}

theorem source_keeper : Keeper (· ≠ 0) (OnlyReads (· ≠ 0) fun entries =>
    entries.filter (fun entry => entry.drive = 0) = writes) :=
  onlyReads_keeper fun entry entries other same => by
    rw [List.filter_cons_of_neg (by simpa using other), same]

theorem source_obeys : Obeys driver (SourceRead writes) (fun _ => True) fun path =>
    (logicalDrive path).1 ≠ 0 := driver_obeys source_keeper

/-- Every single call leaves drive 0 alone. -/
theorem CopyStep.keeps (step : CopyStep state after) (holds : SourceRead writes state) :
    SourceRead writes after := by
  have other : (1 : Nat) ≠ 0 := Nat.one_ne_zero
  cases step with
  | map drive volume => exact ⟨holds.1.map, holds.2⟩
  | mount vol fs run => exact (onMachine_keeps (fMount_keeps source_keeper fs)).comes holds run
  | format partition allocsize volumeLabel fmt run =>
    exact (onMachine_keeps (fMkfs_keeps source_keeper other _ _ _ _)).comes holds run
  | openSource path run => exact (source_obeys.fOpenRead path trivial).comes holds run
  | openDestination path drive run =>
    exact (source_obeys.fOpenCreate path (drive ▸ other)).comes holds run
  | read file btr run => exact (source_obeys.fRead file btr).comes holds run
  | write file buff run => exact (source_obeys.fWrite file buff).comes holds run
  | close file run => exact (source_obeys.fClose file).comes holds run
  | openDirectory path run => exact (source_obeys.fOpendir path trivial).comes holds run
  | readDirectory dir run => exact (source_obeys.fReaddir dir).comes holds run
  | makeDirectory path drive run => exact (source_obeys.fMkdir path (drive ▸ other)).comes holds run

/-- And so does every run, by induction on its calls. -/
theorem CopyRun.keeps (run : CopyRun state after) (holds : SourceRead writes state) :
    SourceRead writes after := by
  induction run with
  | refl => exact holds
  | tail _ step inductionHypothesis => exact step.keeps inductionHypothesis

theorem sourceRead_start (unmounted : state.machine.Unmounted) (closed : state.fils = []) :
    SourceRead (state.machine.writes 0) state := by
  refine ⟨onlyReads_unmounted unmounted rfl, fun fp member => ?_⟩
  rw [closed] at member
  exact absurd member List.not_mem_nil

theorem createImage_reads {writable : Nat → Prop} {log : List DiskWrite → Prop}
    (keeper : Keeper writable (OnlyReads writable log)) (pathname : FileName) (sectorCount : Nat) :
    Keeps (OnlyReads writable log) (createImage pathname sectorCount) fun _ => True := by
  refine keeps_bind (nextCalls_keeps keeper 1) fun sys _ => keeps_bind keeps_get
    fun machine _ => ?_
  cases createVolume machine.build machine.fuel (sys 0) machine.files pathname sectorCount with
  | none => exact keeps_undefined
  | some made =>
    exact keeps_bind (keeps_modify fun _ kept => ⟨kept.bound, kept.log⟩) fun _ _ =>
      keeps_pure trivial

theorem cmdRebuild_reads (sourceFatfs destinationFatfs : Fatfs) (fuel : Nat)
    (argv : List FileName) :
    Keeps (SourceRead writes) (cmdRebuild sourceFatfs destinationFatfs fuel argv) fun _ => True :=
  cmdRebuild_keeps source_keeper Nat.one_ne_zero sourceFatfs destinationFatfs fuel argv
    (openImage_keeps source_keeper _ fun _ _ kept _ => kept.map)
    (fun _ => (createImage_reads source_keeper _ _).mono fun _ _ _ _ => trivial)
    fun _ _ (_ : True) kept => kept.map

end Copy

/-- No run of `ls` or `get` calls `disk_write`, whatever the image holds and however far the run
goes. In a copy from drive 0 to drive 1, in a rebuild or between any other calls, none is for
drive 0. -/
theorem never_writes (stdio : Stdio) :
    (∀ machine : Machine, machine.Unmounted → ∀ fatfs fuel argv,
      (∀ after, (cmdLs fatfs fuel argv).Comes machine after → after.written = machine.written) ∧
      ∀ after, (cmdGet stdio fatfs fuel argv).Comes machine after →
        after.written = machine.written) ∧
    ∀ start : Driver, start.machine.Unmounted → start.fils = [] →
      (∀ sourceFatfs destinationFatfs fuel argv after,
        (cmdRebuild sourceFatfs destinationFatfs fuel argv).Comes start after →
          after.machine.writes 0 = start.machine.writes 0) ∧
      ∀ state, CopyRun start state → state.machine.writes 0 = start.machine.writes 0 ∧
        ∀ fuel source destination after,
          (copyDir driver fuel (0x30 :: 0x3a :: source) (0x31 :: 0x3a :: destination)).Comes
            state after → after.machine.writes 0 = start.machine.writes 0 := by
  refine ⟨fun machine unmounted fatfs fuel argv => ?_, fun start unmounted closed => ?_⟩
  · have keeper : Keeper (fun _ => False)
        (OnlyReads (fun _ => False) fun entries => entries = machine.written) :=
      onlyReads_keeper fun _ _ never => never.elim
    have ready : OnlyReads (fun _ => False) (fun entries => entries = machine.written) machine :=
      onlyReads_unmounted unmounted rfl
    refine ⟨fun after run => ?_, fun after run => ?_⟩
    · exact ((cmdLs_keeps keeper fatfs fuel argv fun _ _ kept _ => kept.map).comes ready run).log
    · exact ((cmdGet_keeps keeper (fun _ _ => (stdio.fwrite_files _ _).keeps)
        (fun _ => (stdio.fclose_files _).keeps)
          (fun _ => (stdio.fopen_files _).keeps) fatfs fuel argv
        fun _ _ kept _ => kept.map).comes ready run).log
  · have ready := sourceRead_start unmounted closed
    refine ⟨fun _ _ _ _ after run => ((cmdRebuild_reads _ _ _ _).comes ready run).1.log,
      fun state run => ?_⟩
    have reached := CopyRun.keeps run ready
    refine ⟨reached.1.log, fun fuel source destination after copied => ?_⟩
    have other : (logicalDrive (0x31 :: 0x3a :: destination)).1 ≠ 0 := Nat.one_ne_zero
    exact ((copyDir_keeps source_obeys fuel trivial other).comes reached copied).1.log

/-- An image of ten sectors with a file of five bytes in its root directory. -/
def smallImage : ByteFile :=
  let boot := Buffer.zero.storeList bpbBytsPerSec [0, 2, 1, 1, 0, 1, 16, 0, 10, 0, 0, 1, 0]
  let boot := (boot.storeList bsFilSysType [0x46, 0x41, 0x54]).storeWord bs55AA 0xAA55
  ByteFile.ofBuffer (10 * sectorSize) (boot.storeList (2 * sectorSize)
    (0x41 :: List.replicate 10 0x20 ++ List.replicate 15 0 ++ [2, 0, 5]))

/-- A program that has just started, beside such an image. -/
def smallMachine : Machine where
  build := .lp64
  fuel := 0
  sys _ := Schedule.kernel
  transfers := 0
  files := (FileStore.empty.create [0x69]).2.put 0 smallImage
  volumeContainers _ := none
  fatFs _ := none
  fsid := 0
  lfnBuf _ := 0
  time _ := 0
  ticks := 0
  written := []

theorem smallMachine_unmounted : smallMachine.Unmounted := fun _ _ => nofun

/-- A library that opens no files. -/
def closedStdio : Stdio where
  Stream := PUnit
  stdout := ()
  fopen _ := return none
  fwrite _ _ := return
  fclose _ := return
  fopen_files _ := filesOnly_pure none
  fwrite_files _ _ := filesOnly_pure ()
  fclose_files _ := filesOnly_pure ()

/-- The directory is listed and the file is read, without a write. -/
theorem never_writes_small :
    (∃ lines after, (cmdLs blankFatfs 3 [[], [], [0x69]]).Outcome smallMachine (0, lines) after ∧
      lines.length = 1 ∧ after.written = []) ∧
    ∃ after, (cmdGet closedStdio blankFatfs 3 [[], [], [0x69], [0x61]]).Outcome smallMachine 0
      after ∧ after.written = [] := by
  have lists : ((cmdLs blankFatfs 3 [[], [], [0x69]]) smallMachine).toOption.map
      (fun x => (x.1.1, x.1.2.length)) = some (0, 1) := by decide +kernel
  have reads : ((cmdGet closedStdio blankFatfs 3 [[], [], [0x69], [0x61]])
      smallMachine).toOption.map (·.1) = some 0 := by decide +kernel
  obtain ⟨⟨_, lines⟩, after, run, same⟩ := outcome_of_observed lists
  obtain ⟨rfl, single⟩ := Prod.mk.inj same
  obtain ⟨_, after', run', rfl⟩ := outcome_of_observed reads
  have never := (never_writes closedStdio).1 smallMachine smallMachine_unmounted blankFatfs 3
  exact ⟨⟨lines, after, run, single, (never _).1 after (Or.inl ⟨_, run⟩)⟩,
    ⟨after', run', (never _).2 after' (Or.inl ⟨_, run'⟩)⟩⟩

end Ff

end Hdfmonkey
