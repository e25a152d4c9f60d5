/-
This file models `copy_dir` and `cmd_rebuild`.

The loops are given up after some turns, and so is the descent into directories: on a
volume whose directories form a cycle `copy_dir` does not return. What `cmd_rebuild`
does before the copying is modelled elsewhere and enters here with its results only.
-/

import Hdfmonkey.CallLog
import Hdfmonkey.Clone
import Hdfmonkey.FatFs

namespace Hdfmonkey

/-- The name that `copy_dir` uses for an entry: the long one if there is one. -/
def FileInfo.name (info : FileInfo) : FatPath :=
  if info.lfname ≠ [] then info.lfname else info.fname

section CopyDir

variable {State File Dir : Type} (fat : FatFs State File Dir)

/-- Close two files, whatever comes of it. -/
def closeBoth (sourceFile destinationFile : File) : Program State PUnit := do
  let _ ← fat.fClose sourceFile
  let _ ← fat.fClose destinationFile
  return

/-- The loop of `copy_dir` over the contents of a file. -/
def copyContents : (fuel : Nat) → (sourceFile destinationFile : File) → Program State Int
  | 0, _, _ => Program.undefined
  | fuel + 1, sourceFile, destinationFile =>
    orFail (fat.fRead sourceFile bufferSize) (closeBoth fat sourceFile destinationFile) fun read =>
    orFail (fat.fWrite destinationFile read.1) (closeBoth fat read.2 destinationFile) fun write =>
    if read.1.length = bufferSize then copyContents fuel read.2 write.2
    else do
      let _ ← fat.fClose read.2
      let _ ← fat.fClose write.2
      return 0

/-- The part of `copy_dir` for a regular file. -/
def copyFile (fuel : Nat) (sourceFilename destinationFilename : FatPath) : Program State Int :=
  orFail (fat.fOpen sourceFilename .read) (return) fun sourceFile =>
  orFail (fat.fOpen destinationFilename .createAlways) (do let _ ← fat.fClose sourceFile)
    fun destinationFile => copyContents fat fuel sourceFile destinationFile

mutual

/-- `copy_dir`. -/
def copyDir : (fuel : Nat) → (sourceDirname destinationDirname : FatPath) → Program State Int
  | 0, _, _ => Program.undefined
  | fuel + 1, sourceDirname, destinationDirname =>
    orFail (fat.fOpendir sourceDirname) (return) fun sourceDir =>
      copyEntries fuel sourceDirname destinationDirname sourceDir

/-- The loop of `copy_dir` over the entries of a directory. -/
def copyEntries : (fuel : Nat) → (sourceDirname destinationDirname : FatPath) →
    (sourceDir : Dir) → Program State Int
  | 0, _, _, _ => Program.undefined
  | fuel + 1, sourceDirname, destinationDirname, sourceDir =>
    orFail (fat.fReaddir sourceDir) (return) fun read =>
    match read.1 with
    | none => return 0
    | some info =>
      let sourceFilename := concatFilename sourceDirname info.name
      let destinationFilename := concatFilename destinationDirname info.name
      if info.isDir then
        orFail (fat.fMkdir destinationFilename) (return) fun _ => do
        if (← copyDir fuel sourceFilename destinationFilename) ≠ 0 then return -1
        else copyEntries fuel sourceDirname destinationDirname read.2
      else do
        if (← copyFile fat fuel sourceFilename destinationFilename) ≠ 0 then return -1
        else copyEntries fuel sourceDirname destinationDirname read.2

end

end CopyDir

/-! ### What a copy keeps -/

/-- The calls of a driver that a copy makes keep a property: on source paths, on destination paths,
and on whatever is open. Both kinds of paths go down into directories. -/
structure Obeys {State File Dir : Type} (fat : FatFs State File Dir) (invariant : State → Prop)
    (source destination : FatPath → Prop) : Prop where
  below : ∀ path name, source path → source (concatFilename path name)
  under : ∀ path name, destination path → destination (concatFilename path name)
  fOpenRead : ∀ path, source path → Program.Keeps invariant (fat.fOpen path .read) fun _ => True
  fOpenCreate : ∀ path, destination path →
    Program.Keeps invariant (fat.fOpen path .createAlways) fun _ => True
  fRead : ∀ file btr, Program.Keeps invariant (fat.fRead file btr) fun _ => True
  fWrite : ∀ file buff, Program.Keeps invariant (fat.fWrite file buff) fun _ => True
  fClose : ∀ file, Program.Keeps invariant (fat.fClose file) fun _ => True
  fOpendir : ∀ path, source path → Program.Keeps invariant (fat.fOpendir path) fun _ => True
  fReaddir : ∀ dir, Program.Keeps invariant (fat.fReaddir dir) fun _ => True
  fMkdir : ∀ path, destination path → Program.Keeps invariant (fat.fMkdir path) fun _ => True

section Obeys

open Program

variable {State File Dir : Type} {fat : FatFs State File Dir} {invariant : State → Prop}
  {source destination : FatPath → Prop} (obeys : Obeys fat invariant source destination)

include obeys

theorem closeBoth_keeps (sourceFile destinationFile : File) :
    Keeps invariant (closeBoth fat sourceFile destinationFile) fun _ => True :=
  keeps_bind (obeys.fClose _) fun _ _ => keeps_bind (obeys.fClose _) fun _ _ => keeps_pure trivial

/-- The loop over the contents, by induction on its turns. -/
theorem copyContents_keeps (fuel : Nat) (sourceFile destinationFile : File) :
    Keeps invariant (copyContents fat fuel sourceFile destinationFile) fun _ => True := by
  induction fuel generalizing sourceFile destinationFile with
  | zero => exact keeps_undefined
  | succ fuel inductionHypothesis =>
    refine keeps_orFail ((obeys.fRead _ _).mono fun _ _ _ _ => trivial)
      (closeBoth_keeps obeys _ _) fun read _ =>
        keeps_orFail ((obeys.fWrite _ _).mono fun _ _ _ _ => trivial)
          (closeBoth_keeps obeys _ _) fun write _ => keeps_ite (fun _ => ?_) fun _ => ?_
    · exact inductionHypothesis _ _
    · exact keeps_bind (obeys.fClose _) fun _ _ => keeps_bind (obeys.fClose _) fun _ _ =>
        keeps_pure trivial

theorem copyFile_keeps (fuel : Nat) {sourceFilename destinationFilename : FatPath}
    (reads : source sourceFilename) (writes : destination destinationFilename) :
    Keeps invariant (copyFile fat fuel sourceFilename destinationFilename) fun _ => True := by
  refine keeps_orFail ((obeys.fOpenRead _ reads).mono fun _ _ _ _ => trivial)
    (keeps_pure trivial) fun sourceFile _ =>
      keeps_orFail ((obeys.fOpenCreate _ writes).mono fun _ _ _ _ => trivial) ?_ fun file _ => ?_
  · exact keeps_bind (obeys.fClose _) fun _ _ => keeps_pure trivial
  · exact copyContents_keeps obeys _ _ _

/-- The loop over the entries, from the descent with one turn less. -/
theorem copyEntries_keeps (fuel : Nat)
    (descends : ∀ {sourceDirname destinationDirname}, source sourceDirname →
      destination destinationDirname →
      Keeps invariant (copyDir fat fuel sourceDirname destinationDirname) fun _ => True)
    (goesOn : ∀ {sourceDirname destinationDirname} (sourceDir : Dir), source sourceDirname →
      destination destinationDirname →
      Keeps invariant (copyEntries fat fuel sourceDirname destinationDirname sourceDir)
        fun _ => True)
    {sourceDirname destinationDirname : FatPath} (sourceDir : Dir) (reads : source sourceDirname)
    (writes : destination destinationDirname) :
    Keeps invariant (copyEntries fat (fuel + 1) sourceDirname destinationDirname sourceDir)
      fun _ => True := by
  refine keeps_orFail ((obeys.fReaddir _).mono fun _ _ _ _ => trivial) (keeps_pure trivial)
    fun read _ => ?_
  obtain ⟨entry, dir⟩ := read
  cases entry with
  | none => exact keeps_pure trivial
  | some info =>
    have reads' := obeys.below _ info.name reads
    have writes' := obeys.under _ info.name writes
    refine keeps_ite (fun _ => ?_) fun _ => ?_
    · refine keeps_orFail ((obeys.fMkdir _ writes').mono fun _ _ _ _ => trivial)
        (keeps_pure trivial) fun _ _ => keeps_bind (descends reads' writes') fun _ _ => ?_
      exact keeps_ite (fun _ => keeps_pure trivial) fun _ => goesOn _ reads writes
    · refine keeps_bind (copyFile_keeps obeys fuel reads' writes') fun _ _ => ?_
      exact keeps_ite (fun _ => keeps_pure trivial) fun _ => goesOn _ reads writes

/-- The descent, by induction on the turns and levels it is allowed. -/
theorem copyDir_keeps (fuel : Nat) {sourceDirname destinationDirname : FatPath}
    (reads : source sourceDirname) (writes : destination destinationDirname) :
    Keeps invariant (copyDir fat fuel sourceDirname destinationDirname) fun _ => True := by
  have both : ∀ fuel, (∀ {sourceDirname destinationDirname}, source sourceDirname →
      destination destinationDirname →
      Keeps invariant (copyDir fat fuel sourceDirname destinationDirname) fun _ => True) ∧
      ∀ {sourceDirname destinationDirname} (sourceDir : Dir), source sourceDirname →
      destination destinationDirname →
      Keeps invariant (copyEntries fat fuel sourceDirname destinationDirname sourceDir)
        fun _ => True := by
    intro fuel
    induction fuel with
    | zero => exact ⟨fun _ _ => keeps_undefined, fun _ _ _ => keeps_undefined⟩
    | succ fuel inductionHypothesis =>
      obtain ⟨descends, goesOn⟩ := inductionHypothesis
      refine ⟨fun reads writes => ?_, copyEntries_keeps obeys fuel descends goesOn⟩
      exact keeps_orFail ((obeys.fOpendir _ reads).mono fun _ _ _ _ => trivial)
        (keeps_pure trivial) fun sourceDir _ => goesOn sourceDir reads writes
  exact (both fuel).1 reads writes

end Obeys

/-! ### The command -/

/-- The arguments of `rebuild`. -/
structure RebuildArguments where
  fmt : Option FatType
  argNum : Nat
  sourceFilename : FileName
  destinationFilename : FileName
  volumelabel : Option FileName

/-- An argument that is not an option. -/
def RebuildArguments.positional (arguments : RebuildArguments) (arg : FileName) :
    RebuildArguments :=
  let counted := { arguments with argNum := arguments.argNum + 1 }
  match arguments.argNum with
  | 0 => { counted with sourceFilename := arg }
  | 1 => { counted with destinationFilename := arg }
  | 2 => { counted with volumelabel := some arg }
  | _ => counted

/-- The name of an option, `--fat12`, `--fat16` or `--fat32`, by its last two characters. -/
def fatOption (tens ones : UInt8) : FileName := [0x2d, 0x2d, 0x66, 0x61, 0x74, tens, ones]

/-- An argument of `rebuild`. -/
def RebuildArguments.read (arguments : RebuildArguments) (arg : FileName) : RebuildArguments :=
  if arg = fatOption 0x31 0x32 then { arguments with fmt := some .fat12 }
  else if arg = fatOption 0x31 0x36 then { arguments with fmt := some .fat16 }
  else if arg = fatOption 0x33 0x32 then { arguments with fmt := some .fat32 }
  else arguments.positional arg

/-- What comes of the calls that `cmd_rebuild` makes before it copies. A command that fails to open
or to create an image gets none. -/
structure RebuildSteps (Volume : Type) where
  openImage : FileName → Option Volume
  sectorCount : Volume → Nat
  hdfImageCreate : FileName → Nat → Option Volume
  rawImageCreate : FileName → Nat → Option Volume
  fMount : Volume → FResult
  fMkfs : Volume → Option FileName → Option FatType → FResult

/-- `cmd_rebuild`. The arguments are those behind the name of the command. The closing of the images
at the end has no result. -/
def cmdRebuild {State File Dir Volume : Type} (fat : FatFs State File Dir)
    (steps : RebuildSteps Volume) (fuel : Nat) (argv : List FileName) : Program State Int := do
  let arguments := argv.foldl RebuildArguments.read ⟨none, 0, [], [], none⟩
  if arguments.argNum < 2 ∨ arguments.argNum > 3 then return -1
  else match steps.openImage arguments.sourceFilename with
    | none => return -1
    | some sourceVol =>
      let create :=
        if filenameIsHdf arguments.destinationFilename then steps.hdfImageCreate
        else steps.rawImageCreate
      match create arguments.destinationFilename (steps.sectorCount sourceVol) with
      | none => return -1
      | some destinationVol =>
        if steps.fMount destinationVol ≠ .ok then return -1
        else if steps.fMkfs destinationVol arguments.volumelabel arguments.fmt ≠ .ok then return -1
        else
          let _ ← copyDir fat fuel [0x30, 0x3a] [0x31, 0x3a]
          return 0

end Hdfmonkey
