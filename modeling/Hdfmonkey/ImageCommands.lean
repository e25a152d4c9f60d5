/-
This file models the commands that open images over the sectors of their volumes: `ls`,
`get` and `rebuild`, with `open_image` and the creation of an image.

Every system call of these commands is answered by the machine. Opening an image takes
the answers of two transfers, one for the look at its signature and one for the rest,
and creating one takes those of another. The messages of failures are left out; what
`ls` prints and `get` writes is not.
-/

import Hdfmonkey.CopyDir
import Hdfmonkey.FatFile

namespace Hdfmonkey

namespace Ff

/-! ### Images -/

/-- The answers to some calls of the kernel. -/
def nextCalls (count : Nat) : Program Machine (Nat → Schedule) := do
  let machine ← get
  modify fun machine => { machine with transfers := machine.transfers + count }
  return fun call => machine.sys (machine.transfers + call)

/-- `open_image`. The file system object is not touched if there is none. -/
def openImage (pathname : FileName) (fatfs : Option Fatfs) (writeable : Bool) :
    Program Machine (Option VolumeContainer) := do
  let sys ← nextCalls 2
  let machine ← get
  match openVolume machine.build sys machine.files pathname writeable with
  | none => return none
  | some vol =>
    modify (diskMap 0 vol)
    match fatfs with
    | none => return some vol
    | some fs => return if (← fMount 0 (some fs)) = .ok then some vol else none

/-- The creation of an image, raw or HDF by its name. -/
def createImage (pathname : FileName) (sectorCount : Nat) :
    Program Machine (Option VolumeContainer) := do
  let sys ← nextCalls 1
  let machine ← get
  match createVolume machine.build machine.fuel (sys 0) machine.files pathname sectorCount with
  | none => Program.undefined
  | some (vol, files) =>
    modify fun machine => { machine with files }
    return vol

/-! ### `ls` -/

/-- A value of type `unsigned long` read as a `long`. -/
def asLong (build : Build) (value : Nat) : Int :=
  if value < build.word / 2 then value else value - build.word

/-- The characters of a text. -/
def textBytes (text : String) : List UInt8 := text.toList.map fun c => c.toNat.toUInt8

/-- The line that `cmd_ls` prints for an entry. -/
def lsLine (build : Build) (info : Filinfo) : List UInt8 :=
  (if info.isDir then textBytes "[DIR]\t"
    else textBytes (toString (asLong build info.fsize) ++ "\t")) ++ info.name ++ textBytes "\n"

/-- The loop of `cmd_ls`: the value the command returns and the lines it has printed. On a cyclic
directory it goes on for ever. -/
def lsLoop : (fuel : Nat) → Dir → (lines : List (List UInt8)) →
    Program Machine (Int × List (List UInt8))
  | 0, _, _ => Program.undefined
  | fuel + 1, dir, lines => do
    let read ← fReaddir dir
    if read.1 ≠ .ok then return (-1, lines)
    if read.2.2.fname = [] then return (0, lines)
    let build := (← get).build
    lsLoop fuel read.2.1 (lines ++ [lsLine build read.2.2])

/-- `cmd_ls`. The file system object lies on the stack and starts with any content. -/
def cmdLs (fatfs : Fatfs) (fuel : Nat) (argv : List FileName) :
    Program Machine (Int × List (List UInt8)) :=
  match argv with
  | _ :: _ :: imageFilename :: rest => do
    match ← openImage imageFilename (some fatfs) false with
    | none => return (-1, [])
    | some _ =>
      match ← fOpendir (rest.headD []) with
      | .error _ => return (-1, [])
      | .ok dir => lsLoop fuel dir []
  | _ => return (-1, [])

/-! ### `get` -/

/-- The program changes nothing but the local files, and takes some answers of the kernel. -/
def FilesOnly {Result : Type} (program : Program Machine Result) : Prop :=
  ∀ start finish, program.Comes start finish →
    ∃ files transfers, finish = { start with files, transfers }

/-- The streams of the C library that `get` writes its output to. When their bytes reach the local
files, and how many of them, is up to the library. -/
structure Stdio where
  Stream : Type
  stdout : Stream
  fopen : FileName → Program Machine (Option Stream)
  fwrite : List UInt8 → Stream → Program Machine Stream
  fclose : Stream → Program Machine PUnit
  fopen_files : ∀ pathname, FilesOnly (fopen pathname)
  fwrite_files : ∀ bytes stream, FilesOnly (fwrite bytes stream)
  fclose_files : ∀ stream, FilesOnly (fclose stream)

section Get

variable (stdio : Stdio)

/-- The stream for the output: a file if one is named. -/
def openOutput (outputFilename : Option FileName) : Program Machine (Option stdio.Stream) :=
  match outputFilename with
  | none => return some stdio.stdout
  | some pathname => stdio.fopen pathname

/-- Close the output if it is not `stdout`. -/
def closeOutput (outputFilename : Option FileName) (outputStream : stdio.Stream) :
    Program Machine PUnit :=
  if outputFilename.isSome then stdio.fclose outputStream else return

/-- The loop of `cmd_get`, and what follows it. -/
def getLoop (outputFilename : Option FileName) : (fuel : Nat) → Fil → stdio.Stream →
    Program Machine Int
  | 0, _, _ => Program.undefined
  | fuel + 1, inputFile, outputStream => do
    let read ← fRead inputFile bufferSize
    if read.1 ≠ .ok then
      let _ ← fClose read.2.2
      return -1
    let outputStream ← stdio.fwrite read.2.1 outputStream
    if read.2.1.length = bufferSize then getLoop outputFilename fuel read.2.2 outputStream
    else
      let _ ← fClose read.2.2
      closeOutput stdio outputFilename outputStream
      return 0

/-- `cmd_get`. -/
def cmdGet (fatfs : Fatfs) (fuel : Nat) (argv : List FileName) : Program Machine Int :=
  match argv with
  | _ :: _ :: imageFilename :: sourceFilename :: rest => do
    match ← openOutput stdio rest.head? with
    | none => return -1
    | some outputStream =>
      match ← openImage imageFilename (some fatfs) false with
      | none => return -1
      | some _ =>
        match ← fOpen sourceFilename .read with
        | .error _ => return -1
        | .ok inputFile => getLoop stdio rest.head? fuel inputFile outputStream
  | _ => return -1

end Get

/-! ### `rebuild` -/

/-- The part of `cmd_rebuild` behind the creation of the destination. -/
def rebuildVolume (destinationFatfs : Fatfs) (fuel : Nat) (arguments : RebuildArguments)
    (destinationVol : VolumeContainer) : Program Driver Int := do
  onMachine (modify (diskMap 1 destinationVol))
  if (← onMachine (fMount 1 (some destinationFatfs))) ≠ .ok then return -1
  let formatted ← onMachine (fMkfs 1 0 0 arguments.volumelabel arguments.fmt)
  if formatted ≠ .ok then return -1
  let _ ← copyDir driver fuel [0x30, 0x3a] [0x31, 0x3a]
  return 0

/-- The arguments of `rebuild`, which are those behind the name of the command. -/
def rebuildArguments (argv : List FileName) : RebuildArguments :=
  argv.foldl RebuildArguments.read ⟨none, 0, [], [], none⟩

/-- `cmd_rebuild`, with the two file system objects on its stack. -/
def cmdRebuild (sourceFatfs destinationFatfs : Fatfs) (fuel : Nat) (argv : List FileName) :
    Program Driver Int := do
  let arguments := rebuildArguments argv
  if arguments.argNum < 2 ∨ arguments.argNum > 3 then return -1
  match ← onMachine (openImage arguments.sourceFilename (some sourceFatfs) false) with
  | none => return -1
  | some sourceVol =>
    match ← onMachine (createImage arguments.destinationFilename sourceVol.sectorCount) with
    | none => return -1
    | some destinationVol => rebuildVolume destinationFatfs fuel arguments destinationVol

end Ff

end Hdfmonkey
