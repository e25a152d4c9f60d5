/-
This file is the FAT driver as the commands of `hdfmonkey.c` call it: the operations on
open files and on directories, each of which fails with a code or succeeds with what
it delivers.

The commands are written over this interface. Behind it stands either what the code
of the driver promises its callers, or a model of that code.
-/

import Hdfmonkey.DiskIo

namespace Hdfmonkey

/-- A path on a volume or a name in it, without its terminator. -/
abbrev FatPath := List UInt8

/-- What `f_readdir` delivers: the short and the long name and the directory bit of the attributes.
The long name is empty if there is none. -/
structure FileInfo where
  fname : List UInt8
  lfname : List UInt8
  isDir : Bool
  deriving DecidableEq, Repr

/-- What a caller of `f_readdir` makes of an entry: one without a short name is the end to it. -/
def FileInfo.listed (info : FileInfo) : Option FileInfo :=
  if info.fname = [] then none else some info

theorem FileInfo.listed_of_named {info : FileInfo} (named : info.fname ≠ []) :
    info.listed = some info := if_neg named

theorem FileInfo.listed_of_nameless {info : FileInfo} (nameless : info.fname = []) :
    info.listed = none := if_pos nameless

theorem FileInfo.listed_eq_some {info read : FileInfo} (listed : info.listed = some read) :
    read = info ∧ info.fname ≠ [] := by
  rw [FileInfo.listed] at listed
  split_ifs at listed with nameless
  exact ⟨(Option.some.inj listed).symm, nameless⟩

/-- The access modes the commands use: `FA_READ`, and `FA_WRITE | FA_CREATE_ALWAYS`. -/
inductive OpenMode where
  | read
  | createAlways
  deriving DecidableEq, Repr

/-- The operations on files. A read delivers the bytes, a write the number of bytes it took. -/
structure FatFiles (State File : Type) where
  fOpen : FatPath → OpenMode → Program State (Except FResult File)
  fRead : File → (btr : Nat) → Program State (Except FResult (List UInt8 × File))
  fWrite : File → (buff : List UInt8) → Program State (Except FResult (Nat × File))
  fClose : File → Program State (Except FResult PUnit)

/-- The operations on files and directories. The end of a directory, an empty name, is no entry. -/
structure FatFs (State File Dir : Type) extends FatFiles State File where
  fOpendir : FatPath → Program State (Except FResult Dir)
  fReaddir : Dir → Program State (Except FResult (Option FileInfo × Dir))
  fMkdir : FatPath → Program State (Except FResult PUnit)

/-- `BUFFER_SIZE`. -/
def bufferSize : Nat := 2048

/-- `concat_filename`. -/
def concatFilename (path filename : FatPath) : FatPath := path ++ 0x2f :: filename

end Hdfmonkey
