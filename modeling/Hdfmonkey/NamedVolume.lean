/-
This file models the directories of `ff.c`: how a path is followed, what a look-up
matches, which short name a new entry gets, and the operations on files and directories
that go through them.

A directory is known by a number in the place of its first cluster, and is the list of
its files and directories; each stands for a short entry with the entries of its long
name in front of it. Dot entries and volume labels, which no path leads to, are left
out, and so are the attributes but for the directory bit. A file is its bytes: where
they lie is not modelled, and no call fails for want of room.

The volumes written to are those on which nothing was ever removed, as a rebuilt disk is:
a new entry comes behind the others. What takes the place of a removed file is in
`SlotVolume`.
-/

import Hdfmonkey.FatName
import Hdfmonkey.Mount

namespace Hdfmonkey

/-- The names of an entry: the short one, the long one, empty if there is none, and the NT flags for
the case of the short one. -/
structure Label where
  sfn : List UInt8
  lfn : List Nat
  body : Bool
  ext : Bool
  deriving DecidableEq, Repr

/-- The slots that an entry takes. -/
def Label.slots (label : Label) : Nat :=
  if label.lfn = [] then 1 else (label.lfn.length + 25) / 13

/-- A file or a directory, with its bytes or its number. -/
structure DirEntry extends Label where
  isDir : Bool
  table : Nat
  content : List UInt8
  deriving DecidableEq, Repr

/-! ### Look-ups -/

/-- Whether `dir_find` stops at an entry. A long name is compared without regard to case, and is not
found if its terminator does not fit in the buffer; a short name that lost something is no key. -/
def Label.matches (name : Name) (label : Label) : Bool :=
  (label.lfn ≠ [] ∧ label.lfn.length < maxLfn ∧
    label.lfn.map ffWtoupper = name.lfn.map ffWtoupper) ∨ (!name.loss ∧ label.sfn = name.fn)

/-- `dir_find`. -/
def dirFind (labels : List Label) (name : Name) : Option Nat :=
  labels.findIdx? (Label.matches name)

/-- The numbered name that `dir_register` takes in the place of one that lost something: the first
that no short name is equal to. -/
def numberedName (labels : List Label) (name : Name) : Option (List UInt8) :=
  ((List.range' 1 99).map (genNumname name.fn name.lfn)).find? fun fn =>
    !labels.any (·.sfn = fn)

/-- The names that `dir_register` gives to a new entry of a directory. -/
def dirRegister (labels : List Label) (name : Name) : Option Label :=
  match (if name.loss then numberedName labels name else some name.fn) with
  | none => none
  | some sfn => some ⟨sfn, if name.long then name.lfn else [], name.body, name.ext⟩

/-! ### Volumes -/

/-- A volume: the directories by their numbers, the root directory being 0, and a number from which
on none is in use. -/
structure NamedVolume where
  entries : Nat → List DirEntry
  fresh : Nat

/-- The names in a directory. -/
def NamedVolume.labels (volume : NamedVolume) (table : Nat) : List Label :=
  (volume.entries table).map DirEntry.toLabel

/-- Where a path leads: the root directory, an entry of a directory, or a name that its last
directory does not have. -/
inductive Followed where
  | root
  | entry (table index : Nat)
  | missing (table : Nat) (name : Name)
  deriving DecidableEq

/-- A separator or the end of a path. -/
def endsSegment (b : UInt8) : Bool := b < 0x20 || b = 0x2f || b = 0x5c

/-- The loop of `follow_path`, from a directory on. Every turn takes a byte of the path at least. -/
def followSegments (volume : NamedVolume) :
    (fuel table : Nat) → FatPath → Except FResult Followed
  | 0, _, _ => .error .intErr
  | fuel + 1, table, path =>
    let segment := path.takeWhile fun b => !endsSegment b
    let rest := path.drop segment.length
    let last := rest.head?.all (· < 0x20)
    match createName segment with
    | none => .error .invalidName
    | some name =>
      match dirFind (volume.labels table) name with
      | none => if last then .ok (.missing table name) else .error .noPath
      | some index =>
        if last then .ok (.entry table index)
        else match (volume.entries table)[index]? with
          | some entry =>
            if entry.isDir then followSegments volume fuel entry.table rest.tail
            else .error .noPath
          | none => .error .intErr

/-- `follow_path`. -/
def followPath (volume : NamedVolume) (path : FatPath) : Except FResult Followed :=
  let path := if path.head?.any fun b => b = 0x2f || b = 0x5c then path.tail else path
  if path.head?.all (· < 0x20) then .ok .root
  else followSegments volume (path.length + 1) 0 path

/-- What `get_fileinfo` makes of a part of a short name: letters in lower case if they are flagged,
no padding. -/
def shownPart (lower : Bool) (bytes : List UInt8) : List UInt8 :=
  (bytes.takeWhile (· ≠ 0x20)).map fun c => if lower ∧ 0x41 ≤ c ∧ c ≤ 0x5a then c + 0x20 else c

theorem length_shownPart_le (lower : Bool) (bytes : List UInt8) :
    (shownPart lower bytes).length ≤ bytes.length := by
  rw [shownPart, List.length_map]
  exact (List.takeWhile_prefix _).length_le

/-- The long name in the code page, unless it has a character without a code there or does not fit
in the buffer of 255 bytes. -/
def shownLfn (lfn : List Nat) : List UInt8 :=
  if lfn.all (fun w => unicodeToOem w ≠ 0) ∧ lfn.length < 255 then
    lfn.map fun w => UInt8.ofNat (unicodeToOem w)
  else []

/-- The length from which on `pick_lfn` does not take a long name from its entries: the terminator
must not be the last character that fits in the buffer. -/
def pickLimit : Nat := maxLfn - 1

/-- `get_fileinfo`. -/
def fileInfo (entry : DirEntry) : FileInfo where
  fname :=
    shownPart entry.body ((entry.sfn.take 8).map fun c => if c = 0x05 then 0xe5 else c) ++
      if entry.sfn[8]? = some 0x20 then [] else 0x2e :: shownPart entry.ext (entry.sfn.drop 8)
  lfname := if entry.lfn.length < pickLimit then shownLfn entry.lfn else []
  isDir := entry.isDir

/-- The entries of a directory as far as they are listed. -/
def NamedVolume.listing (volume : NamedVolume) (table : Nat) : List DirEntry :=
  (volume.entries table).takeWhile fun entry => (fileInfo entry).fname ≠ []

/-! ### The operations -/

/-- The volumes of the drives. -/
abbrev NamedDrives := Nat → NamedVolume

/-- An open file: the entry, the bytes still to be read, and those written if it is open for
writing. -/
structure NamedFile where
  drive : Nat
  table : Nat
  index : Nat
  rest : List UInt8
  written : Option (List UInt8)

/-- An open directory. -/
structure NamedDir where
  drive : Nat
  table : Nat
  index : Nat

/-- Change the entries of a directory. -/
def NamedVolume.change (volume : NamedVolume) (table : Nat)
    (change : List DirEntry → List DirEntry) : NamedVolume :=
  { volume with entries := Function.update volume.entries table (change (volume.entries table)) }

/-- Give an entry new contents. -/
def NamedVolume.store (volume : NamedVolume) (table index : Nat) (content : List UInt8) :
    NamedVolume :=
  volume.change table fun entries => entries.modify index fun entry => { entry with content }

/-- A call on the drive at the front of a path. -/
def onDrive {Volume Result : Type} (path : FatPath)
    (call : Nat → FatPath → Volume → Except FResult (Result × Volume)) :
    Program (Nat → Volume) (Except FResult Result) := fun volumes =>
  let drive := (logicalDrive path).1
  if drive ≥ drives then .ok (.error .invalidDrive, volumes)
  else match call drive (logicalDrive path).2 (volumes drive) with
    | .error code => .ok (.error code, volumes)
    | .ok done => .ok (.ok done.1, Function.update volumes drive done.2)

/-- `f_open` of a file that is there. -/
def NamedVolume.openExisting (drive : Nat) (path : FatPath) (volume : NamedVolume) :
    Except FResult (NamedFile × NamedVolume) :=
  match followPath volume path with
  | .error code => .error code
  | .ok .root => .error .noFile
  | .ok (.missing _ _) => .error .noFile
  | .ok (.entry table index) =>
    match (volume.entries table)[index]? with
    | none => .error .intErr
    | some entry =>
      if entry.isDir then .error .noFile
      else .ok (⟨drive, table, index, entry.content, none⟩, volume)

/-- `f_open` of a file that is created or emptied. -/
def NamedVolume.openAlways (drive : Nat) (path : FatPath) (volume : NamedVolume) :
    Except FResult (NamedFile × NamedVolume) :=
  match followPath volume path with
  | .error code => .error code
  | .ok .root => .error .denied
  | .ok (.missing table name) =>
    match dirRegister (volume.labels table) name with
    | none => .error .denied
    | some label =>
      .ok (⟨drive, table, (volume.entries table).length, [], some []⟩,
        volume.change table (· ++ [⟨label, false, 0, []⟩]))
  | .ok (.entry table index) =>
    match (volume.entries table)[index]? with
    | none => .error .intErr
    | some entry =>
      if entry.isDir then .error .denied
      else .ok (⟨drive, table, index, [], some []⟩, volume.store table index [])

/-- `f_open`. -/
def NamedVolume.fOpen : OpenMode → (drive : Nat) → FatPath → NamedVolume →
    Except FResult (NamedFile × NamedVolume)
  | .read => openExisting
  | .createAlways => openAlways

/-- `f_opendir`. -/
def NamedVolume.fOpendir (drive : Nat) (path : FatPath) (volume : NamedVolume) :
    Except FResult (NamedDir × NamedVolume) :=
  match followPath volume path with
  | .error code => .error (if code = .noFile then .noPath else code)
  | .ok .root => .ok (⟨drive, 0, 0⟩, volume)
  | .ok (.missing _ _) => .error .noPath
  | .ok (.entry table index) =>
    match (volume.entries table)[index]? with
    | none => .error .intErr
    | some entry => if entry.isDir then .ok (⟨drive, entry.table, 0⟩, volume) else .error .noPath

/-- `f_mkdir`. The new directory has the first free number. -/
def NamedVolume.fMkdir (path : FatPath) (volume : NamedVolume) :
    Except FResult (PUnit × NamedVolume) :=
  match followPath volume path with
  | .error code => .error code
  | .ok .root => .error .exist
  | .ok (.entry _ _) => .error .exist
  | .ok (.missing table name) =>
    match dirRegister (volume.labels table) name with
    | none => .error .denied
    | some label =>
      .ok ((), { volume.change table (· ++ [⟨label, true, volume.fresh, []⟩]) with
        fresh := volume.fresh + 1 })

/-- The driver on such volumes. -/
def named : FatFs NamedDrives NamedFile NamedDir where
  fOpen path mode := onDrive path (NamedVolume.fOpen mode)
  fRead file btr := return .ok (file.rest.take btr, { file with rest := file.rest.drop btr })
  fWrite file buff :=
    return .ok (buff.length, { file with written := file.written.map (· ++ buff) })
  fClose file := fun volumes =>
    match file.written with
    | none => .ok (.ok (), volumes)
    | some written => .ok (.ok (), Function.update volumes file.drive
        ((volumes file.drive).store file.table file.index written))
  fOpendir path := onDrive path NamedVolume.fOpendir
  fReaddir dir := fun volumes =>
    match ((volumes dir.drive).entries dir.table)[dir.index]? with
    | none => .ok (.ok (none, dir), volumes)
    | some entry =>
      .ok (.ok ((fileInfo entry).listed, { dir with index := dir.index + 1 }), volumes)
  fMkdir path := onDrive path fun _ => NamedVolume.fMkdir

end Hdfmonkey
