/-
This file models the directories of `ff.c` by their slots, as they are on a volume that
files were removed from.

A directory is known by its number and is the list of its slots up to the last one that
was ever in use; those behind are free. An entry of a long name, a dot entry and a label
take a slot that no path leads to. `dir_register` takes the first run of free slots that
is long enough, be it in front of older entries, where a look-up comes by first. Long
names that no entry follows are left out. As in `NamedVolume`, a file is its bytes, and
no call fails for want of room.
-/

import Hdfmonkey.NamedVolume

namespace Hdfmonkey

/-- A slot of a directory: free, in use beside an entry, or an entry. -/
inductive DirSlot where
  | free
  | part
  | entry (entry : DirEntry)
  deriving DecidableEq, Repr

/-- A slot as look-ups see it. That of no entry has a short name that no path has. -/
def DirSlot.seen : DirSlot → DirEntry
  | .entry kept => kept
  | _ => ⟨⟨[], [], false, false⟩, false, 0, []⟩

/-- Give the file in a slot new contents. -/
def DirSlot.store (content : List UInt8) : DirSlot → DirSlot
  | .entry kept => .entry { kept with content }
  | slot => slot

/-- The slots of a new entry: those of its long name, and its own. -/
def DirEntry.newSlots (entry : DirEntry) : List DirSlot :=
  List.replicate (entry.slots - 1) .part ++ [.entry entry]

/-- "Reserve contiguous entries": the index of the first one. -/
def reserveLoop (ne : Nat) : (slots : List DirSlot) → (index n start : Nat) → Nat
  | [], index, n, start => if n = 0 then index else start
  | slot :: slots, index, n, start =>
    if slot = .free then
      let start := if n = 0 then index else start
      if n + 1 = ne then start else reserveLoop ne slots (index + 1) (n + 1) start
    else reserveLoop ne slots (index + 1) 0 start

/-- Put slots into a directory, from an index on. -/
def overwrite (slots : List DirSlot) (start : Nat) (new : List DirSlot) : List DirSlot :=
  slots.take start ++ new ++ slots.drop (start + new.length)

/-- A volume: the directories by their numbers, the root directory being 0. -/
structure SlotVolume where
  tables : List (List DirSlot)
  deriving DecidableEq, Repr

/-- A directory and a slot in it. -/
abbrev SlotPlace := Nat × Nat

namespace SlotVolume

/-- The slots of a directory. -/
def slots (volume : SlotVolume) (table : Nat) : List DirSlot := volume.tables.getD table []

/-- The entry at a place. -/
def entryAt (volume : SlotVolume) (place : SlotPlace) : Option DirEntry :=
  match (volume.slots place.1)[place.2]? with
  | some (.entry entry) => some entry
  | _ => none

/-- The volume as look-ups see it. -/
def seen (volume : SlotVolume) : NamedVolume where
  entries table := (volume.slots table).map DirSlot.seen
  fresh := volume.tables.length

/-- Change the slots of a directory. -/
def change (volume : SlotVolume) (table : Nat) (change : List DirSlot → List DirSlot) :
    SlotVolume :=
  ⟨volume.tables.modify table change⟩

/-- Give an entry new contents. -/
def store (volume : SlotVolume) (place : SlotPlace) (content : List UInt8) : SlotVolume :=
  volume.change place.1 fun slots => slots.modify place.2 (DirSlot.store content)

/-- The slots that `dir_register` takes for a new entry, with the place of the entry. -/
def register (volume : SlotVolume) (table : Nat) (entry : DirEntry) :
    Except FResult (SlotPlace × SlotVolume) :=
  if table < volume.tables.length then
    let start := reserveLoop entry.slots (volume.slots table) 0 0 0
    .ok ((table, start + entry.slots - 1),
      volume.change table fun slots => overwrite slots start entry.newSlots)
  else .error .intErr

/-! ### The operations -/

/-- `f_open` of a file that is there. -/
def openExisting (path : FatPath) (volume : SlotVolume) :
    Except FResult (SlotPlace × DirEntry) :=
  match followPath volume.seen path with
  | .error code => .error code
  | .ok .root => .error .noFile
  | .ok (.missing _ _) => .error .noFile
  | .ok (.entry table index) =>
    match volume.entryAt (table, index) with
    | none => .error .intErr
    | some entry => if entry.isDir then .error .noFile else .ok ((table, index), entry)

/-- `f_open` of a file that is created or emptied. -/
def openAlways (path : FatPath) (volume : SlotVolume) : Except FResult (SlotPlace × SlotVolume) :=
  match followPath volume.seen path with
  | .error code => .error code
  | .ok .root => .error .denied
  | .ok (.missing table name) =>
    match dirRegister (volume.seen.labels table) name with
    | none => .error .denied
    | some label => volume.register table ⟨label, false, 0, []⟩
  | .ok (.entry table index) =>
    match volume.entryAt (table, index) with
    | none => .error .intErr
    | some entry =>
      if entry.isDir then .error .denied
      else .ok ((table, index), volume.store (table, index) [])

/-- `f_opendir`: the number of the directory. -/
def openDir (path : FatPath) (volume : SlotVolume) : Except FResult Nat :=
  match followPath volume.seen path with
  | .error code => .error (if code = .noFile then .noPath else code)
  | .ok .root => .ok 0
  | .ok (.missing _ _) => .error .noPath
  | .ok (.entry table index) =>
    match volume.entryAt (table, index) with
    | none => .error .intErr
    | some entry => if entry.isDir then .ok entry.table else .error .noPath

/-- `f_mkdir`. The new directory has the next number, and its dot entries. -/
def fMkdir (path : FatPath) (volume : SlotVolume) : Except FResult SlotVolume :=
  match followPath volume.seen path with
  | .error code => .error code
  | .ok .root => .error .exist
  | .ok (.entry _ _) => .error .exist
  | .ok (.missing table name) =>
    match dirRegister (volume.seen.labels table) name with
    | none => .error .denied
    | some label =>
      match volume.register table ⟨label, true, volume.tables.length, []⟩ with
      | .error code => .error code
      | .ok made => .ok ⟨made.2.tables ++ [[.part, .part]]⟩

end SlotVolume

/-- The volumes of the drives. -/
abbrev SlotDrives := Nat → SlotVolume

end Hdfmonkey
