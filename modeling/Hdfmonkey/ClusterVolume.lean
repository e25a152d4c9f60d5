/-
This file models where the files and directories of a volume lie: the clusters in use, the
slots of the directory tables, and how the operations of `ff.c` take and give back
clusters.

To a volume with names come the chains: of every file, and of every directory table but
the root directory's on FAT12 and FAT16, which is an area of its own. The allocation table
is the set of the clusters in use; its links are the chains. The entries of a directory
take the slots of its table in their order, the long name in front of the short entry and
the two dot entries in front of all. As nothing is ever deleted in a directory, a new
entry comes behind the others.

A call fails for want of room, or writes less than it was given, where the code does. A
flag records that this has happened.
-/

import Hdfmonkey.Mount
import Hdfmonkey.NamedVolume
import Hdfmonkey.PutFile
import Mathlib.Data.Finset.Card

namespace Hdfmonkey

/-- What `chk_mounted` finds out about the shape of a volume: the FAT type, the sectors of a
cluster, the number behind the last cluster, and the entries of a root directory with an area of its
own. -/
structure Shape where
  build : Build
  fmt : FatType
  csize : Nat
  maxClust : Nat
  nRootdir : Nat
  deriving DecidableEq

/-- The shape of the volume that `f_mkfs` lays out. -/
def Layout.shape (layout : Layout) (build : Build) : Shape :=
  ⟨build, layout.fmt, layout.allocsize, layout.nClst + 2, sectorSize / 32 * layout.nDir⟩

/-- A volume with the clusters its files and directories lie in. -/
structure ClusterVolume extends Shape where
  names : NamedVolume
  used : Finset Nat
  tableChain : Nat → List Nat
  fileChain : Nat → Nat → List Nat
  lastClust : Nat
  starved : Bool

/-- The bytes of a cluster. -/
def Shape.clusterBytes (shape : Shape) : Nat := shape.csize * sectorSize

/-- The slots of the dot entries. The root directory has none. -/
def dotSlots (table : Nat) : Nat := if table = 0 then 0 else 2

namespace ClusterVolume

/-- The slots in use in a directory table. -/
def slots (volume : ClusterVolume) (table : Nat) : Nat :=
  dotSlots table + ((volume.names.labels table).map Label.slots).sum

/-! ### Clusters -/

/-- The loop of `create_chain`, which goes once round the clusters behind `scl`. -/
def searchFree (used : Finset Nat) (mcl scl : Nat) : (fuel ncl : Nat) → Option Nat
  | 0, _ => none
  | fuel + 1, ncl =>
    let next := if ncl + 1 ≥ mcl then 2 else ncl + 1
    if ncl + 1 ≥ mcl ∧ 2 > scl then none
    else if next ∉ used then some next
    else if next = scl then none
    else searchFree used mcl scl fuel next

/-- The cluster behind which `create_chain` begins to search: the last of the chain, or the hint for
a new one. -/
def startCluster (volume : ClusterVolume) (chain : List Nat) : Nat :=
  match chain.getLast? with
  | some clst => clst
  | none => if volume.lastClust = 0 ∨ volume.lastClust ≥ volume.maxClust then 1
    else volume.lastClust

/-- `create_chain`, for the chain that the new cluster is to be put behind. -/
def createChain (volume : ClusterVolume) (chain : List Nat) : Option (Nat × ClusterVolume) :=
  let scl := volume.startCluster chain
  match searchFree volume.used volume.maxClust scl volume.maxClust scl with
  | none => none
  | some ncl =>
    some (ncl, { volume with used := insert ncl volume.used, lastClust := ncl })

/-- `remove_chain`. -/
def removeChain (volume : ClusterVolume) (chain : List Nat) : ClusterVolume :=
  { volume with used := volume.used \ chain.toFinset }

def starve (volume : ClusterVolume) : ClusterVolume := { volume with starved := true }

/-! ### Slots -/

/-- Whether a table is the area of the root directory. -/
def isStatic (volume : ClusterVolume) (table : Nat) : Prop := volume.fmt ≠ .fat32 ∧ table = 0

instance (volume : ClusterVolume) (table : Nat) : Decidable (volume.isStatic table) :=
  inferInstanceAs (Decidable (_ ∧ _))

/-- `dir_next`, which stretches the table where it ends. -/
def dirNext (volume : ClusterVolume) (table index : Nat) : Except FResult ClusterVolume :=
  let i := index + 1
  let entries := sectorSize / 32
  if i % 2 ^ 16 = 0 then .error .noFile
  else if i % entries ≠ 0 then .ok volume
  else if volume.isStatic table then
    if i ≥ volume.nRootdir then .error .noFile else .ok volume
  else if i / entries &&& (volume.csize - 1) ≠ 0 then .ok volume
  else if i / entries / volume.csize < (volume.tableChain table).length then .ok volume
  else match volume.createChain (volume.tableChain table) with
    | none => .error .denied
    | some created => .ok { created.2 with
        tableChain := Function.update volume.tableChain table
          (volume.tableChain table ++ [created.1]) }

/-- The loop of `dir_register` from a slot on, for a number of steps. -/
def walk (table : Nat) :
    (steps index : Nat) → ClusterVolume → Except FResult PUnit × ClusterVolume
  | 0, _, volume => (.ok (), volume)
  | steps + 1, index, volume =>
    match volume.dirNext table index with
    | .error code => (.error code, volume.starve)
    | .ok next => walk table steps (index + 1) next

/-- The part of `dir_register` that reserves slots: it passes those in use and stops at the last of
the blank ones it needs. -/
def reserve (volume : ClusterVolume) (table ne : Nat) : Except FResult PUnit × ClusterVolume :=
  volume.walk table (volume.slots table + ne - 1) 0

/-! ### The operations -/

/-- `f_open` of a file that is there. -/
def openExisting (drive : Nat) (path : FatPath) (volume : ClusterVolume) :
    Except FResult NamedFile × ClusterVolume :=
  match volume.names.openExisting drive path with
  | .error code => (.error code, volume)
  | .ok opened => (.ok opened.1, volume)

/-- Give a file another chain. -/
def setChain (volume : ClusterVolume) (table index : Nat) (chain : List Nat) : ClusterVolume :=
  { volume with
    fileChain := Function.update volume.fileChain table
      (Function.update (volume.fileChain table) index chain) }

/-- The clusters of a file are given back, and the next one is sought where they were. -/
def emptyFile (volume : ClusterVolume) (table index : Nat) : ClusterVolume :=
  match (volume.fileChain table index).head? with
  | none => volume
  | some cl =>
    { (volume.removeChain (volume.fileChain table index)).setChain table index [] with
      lastClust := cl - 1 }

/-- `f_open` of a file that is created or emptied. -/
def openAlways (drive : Nat) (path : FatPath) (volume : ClusterVolume) :
    Except FResult NamedFile × ClusterVolume :=
  match followPath volume.names path with
  | .error code => (.error code, volume)
  | .ok .root => (.error .denied, volume)
  | .ok (.missing table name) =>
    match dirRegister (volume.names.labels table) name with
    | none => (.error .denied, volume)
    | some label =>
      match volume.reserve table label.slots with
      | (.error code, reserved) => (.error code, reserved)
      | (.ok _, reserved) =>
        (.ok ⟨drive, table, (volume.names.entries table).length, [], some []⟩,
          { reserved.setChain table (volume.names.entries table).length [] with
            names := volume.names.change table (· ++ [⟨label, false, 0, []⟩]) })
  | .ok (.entry table index) =>
    match (volume.names.entries table)[index]? with
    | none => (.error .intErr, volume)
    | some entry =>
      if entry.isDir then (.error .denied, volume)
      else (.ok ⟨drive, table, index, [], some []⟩,
        { volume.emptyFile table index with names := volume.names.store table index [] })

/-- `f_open`. -/
def fOpen : OpenMode → (drive : Nat) → FatPath → ClusterVolume →
    Except FResult NamedFile × ClusterVolume
  | .read => openExisting
  | .createAlways => openAlways

/-- Clusters for a file, one by one until there are enough or none is free. -/
def stretchFile (table index : Nat) : (count : Nat) → ClusterVolume → ClusterVolume
  | 0, volume => volume
  | count + 1, volume =>
    match volume.createChain (volume.fileChain table index) with
    | none => volume
    | some created => stretchFile table index count
        (created.2.setChain table index (volume.fileChain table index ++ [created.1]))

/-- `f_write` at the end of a file. A length that wraps around writes nothing; otherwise it is up to
the room in the clusters. -/
def writeFile (file : NamedFile) (written buff : List UInt8) (volume : ClusterVolume) :
    (Nat × NamedFile) × ClusterVolume :=
  let btw := if volume.build.add written.length buff.length < written.length then 0
    else buff.length
  let stretched := volume.stretchFile file.table file.index
    (clustersFor volume.clusterBytes (written.length + btw) -
      (volume.fileChain file.table file.index).length)
  let bw := min btw
    ((stretched.fileChain file.table file.index).length * volume.clusterBytes - written.length)
  ((bw, { file with written := some (written ++ buff.take bw) }),
    if bw < buff.length then stretched.starve else stretched)

/-- `f_opendir`. -/
def fOpendir (drive : Nat) (path : FatPath) (volume : ClusterVolume) :
    Except FResult NamedDir × ClusterVolume :=
  match volume.names.fOpendir drive path with
  | .error code => (.error code, volume)
  | .ok opened => (.ok opened.1, volume)

/-- `f_mkdir`. The table comes first, and is given back if the directory gets no entry. -/
def fMkdir (path : FatPath) (volume : ClusterVolume) : Except FResult PUnit × ClusterVolume :=
  match followPath volume.names path with
  | .error code => (.error code, volume)
  | .ok .root => (.error .exist, volume)
  | .ok (.entry _ _) => (.error .exist, volume)
  | .ok (.missing table name) =>
    match volume.createChain [] with
    | none => (.error .denied, volume.starve)
    | some created =>
      match dirRegister (volume.names.labels table) name with
      | none => (.error .denied, created.2.removeChain [created.1])
      | some label =>
        match created.2.reserve table label.slots with
        | (.error code, reserved) => (.error code, reserved.removeChain [created.1])
        | (.ok _, reserved) => (.ok (), { reserved with
            names := { volume.names.change table (· ++ [⟨label, true, volume.names.fresh, []⟩]) with
              fresh := volume.names.fresh + 1 }
            tableChain := Function.update reserved.tableChain volume.names.fresh [created.1] })

end ClusterVolume

/-! ### The driver -/

/-- The volumes of the drives. -/
abbrev ClusterDrives := Nat → ClusterVolume

/-- A call on a drive. -/
def onVolume {Result : Type} (drive : Nat)
    (call : ClusterVolume → Except FResult Result × ClusterVolume) :
    Program ClusterDrives (Except FResult Result) := fun volumes =>
  .ok ((call (volumes drive)).1, Function.update volumes drive (call (volumes drive)).2)

/-- A call on the drive at the front of a path. -/
def onPath {Result : Type} (path : FatPath)
    (call : Nat → FatPath → ClusterVolume → Except FResult Result × ClusterVolume) :
    Program ClusterDrives (Except FResult Result) :=
  if (logicalDrive path).1 ≥ drives then return .error .invalidDrive
  else onVolume (logicalDrive path).1 (call (logicalDrive path).1 (logicalDrive path).2)

/-- The driver on volumes with clusters. -/
def clustered : FatFs ClusterDrives NamedFile NamedDir where
  fOpen path mode := onPath path (ClusterVolume.fOpen mode)
  fRead file btr := return .ok (file.rest.take btr, { file with rest := file.rest.drop btr })
  fWrite file buff :=
    match file.written with
    | none => return .error .denied
    | some written => onVolume file.drive fun volume =>
      (.ok (volume.writeFile file written buff).1, (volume.writeFile file written buff).2)
  fClose file :=
    match file.written with
    | none => return .ok ()
    | some written => onVolume file.drive fun volume =>
      (.ok (), { volume with names := volume.names.store file.table file.index written })
  fOpendir path := onPath path ClusterVolume.fOpendir
  fReaddir dir := onVolume dir.drive fun volume =>
    match (volume.names.entries dir.table)[dir.index]? with
    | none => (.ok (none, dir), volume)
    | some entry => (.ok ((fileInfo entry).listed, { dir with index := dir.index + 1 }), volume)
  fMkdir path := onPath path fun _ => ClusterVolume.fMkdir

end Hdfmonkey
