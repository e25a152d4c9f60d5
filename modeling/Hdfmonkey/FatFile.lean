/-
This file models the public functions of `ff.c` that the commands call, on files and on
directories, and puts them behind the interface the commands are written over.

File objects are kept in memory, each at the place where it was opened, so that what a
call leaves in one is there when a later call fails. A new object is taken to hold
zeros, and so is the buffer that a read fills.
-/

import Hdfmonkey.FatDir

namespace Hdfmonkey

namespace Ff

/-- `FIL`, a file object, with its flags `FA_READ`, `FA_WRITE`, `FA__WRITTEN`, `FA__DIRTY` and
`FA__ERROR`. -/
structure Fil where
  fs : Option Nat
  id : Nat
  read : Bool
  write : Bool
  written : Bool
  dirty : Bool
  error : Bool
  csect : Nat
  fptr : Nat
  fsize : Nat
  orgClust : Nat
  currClust : Nat
  dsect : Nat
  dirSect : Nat
  dirPtr : Nat
  buf : Buffer

/-- `validate`. A disk is always ready. -/
def validate (fs : Option Nat) (id : Nat) : Program Machine FResult := do
  let machine ← get
  return match fs.bind machine.fatFs with
    | none => .invalidObject
    | some fs => if fs.fsType.isSome ∧ fs.id = id then .ok else .invalidObject

/-! ### Opening a file -/

/-- The file object of the entry that a directory object points to. -/
def openedFil (dj : Dir) (mode : OpenMode) (fs : Fatfs) : Fil where
  fs := some dj.fs
  id := fs.id
  read := mode = .read
  write := mode = .createAlways
  written := mode = .createAlways
  dirty := false
  error := false
  csect := 255
  fptr := 0
  fsize := fs.win.loadDword (dj.entry + dirFileSize)
  orgClust := startCluster fs.win dj.entry
  currClust := 0
  dsect := 0
  dirSect := fs.winsect
  dirPtr := dj.entry
  buf := Buffer.zero

/-- "Resize it to zero on over write mode". -/
def resizeToZero (dj : Dir) : Program Machine FResult := do
  let fs ← fatfs dj.fs
  let cl := startCluster fs.win dj.entry
  modifyFatfs dj.fs fun fs =>
    { fs with
      win := (storeCluster fs.win dj.entry 0).storeDword (dj.entry + dirFileSize) 0
      wflag := true }
  if cl ≠ 0 then
    let res ← removeChain dj.fs cl
    if res ≠ .ok then return res
    let build := (← get).build
    modifyFatfs dj.fs fun fs => { fs with lastClust := build.sub cl 1 }
    moveWindow dj.fs fs.winsect
  else moveWindow dj.fs fs.winsect

/-- The entry of a file that is created or emptied, from the result of following its path. -/
def createEntry (res : FResult) (dj : Dir) : Program Machine (FResult × Dir) := do
  if res = .noFile then dirRegister dj
  else if res ≠ .ok then return (res, dj)
  else
    let fs ← fatfs dj.fs
    if dj.dir.isNone ∨ fs.win (dj.entry + dirAttr) &&& (amRdo ||| amDir) ≠ 0 then
      return (.denied, dj)
    return (← resizeToZero dj, dj)

/-- `f_open`. -/
def fOpen (path : FatPath) (mode : OpenMode) : Program Machine (Except FResult Fil) := do
  let vol := (logicalDrive path).1
  let res ← chkMounted vol
  if res ≠ .ok then return .error res
  let found ← followPath (Dir.blank vol) (logicalDrive path).2
  match mode with
  | .createAlways =>
    let created ← createEntry found.1 found.2
    if created.1 ≠ .ok then return .error created.1
    let dj := created.2
    let time ← getFattime
    modifyFatfs dj.fs fun fs =>
      { fs with
        win := (fs.win.store (dj.entry + dirAttr) 0).storeDword (dj.entry + dirCrtTime) time
        wflag := true }
    return .ok (openedFil dj mode (← fatfs dj.fs))
  | .read =>
    if found.1 ≠ .ok then return .error found.1
    let fs ← fatfs found.2.fs
    if found.2.dir.isNone ∨ fs.win (found.2.entry + dirAttr) &&& amDir ≠ 0 then
      return .error .noFile
    return .ok (openedFil found.2 mode fs)

/-! ### Reading -/

/-- Write the buffer of a file if it was changed. -/
def flushBuffer (vol : Nat) (fp : Fil) : Program Machine (DResult × Fil) := do
  if fp.dirty then
    let fs ← fatfs vol
    if (← diskWrite fs.drive fp.buf fp.dsect 1) ≠ .ok then return (.parErr, fp)
    return (.ok, { fp with dirty := false })
  else return (.ok, fp)

/-- The sectors that `cc` sectors from the current one on have in the cluster. -/
def clip (fs : Fatfs) (fp : Fil) (cc : Nat) : Nat :=
  if fp.csect + cc > fs.csize then fs.csize - fp.csect else cc

/-- The cluster behind the current one, or the first of the file. -/
def readLink (vol : Nat) (fp : Fil) : Program Machine Nat :=
  if fp.fptr = 0 then return fp.orgClust else getFat vol fp.currClust

/-- The cluster of the next bytes to read. -/
def readCluster (vol : Nat) (fp : Fil) : Program Machine (Except FResult Fil) := do
  let fs ← fatfs vol
  if fp.csect ≥ fs.csize then
    let clst ← readLink vol fp
    if clst ≤ 1 then return .error .intErr
    if clst = diskError then return .error .diskErr
    return .ok { fp with currClust := clst, csect := 0 }
  else return .ok fp

/-- "Read maximum contiguous sectors directly". -/
def readDirect (vol sect cc : Nat) (fp : Fil) :
    Program Machine (Except FResult (List UInt8) × Fil) := do
  let fs ← fatfs vol
  let build := (← get).build
  let cc := clip fs fp cc
  let read ← diskRead fs.drive Buffer.zero sect cc
  if read.1 ≠ .ok then return (.error .diskErr, fp)
  let cached := build.sub fp.dsect sect
  let data :=
    if fp.dirty ∧ cached < cc then read.2.blit (cached * sectorSize) sectorSize fp.buf else read.2
  return (.ok (data.slice 0 (cc * sectorSize)), { fp with csect := fp.csect + cc })

/-- "Get partial sector data from sector buffer". -/
def readPartial (btr : Nat) (fp : Fil) : List UInt8 :=
  let ofs := fp.fptr % sectorSize
  fp.buf.slice ofs (min (sectorSize - ofs) btr)

/-- "Fill sector buffer with file data", for reading. -/
def readSector (vol sect btr : Nat) (fp : Fil) :
    Program Machine (Except FResult (List UInt8) × Fil) := do
  let flushed ← flushBuffer vol fp
  if flushed.1 ≠ .ok then return (.error .diskErr, fp)
  let fp := flushed.2
  if fp.dsect = sect then
    let fp := { fp with csect := fp.csect + 1 }
    return (.ok (readPartial btr fp), fp)
  else
    let fs ← fatfs vol
    let read ← diskRead fs.drive fp.buf sect 1
    let fp := { fp with buf := read.2 }
    if read.1 ≠ .ok then return (.error .diskErr, fp)
    let fp := { fp with dsect := sect, csect := fp.csect + 1 }
    return (.ok (readPartial btr fp), fp)

/-- A turn of the loop of `f_read`: some bytes, or the error it is aborted with. -/
def readTurn (vol btr : Nat) (fp : Fil) : Program Machine (Except FResult (List UInt8) × Fil) := do
  if fp.fptr % sectorSize ≠ 0 then return (.ok (readPartial btr fp), fp)
  match ← readCluster vol fp with
  | .error res => return (.error res, fp)
  | .ok fp =>
    let build := (← get).build
    let sect := clust2sect build (← fatfs vol) fp.currClust
    if sect = 0 then return (.error .intErr, fp)
    let sect := build.add sect fp.csect
    if btr / sectorSize ≠ 0 then readDirect vol sect (btr / sectorSize) fp
    else readSector vol sect btr fp

/-- The loop of `f_read`. Every turn delivers a byte at least. -/
def readFile (vol : Nat) : (fuel btr : Nat) → (bytes : List UInt8) → Fil →
    Program Machine (FResult × List UInt8 × Fil)
  | 0, _, _, _ => Program.undefined
  | fuel + 1, btr, bytes, fp => do
    if btr = 0 then return (.ok, bytes, fp)
    let turn ← readTurn vol btr fp
    match turn.1 with
    | .error res => return (res, bytes, { turn.2 with error := true })
    | .ok more =>
      readFile vol fuel (btr - more.length) (bytes ++ more)
        { turn.2 with fptr := turn.2.fptr + more.length }

/-- `f_read`. -/
def fRead (fp : Fil) (btr : Nat) : Program Machine (FResult × List UInt8 × Fil) := do
  let res ← validate fp.fs fp.id
  if res ≠ .ok then return (res, [], fp)
  if fp.error then return (.intErr, [], fp)
  if ¬ fp.read then return (.denied, [], fp)
  let build := (← get).build
  let btr := min btr (build.sub fp.fsize fp.fptr)
  readFile (fp.fs.getD 0) (btr + 1) btr [] fp

/-! ### Writing -/

/-- Why the loop of `f_write` stops before its end: the disk is full, or an error. -/
inductive WriteStop where
  | full
  | abort (res : FResult)
  deriving DecidableEq, Repr

/-- The cluster behind the current one, or the first of the file, which is made if it is not
there. -/
def writeLink (vol : Nat) (fp : Fil) : Program Machine Nat :=
  if fp.fptr ≠ 0 then createChain vol fp.currClust
  else if fp.orgClust = 0 then createChain vol 0
  else return fp.orgClust

/-- The cluster of the next bytes to write. The number that `create_chain` returns is kept as the
start of a file that has no cluster, whatever it means. -/
def writeCluster (vol : Nat) (fp : Fil) : Program Machine (Except WriteStop PUnit × Fil) := do
  let fs ← fatfs vol
  if fp.csect ≥ fs.csize then
    let clst ← writeLink vol fp
    let fp := if fp.fptr = 0 then { fp with orgClust := clst } else fp
    if clst = 0 then return (.error .full, fp)
    if clst = 1 then return (.error (.abort .intErr), fp)
    if clst = diskError then return (.error (.abort .diskErr), fp)
    return (.ok (), { fp with currClust := clst, csect := 0 })
  else return (.ok (), fp)

/-- "Write maximum contiguous sectors directly". -/
def writeDirect (vol sect cc : Nat) (wbuff : Buffer) (fp : Fil) :
    Program Machine (Except WriteStop Nat × Fil) := do
  let fs ← fatfs vol
  let build := (← get).build
  let cc := clip fs fp cc
  if (← diskWrite fs.drive wbuff sect cc) ≠ .ok then return (.error (.abort .diskErr), fp)
  let cached := build.sub fp.dsect sect
  let fp :=
    if cached < cc then
      { fp with
        buf := fp.buf.blit 0 sectorSize fun index => wbuff (cached * sectorSize + index)
        dirty := false }
    else fp
  return (.ok (cc * sectorSize), { fp with csect := fp.csect + cc })

/-- "Put partial sector into file I/O buffer". -/
def writePartial (btw : Nat) (wbuff : Buffer) (fp : Fil) : Except WriteStop Nat × Fil :=
  let ofs := fp.fptr % sectorSize
  let wcnt := min (sectorSize - ofs) btw
  (.ok wcnt, { fp with buf := fp.buf.blit ofs wcnt wbuff, dirty := true })

/-- "Fill sector buffer with file data", for writing. -/
def writeSector (vol sect btw : Nat) (wbuff : Buffer) (fp : Fil) :
    Program Machine (Except WriteStop Nat × Fil) := do
  if fp.dsect ≠ sect ∧ fp.fptr < fp.fsize then
    let fs ← fatfs vol
    let read ← diskRead fs.drive fp.buf sect 1
    let fp := { fp with buf := read.2 }
    if read.1 ≠ .ok then return (.error (.abort .diskErr), fp)
    return writePartial btw wbuff { fp with dsect := sect, csect := fp.csect + 1 }
  else return writePartial btw wbuff { fp with dsect := sect, csect := fp.csect + 1 }

/-- A turn of the loop of `f_write`: how many bytes it took, or why it stops. -/
def writeTurn (vol btw : Nat) (wbuff : Buffer) (fp : Fil) :
    Program Machine (Except WriteStop Nat × Fil) := do
  if fp.fptr % sectorSize ≠ 0 then return writePartial btw wbuff fp
  let cluster ← writeCluster vol fp
  match cluster.1 with
  | .error stop => return (.error stop, cluster.2)
  | .ok _ =>
    let flushed ← flushBuffer vol cluster.2
    if flushed.1 ≠ .ok then return (.error (.abort .diskErr), flushed.2)
    let fp := flushed.2
    let build := (← get).build
    let sect := clust2sect build (← fatfs vol) fp.currClust
    if sect = 0 then return (.error (.abort .intErr), fp)
    let sect := build.add sect fp.csect
    if btw / sectorSize ≠ 0 then writeDirect vol sect (btw / sectorSize) wbuff fp
    else writeSector vol sect btw wbuff fp

/-- The loop of `f_write`. Every turn takes a byte at least. -/
def writeFile (vol : Nat) : (fuel : Nat) → (buff : List UInt8) → (bw : Nat) → Fil →
    Program Machine (Except FResult PUnit × Nat × Fil)
  | 0, _, _, _ => Program.undefined
  | fuel + 1, buff, bw, fp => do
    if buff = [] then return (.ok (), bw, fp)
    let turn ← writeTurn vol buff.length (fun index => buff.getD index 0) fp
    match turn.1 with
    | .error .full => return (.ok (), bw, turn.2)
    | .error (.abort res) => return (.error res, bw, { turn.2 with error := true })
    | .ok wcnt =>
      writeFile vol fuel (buff.drop wcnt) (bw + wcnt) { turn.2 with fptr := turn.2.fptr + wcnt }

/-- `f_write`. -/
def fWrite (fp : Fil) (buff : List UInt8) : Program Machine (FResult × Nat × Fil) := do
  let res ← validate fp.fs fp.id
  if res ≠ .ok then return (res, 0, fp)
  if fp.error then return (.intErr, 0, fp)
  if ¬ fp.write then return (.denied, 0, fp)
  let build := (← get).build
  let buff := if build.add fp.fsize buff.length < fp.fsize then [] else buff
  let done ← writeFile (fp.fs.getD 0) (buff.length + 1) buff 0 fp
  match done.1 with
  | .error res => return (res, done.2)
  | .ok _ =>
    let fp := done.2.2
    return (.ok, done.2.1, { fp with fsize := max fp.fsize fp.fptr, written := true })

/-! ### Closing -/

/-- "Update the directory entry". A file stays marked as written if its entry cannot be read. -/
def updateEntry (vol : Nat) (fp : Fil) : Program Machine (FResult × Fil) := do
  let res ← moveWindow vol fp.dirSect
  if res ≠ .ok then return (res, fp)
  let time ← getFattime
  modifyFatfs vol fun fs =>
    let win := fs.win.store (fp.dirPtr + dirAttr) (fs.win (fp.dirPtr + dirAttr) ||| amArc)
    let win := win.storeDword (fp.dirPtr + dirFileSize) fp.fsize
    let win := storeCluster win fp.dirPtr fp.orgClust
    { fs with win := win.storeDword (fp.dirPtr + dirWrtTime) time, wflag := true }
  return (← sync vol, { fp with written := false })

/-- `f_sync`. -/
def fSync (fp : Fil) : Program Machine (FResult × Fil) := do
  let res ← validate fp.fs fp.id
  if res ≠ .ok then return (res, fp)
  if ¬ fp.written then return (.ok, fp)
  let flushed ← flushBuffer (fp.fs.getD 0) fp
  if flushed.1 ≠ .ok then return (.diskErr, flushed.2)
  updateEntry (fp.fs.getD 0) flushed.2

/-- `f_close`. -/
def fClose (fp : Fil) : Program Machine (FResult × Fil) := do
  let synced ← fSync fp
  return (synced.1, if synced.1 = .ok then { synced.2 with fs := none } else synced.2)

/-! ### Directories -/

/-- The object of the directory whose entry was found, or of the root directory. -/
def Dir.enter (dj : Dir) (fs : Fatfs) : Dir :=
  { dj with
    id := fs.id
    sclust := if dj.dir.isSome then startCluster fs.win dj.entry else dj.sclust }

/-- `f_opendir`. -/
def fOpendir (path : FatPath) : Program Machine (Except FResult Dir) := do
  let vol := (logicalDrive path).1
  let res ← chkMounted vol
  if res ≠ .ok then return .error res
  let found ← followPath (Dir.blank vol) (logicalDrive path).2
  if found.1 ≠ .ok then return .error (if found.1 = .noFile then .noPath else found.1)
  let fs ← fatfs vol
  if found.2.dir.isSome ∧ fs.win (found.2.entry + dirAttr) &&& amDir = 0 then
    return .error .noPath
  let seek ← dirSeek (found.2.enter fs) 0
  if seek.1 ≠ .ok then return .error (if seek.1 = .noFile then .noPath else seek.1)
  return .ok seek.2

/-- The part of `f_readdir` behind `dir_read`. -/
def readInfo (dj : Dir) : Program Machine (FResult × Dir × Filinfo) := do
  let info := getFileinfo (← get).lfnBuf (← fatfs dj.fs).win dj
  let next ← dirNext dj false
  if next.1 = .noFile then return (.ok, { next.2 with sect := 0 }, info)
  return (next.1, next.2, info)

/-- `f_readdir`. -/
def fReaddir (dj : Dir) : Program Machine (FResult × Dir × Filinfo) := do
  let res ← validate (some dj.fs) dj.id
  if res ≠ .ok then return (res, dj, ⟨⟨[], [], false⟩, 0⟩)
  let read ← dirRead { dj with lfn := true }
  if read.1 = .ok then readInfo read.2
  else if read.1 = .noFile then readInfo { read.2 with sect := 0 }
  else return (read.1, read.2, ⟨⟨[], [], false⟩, 0⟩)

/-- The first sector of a new directory table. -/
def newTable (dclst pclst time : Nat) : Buffer :=
  let dot := (Buffer.zero.fill 0 11 0x20).store 0 0x2e
  let dot := (dot.store dirAttr amDir).storeDword dirWrtTime time
  let dot := storeCluster dot 0 dclst
  storeCluster ((dot.blit 32 32 dot).store 33 0x2e) 32 pclst

/-- "Write dot entries and clear left sectors". -/
def writeTable (build : Build) (vol : Nat) : (count dsect : Nat) → Program Machine FResult
  | 0, _ => return .ok
  | count + 1, dsect => do
    modifyFatfs vol fun fs => { fs with winsect := dsect, wflag := true }
    let res ← moveWindow vol 0
    if res ≠ .ok then return res
    modifyFatfs vol fun fs => { fs with win := fs.win.fill 0 sectorSize 0 }
    writeTable build vol count (build.add dsect 1)

/-- "Allocate a new cluster for new directory table" and "Initialize the new directory table". The
time is needed again. -/
def makeTable (dj : Dir) : Program Machine (FResult × Nat × Nat) := do
  let dclst ← createChain dj.fs 0
  if dclst = 0 then return (.denied, dclst, 0)
  if dclst = 1 then return (.intErr, dclst, 0)
  if dclst = diskError then return (.diskErr, dclst, 0)
  let res ← moveWindow dj.fs 0
  if res ≠ .ok then return (res, dclst, 0)
  let fs ← fatfs dj.fs
  let build := (← get).build
  let time ← getFattime
  let pclst := if fs.fsType = some .fat32 ∧ dj.sclust = fs.dirbase then 0 else dj.sclust
  modifyFatfs dj.fs fun fs =>
    { fs with win := fs.win.blit 0 sectorSize (newTable dclst pclst time) }
  let res ← writeTable build dj.fs fs.csize (clust2sect build fs dclst)
  return (res, dclst, time)

/-- `f_mkdir`. -/
def fMkdir (path : FatPath) : Program Machine FResult := do
  let vol := (logicalDrive path).1
  let res ← chkMounted vol
  if res ≠ .ok then return res
  let found ← followPath (Dir.blank vol) (logicalDrive path).2
  if found.1 = .ok then return .exist
  if found.1 ≠ .noFile then return found.1
  let table ← makeTable found.2
  if table.1 ≠ .ok then return table.1
  let registered ← dirRegister found.2
  if registered.1 ≠ .ok then
    let _ ← removeChain vol table.2.1
    return registered.1
  let dj := registered.2
  modifyFatfs vol fun fs =>
    let win := (fs.win.store (dj.entry + dirAttr) amDir).storeDword
      (dj.entry + dirWrtTime) table.2.2
    { fs with win := storeCluster win dj.entry table.2.1, wflag := true }
  sync vol

/-! ### The driver behind its interface -/

/-- The machine and the file objects that were opened. -/
structure Driver where
  machine : Machine
  fils : List Fil

/-- A call that works on the machine. -/
def onMachine {Result : Type} (call : Program Machine Result) : Program Driver Result :=
  fun state =>
    match call state.machine with
    | .ok (result, machine) => .ok (result, { state with machine })
    | .error machine => .error { state with machine }

/-- A call on a file object. -/
def onFil {Result : Type} (file : Nat) (call : Fil → Program Machine (FResult × Result × Fil)) :
    Program Driver (Except FResult Result) := do
  match (← get).fils[file]? with
  | none => Program.undefined
  | some fp =>
    let done ← onMachine (call fp)
    modify fun state => { state with fils := state.fils.set file done.2.2 }
    return if done.1 = .ok then .ok done.2.1 else .error done.1

/-- Put a file object into memory. -/
def newFil (fp : Fil) : Program Driver Nat := do
  let file := (← get).fils.length
  modify fun state => { state with fils := state.fils ++ [fp] }
  return file

/-- The driver. A file is the place of its object in memory. -/
def driver : FatFs Driver Nat Dir where
  fOpen path mode := do
    match ← onMachine (fOpen path mode) with
    | .error res => return .error res
    | .ok fp => return .ok (← newFil fp)
  fRead file btr := onFil file fun fp => do
    let done ← fRead fp btr
    return (done.1, (done.2.1, file), done.2.2)
  fWrite file buff := onFil file fun fp => do
    let done ← fWrite fp buff
    return (done.1, (done.2.1, file), done.2.2)
  fClose file := onFil file fun fp => do
    let done ← fClose fp
    return (done.1, (), done.2)
  fOpendir path := onMachine (fOpendir path)
  fReaddir dir := do
    let done ← onMachine (fReaddir dir)
    let info := done.2.2.toFileInfo
    return if done.1 = .ok then .ok (if info.fname = [] then none else some info, done.2.1)
      else .error done.1
  fMkdir path := do
    let res ← onMachine (fMkdir path)
    return if res = .ok then .ok () else .error res

end Ff

end Hdfmonkey
