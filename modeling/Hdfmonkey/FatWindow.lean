/-
This file models the part of `ff.c` that works on the file system object of a drive:
the sector window, the file allocation table behind it, and the chains of clusters.

An object is known by its logical drive. A function that needs an object that is not
there has no outcome. The loop of `remove_chain` follows whatever the table says and
is given up after as many turns as the machine has fuel; that of `create_chain` visits
each cluster once.
-/

import Hdfmonkey.Mount

namespace Hdfmonkey

namespace Ff

/-- The file system object of a drive. -/
def fatfs (vol : Nat) : Program Machine Fatfs := do
  match (← get).fatFs vol with
  | some fs => return fs
  | none => Program.undefined

/-- The result of the functions on clusters that stands for a disk error. -/
def diskError : Nat := 0xFFFFFFFF

/-! ### The window -/

/-- The loop of `move_window` that reflects a change of the FAT to its copies. -/
def writeCopies (build : Build) (fs : Fatfs) : (count wsect : Nat) → Program Machine PUnit
  | 0, _ => return
  | count + 1, wsect => do
    let _ ← diskWrite fs.drive fs.win (build.add wsect fs.sectsFat) 1
    writeCopies build fs count (build.add wsect fs.sectsFat)

/-- "Write back dirty window if needed". -/
def writeBack (vol : Nat) : Program Machine DResult := do
  let fs ← fatfs vol
  if fs.wflag then
    if (← diskWrite fs.drive fs.win fs.winsect 1) ≠ .ok then return .parErr
    modifyFatfs vol fun fs => { fs with wflag := false }
    let build := (← get).build
    if fs.winsect < build.add fs.fatbase fs.sectsFat then
      writeCopies build fs (fs.nFats - 1) fs.winsect
    return .ok
  else return .ok

/-- `move_window`. A read that fails may have filled a part of the window. -/
def moveWindow (vol sector : Nat) : Program Machine FResult := do
  let fs ← fatfs vol
  if fs.winsect = sector then return .ok
  if (← writeBack vol) ≠ .ok then return .diskErr
  if sector = 0 then return .ok
  let read ← diskRead fs.drive fs.win sector 1
  modifyFatfs vol fun fs => { fs with win := read.2 }
  if read.1 ≠ .ok then return .diskErr
  modifyFatfs vol fun fs => { fs with winsect := sector }
  return .ok

/-- The FSInfo sector that `sync` builds in the window. -/
def fsInfo (fs : Fatfs) : Buffer :=
  ((((Buffer.zero.storeWord bs55AA 0xAA55).storeDword fsiLeadSig 0x41615252).storeDword
    fsiStrucSig 0x61417272).storeDword fsiFreeCount fs.freeClust).storeDword fsiNxtFree fs.lastClust

/-- `sync`. The disk has nothing to flush. -/
def sync (vol : Nat) : Program Machine FResult := do
  let res ← moveWindow vol 0
  if res ≠ .ok then return res
  let fs ← fatfs vol
  if fs.fsType = some .fat32 ∧ fs.fsiFlag then
    modifyFatfs vol fun fs => { fs with winsect := 0, win := fs.win.blit 0 512 (fsInfo fs) }
    let fs ← fatfs vol
    let _ ← diskWrite fs.drive fs.win fs.fsiSector 1
    modifyFatfs vol fun fs => { fs with fsiFlag := false }
  return .ok

/-! ### The file allocation table -/

/-- `get_fat`: the entry of a cluster, 1 for an internal error. -/
def getFat (vol clst : Nat) : Program Machine Nat := do
  let fs ← fatfs vol
  if clst < 2 ∨ clst ≥ fs.maxClust then return 1
  let build := (← get).build
  match fs.fsType with
  | some .fat12 =>
    let bc := clst + clst / 2
    if (← moveWindow vol (build.add fs.fatbase (bc / sectorSize))) ≠ .ok then return diskError
    let low := (← fatfs vol).win (bc % sectorSize)
    if (← moveWindow vol (build.add fs.fatbase ((bc + 1) / sectorSize))) ≠ .ok then
      return diskError
    let high := (← fatfs vol).win ((bc + 1) % sectorSize)
    let wc := low.toNat + 2 ^ 8 * high.toNat
    return if clst % 2 = 1 then wc / 2 ^ 4 else wc % 2 ^ 12
  | some .fat16 =>
    if (← moveWindow vol (build.add fs.fatbase (clst / (sectorSize / 2)))) ≠ .ok then
      return diskError
    return (← fatfs vol).win.loadWord (clst * 2 % sectorSize)
  | some .fat32 =>
    if (← moveWindow vol (build.add fs.fatbase (clst / (sectorSize / 4)))) ≠ .ok then
      return diskError
    return (← fatfs vol).win.loadDword (clst * 4 % sectorSize) % 2 ^ 28
  | none => return diskError

/-- The switch of `put_fat`. -/
def putEntry (vol clst val : Nat) (fs : Fatfs) : Program Machine FResult := do
  let build := (← get).build
  match fs.fsType with
  | some .fat12 =>
    let bc := clst + clst / 2
    let res ← moveWindow vol (build.add fs.fatbase (bc / sectorSize))
    if res ≠ .ok then return res
    modifyFatfs vol fun fs =>
      let p := fs.win (bc % sectorSize)
      let low := if clst % 2 = 1 then (p &&& 0x0F) ||| UInt8.ofNat (val * 2 ^ 4)
        else UInt8.ofNat val
      { fs with win := fs.win.store (bc % sectorSize) low, wflag := true }
    let res ← moveWindow vol (build.add fs.fatbase ((bc + 1) / sectorSize))
    if res ≠ .ok then return res
    modifyFatfs vol fun fs =>
      let p := fs.win ((bc + 1) % sectorSize)
      let high := if clst % 2 = 1 then UInt8.ofNat (val / 2 ^ 4)
        else (p &&& 0xF0) ||| (UInt8.ofNat (val / 2 ^ 8) &&& 0x0F)
      { fs with win := fs.win.store ((bc + 1) % sectorSize) high }
    return .ok
  | some .fat16 =>
    let res ← moveWindow vol (build.add fs.fatbase (clst / (sectorSize / 2)))
    if res ≠ .ok then return res
    modifyFatfs vol fun fs => { fs with win := fs.win.storeWord (clst * 2 % sectorSize) val }
    return .ok
  | some .fat32 =>
    let res ← moveWindow vol (build.add fs.fatbase (clst / (sectorSize / 4)))
    if res ≠ .ok then return res
    modifyFatfs vol fun fs => { fs with win := fs.win.storeDword (clst * 4 % sectorSize) val }
    return .ok
  | none => return .intErr

/-- `put_fat`. The window counts as changed whatever comes of it. -/
def putFat (vol clst val : Nat) : Program Machine FResult := do
  let fs ← fatfs vol
  if clst < 2 ∨ clst ≥ fs.maxClust then return .intErr
  let res ← putEntry vol clst val fs
  modifyFatfs vol fun fs => { fs with wflag := true }
  return res

/-! ### Chains of clusters -/

/-- The loop of `remove_chain`. -/
def removeLinks (vol : Nat) : (fuel clst : Nat) → Program Machine FResult
  | 0, _ => Program.undefined
  | fuel + 1, clst => do
    let fs ← fatfs vol
    if clst ≥ fs.maxClust then return .ok
    let nxt ← getFat vol clst
    if nxt = 0 then return .ok
    if nxt = 1 then return .intErr
    if nxt = diskError then return .diskErr
    let res ← putFat vol clst 0
    if res ≠ .ok then return res
    let build := (← get).build
    modifyFatfs vol fun fs =>
      if fs.freeClust = 0xFFFFFFFF then fs
      else { fs with freeClust := build.add fs.freeClust 1, fsiFlag := true }
    removeLinks vol fuel nxt

/-- `remove_chain`. -/
def removeChain (vol clst : Nat) : Program Machine FResult := do
  let fs ← fatfs vol
  if clst < 2 ∨ clst ≥ fs.maxClust then return .intErr
  removeLinks vol (← get).fuel clst

/-- The cluster behind which `create_chain` looks for a free one, or its result if that is known. -/
def chainStart (vol clst : Nat) : Program Machine (Except Nat Nat) := do
  let fs ← fatfs vol
  if clst = 0 then
    return .ok (if fs.lastClust = 0 ∨ fs.lastClust ≥ fs.maxClust then 1 else fs.lastClust)
  let cs ← getFat vol clst
  if cs < 2 then return .error 1
  if cs < fs.maxClust then return .error cs
  return .ok clst

/-- The loop of `create_chain`: a free cluster, or the result if there is none. -/
def searchFree (vol mcl scl : Nat) : (fuel ncl : Nat) → Program Machine (Except Nat Nat)
  | 0, _ => Program.undefined
  | fuel + 1, ncl => do
    if ncl + 1 ≥ mcl ∧ 2 > scl then return .error 0
    let next := if ncl + 1 ≥ mcl then 2 else ncl + 1
    let cs ← getFat vol next
    if cs = 0 then return .ok next
    if cs = diskError ∨ cs = 1 then return .error cs
    if next = scl then return .error 0
    searchFree vol mcl scl fuel next

/-- "Link it to the previous one if needed". -/
def linkPrevious (vol clst ncl : Nat) : Program Machine FResult :=
  if clst = 0 then return .ok else putFat vol clst ncl

/-- `create_chain`. -/
def createChain (vol clst : Nat) : Program Machine Nat := do
  let mcl := (← fatfs vol).maxClust
  match ← chainStart vol clst with
  | .error result => return result
  | .ok scl =>
    match ← searchFree vol mcl scl (mcl + 1) scl with
    | .error result => return result
    | .ok ncl =>
      if (← putFat vol ncl 0x0FFFFFFF) ≠ .ok then return diskError
      if (← linkPrevious vol clst ncl) ≠ .ok then return diskError
      let build := (← get).build
      modifyFatfs vol fun fs =>
        if fs.freeClust = 0xFFFFFFFF then { fs with lastClust := ncl }
        else { fs with
          lastClust := ncl
          freeClust := build.sub fs.freeClust 1
          fsiFlag := true }
      return ncl

/-- `clust2sect`. Zero stands for an invalid cluster. -/
def clust2sect (build : Build) (fs : Fatfs) (clst : Nat) : Nat :=
  if build.sub clst 2 ≥ build.sub fs.maxClust 2 then 0
  else build.add (build.mul (build.sub clst 2) fs.csize) fs.database

end Ff

end Hdfmonkey
