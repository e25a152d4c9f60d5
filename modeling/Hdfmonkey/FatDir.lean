/-
This file models how `ff.c` works on directory tables: seeking and stepping in a table,
the entries that make up a long name, finding, reading and registering a name, and
following a path.

The pointer of a directory object into the window is the place of the entry there.
The buffer for long names is static: what one call leaves in it is there in the next.
An entry of a long name whose number is zero makes the driver read or write in front
of the buffer, which has no outcome here. No loop over a table takes more turns than
there are index numbers.
-/

import Hdfmonkey.FatWindow
import Hdfmonkey.NamedVolume

namespace Hdfmonkey

namespace Ff

/-! ### Fields of an entry -/

def dirAttr : Nat := 11
def dirNtres : Nat := 12
def dirCrtTime : Nat := 14
def dirFstClusHi : Nat := 20
def dirWrtTime : Nat := 22
def dirFstClusLo : Nat := 26
def dirFileSize : Nat := 28
def ldirType : Nat := 12
def ldirChksum : Nat := 13

/-- Attribute bits. -/
def amRdo : UInt8 := 0x01
def amVol : UInt8 := 0x08
def amLfn : UInt8 := 0x0F
def amDir : UInt8 := 0x10
def amArc : UInt8 := 0x20
def amMask : UInt8 := 0x3F

/-- The start cluster in an entry. -/
def startCluster (win : Buffer) (entry : Nat) : Nat :=
  win.loadWord (entry + dirFstClusHi) * 2 ^ 16 + win.loadWord (entry + dirFstClusLo)

/-- Put a start cluster into an entry. -/
def storeCluster (win : Buffer) (entry clst : Nat) : Buffer :=
  (win.storeWord (entry + dirFstClusLo) clst).storeWord (entry + dirFstClusHi) (clst / 2 ^ 16)

/-- `DIR`, a directory object. Its name is the one that is looked for; `lfn` is off while only short
names are looked at. -/
structure Dir where
  fs : Nat
  id : Nat
  index : Nat
  sclust : Nat
  clust : Nat
  sect : Nat
  dir : Option Nat
  fn : Name
  lfn : Bool
  lfnIdx : Nat

/-- A directory object of a drive before its first use. -/
def Dir.blank (vol : Nat) : Dir where
  fs := vol
  id := 0
  index := 0
  sclust := 0
  clust := 0
  sect := 0
  dir := none
  fn := ⟨[], [], false, false, false, false⟩
  lfn := true
  lfnIdx := 0

/-- The place of the entry in the window. -/
def Dir.entry (dj : Dir) : Nat := dj.dir.getD 0

/-- "Return pointer to the entry in the sector". -/
def Dir.point (dj : Dir) (idx : Nat) : Dir :=
  { dj with dir := some (idx % (sectorSize / 32) * 32) }

/-! ### Seeking and stepping -/

/-- "Follow cluster chain", some links of it. -/
def followLinks (vol mcl : Nat) : (links clst : Nat) → Program Machine (Except FResult Nat)
  | 0, clst => return .ok clst
  | links + 1, clst => do
    let next ← getFat vol clst
    if next = diskError then return .error .diskErr
    if next < 2 ∨ next ≥ mcl then return .error .intErr
    followLinks vol mcl links next

/-- `dir_seek`. -/
def dirSeek (dj : Dir) (idx : Nat) : Program Machine (FResult × Dir) := do
  let fs ← fatfs dj.fs
  let dj := { dj with index := idx }
  if dj.sclust = 1 ∨ dj.sclust ≥ fs.maxClust then return (.intErr, dj)
  let build := (← get).build
  let clst := if dj.sclust = 0 ∧ fs.fsType = some .fat32 then fs.dirbase else dj.sclust
  if clst = 0 then
    let dj := { dj with clust := 0 }
    if idx ≥ fs.nRootdir then return (.intErr, dj)
    return (.ok, { dj with sect := build.add fs.dirbase (idx / (sectorSize / 32)) }.point idx)
  else
    let ic := sectorSize / 32 * fs.csize
    match ← followLinks dj.fs fs.maxClust (idx / ic) clst with
    | .error res => return (res, dj)
    | .ok clst =>
      let fs ← fatfs dj.fs
      let sect := build.add (clust2sect build fs clst) (idx % ic / (sectorSize / 32))
      return (.ok, { dj with clust := clst, sect }.point (idx % ic))

/-- "Fill the new cluster with 0", from the window. -/
def clearSectors (build : Build) (vol : Nat) : (count : Nat) → Program Machine FResult
  | 0 => return .ok
  | count + 1 => do
    modifyFatfs vol fun fs => { fs with wflag := true }
    if (← moveWindow vol 0) ≠ .ok then return .diskErr
    modifyFatfs vol fun fs => { fs with winsect := build.add fs.winsect 1 }
    clearSectors build vol count

/-- The stretching of a table by a cluster. -/
def stretchTable (vol clust : Nat) : Program Machine (Except FResult Nat) := do
  let clst ← createChain vol clust
  if clst = 0 then return .error .denied
  if clst = 1 then return .error .intErr
  if clst = diskError then return .error .diskErr
  if (← moveWindow vol 0) ≠ .ok then return .error .diskErr
  let build := (← get).build
  modifyFatfs vol fun fs =>
    { fs with win := fs.win.fill 0 sectorSize 0, winsect := clust2sect build fs clst }
  let csize := (← fatfs vol).csize
  if (← clearSectors build vol csize) ≠ .ok then return .error .diskErr
  modifyFatfs vol fun fs => { fs with winsect := build.sub fs.winsect csize }
  return .ok clst

/-- The cluster behind the current one of a table. -/
def nextCluster (dj : Dir) (stretch : Bool) : Program Machine (Except FResult Nat) := do
  let clst ← getFat dj.fs dj.clust
  if clst ≤ 1 then return .error .intErr
  if clst = diskError then return .error .diskErr
  let fs ← fatfs dj.fs
  if clst ≥ fs.maxClust then
    if ¬ stretch then return .error .noFile
    stretchTable dj.fs dj.clust
  else return .ok clst

/-- `dir_next`. -/
def dirNext (dj : Dir) (stretch : Bool) : Program Machine (FResult × Dir) := do
  let i := (dj.index + 1) % 2 ^ 16
  if i = 0 ∨ dj.sect = 0 then return (.noFile, dj)
  let fs ← fatfs dj.fs
  let build := (← get).build
  if i % (sectorSize / 32) ≠ 0 then return (.ok, { dj with index := i }.point i)
  let dj := { dj with sect := build.add dj.sect 1 }
  if dj.clust = 0 then
    if i ≥ fs.nRootdir then return (.noFile, dj)
    return (.ok, { dj with index := i }.point i)
  else if i / (sectorSize / 32) &&& (fs.csize - 1) = 0 then
    match ← nextCluster dj stretch with
    | .error res => return (res, dj)
    | .ok clst =>
      let fs ← fatfs dj.fs
      return (.ok, { dj with index := i, clust := clst, sect := clust2sect build fs clst }.point i)
  else return (.ok, { dj with index := i }.point i)

/-! ### Long names -/

/-- `LfnOfs`. -/
def lfnOfs : List Nat := [1, 3, 5, 7, 9, 14, 16, 18, 20, 22, 24, 28, 30]

/-- The loop of `cmp_lfn` over the characters of an entry: where it ends in the buffer and the last
character, unless there is a mismatch. -/
def cmpChars (lfnBuf : Nat → Nat) : (chars : List Nat) → (i wc : Nat) → Option (Nat × Nat)
  | [], i, wc => some (i, wc)
  | uc :: chars, i, wc =>
    if wc = 0 then if uc ≠ 0xFFFF then none else cmpChars lfnBuf chars i wc
    else if i ≥ maxLfn ∨ ffWtoupper uc ≠ ffWtoupper (lfnBuf i) then none
    else cmpChars lfnBuf chars (i + 1) (ffWtoupper uc)

/-- `cmp_lfn`. -/
def cmpLfn (lfnBuf : Nat → Nat) (win : Buffer) (entry : Nat) : Option Bool :=
  let ord := win entry
  if ord &&& 0xBF = 0 then none
  else some <|
    match cmpChars lfnBuf (lfnOfs.map fun ofs => win.loadWord (entry + ofs))
        (((ord &&& 0xBF).toNat - 1) * 13) 1 with
    | none => false
    | some (i, wc) => ¬ (ord &&& 0x40 ≠ 0 ∧ wc ≠ 0 ∧ lfnBuf i ≠ 0)

/-- The loop of `pick_lfn` over the characters of an entry: whether it comes to the end, where it
ends in the buffer, and the buffer. -/
def pickChars : (chars : List Nat) → (i wc : Nat) → (lfnBuf : Nat → Nat) → Bool × Nat × (Nat → Nat)
  | [], i, _, lfnBuf => (true, i, lfnBuf)
  | uc :: chars, i, wc, lfnBuf =>
    if wc = 0 then if uc ≠ 0xFFFF then (false, i, lfnBuf) else pickChars chars i wc lfnBuf
    else if i ≥ maxLfn then (false, i, lfnBuf)
    else pickChars chars (i + 1) uc (Function.update lfnBuf i uc)

/-- `pick_lfn`. -/
def pickLfn (lfnBuf : Nat → Nat) (win : Buffer) (entry : Nat) : Option (Bool × (Nat → Nat)) :=
  let ord := win entry
  if ord &&& 0x3F = 0 then none
  else
    let picked := pickChars (lfnOfs.map fun ofs => win.loadWord (entry + ofs))
      (((ord &&& 0x3F).toNat - 1) * 13) 1 lfnBuf
    let i := picked.2.1
    if ¬ picked.1 then some (false, picked.2.2)
    else if ord &&& 0x40 = 0 then some (true, picked.2.2)
    else if i ≥ maxLfn then some (false, picked.2.2)
    else some (true, Function.update picked.2.2 i 0)

/-- The loop of `fit_lfn` over the offsets of the characters: the window, where it ends in the
buffer and the last character. -/
def fitChars (lfnBuf : Nat → Nat) (entry : Nat) :
    (offsets : List Nat) → Buffer → (i wc : Nat) → Buffer × Nat × Nat
  | [], win, i, wc => (win, i, wc)
  | ofs :: offsets, win, i, wc =>
    let ended := wc = 0xFFFF
    let put := if ended then wc else lfnBuf i
    fitChars lfnBuf entry offsets (win.storeWord (entry + ofs) put) (if ended then i else i + 1)
      (if put = 0 then 0xFFFF else put)

/-- `fit_lfn`. -/
def fitLfn (lfnBuf : Nat → Nat) (win : Buffer) (entry ord : Nat) (sum : UInt8) : Buffer :=
  let win := win.store (entry + ldirChksum) sum
  let win := win.store (entry + dirAttr) amLfn
  let win := win.store (entry + ldirType) 0
  let win := win.storeWord (entry + dirFstClusLo) 0
  let fitted := fitChars lfnBuf entry lfnOfs win ((ord - 1) * 13) 0
  let last := fitted.2.2 = 0xFFFF ∨ lfnBuf fitted.2.1 = 0
  fitted.1.store entry (if last then UInt8.ofNat ord ||| 0x40 else UInt8.ofNat ord)

/-- `sum_sfn`. -/
def sumSfn (sfn : List UInt8) : UInt8 :=
  sfn.foldl (fun sum b => UInt8.ofNat (sum.toNat / 2 + sum.toNat * 2 ^ 7) + b) 0

/-! ### Finding and reading -/

/-- What the loops over a table know of the long name in front of an entry: the number that is to
come next, the check sum, and where the name started. -/
structure Scan where
  ord : UInt8
  sum : UInt8
  lfnIdx : Nat

/-- "Is it start of LFN sequence?" -/
def Scan.start (scan : Scan) (win : Buffer) (dj : Dir) : Scan :=
  let c := win dj.entry
  if c &&& 0x40 = 0 then scan
  else { ord := c &&& 0xBF, sum := win (dj.entry + ldirChksum), lfnIdx := dj.index }

/-- The number of an entry of a long name, without the mark of the first one. -/
def lfnOrd (c : UInt8) : UInt8 := if c &&& 0x40 = 0 then c else c &&& 0xBF

/-- The entry continues the long name. -/
def Scan.continues (scan : Scan) (win : Buffer) (dj : Dir) : Bool :=
  lfnOrd (win dj.entry) = scan.ord ∧ scan.sum = win (dj.entry + ldirChksum)

/-- The attributes of an entry. -/
def attributes (win : Buffer) (dj : Dir) : UInt8 := win (dj.entry + dirAttr) &&& amMask

/-- "An entry without valid data", a volume label. -/
def isLabel (a : UInt8) : Bool := a &&& amVol ≠ 0 ∧ a ≠ amLfn

/-- A turn of the loop of `dir_find`: whether it stops at the entry. -/
def findEntry (lfnBuf : Nat → Nat) (win : Buffer) (dj : Dir) (scan : Scan) :
    Option (Bool × Scan) :=
  let a := attributes win dj
  if win dj.entry = 0xE5 ∨ isLabel a then some (false, { scan with ord := 0xFF })
  else if a = amLfn then
    if ¬ dj.lfn then some (false, scan)
    else
      let scan := scan.start win dj
      if scan.continues win dj then
        (cmpLfn lfnBuf win dj.entry).map fun equal =>
          (false, { scan with ord := if equal then scan.ord - 1 else 0xFF })
      else some (false, { scan with ord := 0xFF })
  else
    let sfn := win.slice dj.entry 11
    if scan.ord = 0 ∧ scan.sum = sumSfn sfn then some (true, scan)
    else some (¬ dj.fn.loss ∧ sfn = dj.fn.fn, { scan with ord := 0xFF, lfnIdx := 0xFFFF })

/-- The loop of `dir_find`. -/
def findLoop : (fuel : Nat) → Scan → Dir → Program Machine (FResult × Dir)
  | 0, _, _ => Program.undefined
  | fuel + 1, scan, dj => do
    let res ← moveWindow dj.fs dj.sect
    if res ≠ .ok then return (res, dj)
    let win := (← fatfs dj.fs).win
    if win dj.entry = 0 then return (.noFile, dj)
    match findEntry (← get).lfnBuf win dj scan with
    | none => Program.undefined
    | some (stop, scan) =>
      let dj := { dj with lfnIdx := scan.lfnIdx }
      if stop then return (.ok, dj)
      let next ← dirNext dj false
      if next.1 ≠ .ok then return next
      findLoop fuel scan next.2

/-- The number of index numbers. -/
def tableFuel : Nat := 2 ^ 16

/-- `dir_find`. -/
def dirFind (dj : Dir) : Program Machine (FResult × Dir) := do
  let seek ← dirSeek dj 0
  if seek.1 ≠ .ok then return seek
  findLoop tableFuel ⟨0xFF, 0xFF, seek.2.lfnIdx⟩ seek.2

/-- A turn of the loop of `dir_read`: whether it stops at the entry, and the buffer. -/
def readEntry (lfnBuf : Nat → Nat) (win : Buffer) (dj : Dir) (scan : Scan) :
    Option (Bool × Scan × (Nat → Nat)) :=
  let a := attributes win dj
  let c := win dj.entry
  if c = 0xE5 ∨ c = 0x2e ∨ isLabel a then some (false, { scan with ord := 0xFF }, lfnBuf)
  else if a = amLfn then
    let scan := scan.start win dj
    if scan.continues win dj then
      (pickLfn lfnBuf win dj.entry).map fun picked =>
        (false, { scan with ord := if picked.1 then scan.ord - 1 else 0xFF }, picked.2)
    else some (false, { scan with ord := 0xFF }, lfnBuf)
  else if scan.ord ≠ 0 ∨ scan.sum ≠ sumSfn (win.slice dj.entry 11) then
    some (true, { scan with lfnIdx := 0xFFFF }, lfnBuf)
  else some (true, scan, lfnBuf)

/-- The loop of `dir_read`, with the result it has if there is no sector to read. -/
def readLoop : (fuel : Nat) → (res : FResult) → Scan → Dir → Program Machine (FResult × Dir)
  | 0, _, _, _ => Program.undefined
  | fuel + 1, res, scan, dj => do
    if dj.sect = 0 then return (res, dj)
    let res ← moveWindow dj.fs dj.sect
    if res ≠ .ok then return (res, { dj with sect := 0 })
    let win := (← fatfs dj.fs).win
    if win dj.entry = 0 then return (.noFile, { dj with sect := 0 })
    match readEntry (← get).lfnBuf win dj scan with
    | none => Program.undefined
    | some (stop, scan, lfnBuf) =>
      modify fun machine => { machine with lfnBuf }
      let dj := { dj with lfnIdx := scan.lfnIdx }
      if stop then return (.ok, dj)
      let next ← dirNext dj false
      if next.1 ≠ .ok then return (next.1, { next.2 with sect := 0 })
      readLoop fuel .ok scan next.2

/-- `dir_read`. -/
def dirRead (dj : Dir) : Program Machine (FResult × Dir) :=
  readLoop (tableFuel + 1) .noFile ⟨0xFF, 0xFF, dj.lfnIdx⟩ dj

/-! ### Registering -/

/-- The loop over numbered names, from a number on. -/
def numberName (sn : Name) : (tries n : Nat) → Dir → Program Machine (FResult × Dir)
  | 0, _, dj => return (.denied, dj)
  | tries + 1, n, dj => do
    let fn : Name := ⟨genNumname sn.fn sn.lfn n, sn.lfn, false, false, false, false⟩
    let found ← dirFind { dj with fn, lfn := false }
    if found.1 = .noFile then
      return (.ok, { found.2 with fn := { sn with fn := fn.fn }, lfn := true })
    if found.1 ≠ .ok then return found
    numberName sn tries (n + 1) found.2

/-- The short name of a new entry: a numbered one in the place of one that lost something. -/
def chooseSfn (dj : Dir) : Program Machine (FResult × Dir) :=
  if dj.fn.loss then numberName dj.fn 99 1 dj else return (.ok, dj)

/-- "Reserve contiguous entries": the index of the first one. -/
def reserveLoop (ne : Nat) : (fuel n start : Nat) → Dir → Program Machine (FResult × Nat × Dir)
  | 0, _, _, _ => Program.undefined
  | fuel + 1, n, start, dj => do
    let res ← moveWindow dj.fs dj.sect
    if res ≠ .ok then return (res, start, dj)
    let c := (← fatfs dj.fs).win dj.entry
    let blank := c = 0xE5 ∨ c = 0
    let start := if blank ∧ n = 0 then dj.index else start
    if blank ∧ n + 1 = ne then return (.ok, start, dj)
    let next ← dirNext dj true
    if next.1 ≠ .ok then return (next.1, start, next.2)
    reserveLoop ne fuel (if blank then n + 1 else 0) start next.2

/-- "Store LFN entries in bottom first". -/
def storeLfn (sum : UInt8) : (ne : Nat) → Dir → Program Machine (FResult × Dir)
  | 0, dj => return (.ok, dj)
  | ne + 1, dj => do
    let res ← moveWindow dj.fs dj.sect
    if res ≠ .ok then return (res, dj)
    let lfnBuf := (← get).lfnBuf
    modifyFatfs dj.fs fun fs =>
      { fs with win := fitLfn lfnBuf fs.win dj.entry (ne + 1) sum, wflag := true }
    let next ← dirNext dj false
    if next.1 ≠ .ok then return next
    storeLfn sum ne next.2

/-- "Initialize LFN entry if needed". -/
def initLfn (ne start : Nat) (dj : Dir) : Program Machine (FResult × Dir) :=
  if ne > 1 then do
    let seek ← dirSeek dj start
    if seek.1 ≠ .ok then return seek
    storeLfn (sumSfn dj.fn.fn) (ne - 1) seek.2
  else return (.ok, dj)

/-- The flags of a short name for its entry, `NS_BODY` and `NS_EXT`. -/
def ntFlags (fn : Name) : UInt8 := (if fn.body then 0x08 else 0) ||| if fn.ext then 0x10 else 0

/-- "Initialize the SFN entry". -/
def initSfn (dj : Dir) : Program Machine (FResult × Dir) := do
  let res ← moveWindow dj.fs dj.sect
  if res ≠ .ok then return (res, dj)
  modifyFatfs dj.fs fun fs =>
    let win := (fs.win.fill dj.entry 32 0).storeList dj.entry dj.fn.fn
    { fs with win := win.store (dj.entry + dirNtres) (ntFlags dj.fn), wflag := true }
  return (.ok, dj)

/-- The entries a name needs: a short one, and one for each 13 characters of a long name. -/
def entriesOf (name : Name) : Nat := if name.long then (name.lfn.length + 25) / 13 else 1

/-- `dir_register`. -/
def dirRegister (dj : Dir) : Program Machine (FResult × Dir) := do
  let numbered ← chooseSfn dj
  if numbered.1 ≠ .ok then return numbered
  let seek ← dirSeek numbered.2 0
  if seek.1 ≠ .ok then return seek
  let reserved ← reserveLoop (entriesOf dj.fn) tableFuel 0 0 seek.2
  if reserved.1 ≠ .ok then return (reserved.1, reserved.2.2)
  let long ← initLfn (entriesOf dj.fn) reserved.2.1 reserved.2.2
  if long.1 ≠ .ok then return long
  initSfn long.2

/-! ### File information -/

/-- `FILINFO`, as the commands use it. -/
structure Filinfo extends FileInfo where
  fsize : Nat

/-- The long name in the buffer. -/
def lfnOf (lfnBuf : Nat → Nat) : List Nat :=
  ((List.range (maxLfn + 1)).map lfnBuf).takeWhile (· ≠ 0)

/-- `get_fileinfo`. At the end of a table the names are empty. The short name ends at a zero
byte. -/
def getFileinfo (lfnBuf : Nat → Nat) (win : Buffer) (dj : Dir) : Filinfo :=
  if dj.sect = 0 then ⟨⟨[], [], false⟩, 0⟩
  else
    let sfn := win.slice dj.entry 11
    let nt := win (dj.entry + dirNtres)
    let body := (sfn.take 8).map fun c => if c = 0x05 then 0xE5 else c
    let ext := if sfn[8]? = some 0x20 then [] else 0x2e :: shownPart (nt &&& 0x10 ≠ 0) (sfn.drop 8)
    { fname := (shownPart (nt &&& 0x08 ≠ 0) body ++ ext).takeWhile (· ≠ 0)
      lfname := if dj.lfnIdx = 0xFFFF then [] else shownLfn (lfnOf lfnBuf)
      isDir := win (dj.entry + dirAttr) &&& amDir ≠ 0
      fsize := win.loadDword (dj.entry + dirFileSize) }

/-! ### Paths -/

/-- What `create_name` leaves in the buffer of a segment: the characters up to the first that is
invalid, and the terminator behind the name. -/
def segmentLfn (segment : List UInt8) (lfnBuf : Nat → Nat) : Nat → Nat :=
  let chars := ((segment.map fun b => oemToUnicode b.toNat).take maxLfn).takeWhile fun w =>
    w ≠ 0 ∧ w ∉ illegalLfn
  let filled := fun index => chars.getD index (lfnBuf index)
  match createLfn segment with
  | none => filled
  | some lfn => Function.update filled lfn.length 0

/-- The loop of `follow_path`. Every turn takes a byte of the path at least. -/
def followSegments : (fuel : Nat) → Dir → FatPath → Program Machine (FResult × Dir)
  | 0, _, _ => Program.undefined
  | fuel + 1, dj, path => do
    let segment := path.takeWhile fun b => !endsSegment b
    let rest := path.drop segment.length
    let last := rest.head?.all (· < 0x20)
    modify fun machine => { machine with lfnBuf := segmentLfn segment machine.lfnBuf }
    match createName segment with
    | none => return (.invalidName, dj)
    | some fn =>
      let found ← dirFind { dj with fn, lfn := true }
      if found.1 ≠ .ok then
        return (if found.1 = .noFile ∧ ¬ last then .noPath else found.1, found.2)
      if last then return found
      let win := (← fatfs dj.fs).win
      if win (found.2.entry + dirAttr) &&& amDir = 0 then return (.noPath, found.2)
      followSegments fuel { found.2 with sclust := startCluster win found.2.entry } rest.tail

/-- `follow_path`. A path without names leads to no entry. -/
def followPath (dj : Dir) (path : FatPath) : Program Machine (FResult × Dir) := do
  let path := if path.head?.any fun b => b = 0x2f || b = 0x5c then path.tail else path
  let dj := { dj with sclust := 0 }
  if path.head?.all (· < 0x20) then
    let seek ← dirSeek dj 0
    return (seek.1, { seek.2 with dir := none })
  else followSegments (path.length + 1) dj path

end Ff

end Hdfmonkey
