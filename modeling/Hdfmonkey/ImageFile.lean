/-
This file models how `image_file.c` opens and creates images: a raw image is the
sectors and nothing else, an HDF image is recognised by its signature and says in
its header where the sectors start and whether they are halved to 256 bytes.

The system calls of each function are scheduled in the order the source makes
them. An opening function either fails or yields the volume it fills in; a
creating function changes the store even when it fails afterwards.
-/

import Hdfmonkey.FileStore
import Hdfmonkey.HdfHeader

namespace Hdfmonkey

/-- A file name, as the bytes of a C string. -/
abbrev FileName := List UInt8

/-- The files of the local machine. -/
abbrev Files := FileStore FileName

/-- `open` of an existing file: the node the name refers to. -/
def openExisting (result : SysResult) (files : Files) (pathname : FileName) : Option Nat :=
  match result with
  | .fail => none
  | .done _ => files.node pathname

/-- `fstat`: the length of the file, which must be a signed 64-bit value. -/
def fstat (result : SysResult) (file : ByteFile) : Option Nat :=
  match result with
  | .fail => none
  | .done _ => if file.size < 2 ^ 63 then some file.size else none

/-- One call of `read` at the start of the file that must deliver `count` bytes. -/
def readExactly (result : SysResult) (file : ByteFile) (count : Nat) : Option Buffer :=
  match result with
  | .fail => none
  | .done limit =>
    if min limit (file.available 0 count) = count then some (Buffer.zero.blit 0 count file.byte)
    else none

/-- `ftruncate`: the new length is a signed 64-bit value, and a negative one is refused. -/
def ftruncate (result : SysResult) (file : ByteFile) (length : Nat) : Option ByteFile :=
  match result with
  | .fail => none
  | .done _ => if length < 2 ^ 63 then some (file.truncate length) else none

/-! ### Opening -/

/-- `raw_image_open`. -/
def rawImageOpen (build : Build) (sys : Schedule) (files : Files) (pathname : FileName)
    (writeable : Bool) : Option VolumeContainer := do
  let node ← openExisting (sys 0) files pathname
  let size ← fstat (sys 1) (files.file node)
  return {
    fd := { node, writeable }
    dataOffset := 0
    bytesPerSector := 512
    sectorCount := size / 512 % build.word }

/-- The sector count of an HDF image: the signed length behind the header, divided towards zero
and stored in an `unsigned long`. -/
def hdfSectorCount (build : Build) (size dataOffset bytesPerSector : Nat) : Nat :=
  (((size : Int) - dataOffset).tdiv bytesPerSector % build.word).toNat

/-- `hdf_image_open`. -/
def hdfImageOpen (build : Build) (sys : Schedule) (files : Files) (pathname : FileName)
    (writeable : Bool) : Option VolumeContainer := do
  let node ← openExisting (sys 0) files pathname
  let size ← fstat (sys 1) (files.file node)
  let header ← readExactly (sys 2) (files.file node) 11
  let dataOffset := header.loadWord 0x09
  let bytesPerSector := if (header 0x08).toNat % 2 = 1 then 256 else 512
  return {
    fd := { node, writeable }
    dataOffset
    bytesPerSector
    sectorCount := hdfSectorCount build size dataOffset bytesPerSector }

/-- `image_file_is_hdf`. -/
def imageFileIsHdf (sys : Schedule) (files : Files) (pathname : FileName) : Bool :=
  match openExisting (sys 0) files pathname with
  | none => false
  | some node =>
    match readExactly (sys 1) (files.file node) 7 with
    | none => false
    | some signature => signature.slice 0 7 = hdfSignature

/-! ### Creating -/

/-- `open` with `O_CREAT | O_TRUNC`. -/
def openCreate (result : SysResult) (files : Files) (pathname : FileName) :
    Option (Nat × Files) :=
  match result with
  | .fail => none
  | .done _ => some (files.create pathname)

/-- `raw_image_create`. -/
def rawImageCreate (build : Build) (sys : Schedule) (files : Files) (pathname : FileName)
    (sectorCount : Nat) : Option VolumeContainer × Files :=
  match openCreate (sys 0) files pathname with
  | none => (none, files)
  | some (node, created) =>
    match ftruncate (sys 1) (created.file node) (build.mul sectorCount 512) with
    | none => (none, created)
    | some file =>
      (some {
        fd := { node, writeable := true }
        dataOffset := 0
        bytesPerSector := 512
        sectorCount }, created.put node file)

/-- `hdf_image_create`, given up after `fuel` calls of `write`. -/
def hdfImageCreate (build : Build) (fuel : Nat) (sys : Schedule) (files : Files)
    (pathname : FileName) (sectorCount : Nat) : Option (Option VolumeContainer × Files) :=
  match openCreate (sys 0) files pathname with
  | none => some (none, files)
  | some (node, created) =>
    let fd : Fd := { node, writeable := true }
    match ftruncate (sys 1) (created.file node)
        (build.add (build.mul sectorCount 512) hdfHeaderSize) with
    | none => some (none, created)
    | some file =>
      match hdfWriteHeader fuel (fun call => sys (call + 2)) fd file sectorCount with
      | none => none
      | some (res, written) =>
        if res = -1 then some (none, created.put node written)
        else some (some {
          fd
          dataOffset := hdfHeaderSize
          bytesPerSector := 512
          sectorCount }, created.put node written)

/-- `open_image`, the part that fills in the volume. -/
def openVolume (build : Build) (sys : Nat → Schedule) (files : Files) (pathname : FileName)
    (writeable : Bool) : Option VolumeContainer :=
  if imageFileIsHdf (sys 0) files pathname then
    hdfImageOpen build (sys 1) files pathname writeable
  else rawImageOpen build (sys 1) files pathname writeable

/-! ### What opening reads -/

section Open

variable {sys : Schedule} {files : Files} {pathname : FileName}

/-- Opening a file that is there, with calls that succeed. -/
theorem openExisting_moves {count node : Nat} (moves : sys.Moves count)
    (refers : files.node pathname = some node) (call : Nat) :
    openExisting (sys call) files pathname = some node := by
  obtain ⟨limit, _, result⟩ := moves call
  rw [result]
  exact refers

theorem fstat_moves {count : Nat} (moves : sys.Moves count) {file : ByteFile}
    (representable : file.size < 2 ^ 63) (call : Nat) :
    fstat (sys call) file = some file.size := by
  obtain ⟨limit, _, result⟩ := moves call
  rw [result, fstat, if_pos representable]

theorem fstat_spec {result : SysResult} {file : ByteFile} {size : Nat}
    (run : fstat result file = some size) : size = file.size ∧ file.size < 2 ^ 63 := by
  cases result with
  | fail => exact nomatch run
  | done limit =>
    rw [fstat] at run
    split_ifs at run with representable
    exact ⟨(Option.some_inj.mp run).symm, representable⟩

theorem openExisting_spec {result : SysResult} {node : Nat}
    (run : openExisting result files pathname = some node) : files.node pathname = some node := by
  cases result with
  | fail => exact nomatch run
  | done limit => exact run

theorem readExactly_moves {count : Nat} (moves : sys.Moves count) {file : ByteFile}
    (long : count ≤ file.size) (call : Nat) :
    readExactly (sys call) file count = some (Buffer.zero.blit 0 count file.byte) := by
  obtain ⟨limit, enough, result⟩ := moves call
  rw [result, readExactly, file.available_inside (by omega), if_pos (by omega)]

/-- The bytes an exact read delivers are in the file. -/
theorem readExactly_spec {result : SysResult} {file : ByteFile} {count : Nat} {header : Buffer}
    (run : readExactly result file count = some header) :
    count ≤ file.size ∧ header = Buffer.zero.blit 0 count file.byte := by
  cases result with
  | fail => exact nomatch run
  | done limit =>
    rw [readExactly] at run
    split_ifs at run with whole
    rw [ByteFile.available] at whole
    exact ⟨by omega, (Option.some_inj.mp run).symm⟩

/-- The volume a raw image is. -/
def rawVolume (build : Build) (files : Files) (node : Nat) (writeable : Bool) :
    VolumeContainer where
  fd := { node, writeable }
  dataOffset := 0
  bytesPerSector := 512
  sectorCount := (files.file node).size / 512 % build.word

/-- The volume the header of an HDF image describes. -/
def hdfVolume (build : Build) (files : Files) (node : Nat) (writeable : Bool) :
    VolumeContainer :=
  let header := (files.file node).byte
  let bytesPerSector := if (header 0x08).toNat % 2 = 1 then 256 else 512
  { fd := { node, writeable }
    dataOffset := header.loadWord 0x09
    bytesPerSector
    sectorCount := hdfSectorCount build (files.file node).size (header.loadWord 0x09)
      bytesPerSector }

/-- The eleven bytes `hdf_image_open` reads are the first eleven of the file. -/
theorem hdfHeader_read (file : Buffer) :
    (Buffer.zero.blit 0 11 file).loadWord 0x09 = file.loadWord 0x09 ∧
      Buffer.zero.blit 0 11 file 0x08 = file 0x08 := by
  have inside (index : Nat) (small : index < 11) : Buffer.zero.blit 0 11 file index = file index :=
    Buffer.blit_inside _ _ _ _ (Nat.zero_le _) (by omega)
  exact ⟨Buffer.loadWord_congr (inside _ (by decide)) (inside _ (by decide)),
    inside _ (by decide)⟩

theorem hdfImageOpen_spec {build : Build} {writeable : Bool} {volume : VolumeContainer}
    (run : hdfImageOpen build sys files pathname writeable = some volume) :
    ∃ node, files.node pathname = some node ∧ (files.file node).size < 2 ^ 63 ∧
      11 ≤ (files.file node).size ∧ volume = hdfVolume build files node writeable := by
  simp only [hdfImageOpen, Option.bind_eq_bind, Option.bind_eq_some_iff] at run
  obtain ⟨node, opened, size, stat, header, read, made⟩ := run
  obtain ⟨rfl, representable⟩ := fstat_spec stat
  obtain ⟨long, rfl⟩ := readExactly_spec read
  obtain ⟨word, flag⟩ := hdfHeader_read (files.file node).byte
  rw [word, flag] at made
  exact ⟨node, openExisting_spec opened, representable, long, (Option.some_inj.mp made).symm⟩

theorem hdfImageOpen_moves {node : Nat} (moves : sys.Moves 11)
    (refers : files.node pathname = some node) (long : 11 ≤ (files.file node).size)
    (representable : (files.file node).size < 2 ^ 63) (build : Build) (writeable : Bool) :
    hdfImageOpen build sys files pathname writeable =
      some (hdfVolume build files node writeable) := by
  obtain ⟨word, flag⟩ := hdfHeader_read (files.file node).byte
  simp only [hdfImageOpen, openExisting_moves moves refers, fstat_moves moves representable,
    readExactly_moves moves long, Option.bind_eq_bind, Option.bind_some, word, flag]
  rfl

theorem rawImageOpen_spec {build : Build} {writeable : Bool} {volume : VolumeContainer}
    (run : rawImageOpen build sys files pathname writeable = some volume) :
    ∃ node, files.node pathname = some node ∧ (files.file node).size < 2 ^ 63 ∧
      volume = rawVolume build files node writeable := by
  simp only [rawImageOpen, Option.bind_eq_bind, Option.bind_eq_some_iff] at run
  obtain ⟨node, opened, size, stat, made⟩ := run
  obtain ⟨rfl, representable⟩ := fstat_spec stat
  exact ⟨node, openExisting_spec opened, representable, (Option.some_inj.mp made).symm⟩

theorem rawImageOpen_moves {count node : Nat} (moves : sys.Moves count)
    (refers : files.node pathname = some node) (representable : (files.file node).size < 2 ^ 63)
    (build : Build) (writeable : Bool) :
    rawImageOpen build sys files pathname writeable =
      some (rawVolume build files node writeable) := by
  simp only [rawImageOpen, openExisting_moves moves refers, fstat_moves moves representable,
    Option.bind_eq_bind, Option.bind_some]
  rfl

/-- The file begins with the HDF signature. -/
def HasSignature (file : ByteFile) : Prop := 7 ≤ file.size ∧ file.byte.slice 0 7 = hdfSignature

instance (file : ByteFile) : Decidable (HasSignature file) :=
  inferInstanceAs (Decidable (_ ∧ _))

theorem slice_read (file : Buffer) (count : Nat) :
    (Buffer.zero.blit 0 count file).slice 0 count = file.slice 0 count := by
  rw [Buffer.slice_eq_iff]
  intro index inside
  exact Buffer.blit_inside _ _ _ _ (Nat.zero_le _) (by omega)

theorem imageFileIsHdf_moves {node : Nat} (moves : sys.Moves 7)
    (refers : files.node pathname = some node) :
    imageFileIsHdf sys files pathname = decide (HasSignature (files.file node)) := by
  rw [imageFileIsHdf, openExisting_moves moves refers]
  by_cases long : 7 ≤ (files.file node).size
  · simp only [readExactly_moves moves long, slice_read, HasSignature, long, true_and]
  · have short : readExactly (sys 1) (files.file node) 7 = none := by
      cases read : readExactly (sys 1) (files.file node) 7 with
      | none => rfl
      | some header => exact absurd (readExactly_spec read).1 long
    simp only [short, HasSignature, long, false_and, decide_false]

/-- The volume `open_image` finds in a file when no system call gets in its way. -/
def imageVolume (build : Build) (files : Files) (node : Nat) (writeable : Bool) :
    VolumeContainer :=
  if HasSignature (files.file node) then hdfVolume build files node writeable
  else rawVolume build files node writeable

theorem Schedule.Moves.mono {more fewer : Nat} (moves : sys.Moves more) (le : fewer ≤ more) :
    sys.Moves fewer := by
  intro call
  obtain ⟨limit, enough, result⟩ := moves call
  exact ⟨limit, Nat.le_trans le enough, result⟩

theorem openVolume_moves {node : Nat} {sys : Nat → Schedule} (moves : ∀ call, (sys call).Moves 11)
    (refers : files.node pathname = some node) (representable : (files.file node).size < 2 ^ 63)
    (long : HasSignature (files.file node) → 11 ≤ (files.file node).size)
    (build : Build) (writeable : Bool) :
    openVolume build sys files pathname writeable =
      some (imageVolume build files node writeable) := by
  rw [openVolume, imageFileIsHdf_moves ((moves 0).mono (by decide)) refers, imageVolume]
  by_cases signature : HasSignature (files.file node)
  · rw [if_pos signature, if_pos (decide_eq_true signature),
      hdfImageOpen_moves (moves 1) refers (long signature) representable]
  · rw [if_neg signature, if_neg (by simpa using signature),
      rawImageOpen_moves (moves 1) refers representable]

/-- An opened volume is the raw or the HDF view of a file the name refers to. -/
theorem openVolume_spec {build : Build} {sys : Nat → Schedule} {writeable : Bool}
    {volume : VolumeContainer}
    (run : openVolume build sys files pathname writeable = some volume) :
    ∃ node, files.node pathname = some node ∧ (files.file node).size < 2 ^ 63 ∧
      (volume = hdfVolume build files node writeable ∨
        volume = rawVolume build files node writeable) := by
  rw [openVolume] at run
  split_ifs at run
  · obtain ⟨node, refers, representable, _, made⟩ := hdfImageOpen_spec run
    exact ⟨node, refers, representable, Or.inl made⟩
  · obtain ⟨node, refers, representable, made⟩ := rawImageOpen_spec run
    exact ⟨node, refers, representable, Or.inr made⟩

/-- The geometry of every volume of `image_file.c`: full or halved sectors, behind a header whose
length is a 16-bit word. -/
structure VolumeContainer.OfImage (volume : VolumeContainer) : Prop where
  near : volume.dataOffset < 2 ^ 16
  sectors : volume.bytesPerSector = 512 ∨ volume.bytesPerSector = 256

theorem openVolume_ofImage {build : Build} {sys : Nat → Schedule} {writeable : Bool}
    {volume : VolumeContainer}
    (run : openVolume build sys files pathname writeable = some volume) : volume.OfImage := by
  obtain ⟨node, _, _, rfl | rfl⟩ := openVolume_spec run
  · refine ⟨Buffer.loadWord_lt _ _, ?_⟩
    rw [hdfVolume]
    dsimp only
    split_ifs
    · exact Or.inr rfl
    · exact Or.inl rfl
  · exact ⟨Nat.two_pow_pos 16, Or.inl rfl⟩

end Open

end Hdfmonkey
