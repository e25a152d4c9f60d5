/-
This file says when a clone shows the same disk as its source, sector by sector.

A successful clone of an image with 512-byte sectors has the source's payload behind
the destination's header, or at the start of a raw destination. It is then found
again by contents: a raw destination whose payload begins like an HDF header is
opened as an HDF image, with that header's geometry. An image with halved sectors
never survives: a created image always has 512-byte sectors, and no payload can
describe itself as halved at the place where it would have to lie.

Three more things can go wrong. If both names refer to one file, the creation empties
the source before it is read. In an HDF image of exactly 2 GiB the header pushes the
last sector out of reach. And where `unsigned long` has 32 bits, the number of bytes of
a source of 4 GiB or more wraps around, so that the clone is cut short.

One source with halved sectors is cloned after all: where the length of the new file
wraps around to zero, the file is what is copied to it, and if that begins with its own
header it is found again as it was.
-/

import Hdfmonkey.Clone

namespace Hdfmonkey

/-! ### The geometry of an opened image -/

theorem hdfSectorCount_of_le (build : Build) {size dataOffset bytesPerSector : Nat}
    (le : dataOffset ≤ size) :
    hdfSectorCount build size dataOffset bytesPerSector =
      (size - dataOffset) / bytesPerSector % build.word := by
  have payload : ((size : Int) - dataOffset) = (size - dataOffset : Nat) := by omega
  rw [hdfSectorCount, payload, ← Int.ofNat_tdiv, ← Int.natCast_emod, Int.toNat_natCast]

/-- A file that ends before its payload has no sector, or a count whose bytes are more than any
that are copied. -/
theorem hdfSectorCount_of_lt (build : Build) {size dataOffset bytesPerSector : Nat}
    (near : dataOffset < 2 ^ 16) (full : bytesPerSector = 512 ∨ bytesPerSector = 256)
    (lt : size < dataOffset) :
    hdfSectorCount build size dataOffset bytesPerSector = 0 ∨
      2 ^ 31 < build.mul bytesPerSector (hdfSectorCount build size dataOffset bytesPerSector) := by
  have payload : ((size : Int) - dataOffset) = -((dataOffset - size : Nat) : Int) := by omega
  rw [hdfSectorCount, payload, Int.neg_tdiv, ← Int.ofNat_tdiv, Build.mul]
  rcases full with rfl | rfl
  · generalize missing : (dataOffset - size) / 512 = sectors
    cases build <;> rw [Build.word] <;> omega
  · generalize missing : (dataOffset - size) / 256 = sectors
    cases build <;> rw [Build.word] <;> omega

/-- What is known of the geometry of an opened image: its sectors lie inside the file, or it has
none, or its length in bytes is more than any that is copied. -/
structure OpenedGeometry (build : Build) (volume : VolumeContainer) (size : Nat) : Prop where
  representable : size < 2 ^ 63
  near : volume.dataOffset < 2 ^ 16
  sector : volume.bytesPerSector = 512 ∨ volume.bytesPerSector = 256
  count : volume.dataOffset + volume.bytesPerSector * volume.sectorCount ≤ size ∨
    volume.sectorCount = 0 ∨
    2 ^ 31 < build.mul volume.bytesPerSector volume.sectorCount

theorem rawVolume_geometry (build : Build) {files : Files} {node : Nat}
    (representable : (files.file node).size < 2 ^ 63) (writeable : Bool) :
    OpenedGeometry build (rawVolume build files node writeable) (files.file node).size where
  representable := representable
  near := Nat.two_pow_pos 16
  sector := Or.inl rfl
  count := by
    left
    have less := Nat.mod_le ((files.file node).size / 512) build.word
    simp only [rawVolume]
    omega

theorem hdfVolume_geometry (build : Build) {files : Files} {node : Nat}
    (representable : (files.file node).size < 2 ^ 63) (writeable : Bool) :
    OpenedGeometry build (hdfVolume build files node writeable) (files.file node).size := by
  have near := (files.file node).byte.loadWord_lt 0x09
  have sector : (hdfVolume build files node writeable).bytesPerSector = 512 ∨
      (hdfVolume build files node writeable).bytesPerSector = 256 := by
    simp only [hdfVolume]
    split_ifs
    · exact Or.inr rfl
    · exact Or.inl rfl
  refine ⟨representable, near, sector, ?_⟩
  simp only [hdfVolume] at sector ⊢
  generalize (if ((files.file node).byte 0x08).toNat % 2 = 1 then 256 else 512) = bytes
    at sector ⊢
  by_cases le : (files.file node).byte.loadWord 0x09 ≤ (files.file node).size
  · rw [hdfSectorCount_of_le build le]
    left
    generalize sizeIs : (files.file node).size - (files.file node).byte.loadWord 0x09 = size
    have whole := Nat.mul_le_mul_left bytes (Nat.mod_le (size / bytes) build.word)
    have part := Nat.mul_div_le size bytes
    omega
  · exact Or.inr (hdfSectorCount_of_lt build near sector (Nat.not_le.mp le))

theorem openVolume_geometry {build : Build} {sys : Nat → Schedule} {files : Files}
    {pathname : FileName}
    {writeable : Bool} {volume : VolumeContainer}
    (run : openVolume build sys files pathname writeable = some volume) :
    files.node pathname = some volume.fd.node ∧
      OpenedGeometry build volume (files.file volume.fd.node).size := by
  obtain ⟨node, refers, representable, rfl | rfl⟩ := openVolume_spec run
  · exact ⟨refers, hdfVolume_geometry build representable writeable⟩
  · exact ⟨refers, rawVolume_geometry build representable writeable⟩

/-! ### What a clone should be -/

/-- The destination, opened again, has the geometry of the source, and every sector read from it
is the source's as it was before the clone. -/
def SameDisk (build : Build) (files after : Files) (source : VolumeContainer)
    (destinationFilename : FileName) : Prop :=
  ∀ (sys : Nat → Schedule) (writeable : Bool), (∀ call, (sys call).Moves 11) → ∃ volume,
    openVolume build sys after destinationFilename writeable = some volume ∧
    volume.sectorCount = source.sectorCount ∧
    volume.bytesPerSector = source.bytesPerSector ∧
    ∀ lba, lba < source.sectorCount → ∀ (sys : Schedule) (buf : Buffer), sys.Steady →
      imageFileRead sys volume (after.file volume.fd.node)
          (lba * source.bytesPerSector : Nat) buf source.bytesPerSector =
        some ((source.bytesPerSector : Int), buf.blit 0 source.bytesPerSector fun index =>
          sourceBytes source files (lba * source.bytesPerSector + index))

/-- The payload begins like the header of an HDF image, and not of one with full sectors that
start right there. -/
def Misleading (payload : Buffer) : Prop :=
  payload.slice 0 7 = hdfSignature ∧
    ¬ ((payload 0x08).toNat % 2 = 0 ∧ payload.loadWord 0x09 = 0)

/-- The sources and destination names for which a successful clone is the same disk. -/
structure Clonable (build : Build) (files : Files) (source : VolumeContainer)
    (destinationFilename : FileName) : Prop where
  full : source.bytesPerSector = 512
  fits : 512 * source.sectorCount < build.word
  plain : filenameIsHdf destinationFilename = false → source.sectorCount ≠ 0 →
    ¬ Misleading (sourceBytes source files)
  fresh : files.node destinationFilename = some source.fd.node →
    ∀ index, index < 512 * source.sectorCount → sourceBytes source files index =
      (createdFile (filenameIsHdf destinationFilename)
        (createdLength build (filenameIsHdf destinationFilename) source.sectorCount)
        source.sectorCount).byte (source.dataOffset + index)
  reach : filenameIsHdf destinationFilename = true → 512 * source.sectorCount ≠ 2 ^ 31

/-- Halved sectors that a raw destination takes over with the header they begin with: the length of
the new file wraps around to nothing, and nothing but the copy makes the file. -/
structure ClonableHalved (build : Build) (files : Files) (source : VolumeContainer)
    (destinationFilename : FileName) : Prop where
  half : source.bytesPerSector = 256
  wraps : 512 * source.sectorCount = build.word
  raw : filenameIsHdf destinationFilename = false
  apart : files.node destinationFilename ≠ some source.fd.node
  signature : (sourceBytes source files).slice 0 7 = hdfSignature
  header : (sourceBytes source files 0x08).toNat % 2 = 1 ∧
    (sourceBytes source files).loadWord 0x09 = 0

/-! ### What a successful clone leaves -/

/-- What is known after a successful clone: the name is on a file that holds, behind the header
of its kind, the bytes the source showed after the creation. -/
structure Cloned (build : Build) (files after : Files) (source : VolumeContainer)
    (destinationFilename : FileName) (node : Nat) (copy : Buffer) : Prop where
  near : source.dataOffset < 2 ^ 16
  sector : source.bytesPerSector = 512 ∨ source.bytesPerSector = 256
  limit : build.mul source.bytesPerSector source.sectorCount ≤ 2 ^ 31
  refers : after.node destinationFilename = some node
  file : after.file node =
    (createdFile (filenameIsHdf destinationFilename)
      (createdLength build (filenameIsHdf destinationFilename) source.sectorCount)
      source.sectorCount).write
        (createdContainer (filenameIsHdf destinationFilename) node source.sectorCount).dataOffset
        (build.mul source.bytesPerSector source.sectorCount) copy
  other : files.node destinationFilename ≠ some source.fd.node →
    copy = sourceBytes source files
  same : files.node destinationFilename = some source.fd.node → ∀ index, copy index =
    (createdFile (filenameIsHdf destinationFilename)
      (createdLength build (filenameIsHdf destinationFilename) source.sectorCount)
      source.sectorCount).byte (source.dataOffset + index)

theorem cmdClone_cloned {build : Build} {fuel : Nat} {sys : Nat → Schedule}
    {program command : FileName}
    {sourceFilename destinationFilename : FileName} {rest : List FileName} {buffer : Buffer}
    {files after : Files} {source : VolumeContainer}
    (opened : openVolume build sys files sourceFilename false = some source)
    (run : cmdClone build fuel sys
      (program :: command :: sourceFilename :: destinationFilename :: rest) buffer files =
        some (0, after)) :
    ∃ copy, Cloned build files after source destinationFilename (files.create destinationFilename).1
      copy := by
  obtain ⟨sourceRefers, geometry⟩ := openVolume_geometry opened
  rw [cmdClone] at run
  simp only [opened] at run
  split at run
  · exact absurd run (by simp)
  · exact absurd run (by simp)
  · rename_i destination created create
    obtain ⟨_, rfl, rfl⟩ := createVolume_spec create
    rw [destinationVolume, createdFiles] at run
    generalize nodeIs : (files.create destinationFilename).1 = node at run ⊢
    generalize fileIs : createdFile (filenameIsHdf destinationFilename)
      (createdLength build (filenameIsHdf destinationFilename) source.sectorCount)
      source.sectorCount = image at run
    generalize totalIs : build.mul source.bytesPerSector source.sectorCount = total at run
    have small := cloneLoop_short geometry.near _ _ _ _ _ (by rw [cloneBufferSize]; omega)
      (by decide) run
    have target : (createdContainer (filenameIsHdf destinationFilename) node
        source.sectorCount).fd.node = node := by
      rw [createdContainer_node]
    have stored : ((files.create destinationFilename).2.put node image).file node = image :=
      FileStore.file_put_self _ _ _
    generalize startIs : (files.create destinationFilename).2.put node image = start at run stored
    generalize destinationIs : createdContainer (filenameIsHdf destinationFilename) node
      source.sectorCount = destination at run target
    have begin : clonedTo source destination start 0 = start := by
      rw [clonedTo, ByteFile.write_zero_count, FileStore.put_file_self]
    rw [← begin] at run
    have ended := cloneLoop_spec (by
      intro _
      rw [target, stored, ← destinationIs, ← fileIs]
      refine ⟨?_, fun place behind => createdFile_payload _ _ _ _ behind⟩
      rw [createdContainer_dataOffset]
      split_ifs <;> decide) _ _ _ _ (by rw [cloneBufferSize]; omega) run
    refine ⟨sourceBytes source start, geometry.near, geometry.sector, totalIs ▸ small, ?_,
      ?_, ?_, ?_⟩
    · rw [ended, clonedTo, FileStore.node_put, ← startIs, FileStore.node_put, ← nodeIs,
        FileStore.node_create]
    · rw [ended, clonedTo, target, FileStore.file_put_self, stored, fileIs, destinationIs, totalIs]
    · intro elsewhere
      have apart : source.fd.node ≠ node := fun hit =>
        elsewhere (FileStore.node_eq_of_create files _ sourceRefers (nodeIs.trans hit.symm))
      funext index
      rw [sourceBytes, sourceBytes, ← startIs, FileStore.file_put_of_ne _ _ apart,
        FileStore.file_create_of_ne _ _ (nodeIs ▸ apart)]
    · intro aliased index
      have hit := (FileStore.create_fst_of_node files _ aliased).symm.trans nodeIs
      rw [sourceBytes, hit, stored, fileIs]

/-! ### Reading the destination -/

/-- Every steady read of a range inside the file delivers the given bytes exactly when bit 31 of
the offset is clear and the file holds those bytes. -/
theorem imageFileRead_delivers_iff {volume : VolumeContainer} {file : ByteFile}
    {position count : Nat} {bytes : Buffer} (small : count < 2 ^ 31)
    (inside : position + volume.dataOffset + count ≤ file.size) :
    (∀ (sys : Schedule) (buf : Buffer), sys.Steady →
      imageFileRead sys volume file position buf count =
        some ((count : Int), buf.blit 0 count bytes)) ↔
    (position + volume.dataOffset) % 2 ^ 32 < 2 ^ 31 ∧
      ∀ index, index < count → file.byte (position + volume.dataOffset + index) = bytes index := by
  constructor
  · intro delivers
    have read := delivers Schedule.kernel Buffer.zero Schedule.kernel_steady
    rcases imageFileRead_spec small read with ⟨_, clear, _, same⟩ | ⟨negative, _⟩
    · refine ⟨clear, fun index below => ?_⟩
      have here := congrFun same index
      rw [Buffer.blit_inside _ _ _ _ (Nat.zero_le _) (by omega),
        Buffer.blit_inside _ _ _ _ (Nat.zero_le _) (by omega)] at here
      exact here.symm
    · omega
  · rintro ⟨clear, same⟩ sys buf steady
    rw [imageFileRead_steady steady buf small clear inside, Buffer.blit_congr _ _ _ _ _ same]

/-- Sector by sector is byte by byte. -/
theorem forall_sectors_iff {sector count : Nat} (positive : 0 < sector) (good : Nat → Prop) :
    (∀ lba, lba < count → ∀ index, index < sector → good (lba * sector + index)) ↔
      ∀ index, index < sector * count → good index := by
  constructor
  · intro sectors index below
    have split := sectors (index / sector) (Nat.div_lt_of_lt_mul below) (index % sector)
      (Nat.mod_lt _ positive)
    rwa [Nat.div_add_mod'] at split
  · intro bytes lba below index inside
    refine bytes _ ?_
    calc lba * sector + index < lba * sector + sector := by omega
      _ = sector * (lba + 1) := by rw [Nat.mul_succ, Nat.mul_comm]
      _ ≤ sector * count := Nat.mul_le_mul_left _ below

theorem imageVolume_fd (build : Build) (files : Files) (node : Nat) (writeable : Bool) :
    imageVolume build files node writeable =
      { imageVolume build files node false with fd := { node, writeable } } := by
  simp only [imageVolume]
  split_ifs <;> rfl

theorem imageVolume_geometry (build : Build) {files : Files} {node : Nat}
    (representable : (files.file node).size < 2 ^ 63) (writeable : Bool) :
    OpenedGeometry build (imageVolume build files node writeable) (files.file node).size := by
  rw [imageVolume]
  split_ifs
  · exact hdfVolume_geometry build representable writeable
  · exact rawVolume_geometry build representable writeable

/-- The same disk, in terms of the one volume the destination is opened as. -/
theorem sameDisk_iff {build : Build} {files after : Files} {source : VolumeContainer} {node : Nat}
    {destinationFilename : FileName} (refers : after.node destinationFilename = some node)
    (representable : (after.file node).size < 2 ^ 63)
    (long : HasSignature (after.file node) → 11 ≤ (after.file node).size)
    (sector : source.bytesPerSector = 512 ∨ source.bytesPerSector = 256)
    (short : source.bytesPerSector * source.sectorCount ≤ 2 ^ 31) :
    SameDisk build files after source destinationFilename ↔
      (imageVolume build after node false).sectorCount = source.sectorCount ∧
      (imageVolume build after node false).bytesPerSector = source.bytesPerSector ∧
      (∀ lba, lba < source.sectorCount → (lba * source.bytesPerSector +
        (imageVolume build after node false).dataOffset) % 2 ^ 32 < 2 ^ 31) ∧
      ∀ index, index < source.bytesPerSector * source.sectorCount →
        (after.file node).byte ((imageVolume build after node false).dataOffset + index) =
          sourceBytes source files index := by
  have positive : 0 < source.bytesPerSector := by omega
  have opened (sys : Nat → Schedule) (moves : ∀ call, (sys call).Moves 11) (writeable : Bool) :=
    openVolume_moves moves refers representable long build writeable
  have geometry := imageVolume_geometry build representable false
  generalize viewIs : imageVolume build after node false = view at geometry
  have inside (count : view.sectorCount = source.sectorCount)
      (bytes : view.bytesPerSector = source.bytesPerSector) (lba : Nat)
      (below : lba < source.sectorCount) :
      lba * source.bytesPerSector + view.dataOffset + source.bytesPerSector ≤
        (after.file node).size := by
    have bound := geometry.count
    have wrapped : build.mul source.bytesPerSector source.sectorCount ≤
        source.bytesPerSector * source.sectorCount := Nat.mod_le _ _
    rw [count, bytes] at bound
    have upper : source.bytesPerSector * (lba + 1) ≤
        source.bytesPerSector * source.sectorCount := Nat.mul_le_mul_left _ below
    rw [Nat.mul_succ, Nat.mul_comm] at upper
    omega
  have sectors := @forall_sectors_iff _ source.sectorCount positive fun index =>
    (after.file node).byte (view.dataOffset + index) = sourceBytes source files index
  constructor
  · intro same
    obtain ⟨volume, found, count, bytes, reads⟩ :=
      same (fun _ => Schedule.kernel) false fun _ => Schedule.kernel_moves (by decide)
    rw [opened _ (fun _ => Schedule.kernel_moves (by decide)), viewIs] at found
    obtain rfl := Option.some_inj.mp found
    have node : view.fd.node = node := by
      rw [← viewIs, imageVolume_fd]
    rw [node] at reads
    have delivered (lba : Nat) (below : lba < source.sectorCount) :=
      (imageFileRead_delivers_iff (by omega) (inside count bytes lba below)).mp
        (reads lba below)
    refine ⟨count, bytes, fun lba below => (delivered lba below).1, sectors.mp ?_⟩
    intro lba below index small
    rw [← (delivered lba below).2 index small]
    exact congrArg _ (by omega)
  · rintro ⟨count, bytes, clear, same⟩ sys writeable moves
    refine ⟨_, opened sys moves writeable, ?_⟩
    rw [imageVolume_fd, viewIs]
    refine ⟨count, bytes, fun lba below => ?_⟩
    refine (imageFileRead_delivers_iff (by omega) (inside count bytes lba below)).mpr
      ⟨clear lba below, fun index small => ?_⟩
    rw [← sectors.mpr same lba below index small]
    exact congrArg _ (by omega)

/-! ### The three ways a destination is found again -/

section Found

variable {build : Build} {files after : Files} {source : VolumeContainer}
  {destinationFilename : FileName}
  {node : Nat} {copy : Buffer}

/-- The clone copied the bytes the source showed before it exactly when the names are of different
files or the fresh file happens to show them. -/
theorem Cloned.fresh_iff (cloned : Cloned build files after source destinationFilename node copy)
    (count : Nat) :
    (∀ index, index < count → copy index = sourceBytes source files index) ↔
      (files.node destinationFilename = some source.fd.node →
        ∀ index, index < count → sourceBytes source files index =
          (createdFile (filenameIsHdf destinationFilename)
            (createdLength build (filenameIsHdf destinationFilename) source.sectorCount)
            source.sectorCount).byte (source.dataOffset + index)) := by
  constructor
  · intro copied aliased index below
    rw [← copied index below, cloned.same aliased]
  · intro fresh index below
    by_cases aliased : files.node destinationFilename = some source.fd.node
    · rw [fresh aliased index below, cloned.same aliased]
    · rw [cloned.other aliased]

/-- A number of bytes that does not wrap around is that of the bytes copied. -/
theorem Cloned.short (cloned : Cloned build files after source destinationFilename node copy)
    (whole : source.bytesPerSector * source.sectorCount < build.word) :
    source.bytesPerSector * source.sectorCount ≤ 2 ^ 31 :=
  build.mul_of_lt whole ▸ cloned.limit

theorem Cloned.count_le (cloned : Cloned build files after source destinationFilename node copy)
    (whole : source.bytesPerSector * source.sectorCount < build.word) :
    source.sectorCount ≤ 2 ^ 23 ∧
      source.bytesPerSector * source.sectorCount ≤ 512 * source.sectorCount := by
  have short := cloned.short whole
  rcases cloned.sector with full | half
  · rw [full] at short ⊢
    omega
  · rw [half] at short ⊢
    omega

theorem Cloned.whole (cloned : Cloned build files after source destinationFilename node copy)
    (fits : 512 * source.sectorCount < build.word) :
    source.bytesPerSector * source.sectorCount < build.word := by
  rcases cloned.sector with full | half
  · rwa [full]
  · rw [half]
    omega

/-- An HDF destination has full sectors. -/
theorem Cloned.not_half_hdf (cloned : Cloned build files after source destinationFilename node copy)
    (kind : filenameIsHdf destinationFilename = true) (half : source.bytesPerSector = 256) :
    ¬SameDisk build files after source destinationFilename := by
  intro same
  have file := cloned.file
  rw [kind, createdFile, if_pos rfl, createdContainer_dataOffset, if_pos rfl] at file
  have flag : (after.file node).byte 0x08 = 0 := by
    rw [file, ByteFile.byte_write, Buffer.blit_below _ _ _ _ (by decide), ByteFile.byte_write,
      Buffer.blit_inside _ _ _ _ (Nat.zero_le _) (by decide), Nat.sub_zero,
      hdfHeader_preamble _ (by decide)]
    decide
  obtain ⟨volume, found, _, bytes, _⟩ :=
    same (fun _ => Schedule.kernel) false fun _ => Schedule.kernel_moves (by decide)
  rw [half] at bytes
  obtain ⟨node', refers, _, rfl | rfl⟩ := openVolume_spec found
  · obtain rfl := Option.some.inj (cloned.refers.symm.trans refers)
    simp [hdfVolume, flag] at bytes
  · exact absurd bytes (show ¬512 = 256 by decide)

/-- An HDF destination is found as the image that was created. -/
theorem Cloned.sameDisk_hdf (cloned : Cloned build files after source destinationFilename node copy)
    (fits : 512 * source.sectorCount < build.word)
    (kind : filenameIsHdf destinationFilename = true) :
    SameDisk build files after source destinationFilename ↔
      Clonable build files source destinationFilename := by
  rcases cloned.sector with full | half
  case inr =>
    refine iff_of_false (cloned.not_half_hdf kind half) fun clonable => ?_
    exact absurd (half.symm.trans clonable.full) (by decide)
  have whole := cloned.whole fits
  obtain ⟨count, total⟩ := cloned.count_le whole
  have short := cloned.short whole
  have bytes : 512 * source.sectorCount ≤ 2 ^ 31 := full ▸ short
  have file := cloned.file
  have word := build.le_word
  have payloadLength : build.mul source.sectorCount 512 = source.sectorCount * 512 :=
    build.mul_of_lt (by omega)
  have length : createdLength build true source.sectorCount =
      source.sectorCount * 512 + hdfHeaderSize := by
    rw [createdLength, if_pos rfl, payloadLength, build.add_of_lt (by rw [hdfHeaderSize]; omega)]
  rw [kind, length, build.mul_of_lt whole] at file
  have headed : Headed source.sectorCount (after.file node) := by
    have written := (Headed.hdfImage source.sectorCount).write copy
      (show 0 + source.bytesPerSector * source.sectorCount ≤ source.sectorCount * 512 by omega)
    rw [Nat.zero_add] at written
    rw [file]
    exact written
  have size : (after.file node).size = source.sectorCount * 512 + 0x216 := headed.size
  have found : imageVolume build after node false =
      hdfContainer node false source.sectorCount := by
    rw [imageVolume, if_pos headed.hasSignature, headed.hdfVolume (by omega)]
  have payload (index : Nat) (below : index < source.bytesPerSector * source.sectorCount) :
      (after.file node).byte (hdfHeaderSize + index) = copy index := by
    rw [file]
    refine (Buffer.blit_inside _ _ _ _ (Nat.le_add_right _ _) ?_).trans ?_
    · exact Nat.add_lt_add_left below _
    · exact congrArg copy (Nat.add_sub_cancel_left _ _)
  rw [sameDisk_iff cloned.refers (by omega) (by omega) cloned.sector short, found]
  simp only [hdfContainer]
  constructor
  · rintro ⟨_, _, clear, same⟩
    rw [full] at clear same payload
    refine ⟨full, fits, fun raw => absurd (kind.symm.trans raw) (by decide), ?_,
      fun _ edge => ?_⟩
    · refine (cloned.fresh_iff _).mp fun index below => ?_
      rw [← payload index below, same index below]
    · have last := clear (source.sectorCount - 1) (by omega)
      rw [hdfHeaderSize] at last
      omega
  · rintro ⟨_, _, _, fresh, reach⟩
    have copied := (cloned.fresh_iff _).mpr fresh
    have bounded := reach kind
    rw [full] at short payload ⊢
    refine ⟨trivial, rfl, fun lba below => ?_, fun index below => ?_⟩
    · rw [hdfHeaderSize]
      omega
    · rw [payload index below, copied index below]

/-- A raw destination holds the copied bytes, and zeros behind them when the sectors of the source
are halved. -/
theorem Cloned.file_raw (cloned : Cloned build files after source destinationFilename node copy)
    (fits : 512 * source.sectorCount < build.word)
    (kind : filenameIsHdf destinationFilename = false) :
    (after.file node).size = source.sectorCount * 512 ∧
      (∀ index, index < source.bytesPerSector * source.sectorCount →
        (after.file node).byte index = copy index) ∧
      ∀ index, source.bytesPerSector * source.sectorCount ≤ index →
        (after.file node).byte index = 0 := by
  have whole := cloned.whole fits
  obtain ⟨count, total⟩ := cloned.count_le whole
  have file := cloned.file
  have word := build.le_word
  have length : createdLength build false source.sectorCount = source.sectorCount * 512 := by
    rw [createdLength, if_neg Bool.false_ne_true, build.mul_of_lt (by omega)]
  rw [kind, length, build.mul_of_lt whole, createdFile, if_neg Bool.false_ne_true,
    createdContainer_dataOffset, if_neg Bool.false_ne_true] at file
  rw [file]
  refine ⟨?_, fun index below => ?_, fun index above => ?_⟩
  · rw [ByteFile.size_write_inside _ _ (by rw [ByteFile.size_truncate]; omega),
      ByteFile.size_truncate]
  · rw [ByteFile.byte_write, Buffer.blit_inside _ _ _ _ (Nat.zero_le _) (by omega), Nat.sub_zero]
  · rw [ByteFile.byte_write, Buffer.blit_above _ _ _ _ (by omega), ByteFile.byte_truncate_empty]

/-- A payload that begins with the signature and would have to be found again further on, at a
displacement shorter than itself and with only zeros behind it, is zero everywhere. -/
theorem eq_zero_of_shifted {bytes : Buffer} {shift length : Nat} (positive : 0 < shift)
    (zeros : ∀ index, length ≤ index → bytes index = 0)
    (shifted : ∀ index, index < length → bytes (shift + index) = bytes index) (index : Nat) :
    bytes index = 0 := by
  have every (remaining : Nat) : ∀ index, length ≤ index + remaining → bytes index = 0 := by
    induction remaining with
    | zero => exact zeros
    | succ remaining inductionHypothesis =>
      intro index near
      by_cases inside : index < length
      · rw [← shifted index inside]
        exact inductionHypothesis _ (by omega)
      · exact zeros index (Nat.not_lt.mp inside)
  exact every length index (Nat.le_add_left _ _)

/-- A raw destination that does not begin with the signature is found as a raw image. -/
theorem Cloned.sameDisk_raw (cloned : Cloned build files after source destinationFilename node copy)
    (fits : 512 * source.sectorCount < build.word)
    (kind : filenameIsHdf destinationFilename = false)
    (unsigned : ¬ HasSignature (after.file node)) :
    SameDisk build files after source destinationFilename ↔
      Clonable build files source destinationFilename := by
  have whole := cloned.whole fits
  obtain ⟨count, total⟩ := cloned.count_le whole
  have short := cloned.short whole
  obtain ⟨size, payload, _⟩ := cloned.file_raw fits kind
  have found : imageVolume build after node false = {
      fd := { node, writeable := false }
      dataOffset := 0
      bytesPerSector := 512
      sectorCount := source.sectorCount } := by
    have word := build.le_word
    have sectors : source.sectorCount * 512 / 512 % build.word = source.sectorCount := by
      rw [Nat.mul_div_cancel _ (by decide), Nat.mod_eq_of_lt (by omega)]
    rw [imageVolume, if_neg unsigned, rawVolume, size, sectors]
  rw [sameDisk_iff cloned.refers (by omega) (fun signed => absurd signed unsigned) cloned.sector
    short, found]
  simp only [Nat.zero_add, Nat.add_zero]
  constructor
  · rintro ⟨_, full, _, same⟩
    rw [← full] at same payload
    have copied (index : Nat) (below : index < 512 * source.sectorCount) :
        copy index = sourceBytes source files index := by
      rw [← payload index below, same index below]
    refine ⟨full.symm, fits, fun _ some misleading => unsigned ⟨by omega, ?_⟩,
      (cloned.fresh_iff _).mp copied,
      fun hdf => absurd (kind.symm.trans hdf) (by decide)⟩
    rw [← misleading.1, Buffer.slice_eq_iff]
    intro index below
    rw [Nat.zero_add, same index (by omega)]
  · rintro ⟨full, _, _, fresh, _⟩
    have copied := (cloned.fresh_iff _).mpr fresh
    rw [full] at short payload ⊢
    refine ⟨trivial, rfl, fun lba below => by omega, fun index below => ?_⟩
    rw [payload index below, copied index below]

/-- A signed file does not start with a zero. -/
theorem HasSignature.first {file : ByteFile} (signed : HasSignature file) : file.byte 0 ≠ 0 := by
  have bytes : file.byte.slice 0 7 =
      Buffer.slice (fun index => hdfSignature.getD index 0) 0 7 := signed.2.trans (by decide)
  have first := (Buffer.slice_eq_iff _ _ _ _ _).mp bytes 0 (by decide)
  rw [Nat.zero_add] at first
  rw [first]
  decide

/-- An image with halved sectors is never found again in its raw copy. -/
theorem Cloned.not_found_half (cloned : Cloned build files after source destinationFilename
    node copy)
    (fits : 512 * source.sectorCount < build.word)
    (kind : filenameIsHdf destinationFilename = false) (half : source.bytesPerSector = 256)
    (signed : HasSignature (after.file node)) {dataOffset : Nat} (near : dataOffset < 2 ^ 16)
    (count : hdfSectorCount build (source.sectorCount * 512) dataOffset 256 = source.sectorCount)
    (same : ∀ index, index < 256 * source.sectorCount →
      (after.file node).byte (dataOffset + index) = sourceBytes source files index) : False := by
  obtain ⟨bound, _⟩ := cloned.count_le (cloned.whole fits)
  obtain ⟨size, payload, zeros⟩ := cloned.file_raw fits kind
  have nonempty : 7 ≤ source.sectorCount * 512 := size ▸ signed.1
  rw [half] at payload zeros
  have positive : 0 < dataOffset := by
    by_cases le : dataOffset ≤ source.sectorCount * 512
    · have less := Nat.mod_le ((source.sectorCount * 512 - dataOffset) / 256) build.word
      have word := build.le_word
      rw [hdfSectorCount_of_le build le] at count
      rcases Nat.eq_zero_or_pos dataOffset with rfl | positive
      · rw [Nat.mod_eq_of_lt (by omega)] at count
        omega
      · exact positive
    · omega
  refine signed.first ?_
  by_cases aliased : files.node destinationFilename = some source.fd.node
  · rw [payload 0 (by omega), cloned.same aliased, kind, createdFile,
      if_neg Bool.false_ne_true, ByteFile.byte_truncate_empty]
  · refine eq_zero_of_shifted positive zeros (fun index below => ?_) 0
    rw [same index below, payload index below, cloned.other aliased]

theorem misleading_congr {first second : Buffer}
    (agree : ∀ index, index < 11 → first index = second index) :
    Misleading first ↔ Misleading second := by
  have signature : first.slice 0 7 = second.slice 0 7 := by
    rw [Buffer.slice_eq_iff]
    intro index below
    rw [Nat.zero_add, agree index (by omega)]
  rw [Misleading, Misleading, signature, agree 0x08 (by decide),
    Buffer.loadWord_congr (agree 0x09 (by decide)) (agree (0x09 + 1) (by decide))]

/-- A raw destination that begins with the signature is found as an HDF image with whatever
geometry the payload describes. -/
theorem Cloned.sameDisk_signed
    (cloned : Cloned build files after source destinationFilename node copy)
    (fits : 512 * source.sectorCount < build.word)
    (kind : filenameIsHdf destinationFilename = false)
    (signed : HasSignature (after.file node)) :
    SameDisk build files after source destinationFilename ↔
      Clonable build files source destinationFilename := by
  have whole := cloned.whole fits
  obtain ⟨count, total⟩ := cloned.count_le whole
  have short := cloned.short whole
  obtain ⟨size, payload, _⟩ := cloned.file_raw fits kind
  have nonempty : 7 ≤ source.sectorCount * 512 := size ▸ signed.1
  have found : imageVolume build after node false = hdfVolume build after node false := by
    rw [imageVolume, if_pos signed]
  rw [sameDisk_iff cloned.refers (by omega) (by omega) cloned.sector short, found]
  simp only [hdfVolume, size]
  generalize offsetIs : (after.file node).byte.loadWord 0x09 = dataOffset
  have near : dataOffset < 2 ^ 16 := offsetIs ▸ Buffer.loadWord_lt _ _
  -- the payload of a source that was copied is as misleading as the destination
  have judged (full : source.bytesPerSector = 512)
      (agree : ∀ index, index < 512 * source.sectorCount →
        (after.file node).byte index = sourceBytes source files index) :
      Misleading (sourceBytes source files) ↔
        ¬ (((after.file node).byte 0x08).toNat % 2 = 0 ∧ dataOffset = 0) := by
    rw [← offsetIs, ← misleading_congr fun index below => agree index (by omega), Misleading]
    exact and_iff_right signed.2
  split_ifs with flag
  · constructor
    · rintro ⟨sectors, half, _, same⟩
      rw [← half] at same
      exact (cloned.not_found_half fits kind half.symm signed near sectors same).elim
    · rintro ⟨full, _, plain, fresh, _⟩
      refine absurd ((judged full fun index below => ?_).mpr (by omega)) (plain kind (by omega))
      rw [payload index (by rw [full]; exact below)]
      exact (cloned.fresh_iff _).mpr fresh index below
  · constructor
    · rintro ⟨sectors, full, _, same⟩
      have wrapped : build.mul 512 source.sectorCount ≤ 512 * source.sectorCount := Nat.mod_le _ _
      obtain rfl : dataOffset = 0 := by
        by_cases le : dataOffset ≤ source.sectorCount * 512
        · have less := Nat.mod_le ((source.sectorCount * 512 - dataOffset) / 512) build.word
          rw [hdfSectorCount_of_le build le] at sectors
          omega
        · rcases hdfSectorCount_of_lt build near (Or.inl rfl) (Nat.not_le.mp le) with
            none | negative
          · omega
          · rw [sectors] at negative
            omega
      rw [← full] at same payload
      simp only [Nat.zero_add] at same
      refine ⟨full.symm, fits, fun _ _ misleading => ?_, (cloned.fresh_iff _).mp fun index below =>
        ?_, fun hdf => absurd (kind.symm.trans hdf) (by decide)⟩
      · exact (judged full.symm same).mp misleading ⟨by omega, rfl⟩
      · rw [← payload index below, same index below]
    · rintro ⟨full, _, plain, fresh, _⟩
      have copied := (cloned.fresh_iff _).mpr fresh
      rw [full] at short payload ⊢
      have same (index : Nat) (below : index < 512 * source.sectorCount) :
          (after.file node).byte index = sourceBytes source files index := by
        rw [payload index below, copied index below]
      obtain rfl : dataOffset = 0 := by
        have straight := (judged full same).not.mp (plain kind (by omega))
        omega
      have word := build.le_word
      rw [hdfSectorCount_of_le build (Nat.zero_le _), Nat.sub_zero,
        Nat.mul_div_cancel _ (by decide), Nat.mod_eq_of_lt (by omega)]
      simp only [Nat.zero_add]
      exact ⟨trivial, trivial, fun lba below => by omega, same⟩

/-- What is copied where the number of bytes wraps around has no room for all the sectors. -/
theorem Cloned.not_sameDisk_wrapped
    (cloned : Cloned build files after source destinationFilename node copy)
    (wrapped : build.word ≤ source.bytesPerSector * source.sectorCount) :
    ¬SameDisk build files after source destinationFilename := by
  intro same
  have word := build.le_word
  have positive : 0 < source.sectorCount := by
    rcases Nat.eq_zero_or_pos source.sectorCount with none | positive
    · rw [none, Nat.mul_zero] at wrapped
      omega
    · exact positive
  have sector := cloned.sector
  -- the file is shorter than a word
  have size : (after.file node).size < build.word := by
    have limit := cloned.limit
    have length : createdLength build (filenameIsHdf destinationFilename) source.sectorCount <
        build.word := by
      rw [createdLength]
      split_ifs
      · exact Nat.mod_lt _ build.word_pos
      · exact Nat.mod_lt _ build.word_pos
    have created : (createdFile (filenameIsHdf destinationFilename)
        (createdLength build (filenameIsHdf destinationFilename) source.sectorCount)
        source.sectorCount).size < build.word := by
      rw [createdFile]
      split_ifs
      · have most := ByteFile.size_write_le (ByteFile.empty.truncate
          (createdLength build (filenameIsHdf destinationFilename) source.sectorCount)) 0
          hdfHeaderSize (hdfHeader source.sectorCount)
        rw [ByteFile.size_truncate, hdfHeaderSize] at most
        rw [hdfHeaderSize]
        omega
      · rwa [ByteFile.size_truncate]
    have offset : (createdContainer (filenameIsHdf destinationFilename) node
        source.sectorCount).dataOffset ≤ 0x216 := by
      rw [createdContainer_dataOffset]
      split_ifs <;> decide
    rw [cloned.file]
    exact (ByteFile.size_write_le _ _ _ _).trans_lt (by omega)
  obtain ⟨volume, found, _, _, reads⟩ :=
    same (fun _ => Schedule.kernel) false fun _ => Schedule.kernel_moves (by decide)
  have read := reads (source.sectorCount - 1) (by omega) Schedule.kernel Buffer.zero
    Schedule.kernel_steady
  have here : volume.fd.node = node := by
    have refers := (openVolume_geometry found).1
    exact Option.some.inj (refers.symm.trans cloned.refers)
  rcases imageFileRead_spec (by omega) read with ⟨_, _, inside, _⟩ | ⟨negative, _⟩
  · have last : (source.sectorCount - 1) * source.bytesPerSector + source.bytesPerSector =
        source.bytesPerSector * source.sectorCount := by
      rw [← Nat.succ_mul, Nat.succ_eq_add_one, Nat.sub_add_cancel positive, Nat.mul_comm]
    have within := inside (by omega)
    rw [here] at within
    omega
  · omega

/-- A raw destination whose length wraps around to nothing holds the copy alone. -/
theorem Cloned.file_wrapping (cloned : Cloned build files after source destinationFilename
    node copy)
    (kind : filenameIsHdf destinationFilename = false) (half : source.bytesPerSector = 256)
    (wraps : 512 * source.sectorCount = build.word) :
    source.sectorCount = 2 ^ 23 ∧ (after.file node).size = 2 ^ 31 ∧
      ∀ index, index < 2 ^ 31 → (after.file node).byte index = copy index := by
  have limit := cloned.limit
  have file := cloned.file
  have total : build.mul source.bytesPerSector source.sectorCount = 256 * source.sectorCount := by
    have positive := build.word_pos
    rw [half]
    exact build.mul_of_lt (by omega)
  have length : createdLength build false source.sectorCount = 0 := by
    rw [createdLength, if_neg Bool.false_ne_true, Build.mul, Nat.mul_comm, wraps, Nat.mod_self]
  have word := build.le_word
  rw [total] at limit
  have count : source.sectorCount = 2 ^ 23 := by omega
  rw [kind, length, total, createdFile, if_neg Bool.false_ne_true, createdContainer_dataOffset,
    if_neg Bool.false_ne_true, count] at file
  refine ⟨count, ?_, fun index below => ?_⟩
  · rw [file, ByteFile.size_write_pos _ _ _ (by decide)]
    rfl
  · rw [file, ByteFile.byte_write, Buffer.blit_inside _ _ _ _ (Nat.zero_le _) (by omega),
      Nat.sub_zero]

theorem Cloned.sameDisk_wrapping
    (cloned : Cloned build files after source destinationFilename node copy)
    (kind : filenameIsHdf destinationFilename = false) (half : source.bytesPerSector = 256)
    (wraps : 512 * source.sectorCount = build.word) :
    SameDisk build files after source destinationFilename ↔
      ClonableHalved build files source destinationFilename := by
  obtain ⟨count, size, payload⟩ := cloned.file_wrapping kind half wraps
  have short : source.bytesPerSector * source.sectorCount ≤ 2 ^ 31 := by
    rw [half, count]
    decide
  rw [sameDisk_iff cloned.refers (by omega) (by omega) cloned.sector short, half, count]
  have counted : 256 * 2 ^ 23 = 2 ^ 31 := by decide
  rw [counted]
  by_cases signed : HasSignature (after.file node)
  · have apart : files.node destinationFilename ≠ some source.fd.node := by
      intro aliased
      refine signed.first ?_
      rw [payload 0 (by decide), cloned.same aliased, kind, createdFile,
        if_neg Bool.false_ne_true, ByteFile.byte_truncate_empty]
    have copied (index : Nat) (below : index < 2 ^ 31) :
        (after.file node).byte index = sourceBytes source files index := by
      rw [payload index below, cloned.other apart]
    have signature : (sourceBytes source files).slice 0 7 = hdfSignature := by
      rw [← signed.2, Buffer.slice_eq_iff]
      intro index below
      rw [Nat.zero_add, copied index (by omega)]
    have flag := copied 0x08 (by decide)
    have word : (after.file node).byte.loadWord 0x09 = (sourceBytes source files).loadWord 0x09 :=
      Buffer.loadWord_congr (copied 0x09 (by decide)) (copied (0x09 + 1) (by decide))
    rw [imageVolume, if_pos signed]
    simp only [hdfVolume, size, word, flag]
    constructor
    · rintro ⟨sectors, halved, _, _⟩
      have odd : (sourceBytes source files 0x08).toNat % 2 = 1 := by
        by_contra even
        rw [if_neg even] at halved
        exact absurd halved (by decide)
      refine ⟨half, wraps, kind, apart, signature, odd, ?_⟩
      have near := (sourceBytes source files).loadWord_lt 0x09
      rw [if_pos odd, hdfSectorCount_of_le build (by omega)] at sectors
      have less := Nat.mod_le ((2 ^ 31 - (sourceBytes source files).loadWord 0x09) / 256) build.word
      omega
    · rintro ⟨_, _, _, _, _, odd, none⟩
      have wide := build.le_word
      rw [none, if_pos odd, hdfSectorCount_of_le build (Nat.zero_le _)]
      refine ⟨Nat.mod_eq_of_lt (by omega), rfl, fun lba below => by omega, fun index below => ?_⟩
      rw [Nat.zero_add, copied index below]
  · rw [imageVolume, if_neg signed]
    refine iff_of_false (fun same => absurd same.2.1 (show ¬512 = 256 by decide)) fun halved =>
      signed ⟨by omega, ?_⟩
    rw [← halved.signature, Buffer.slice_eq_iff]
    intro index below
    rw [Nat.zero_add, payload index (by omega), cloned.other halved.apart]

theorem Cloned.sameDisk (cloned : Cloned build files after source destinationFilename node copy) :
    SameDisk build files after source destinationFilename ↔
      Clonable build files source destinationFilename ∨
        ClonableHalved build files source destinationFilename := by
  rcases Nat.lt_or_ge (512 * source.sectorCount) build.word with fits | beyond
  · rw [or_iff_left fun halved => absurd halved.wraps (Nat.ne_of_lt fits)]
    cases kind : filenameIsHdf destinationFilename with
    | true => exact cloned.sameDisk_hdf fits kind
    | false =>
      by_cases signed : HasSignature (after.file node)
      · exact cloned.sameDisk_signed fits kind signed
      · exact cloned.sameDisk_raw fits kind signed
  rw [or_iff_right fun clonable => absurd clonable.fits (Nat.not_lt.mpr beyond)]
  rcases Nat.lt_or_ge (source.bytesPerSector * source.sectorCount) build.word with whole | wrapped
  · have half : source.bytesPerSector = 256 := by
      refine cloned.sector.resolve_left fun full => ?_
      rw [full] at whole
      omega
    have short := cloned.short whole
    have word := build.le_word
    rw [half] at short
    cases kind : filenameIsHdf destinationFilename with
    | true =>
      refine iff_of_false (cloned.not_half_hdf kind half) fun halved => ?_
      exact absurd (kind.symm.trans halved.raw) (by decide)
    | false => exact cloned.sameDisk_wrapping kind half (by omega)
  · refine iff_of_false (cloned.not_sameDisk_wrapped wrapped) fun halved => ?_
    have wraps := halved.wraps
    have positive := build.word_pos
    rw [halved.half] at wrapped
    omega

end Found

/-! ### A clone that succeeds -/

/-- A created file has room for its sectors. -/
theorem createdFile_room (hdf : Bool) (node : Nat) {sectorCount total : Nat}
    (small : sectorCount ≤ 2 ^ 23) (fits : total ≤ 512 * sectorCount) :
    (createdContainer hdf node sectorCount).dataOffset + total ≤
      (createdFile hdf (createdLength .lp64 hdf sectorCount) sectorCount).size := by
  have unwrapped : createdLength .lp64 hdf sectorCount =
      (if hdf then hdfHeaderSize else 0) + sectorCount * 512 := by
    simp only [createdLength, Build.add, Build.mul, Build.word, hdfHeaderSize]
    split_ifs <;> omega
  rw [unwrapped, createdContainer_dataOffset, createdFile]
  split_ifs with kind
  · exact Nat.le_trans (by rw [ByteFile.size_truncate]; omega) (ByteFile.size_le_write _ _ _ _)
  · rw [ByteFile.size_truncate]
    omega

/-- With a steady kernel a payload that ends well below 2 GiB is cloned to another file. -/
theorem cmdClone_steady {fuel : Nat} {sys : Nat → Schedule} {program command : FileName}
    {sourceFilename destinationFilename : FileName} {rest : List FileName} {buffer : Buffer}
    {files : Files} {source : VolumeContainer} (steady : ∀ call, (sys call).Steady)
    (opened : openVolume .lp64 sys files sourceFilename false = some source)
    (apart : files.node destinationFilename ≠ some source.fd.node)
    (inside : source.dataOffset + source.bytesPerSector * source.sectorCount ≤
      (files.file source.fd.node).size)
    (short : source.bytesPerSector * source.sectorCount + 2 ^ 16 ≤ 2 ^ 31)
    (enough : cloneBufferSize ≤ fuel) :
    cmdClone .lp64 fuel sys
      (program :: command :: sourceFilename :: destinationFilename :: rest) buffer files =
        some (0, clonedTo source
          (destinationVolume files destinationFilename source.sectorCount)
          (createdFiles .lp64 files destinationFilename source.sectorCount)
          (source.bytesPerSector * source.sectorCount)) := by
  obtain ⟨sourceRefers, geometry⟩ := openVolume_geometry opened
  have near := geometry.near
  have bound : source.sectorCount ≤ 2 ^ 23 ∧
      source.bytesPerSector * source.sectorCount ≤ 512 * source.sectorCount := by
    rcases geometry.sector with full | half
    · rw [full] at short ⊢
      omega
    · rw [half] at short ⊢
      omega
  have create := createVolume_steady (steady 2) (Nat.le_trans (by decide) enough) files
    destinationFilename (show source.sectorCount * 512 + 0x216 < Build.lp64.word by
      rw [Build.word]; omega) (show source.sectorCount * 512 + 0x216 < 2 ^ 63 by omega)
  have whole : Build.lp64.mul source.bytesPerSector source.sectorCount =
      source.bytesPerSector * source.sectorCount :=
    Build.mul_of_lt _ (by rw [Build.word]; omega)
  rw [cmdClone]
  simp only [opened, create, whole]
  have elsewhere : source.fd.node ≠ (files.create destinationFilename).1 := fun hit =>
    apart (FileStore.node_eq_of_create files _ sourceRefers hit.symm)
  generalize destinationIs :
    destinationVolume files destinationFilename source.sectorCount = destination
  generalize startIs : createdFiles .lp64 files destinationFilename source.sectorCount = start
  have target : destination.fd.node = (files.create destinationFilename).1 := by
    rw [← destinationIs, destinationVolume, createdContainer_node]
  have mode : destination.fd.writeable = true := by
    rw [← destinationIs, destinationVolume, createdContainer_node]
  have unchanged : start.file source.fd.node = files.file source.fd.node := by
    rw [← startIs, createdFiles, FileStore.file_put_of_ne _ _ elsewhere,
      FileStore.file_create_of_ne _ _ elsewhere]
  have begin : clonedTo source destination start 0 = start := by
    rw [clonedTo, ByteFile.write_zero_count, FileStore.put_file_self]
  have room : destination.dataOffset + source.bytesPerSector * source.sectorCount ≤
      (start.file destination.fd.node).size := by
    rw [target, ← startIs, createdFiles, FileStore.file_put_self, ← destinationIs,
      destinationVolume]
    exact createdFile_room _ _ (by omega) (by omega)
  have displaced : destination.dataOffset ≤ 0x216 := by
    rw [← destinationIs, destinationVolume, createdContainer_dataOffset]
    split_ifs <;> decide
  have ended := cloneLoop_steady steady (fun same => absurd (same.trans target) elsewhere)
    mode enough
    (by rw [unchanged]; exact inside) room (by omega) (by omega) fuel 3 0 buffer
    (by rw [cloneBufferSize]; omega) (by rw [cloneBufferSize] at enough ⊢; omega)
  rwa [begin] at ended

/-! ### When a clone is the same disk -/

/-- A clone that reports success is the same disk exactly for the sources and names that are
clonable. -/
theorem cmdClone_sameDisk_iff {build : Build} {fuel : Nat} {sys : Nat → Schedule}
    {program command sourceFilename destinationFilename : FileName} {rest : List FileName}
    {buffer : Buffer}
    {files after : Files} {source : VolumeContainer}
    (opened : openVolume build sys files sourceFilename false = some source)
    (run : cmdClone build fuel sys
      (program :: command :: sourceFilename :: destinationFilename :: rest) buffer files =
        some (0, after)) :
    SameDisk build files after source destinationFilename ↔
      Clonable build files source destinationFilename ∨
        ClonableHalved build files source destinationFilename := by
  obtain ⟨copy, cloned⟩ := cmdClone_cloned opened run
  exact cloned.sameDisk

/-- A store with one file, under the name "a". -/
def oneFile (file : ByteFile) : Files := (FileStore.create FileStore.empty [0x61]).2.put 0 file

/-- Cloning a raw image of one sector to a raw image "b". -/
theorem cmdClone_sameDisk_iff_oneSector :
    SameDisk .lp64 (oneFile (ByteFile.empty.truncate 512))
        (clonedTo (rawVolume .lp64 (oneFile (ByteFile.empty.truncate 512)) 0 false)
          (destinationVolume (oneFile (ByteFile.empty.truncate 512)) [0x62] 1)
          (createdFiles .lp64 (oneFile (ByteFile.empty.truncate 512)) [0x62] 1) 512)
        (rawVolume .lp64 (oneFile (ByteFile.empty.truncate 512)) 0 false) [0x62] ↔
      Clonable .lp64 (oneFile (ByteFile.empty.truncate 512))
          (rawVolume .lp64 (oneFile (ByteFile.empty.truncate 512)) 0 false) [0x62] ∨
        ClonableHalved .lp64 (oneFile (ByteFile.empty.truncate 512))
          (rawVolume .lp64 (oneFile (ByteFile.empty.truncate 512)) 0 false) [0x62] := by
  have opened : openVolume .lp64 (fun _ => Schedule.kernel)
      (oneFile (ByteFile.empty.truncate 512)) [0x61] false =
      some (rawVolume .lp64 (oneFile (ByteFile.empty.truncate 512)) 0 false) := by decide
  have run : cmdClone .lp64 cloneBufferSize (fun _ => Schedule.kernel)
      [[], [], [0x61], [0x62]] Buffer.zero (oneFile (ByteFile.empty.truncate 512)) = some (0, _) :=
    cmdClone_steady (fun _ => Schedule.kernel_steady) opened (by decide) (by decide) (by decide)
      (Nat.le_refl _)
  exact cmdClone_sameDisk_iff opened run

/-- An HDF image whose one sector is halved to 256 bytes is cloned with success, and the clone is
not the same disk. -/
theorem not_sameDisk_half :
    ∃ (files after : Files) (source : VolumeContainer),
      openVolume .lp64 (fun _ => Schedule.kernel) files [0x61] false = some source ∧
      cmdClone .lp64 cloneBufferSize (fun _ => Schedule.kernel) [[], [], [0x61], [0x62]]
        Buffer.zero files = some (0, after) ∧
      ¬ SameDisk .lp64 files after source [0x62] := by
  have opened : openVolume .lp64 (fun _ => Schedule.kernel)
      (oneFile (ByteFile.ofBuffer (534 + 256) ((hdfHeader 1).store 0x08 0x01))) [0x61] false =
      some {
        fd := { node := 0, writeable := false }
        dataOffset := 534
        bytesPerSector := 256
        sectorCount := 1 } := by decide
  have run : cmdClone .lp64 cloneBufferSize (fun _ => Schedule.kernel)
      [[], [], [0x61], [0x62]] Buffer.zero
      (oneFile (ByteFile.ofBuffer (534 + 256) ((hdfHeader 1).store 0x08 0x01))) = some (0, _) :=
    cmdClone_steady (fun _ => Schedule.kernel_steady) opened (by decide) (by decide) (by decide)
      (Nat.le_refl _)
  obtain ⟨copy, cloned⟩ := cmdClone_cloned opened run
  refine ⟨_, _, _, opened, run, fun same => ?_⟩
  obtain clonable | halved := cloned.sameDisk.mp same
  · exact absurd clonable.full (by decide)
  · exact absurd halved.wraps (by decide)

end Hdfmonkey
