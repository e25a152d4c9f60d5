/-
This file models `cmd_clone`: open the source image, create the destination with as
many sectors, and copy the payload in chunks of a mebibyte.

The two names may refer to one file. The creation then empties the source before
the first read, so what the loop copies is always what the source volume shows
after the creation, and a chunk that has been written never changes a chunk that
is still to be read: the displacement between the two payloads is far smaller
than a chunk, and behind its header a created image is zero.
-/

import Hdfmonkey.HdfRoundTrip

namespace Hdfmonkey

/-- `CLONE_BUFFER_SIZE`. -/
def cloneBufferSize : Nat := 1048576

/-- `filename_is_hdf`. The arguments of a program lie one behind the other, so the byte before a
name is the terminator of the argument before it, and a name of fewer than three characters never
ends in an extension. -/
def filenameIsHdf (filename : FileName) : Bool :=
  match filename.reverse with
  | last :: middle :: first :: _ =>
    (first == 0x68 || first == 0x48) && (middle == 0x64 || middle == 0x44) &&
      (last == 0x66 || last == 0x46)
  | _ => false

/-- The choice of a container by file name that the commands creating an image make. -/
def createVolume (build : Build) (fuel : Nat) (sys : Schedule) (files : Files)
    (pathname : FileName) (sectorCount : Nat) : Option (Option VolumeContainer × Files) :=
  if filenameIsHdf pathname then hdfImageCreate build fuel sys files pathname sectorCount
  else some (rawImageCreate build sys files pathname sectorCount)

/-- The loop of `cmd_clone`, given up after `fuel` chunks. Every chunk takes a schedule for its
read and one for its write. -/
def cloneLoop (writes : Nat) (sys : Nat → Schedule) (source destination : VolumeContainer)
    (totalSize : Nat) : (fuel call position : Nat) → Buffer → Files → Option (Int × Files)
  | 0, _, position, _, files => if position < totalSize then none else some (0, files)
  | fuel + 1, call, position, buffer, files =>
    if position < totalSize then
      let transferSize := min (totalSize - position) cloneBufferSize
      match imageFileRead (sys call) source (files.file source.fd.node) position buffer
          transferSize with
      | none => none
      | some (res, filled) =>
        if res < 0 then some (-1, files)
        else match imageFileWrite writes (sys (call + 1)) destination
            (files.file destination.fd.node) position filled transferSize with
          | none => none
          | some (res, written) =>
            if res < 0 then some (-1, files.put destination.fd.node written)
            else cloneLoop writes sys source destination totalSize fuel (call + 2)
              (position + transferSize) filled (files.put destination.fd.node written)
    else some (0, files)

/-- `cmd_clone`. The buffer lies on the stack and starts with any bytes. -/
def cmdClone (build : Build) (fuel : Nat) (sys : Nat → Schedule) (argv : List FileName)
    (buffer : Buffer) (files : Files) : Option (Int × Files) :=
  match argv with
  | _ :: _ :: sourceFilename :: destinationFilename :: _ =>
    match openVolume build sys files sourceFilename false with
    | none => some (-1, files)
    | some source =>
      match createVolume build fuel (sys 2) files destinationFilename source.sectorCount with
      | none => none
      | some (none, created) => some (-1, created)
      | some (some destination, created) =>
        cloneLoop fuel sys source destination
          (build.mul source.bytesPerSector source.sectorCount) fuel 3 0 buffer created
  | _ => some (-1, files)

/-! ### Creating the destination -/

/-- The volume of a created image, by the kind of its container. -/
def createdContainer (hdf : Bool) (node sectorCount : Nat) : VolumeContainer :=
  if hdf then hdfContainer node true sectorCount
  else {
    fd := { node, writeable := true }
    dataOffset := 0
    bytesPerSector := 512
    sectorCount }

/-- A created file of a given length, by the kind of its container. -/
def createdFile (hdf : Bool) (length sectorCount : Nat) : ByteFile :=
  if hdf then (ByteFile.empty.truncate length).write 0 hdfHeaderSize (hdfHeader sectorCount)
  else ByteFile.empty.truncate length

/-- The length a created file is extended to, by the kind of its container. -/
def createdLength (build : Build) (hdf : Bool) (sectorCount : Nat) : Nat :=
  if hdf then build.add (build.mul sectorCount 512) hdfHeaderSize else build.mul sectorCount 512

/-- The volume of the destination of a creation. -/
def destinationVolume (files : Files) (pathname : FileName) (sectorCount : Nat) :
    VolumeContainer :=
  createdContainer (filenameIsHdf pathname) (files.create pathname).1 sectorCount

/-- The files after a creation. -/
def createdFiles (build : Build) (files : Files) (pathname : FileName) (sectorCount : Nat) :
    Files :=
  (files.create pathname).2.put (files.create pathname).1
    (createdFile (filenameIsHdf pathname)
      (createdLength build (filenameIsHdf pathname) sectorCount) sectorCount)

theorem createVolume_spec {build : Build} {fuel : Nat} {sys : Schedule} {files created : Files}
    {pathname : FileName} {sectorCount : Nat} {volume : VolumeContainer}
    (run : createVolume build fuel sys files pathname sectorCount =
      some (some volume, created)) :
    createdLength build (filenameIsHdf pathname) sectorCount < 2 ^ 63 ∧
      volume = destinationVolume files pathname sectorCount ∧
      created = createdFiles build files pathname sectorCount := by
  rw [createVolume] at run
  rw [destinationVolume, createdFiles]
  cases kind : filenameIsHdf pathname with
  | true =>
    rw [kind, if_pos rfl] at run
    obtain ⟨length, rfl, representable, rfl, rfl⟩ := hdfImageCreate_spec run
    exact ⟨representable, rfl, rfl⟩
  | false =>
    rw [kind, if_neg Bool.false_ne_true, rawImageCreate] at run
    cases opened : sys 0 with
    | fail => simp [openCreate, opened] at run
    | done limit =>
      simp only [openCreate, opened, FileStore.file_create] at run
      cases extended : sys 1 with
      | fail => simp [ftruncate, extended] at run
      | done other =>
        simp only [ftruncate, extended] at run
        split_ifs at run with representable
        · simp only [Option.some.injEq, Prod.mk.injEq] at run
          obtain ⟨rfl, rfl⟩ := run
          exact ⟨representable, rfl, rfl⟩
        · exact absurd run (by simp)

theorem createVolume_ofImage {build : Build} {fuel : Nat} {sys : Schedule} {files created : Files}
    {pathname : FileName} {sectorCount : Nat} {volume : VolumeContainer}
    (run : createVolume build fuel sys files pathname sectorCount =
      some (some volume, created)) : volume.OfImage := by
  obtain ⟨_, rfl, _⟩ := createVolume_spec run
  rw [destinationVolume, createdContainer]
  split_ifs
  · exact ⟨show hdfHeaderSize < 2 ^ 16 by decide, Or.inl rfl⟩
  · exact ⟨Nat.two_pow_pos 16, Or.inl rfl⟩

/-- With a steady kernel the destination is created. -/
theorem createVolume_steady {build : Build} {fuel : Nat} {sys : Schedule} (steady : sys.Steady)
    (enough : hdfHeaderSize ≤ fuel) (files : Files) (pathname : FileName) {sectorCount : Nat}
    (fits : sectorCount * 512 + hdfHeaderSize < build.word)
    (length : sectorCount * 512 + hdfHeaderSize < 2 ^ 63) :
    createVolume build fuel sys files pathname sectorCount =
      some (some (destinationVolume files pathname sectorCount),
        createdFiles build files pathname sectorCount) := by
  rw [destinationVolume, createdFiles]
  have room : sectorCount * 512 < build.word := Nat.lt_of_le_of_lt (Nat.le_add_right _ _) fits
  rw [createVolume]
  cases kind : filenameIsHdf pathname with
  | true =>
    rw [if_pos rfl, hdfImageCreate_steady steady enough fits length, createdLength, if_pos rfl,
      build.mul_of_lt room, build.add_of_lt fits]
    rfl
  | false =>
    obtain ⟨first, opened⟩ := steady 0
    obtain ⟨second, extended⟩ := steady 1
    have short : sectorCount * 512 < 2 ^ 63 := Nat.lt_of_le_of_lt (Nat.le_add_right _ _) length
    rw [if_neg Bool.false_ne_true, createdLength, if_neg Bool.false_ne_true]
    simp only [rawImageCreate, openCreate, opened, FileStore.file_create, ftruncate, extended,
      build.mul_of_lt room, if_pos short]
    rfl

theorem createdContainer_node (hdf : Bool) (node sectorCount : Nat) :
    (createdContainer hdf node sectorCount).fd = { node, writeable := true } := by
  cases hdf <;> rfl

theorem createdContainer_dataOffset (hdf : Bool) (node sectorCount : Nat) :
    (createdContainer hdf node sectorCount).dataOffset = if hdf then hdfHeaderSize else 0 := by
  cases hdf <;> rfl

/-- Behind its header a created file is zero. -/
theorem createdFile_payload (hdf : Bool) (node length sectorCount : Nat) {index : Nat}
    (behind : (createdContainer hdf node sectorCount).dataOffset ≤ index) :
    (createdFile hdf length sectorCount).byte index = 0 := by
  rw [createdContainer_dataOffset] at behind
  cases hdf with
  | true =>
    have above : 0 + hdfHeaderSize ≤ index := by simpa using behind
    rw [createdFile, if_pos rfl, ByteFile.byte_write, Buffer.blit_above _ _ _ _ above,
      ByteFile.byte_truncate_empty]
  | false =>
    rw [createdFile, if_neg Bool.false_ne_true, ByteFile.byte_truncate_empty]

/-! ### The loop -/

section Loop

variable {writes : Nat} {sys : Nat → Schedule} {source destination : VolumeContainer}
  {totalSize : Nat} {start after : Files}

/-- The bytes of the source payload when the loop starts. -/
def sourceBytes (source : VolumeContainer) (start : Files) : Buffer := fun index =>
  (start.file source.fd.node).byte (source.dataOffset + index)

/-- The files when the loop has come to a position. -/
def clonedTo (source destination : VolumeContainer) (start : Files) (position : Nat) : Files :=
  start.put destination.fd.node
    ((start.file destination.fd.node).write destination.dataOffset position
      (sourceBytes source start))

/-- One successful turn of the loop: the chunk was read and written whole, and neither offset
looked like a failed seek. -/
theorem cloneLoop_step {fuel call position : Nat} {buffer : Buffer} {files : Files}
    (more : position < totalSize)
    (run : cloneLoop writes sys source destination totalSize (fuel + 1) call position buffer
      files = some (0, after)) :
    ∃ transferSize filled, transferSize = min (totalSize - position) cloneBufferSize ∧
      (position + source.dataOffset) % 2 ^ 32 < 2 ^ 31 ∧
      position + source.dataOffset + transferSize ≤ (files.file source.fd.node).size ∧
      (∀ index, index < transferSize → filled index =
        (files.file source.fd.node).byte (position + source.dataOffset + index)) ∧
      cloneLoop writes sys source destination totalSize fuel (call + 2)
        (position + transferSize) filled (files.put destination.fd.node
          ((files.file destination.fd.node).write (position + destination.dataOffset)
            transferSize filled)) = some (0, after) := by
  rw [cloneLoop, if_pos more] at run
  generalize transferIs : min (totalSize - position) cloneBufferSize = transferSize at run
  have small : transferSize < 2 ^ 31 := by
    rw [← transferIs, cloneBufferSize]
    omega
  have positive : 0 < transferSize := by
    rw [← transferIs, cloneBufferSize]
    omega
  dsimp only at run
  split at run
  · exact absurd run (by simp)
  · rename_i readResult filled read
    split_ifs at run with failed
    · exact absurd run (by simp)
    · rcases imageFileRead_spec small read with ⟨_, clear, inside, bytes⟩ | ⟨negative, _⟩
      · split at run
        · exact absurd run (by simp)
        · rename_i writeResult written write
          split_ifs at run with writeFailed
          · exact absurd run (by simp)
          · rcases imageFileWrite_spec small write with ⟨_, _, _, rfl⟩ | ⟨negative, _⟩
            · refine ⟨transferSize, filled, rfl, clear, inside positive, ?_, run⟩
              intro index below
              rw [bytes, Buffer.blit_inside _ _ _ _ (Nat.zero_le _) (by omega), Nat.sub_zero]
            · exact absurd negative writeFailed
      · exact absurd negative failed

/-- What the loop reads at a position is what the source showed when it started. -/
theorem clonedTo_source {position index : Nat}
    (apart : source.fd.node = destination.fd.node → destination.dataOffset ≤ 2 ^ 19 ∧
      ∀ place, destination.dataOffset ≤ place →
        (start.file destination.fd.node).byte place = 0)
    (chunk : position = 0 ∨ cloneBufferSize ≤ position) :
    ((clonedTo source destination start position).file source.fd.node).byte
        (position + source.dataOffset + index) =
      sourceBytes source start (position + index) := by
  have place : source.dataOffset + (position + index) = position + source.dataOffset + index := by
    omega
  rw [sourceBytes, place, clonedTo]
  by_cases same : source.fd.node = destination.fd.node
  · obtain ⟨near, zeros⟩ := apart same
    rw [same, FileStore.file_put_self, ByteFile.byte_write, Buffer.blit]
    split_ifs with written
    · -- a byte the loop has written itself: both sides lie behind the header
      rw [cloneBufferSize] at chunk
      rw [sourceBytes, same, zeros _ written.1, zeros]
      omega
    · rfl
  · rw [FileStore.file_put_of_ne _ _ same]

/-- Writing the next chunk goes on with the copy. -/
theorem clonedTo_put {position transferSize : Nat} {filled : Buffer}
    (bytes : ∀ index, index < transferSize →
      filled index = sourceBytes source start (position + index)) :
    (clonedTo source destination start position).put destination.fd.node
        (((clonedTo source destination start position).file destination.fd.node).write
          (position + destination.dataOffset) transferSize filled) =
      clonedTo source destination start (position + transferSize) := by
  rw [clonedTo, FileStore.put_put, FileStore.file_put_self, Nat.add_comm position,
    ByteFile.write_congr _ _ _ bytes, ByteFile.write_write_append, clonedTo]

/-- A payload of more than 2 GiB is never copied: the chunk at 2 GiB cannot be read, because bit
31 of its offset is set. -/
theorem cloneLoop_short (near : source.dataOffset < 2 ^ 16) (fuel : Nat) :
    ∀ (call position : Nat) (buffer : Buffer) (files : Files),
      position = totalSize ∨ position < totalSize ∧ position % cloneBufferSize = 0 →
      position ≤ 2 ^ 31 →
      cloneLoop writes sys source destination totalSize fuel call position buffer files =
        some (0, after) →
      totalSize ≤ 2 ^ 31 := by
  induction fuel with
  | zero =>
    intro call position buffer files place small run
    rw [cloneLoop] at run
    split_ifs at run
    omega
  | succ fuel inductionHypothesis =>
    intro call position buffer files place small run
    by_cases more : position < totalSize
    · obtain ⟨transferSize, filled, transferIs, clear, _, _, rest⟩ := cloneLoop_step more run
      have chunk : position % cloneBufferSize = 0 := by omega
      rw [cloneBufferSize] at transferIs chunk
      have next : position + transferSize = totalSize ∨
          position + transferSize < totalSize ∧
            (position + transferSize) % cloneBufferSize = 0 := by
        rw [cloneBufferSize]
        omega
      exact inductionHypothesis _ _ _ _ next (by omega) rest
    · omega

/-- A loop that ends with success has copied the whole payload. -/
theorem cloneLoop_spec
    (apart : source.fd.node = destination.fd.node → destination.dataOffset ≤ 2 ^ 19 ∧
      ∀ place, destination.dataOffset ≤ place →
        (start.file destination.fd.node).byte place = 0)
    (fuel : Nat) :
    ∀ (call position : Nat) (buffer : Buffer),
      position = totalSize ∨ position < totalSize ∧ position % cloneBufferSize = 0 →
      cloneLoop writes sys source destination totalSize fuel call position buffer
        (clonedTo source destination start position) = some (0, after) →
      after = clonedTo source destination start totalSize := by
  induction fuel with
  | zero =>
    intro call position buffer place run
    rw [cloneLoop] at run
    split_ifs at run with more
    obtain rfl : position = totalSize := by omega
    simp only [Option.some.injEq, Prod.mk.injEq, true_and] at run
    exact run.symm
  | succ fuel inductionHypothesis =>
    intro call position buffer place run
    by_cases more : position < totalSize
    · obtain ⟨transferSize, filled, transferIs, _, _, bytes, rest⟩ := cloneLoop_step more run
      have chunk : position % cloneBufferSize = 0 := by omega
      rw [cloneBufferSize] at transferIs chunk
      have copied (index : Nat) (below : index < transferSize) :
          filled index = sourceBytes source start (position + index) := by
        rw [bytes index below]
        exact clonedTo_source apart (by rw [cloneBufferSize]; omega)
      rw [clonedTo_put copied] at rest
      refine inductionHypothesis _ _ _ ?_ rest
      rw [cloneBufferSize]
      omega
    · obtain rfl : position = totalSize := by omega
      rw [cloneLoop, if_neg more] at run
      simp only [Option.some.injEq, Prod.mk.injEq, true_and] at run
      exact run.symm

/-- With a steady kernel the loop ends with success when both payloads lie inside their files and
below the first offset whose bit 31 is set. -/
theorem cloneLoop_steady (steady : ∀ call, (sys call).Steady)
    (apart : source.fd.node = destination.fd.node → destination.dataOffset ≤ 2 ^ 19 ∧
      ∀ place, destination.dataOffset ≤ place →
        (start.file destination.fd.node).byte place = 0)
    (mode : destination.fd.writeable = true) (enough : cloneBufferSize ≤ writes)
    (inside : source.dataOffset + totalSize ≤ (start.file source.fd.node).size)
    (room : destination.dataOffset + totalSize ≤ (start.file destination.fd.node).size)
    (sourceReach : source.dataOffset + totalSize ≤ 2 ^ 31)
    (destinationReach : destination.dataOffset + totalSize ≤ 2 ^ 31) (fuel : Nat) :
    ∀ (call position : Nat) (buffer : Buffer),
      position = totalSize ∨ position < totalSize ∧ position % cloneBufferSize = 0 →
      totalSize ≤ position + fuel * cloneBufferSize →
      cloneLoop writes sys source destination totalSize fuel call position buffer
        (clonedTo source destination start position) =
          some (0, clonedTo source destination start totalSize) := by
  have size (position : Nat) (below : position ≤ totalSize) :
      ((clonedTo source destination start position).file source.fd.node).size =
        (start.file source.fd.node).size := by
    rw [clonedTo]
    by_cases same : source.fd.node = destination.fd.node
    · rw [same, FileStore.file_put_self, ByteFile.size_write_inside _ _ (by omega)]
    · rw [FileStore.file_put_of_ne _ _ same]
  induction fuel with
  | zero =>
    intro call position buffer place reached
    obtain rfl : position = totalSize := by omega
    rw [cloneLoop, if_neg (Nat.lt_irrefl _)]
  | succ fuel inductionHypothesis =>
    intro call position buffer place reached
    rw [cloneLoop]
    split_ifs with more
    · generalize transferIs : min (totalSize - position) cloneBufferSize = transferSize
      rw [cloneBufferSize] at transferIs place reached enough
      dsimp only
      rw [imageFileRead_steady (steady _) buffer (by omega) (by omega)
        (by rw [size position (by omega)]; omega)]
      simp only [if_neg (Int.not_lt.mpr (Int.natCast_nonneg _))]
      rw [imageFileWrite_steady (steady _) _ (by omega) (by omega) mode (by omega)]
      simp only [if_neg (Int.not_lt.mpr (Int.natCast_nonneg _))]
      rw [clonedTo_put]
      · exact inductionHypothesis _ _ _ (by rw [cloneBufferSize]; omega)
          (by rw [cloneBufferSize]; omega)
      · intro index below
        rw [Buffer.blit_inside _ _ _ _ (Nat.zero_le _) (by omega), Nat.sub_zero]
        exact clonedTo_source apart (by rw [cloneBufferSize]; omega)
    · obtain rfl : position = totalSize := by omega
      rfl

end Loop

end Hdfmonkey
