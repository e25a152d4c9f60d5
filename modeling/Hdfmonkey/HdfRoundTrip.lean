/-
This file follows an HDF image through its life: created, written through the
volume in any order and with any overlaps, closed, recognised, reopened and read.

The history of a volume is the list of its writes with their results, newest
first. Behind the header the file holds, at every byte, what the last successful
write put there and zero where there was none; the header is never touched and
the length never changes. That is the invariant of a run of writes, and everything
the reopened image shows follows from it.

The transfers count in `int`s, so this is about writes of less than 2 GiB. A larger
write stores its bytes and returns a negative number.
-/

import Hdfmonkey.ImageFile

namespace Hdfmonkey

/-- A call of `vol->write`, and what the kernel does with it. -/
structure WriteCall where
  fuel : Nat
  sys : Schedule
  position : Nat
  count : Nat
  buf : Buffer

/-- The writes a volume has seen and what they returned, newest first. -/
abbrev History := List (WriteCall × Int)

/-- A write that returned its count, and whose range contains the byte. -/
def Covers (index : Nat) (entry : WriteCall × Int) : Bool :=
  entry.2 = entry.1.count && entry.1.position ≤ index &&
    index < entry.1.position + entry.1.count

/-- The byte the last successful write put at an index of the volume, or zero. -/
def lastWritten (history : History) (index : Nat) : UInt8 :=
  match history.find? (Covers index) with
  | none => 0
  | some (call, _) => call.buf (index - call.position)

/-- A run of writes inside the volume whose system calls succeed. -/
inductive Writes (volume : VolumeContainer) (start : ByteFile) : History → ByteFile → Prop
  | nil : Writes volume start [] start
  | write {history : History} {file written : ByteFile} {call : WriteCall} {result : Int} :
      Writes volume start history file →
      call.sys.Succeeds →
      call.position + call.count ≤ volume.bytesPerSector * volume.sectorCount →
      imageFileWrite call.fuel call.sys volume file call.position call.buf call.count =
        some (result, written) →
      Writes volume start ((call, result) :: history) written

/-- Every write of the history transfers less than 2 GiB. -/
def History.Short (history : History) : Prop := ∀ entry ∈ history, entry.1.count < 2 ^ 31

/-! ### Creating -/

/-- The volume of an image with the header `hdf_write_header` writes. -/
def hdfContainer (node : Nat) (writeable : Bool) (sectorCount : Nat) : VolumeContainer where
  fd := { node, writeable }
  dataOffset := hdfHeaderSize
  bytesPerSector := 512
  sectorCount := sectorCount

section Create

variable {build : Build} {fuel : Nat} {sys : Schedule} {files created : Files}
  {pathname : FileName} {sectorCount : Nat} {volume : VolumeContainer}

/-- A created image is the header in front of a whole number of zero sectors. -/
def hdfImage (sectorCount : Nat) : ByteFile :=
  (ByteFile.empty.truncate (sectorCount * 512 + hdfHeaderSize)).write 0 hdfHeaderSize
    (hdfHeader sectorCount)

theorem hdfImage_size (sectorCount : Nat) :
    (hdfImage sectorCount).size = sectorCount * 512 + hdfHeaderSize :=
  ByteFile.size_write_inside _ _ (by rw [ByteFile.size_truncate]; omega)

theorem hdfImage_header (sectorCount : Nat) {index : Nat} (inside : index < hdfHeaderSize) :
    (hdfImage sectorCount).byte index = hdfHeader sectorCount index :=
  Buffer.blit_inside _ _ _ _ (Nat.zero_le _) (by omega)

theorem hdfImage_payload (sectorCount index : Nat) :
    (hdfImage sectorCount).byte (hdfHeaderSize + index) = 0 := by
  have above : 0 + hdfHeaderSize ≤ hdfHeaderSize + index := by omega
  rw [hdfImage, ByteFile.byte_write, Buffer.blit_above _ _ _ _ above,
    ByteFile.byte_truncate_empty]

/-- A creation that succeeds leaves the name on an empty file that was extended, then given its
header, and changes no other file. -/
theorem hdfImageCreate_spec (run : hdfImageCreate build fuel sys files pathname sectorCount =
      some (some volume, created)) :
    ∃ length, length = build.add (build.mul sectorCount 512) hdfHeaderSize ∧ length < 2 ^ 63 ∧
      volume = hdfContainer (files.create pathname).1 true sectorCount ∧
      created = (files.create pathname).2.put (files.create pathname).1
        ((ByteFile.empty.truncate length).write 0 hdfHeaderSize (hdfHeader sectorCount)) := by
  rw [hdfImageCreate] at run
  cases opened : sys 0 with
  | fail => simp [openCreate, opened] at run
  | done limit =>
    simp only [openCreate, opened, FileStore.file_create] at run
    cases extended : sys 1 with
    | fail => simp [ftruncate, extended] at run
    | done other =>
      simp only [ftruncate, extended] at run
      split_ifs at run with representable
      · dsimp only at run
        split at run
        · exact absurd run (by simp)
        · rename_i res written header
          split_ifs at run with failed
          · exact absurd run (by simp)
          · simp only [Option.some.injEq, Prod.mk.injEq] at run
            obtain ⟨rfl, rfl⟩ := run
            obtain rfl : res = 0 := by
              unfold hdfWriteHeader at header
              split at header
              · exact absurd header (by simp)
              · split_ifs at header <;>
                  simp only [Option.some.injEq, Prod.mk.injEq] at header <;> omega
            rw [hdfWriteHeader_spec header]
            exact ⟨_, rfl, representable, rfl, rfl⟩
      · exact absurd run (by simp)

/-- When the length does not wrap around, the new file is the image. -/
theorem hdfImageCreate_image (fits : sectorCount * 512 + hdfHeaderSize < build.word)
    (run : hdfImageCreate build fuel sys files pathname sectorCount =
      some (some volume, created)) :
    ∃ node, volume = hdfContainer node true sectorCount ∧
      created.node pathname = some node ∧ created.file node = hdfImage sectorCount := by
  obtain ⟨length, rfl, _, rfl, rfl⟩ := hdfImageCreate_spec run
  have room : sectorCount * 512 < build.word := Nat.lt_of_le_of_lt (Nat.le_add_right _ _) fits
  rw [build.mul_of_lt room, build.add_of_lt fits]
  exact ⟨_, rfl, FileStore.node_create files pathname, FileStore.file_put_self _ _ _⟩

/-- A steady kernel creates an image of the length that the build computes. -/
theorem hdfImageCreate_runs (steady : sys.Steady) (enough : hdfHeaderSize ≤ fuel)
    (length : build.add (build.mul sectorCount 512) hdfHeaderSize < 2 ^ 63) :
    hdfImageCreate build fuel sys files pathname sectorCount =
      some (some (hdfContainer (files.create pathname).1 true sectorCount),
        (files.create pathname).2.put (files.create pathname).1
          ((ByteFile.empty.truncate (build.add (build.mul sectorCount 512) hdfHeaderSize)).write 0
            hdfHeaderSize (hdfHeader sectorCount))) := by
  obtain ⟨first, opened⟩ := steady 0
  obtain ⟨second, extended⟩ := steady 1
  have later : Schedule.Steady fun call => sys (call + 2) := fun call => steady (call + 2)
  have mode : (hdfContainer (files.create pathname).1 true sectorCount).fd.writeable = true := rfl
  have header := hdfWriteHeader_steady later mode
    (ByteFile.empty.truncate (build.add (build.mul sectorCount 512) hdfHeaderSize)) sectorCount
    enough
  simp only [hdfContainer] at header
  simp only [hdfImageCreate, openCreate, opened, FileStore.file_create, ftruncate, extended,
    if_pos length, header]
  rfl

/-- A steady kernel creates the image, whatever the name referred to before. -/
theorem hdfImageCreate_steady (steady : sys.Steady) (enough : hdfHeaderSize ≤ fuel)
    (fits : sectorCount * 512 + hdfHeaderSize < build.word)
    (length : sectorCount * 512 + hdfHeaderSize < 2 ^ 63) :
    hdfImageCreate build fuel sys files pathname sectorCount =
      some (some (hdfContainer (files.create pathname).1 true sectorCount),
        (files.create pathname).2.put (files.create pathname).1 (hdfImage sectorCount)) := by
  have room : sectorCount * 512 < build.word := Nat.lt_of_le_of_lt (Nat.le_add_right _ _) fits
  have exact : build.add (build.mul sectorCount 512) hdfHeaderSize =
      sectorCount * 512 + hdfHeaderSize := by
    rw [build.mul_of_lt room, build.add_of_lt fits]
  rw [← exact] at length
  rw [hdfImage, ← exact]
  exact hdfImageCreate_runs steady enough length

end Create

/-! ### The invariant of a run of writes -/

/-- The file is the header in front of room for its sectors. -/
structure Headed (sectorCount : Nat) (file : ByteFile) : Prop where
  size : file.size = sectorCount * 512 + hdfHeaderSize
  header : ∀ index, index < hdfHeaderSize → file.byte index = hdfHeader sectorCount index

/-- The file is the image of a history: the header, then the last written bytes. -/
structure Records (sectorCount : Nat) (history : History) (file : ByteFile) : Prop
    extends Headed sectorCount file where
  payload : ∀ index, file.byte (hdfHeaderSize + index) = lastWritten history index

theorem Headed.hdfImage (sectorCount : Nat) : Headed sectorCount (hdfImage sectorCount) where
  size := hdfImage_size sectorCount
  header _ inside := hdfImage_header sectorCount inside

theorem Records.hdfImage (sectorCount : Nat) : Records sectorCount [] (hdfImage sectorCount) where
  toHeaded := .hdfImage sectorCount
  payload index := hdfImage_payload sectorCount index

/-- A write is the last one inside its range and invisible outside it. -/
theorem lastWritten_cons (history : History) (call : WriteCall) (index : Nat) :
    lastWritten ((call, (call.count : Int)) :: history) index =
      if call.position ≤ index ∧ index < call.position + call.count then
        call.buf (index - call.position)
      else lastWritten history index := by
  by_cases covered : call.position ≤ index ∧ index < call.position + call.count
  · simp [lastWritten, Covers, covered]
  · have missed : Covers index (call, (call.count : Int)) = false := by
      simp only [Covers, decide_true, Bool.true_and, Bool.and_eq_false_iff, decide_eq_false_iff_not]
      omega
    simp only [lastWritten, List.find?_cons, missed, if_neg covered]

/-- A write that failed is not in the record. -/
theorem lastWritten_cons_failed (history : History) (call : WriteCall) {result : Int}
    (failed : result ≠ call.count) (index : Nat) :
    lastWritten ((call, result) :: history) index = lastWritten history index := by
  have missed : Covers index (call, result) = false := by
    simp [Covers, failed]
  simp only [lastWritten, List.find?_cons, missed]

/-- A write behind the header keeps the header. -/
theorem Headed.write {sectorCount position count : Nat} {file : ByteFile}
    (headed : Headed sectorCount file) (buf : Buffer)
    (inside : position + count ≤ sectorCount * 512) :
    Headed sectorCount (file.write (position + hdfHeaderSize) count buf) := by
  constructor
  · rw [ByteFile.size_write_inside _ _ (by rw [headed.size]; omega), headed.size]
  · intro index before
    rw [ByteFile.byte_write, Buffer.blit_below _ _ _ _ (by omega), headed.header index before]

section Run

variable {node sectorCount : Nat}

/-- One short write keeps the record. -/
theorem Records.write {history : History} {file written : ByteFile} {call : WriteCall}
    {result : Int} (records : Records sectorCount history file)
    (succeeds : call.sys.Succeeds) (short : call.count < 2 ^ 31)
    (inside : call.position + call.count ≤ 512 * sectorCount)
    (run : imageFileWrite call.fuel call.sys (hdfContainer node true sectorCount) file
      call.position call.buf call.count = some (result, written)) :
    Records sectorCount ((call, result) :: history) written := by
  rcases imageFileWrite_whole succeeds rfl short run with ⟨rfl, rfl⟩ | ⟨negative, rfl⟩
  · refine ⟨records.toHeaded.write call.buf (by omega), fun index => ?_⟩
    rw [lastWritten_cons, ← records.payload index, ByteFile.byte_write]
    simp only [hdfContainer]
    split_ifs with covered
    · rw [Buffer.blit_inside _ _ _ _ (by omega) (by omega)]
      exact congrArg call.buf (by omega)
    · simp only [Buffer.blit]
      rw [if_neg (by omega)]
  · have failed : result ≠ call.count := by omega
    refine ⟨records.toHeaded, fun index => ?_⟩
    rw [lastWritten_cons_failed _ _ failed, records.payload]

/-- A run of short writes keeps the record. -/
theorem Records.writes {start file : ByteFile} {history : History}
    (fresh : Records sectorCount [] start)
    (run : Writes (hdfContainer node true sectorCount) start history file)
    (short : history.Short) : Records sectorCount history file := by
  induction run with
  | nil => exact fresh
  | write earlier succeeds inside step inductionHypothesis =>
    have before := inductionHypothesis fun entry member =>
      short entry (List.mem_cons_of_mem _ member)
    exact before.write succeeds (short _ List.mem_cons_self) inside step

end Run

/-! ### Reopening -/

/-- What a closed image shows when it is found again under its name: it is recognised, it opens as
the volume that was created, its header is the one written at creation, and a successful read
delivers the last written bytes. -/
structure RoundTrip (build : Build) (pathname : FileName) (sectorCount : Nat) (history : History)
    (node : Nat) (files : Files) : Prop where
  recognised : ∀ sys : Schedule, sys.Moves 7 → imageFileIsHdf sys files pathname = true
  opened : ∀ (sys : Schedule) (writeable : Bool), sys.Moves 11 →
    hdfImageOpen build sys files pathname writeable =
      some (hdfContainer node writeable sectorCount)
  totalSectors : (files.file node).byte.loadDword (identityOffset + 120) = sectorCount
  header : ∀ index, index < hdfHeaderSize → (files.file node).byte index =
    hdfHeader sectorCount index
  read : ∀ (sys : Schedule) (writeable : Bool) (position count : Nat) (buf filled : Buffer),
    imageFileRead sys (hdfContainer node writeable sectorCount) (files.file node) position buf
      count = some ((count : Int), filled) →
    ∀ index, index < count → filled index = lastWritten history (position + index)

section Reopen

variable {build : Build} {sectorCount : Nat} {history : History} {node : Nat} {files : Files}

/-- The preamble is at the start of a headed file. -/
theorem Headed.preamble {file : ByteFile} (headed : Headed sectorCount file)
    {index : Nat} (inside : index < 11) : file.byte index = hdfPreamble.getD index 0 := by
  rw [headed.header index (Nat.lt_trans inside (by decide)), hdfHeader_preamble _ inside]

theorem Headed.hasSignature {file : ByteFile} (headed : Headed sectorCount file) :
    HasSignature file := by
  constructor
  · rw [headed.size, hdfHeaderSize]
    omega
  · have bytes : file.byte.slice 0 7 =
        Buffer.slice (fun index => hdfPreamble.getD index 0) 0 7 := by
      rw [Buffer.slice_eq_iff]
      intro index inside
      rw [Nat.zero_add, headed.preamble (by omega)]
    rw [bytes]
    decide

theorem Headed.hdfVolume (headed : Headed sectorCount (files.file node))
    (small : sectorCount < build.word) (writeable : Bool) :
    Hdfmonkey.hdfVolume build files node writeable =
      hdfContainer node writeable sectorCount := by
  have word : (files.file node).byte.loadWord 0x09 = 0x216 := by
    rw [Buffer.loadWord, headed.preamble (by decide), headed.preamble (by decide)]
    decide
  have flag : ((files.file node).byte 0x08).toNat % 2 = 0 := by
    rw [headed.preamble (by decide)]
    decide
  have sectors : hdfSectorCount build (files.file node).size 0x216 512 = sectorCount := by
    have payload : (((sectorCount * 512 + hdfHeaderSize : Nat) : Int) - (0x216 : Nat)) =
        sectorCount * (512 : Nat) := by
      rw [hdfHeaderSize]
      omega
    rw [hdfSectorCount, headed.size, payload, Int.mul_tdiv_cancel _ (by decide),
      ← Int.natCast_emod, Int.toNat_natCast, Nat.mod_eq_of_lt small]
  simp only [Hdfmonkey.hdfVolume, word, flag, Nat.zero_ne_one, if_false, sectors]
  rfl

/-- A recorded image under a name makes the round trip. -/
theorem Records.roundTrip {pathname : FileName}
    (records : Records sectorCount history (files.file node))
    (refers : files.node pathname = some node) (small : sectorCount < 2 ^ 32) :
    RoundTrip build pathname sectorCount history node files where
  recognised sys moves := by
    rw [imageFileIsHdf_moves moves refers]
    exact decide_eq_true records.hasSignature
  opened sys writeable moves := by
    have long : 11 ≤ (files.file node).size := by
      rw [records.size, hdfHeaderSize]
      omega
    have representable : (files.file node).size < 2 ^ 63 := by
      rw [records.size, hdfHeaderSize]
      omega
    rw [hdfImageOpen_moves moves refers long representable,
      records.hdfVolume (Nat.lt_of_lt_of_le small build.le_word)]
  totalSectors := by
    rw [Buffer.loadDword_congr fun index _ above =>
        records.header index (Nat.lt_trans above (by decide)),
      hdfHeader_totalSectors, Nat.mod_eq_of_lt small]
  header := records.header
  read sys writeable position count buf filled run index inside := by
    have short : count < 2 ^ 31 := by
      have bound := imageFileRead_lt run
      omega
    rcases imageFileRead_spec short run with ⟨_, _, _, rfl⟩ | ⟨negative, _⟩
    · rw [Buffer.blit_inside _ _ _ _ (Nat.zero_le _) (by omega), ← records.payload]
      refine congrArg (files.file node).byte ?_
      show position + hdfHeaderSize + (index - 0) = hdfHeaderSize + (position + index)
      omega
    · omega

end Reopen

/-! ### The whole life of an image -/

/-- An image that was created, written through its volume in writes of less than 2 GiB and closed
makes the round trip. -/
theorem hdfImageCreate_roundTrip {build : Build} {fuel : Nat} {sys : Schedule}
    {files created : Files} {pathname : FileName} {sectorCount : Nat} {volume : VolumeContainer}
    {history : History} {file : ByteFile} (small : sectorCount < 2 ^ 32)
    (fits : sectorCount * 512 + hdfHeaderSize < build.word)
    (create : hdfImageCreate build fuel sys files pathname sectorCount =
      some (some volume, created))
    (run : Writes volume (created.file volume.fd.node) history file) (short : history.Short) :
    RoundTrip build pathname sectorCount history volume.fd.node
      (created.put volume.fd.node file) := by
  obtain ⟨node, rfl, refers, image⟩ := hdfImageCreate_image fits create
  change Writes _ (created.file node) history file at run
  rw [image] at run
  have records := (Records.hdfImage sectorCount).writes run short
  rw [← FileStore.file_put_self created node file] at records
  exact records.roundTrip refers small

/-- Two sectors created under an unused name, the first one written over. -/
theorem hdfImageCreate_roundTrip_twoSectors :
    RoundTrip .lp64 [0x61] 2
      [({ fuel := 512, sys := Schedule.kernel, position := 0, count := 512, buf := fun _ => 1 },
        ((512 : Nat) : Int))] 0
      (((FileStore.create FileStore.empty [0x61]).2.put 0 (hdfImage 2)).put 0
        ((hdfImage 2).write (0 + hdfHeaderSize) 512 fun _ => 1)) := by
  have create : hdfImageCreate .lp64 hdfHeaderSize Schedule.kernel FileStore.empty [0x61] 2 =
      some (some (hdfContainer 0 true 2),
        (FileStore.create FileStore.empty [0x61]).2.put 0 (hdfImage 2)) :=
    hdfImageCreate_steady Schedule.kernel_steady (Nat.le_refl _) (by decide) (by decide)
  have written : imageFileWrite 512 Schedule.kernel (hdfContainer 0 true 2) (hdfImage 2) (0 : Nat)
      (fun _ => 1) 512 =
      some (((512 : Nat) : Int), (hdfImage 2).write (0 + hdfHeaderSize) 512 fun _ => 1) :=
    imageFileWrite_steady Schedule.kernel_steady _ (by decide) (by decide) rfl (by decide)
  refine hdfImageCreate_roundTrip (by decide) (by decide) create
    (.write ?_ Schedule.kernel_steady.succeeds (by decide) written) ?_
  · change Writes _ (((FileStore.create FileStore.empty [0x61]).2.put 0 (hdfImage 2)).file 0) _ _
    rw [FileStore.file_put_self]
    exact .nil
  · intro entry member
    rw [List.mem_singleton] at member
    subst member
    decide

/-- A write of 2 GiB at the start of an image takes two system calls, and the count of moved bytes
overflows in the second. -/
theorem imageFileWrite_overflow (node sectorCount : Nat) (file : ByteFile) :
    imageFileWrite 2 Schedule.kernel (hdfContainer node true sectorCount) file (0 : Nat)
        (fun _ => 1) (2 ^ 31) =
      some (-2 ^ 31, (file.write hdfHeaderSize 0x7ffff000 fun _ => 1).write
        (hdfHeaderSize + 0x7ffff000) 4096 fun _ => 1) := by
  have seek : lseek (Schedule.kernel 0)
      (((0 : Nat) : Int) + (hdfContainer node true sectorCount).dataOffset) =
      some hdfHeaderSize := rfl
  have positive : ¬ int32 (hdfHeaderSize : Nat) < 0 := by decide
  simp only [imageFileWrite, seek, positive, if_false]
  rfl

/-- Such a write stores its bytes and returns `-2 ^ 31`, so the bytes read afterwards are not those
of a successful write. -/
theorem not_roundTrip_longWrite :
    ∃ volume created history file,
      hdfImageCreate .lp64 hdfHeaderSize Schedule.kernel FileStore.empty [] (2 ^ 22) =
        some (some volume, created) ∧
      Writes volume (created.file volume.fd.node) history file ∧
      ¬ RoundTrip .lp64 [] (2 ^ 22) history volume.fd.node
        (created.put volume.fd.node file) := by
  have create : hdfImageCreate .lp64 hdfHeaderSize Schedule.kernel FileStore.empty [] (2 ^ 22) =
      some (some (hdfContainer 0 true (2 ^ 22)),
        (FileStore.create FileStore.empty []).2.put 0 (hdfImage (2 ^ 22))) :=
    hdfImageCreate_steady Schedule.kernel_steady (Nat.le_refl _) (by decide) (by decide)
  generalize (FileStore.create FileStore.empty ([] : FileName)).2.put 0 (hdfImage (2 ^ 22)) = made
    at create
  have run := imageFileWrite_overflow 0 (2 ^ 22) (made.file 0)
  generalize writtenIs : ((made.file 0).write hdfHeaderSize 0x7ffff000 fun _ => 1).write
    (hdfHeaderSize + 0x7ffff000) 4096 (fun _ => 1) = written at run
  refine ⟨_, _, [({
      fuel := 2, sys := Schedule.kernel, position := 0, count := 2 ^ 31, buf := fun _ => 1 },
      -2 ^ 31)], written, create,
    .write .nil Schedule.kernel_steady.succeeds (by decide) run, ?_⟩
  change ¬ RoundTrip _ _ _ _ 0 (made.put 0 written)
  intro trip
  have file : (made.put 0 written).file 0 = written := FileStore.file_put_self _ _ _
  have long : 0 + hdfHeaderSize + 1 ≤ written.size := by
    rw [← writtenIs]
    exact Nat.le_trans (by decide) (ByteFile.le_size_write _ _ _ (by decide))
  have read := trip.read Schedule.kernel true 0 1 Buffer.zero _
    (imageFileRead_steady Schedule.kernel_steady Buffer.zero (by decide) (by decide)
      (file ▸ long)) 0 (by decide)
  rw [lastWritten_cons_failed _ _ (by decide), Buffer.blit_inside _ _ _ _ (by decide) (by decide),
    file] at read
  have first : written.byte hdfHeaderSize = 1 := by
    rw [← writtenIs]
    rfl
  exact absurd (first.symm.trans read) (by decide)

end Hdfmonkey
