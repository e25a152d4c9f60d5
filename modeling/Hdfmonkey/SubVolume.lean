/-
This file asks how far a partition opened by `partition_open` is a volume of its
own: whether it reports its length, whether it can be closed, and whether the
accesses through it stay inside.

Nothing in `mbr.c` compares a position with the length of the partition, and
`partition_open` sets neither the length nor the `close` of the container. So
the sub-volume is as sound as its surroundings: the memory it is built in must
hold the two fields already, and an access that leaves the partition must be one
the image file below refuses. Under these conditions every run is confined.
-/

import Hdfmonkey.Partition
import Hdfmonkey.PartialTransfers

namespace Hdfmonkey

/-- One call of `read` or `write` of a container, with the kernel's answers to it. No answer
exceeds the `int` it is kept in. -/
structure Access where
  writes : Bool
  position : Int
  buf : Buffer
  count : Nat
  sys : Schedule
  fuel : Nat
  moves : ∀ call, (sys call).limit < 2 ^ 31

namespace Container

/-- What an access made at a position returns, what it leaves of the file, and the buffer. -/
def access (v : Container) (file : ByteFile) (a : Access) (position : Int) :
    Option (Int × ByteFile × Buffer) :=
  if a.writes then
    (v.write a.fuel a.sys file position a.buf a.count).map fun done => (done.1, done.2, a.buf)
  else (v.read a.sys file position a.buf a.count).map fun done => (done.1, file, done.2)

/-- The image file at the bottom of a container. -/
def root : Container → VolumeContainer
  | .file volume => volume
  | .partition _ _ _ parent _ => parent.root

/-- The place in the image file of a position of the container: all the offsets on the way are
added. -/
def place : Container → Int → Int
  | .file volume, position => position + volume.dataOffset
  | .partition _ _ _ parent dataOffset, position => parent.place (position + dataOffset)

end Container

/-- An access stays within the first `length` bytes, or asks for nothing. -/
def Access.Within (a : Access) (length : Nat) : Prop :=
  a.count = 0 ∨ 0 ≤ a.position ∧ a.position + a.count ≤ length

/-- The image file refuses the access: there is no such offset, or `image_file_read` and
`image_file_write` take it for a failure to seek, or a read runs past the end of the file, or the
file is not open for writing. -/
def Access.Refused (a : Access) (v : Container) (file : ByteFile) (position : Int) : Prop :=
  v.place position < 0 ∨ 2 ^ 31 ≤ v.place position % 2 ^ 32 ∨
    if a.writes then v.root.fd.writeable = false else file.size < v.place position + a.count

/-- The bytes of a partition. -/
def PartitionInfo.length (p : PartitionInfo) : Nat := p.sectorCount * p.volume.bytesPerSector

/-- The position in its volume at which a partition starts. -/
def PartitionInfo.start (p : PartitionInfo) : Nat := p.startSector * p.volume.bytesPerSector

/-- The place is not that of a byte of the partition. -/
def PartitionInfo.Outside (p : PartitionInfo) (index : Nat) : Prop :=
  (index : Int) < p.volume.place p.start ∨ p.volume.place p.start + p.length ≤ index

/-- What a sub-volume is to make of an access: within the partition it is the access to the
corresponding bytes of the volume, beyond it is an error, and in either case no byte outside the
partition changes. -/
structure Confined (p : PartitionInfo) (file : ByteFile) (a : Access)
    (outcome : Int × ByteFile × Buffer) : Prop where
  within : a.Within p.length → p.volume.access file a (p.start + a.position) = some outcome
  beyond : ¬a.Within p.length → outcome.1 < 0
  kept : ∀ index, p.Outside index → outcome.2.1.byte index = file.byte index

/-- An access of a run: the file it found, and what came of it. -/
structure AccessStep where
  file : ByteFile
  access : Access
  outcome : Int × ByteFile × Buffer

/-- A sequence of accesses through a container. -/
inductive Run (container : Container) : ByteFile → List AccessStep → ByteFile → Prop
  | start {file : ByteFile} : Run container file [] file
  | access {file middle : ByteFile} {steps : List AccessStep} {a : Access}
      {outcome : Int × ByteFile × Buffer} :
    Run container file steps middle → container.access middle a a.position = some outcome →
    Run container file (steps ++ [⟨middle, a, outcome⟩]) outcome.2.1

/-- A confined sub-volume over a run: it reports the length of the partition, its `close` is a
function, and every access of the run is confined. -/
structure SubVolume (p : PartitionInfo) (container : Container) (file : ByteFile)
    (steps : List AccessStep) (after : ByteFile) : Prop where
  reports : container.sectorCount = p.sectorCount
  closes : ∀ address, container.close ≠ .unset address
  confined : ∀ step ∈ steps, Confined p step.file step.access step.outcome
  kept : ∀ index, p.Outside index → after.byte index = file.byte index

/-! ### The bottom of a container -/

theorem Container.read_root (v : Container) (sys : Schedule) (file : ByteFile) (position : Int)
    (buf : Buffer) (count : Nat) :
    v.read sys file position buf count =
      imageFileRead sys v.root file (v.place position - v.root.dataOffset) buf count := by
  induction v generalizing position with
  | file volume => simp only [Container.read, Container.root, Container.place, Int.add_sub_cancel]
  | partition _ _ _ parent dataOffset inductionHypothesis =>
    rw [Container.read, inductionHypothesis]
    rfl

theorem Container.write_root (v : Container) (fuel : Nat) (sys : Schedule) (file : ByteFile)
    (position : Int) (buf : Buffer) (count : Nat) :
    v.write fuel sys file position buf count =
      imageFileWrite fuel sys v.root file (v.place position - v.root.dataOffset) buf count := by
  induction v generalizing position with
  | file volume => simp only [Container.write, Container.root, Container.place, Int.add_sub_cancel]
  | partition _ _ _ parent dataOffset inductionHypothesis =>
    rw [Container.write, inductionHypothesis]
    rfl

theorem Container.place_add (v : Container) (position further : Int) :
    v.place (position + further) = v.place position + further := by
  induction v generalizing position with
  | file volume =>
    rw [Container.place, Container.place]
    omega
  | partition _ _ _ parent dataOffset inductionHypothesis =>
    rw [Container.place, Container.place, ← inductionHypothesis]
    exact congrArg parent.place (by omega)

/-! ### Transfers of any length -/

section Transfers

variable {sys : Schedule} {volume : VolumeContainer} {position : Int} {buf : Buffer}

theorem int32_limit {result : SysResult} {limit moved : Nat} (bounded : result.limit < 2 ^ 31)
    (outcome : result = .done limit) (movedLe : moved ≤ limit) : int32 moved = moved := by
  subst outcome
  exact int32_of_range (by omega) (by rw [SysResult.limit] at bounded; omega)

/-- A reading loop that would run past the end of the file fails if it ends. -/
theorem imageFileReadLoop_past (moves : ∀ call, (sys call).limit < 2 ^ 31) (file : ByteFile)
    (fuel : Nat) : ∀ (call offset : Nat) (buf : Buffer) (done : Int) (count : Nat) {res : Int}
      {filled : Buffer}, file.size < offset + count → 0 < count →
      imageFileReadLoop sys file fuel call offset buf done count = some (res, filled) →
      res = -1 := by
  induction fuel with
  | zero =>
    intro call offset buf done count res filled past positive run
    rw [imageFileReadLoop, if_neg (by omega)] at run
    cases run
  | succ fuel inductionHypothesis =>
    intro call offset buf done count res filled past positive run
    rw [imageFileReadLoop, if_neg (by omega)] at run
    split_ifs at run with overflow
    cases outcome : sys call with
    | fail =>
      simp only [outcome, Option.some.injEq, Prod.mk.injEq] at run
      exact run.1.symm
    | done limit =>
      simp only [outcome] at run
      generalize movedIs : min limit (file.available offset count) = moved at run
      have movedLe : moved ≤ limit := movedIs ▸ Nat.min_le_left _ _
      have inside : moved ≤ file.size - offset := by
        rw [← movedIs]
        exact Nat.le_trans (Nat.min_le_right _ _) (Nat.min_le_right _ _)
      rw [int32_limit (moves call) outcome movedLe] at run
      split_ifs at run with stopped
      · simp only [Option.some.injEq, Prod.mk.injEq] at run
        exact run.1.symm
      · exact inductionHypothesis _ _ _ _ _ (by omega) (by omega) run

/-- A writing loop changes bytes of its run only. -/
theorem imageFileWriteLoop_kept (moves : ∀ call, (sys call).limit < 2 ^ 31) (writeable : Bool)
    (buf : Buffer) (fuel : Nat) : ∀ (call offset : Nat) (file : ByteFile) (done : Int) (count : Nat)
      {res : Int} {after : ByteFile} {index : Nat}, index < offset ∨ offset + count ≤ index →
      imageFileWriteLoop sys writeable buf fuel call offset file done count = some (res, after) →
      after.byte index = file.byte index := by
  induction fuel with
  | zero =>
    intro call offset file done count res after index outside run
    rw [imageFileWriteLoop] at run
    split_ifs at run with finished
    simp only [Option.some.injEq, Prod.mk.injEq] at run
    rw [run.2]
  | succ fuel inductionHypothesis =>
    intro call offset file done count res after index outside run
    rw [imageFileWriteLoop] at run
    by_cases finished : count = 0
    · rw [if_pos finished] at run
      simp only [Option.some.injEq, Prod.mk.injEq] at run
      rw [run.2]
    · by_cases overflow : done < 0
      · rw [if_neg finished, if_pos overflow] at run
        cases run
      rw [if_neg finished, if_neg overflow] at run
      cases outcome : sys call with
      | fail =>
        simp only [outcome, Option.some.injEq, Prod.mk.injEq] at run
        rw [run.2]
      | done limit =>
        cases writeable with
        | false =>
          simp only [outcome, Bool.false_eq_true, if_false, Option.some.injEq, Prod.mk.injEq] at run
          rw [run.2]
        | true =>
          simp only [outcome, if_true] at run
          generalize movedIs : min limit count = moved at run
          have movedLe : moved ≤ count := movedIs ▸ Nat.min_le_right _ _
          rw [int32_limit (moves call) outcome (movedIs ▸ Nat.min_le_left _ _),
            if_neg (by omega)] at run
          rw [inductionHypothesis _ _ _ _ _ (by omega) run, ByteFile.byte_write]
          exact Buffer.blit_outside _ _ (by omega)

theorem lseek_some {result : SysResult} {place : Int} {offset : Nat}
    (sought : lseek result place = some offset) : place = offset := by
  cases result with
  | fail => cases sought
  | done limit =>
    rw [lseek] at sought
    split_ifs at sought with negative
    rw [← Option.some.inj sought, Int.toNat_of_nonneg (Int.not_lt.mp negative)]

/-- Through a descriptor that may not be written the loop fails. -/
theorem imageFileWriteLoop_readOnly_lt {fuel call offset count : Nat} {file after : ByteFile}
    {done res : Int} (asked : count ≠ 0)
    (run : imageFileWriteLoop sys false buf fuel call offset file done count = some (res, after)) :
    res < 0 := by
  cases fuel with
  | zero =>
    rw [imageFileWriteLoop, if_neg asked] at run
    cases run
  | succ fuel =>
    rw [imageFileWriteLoop, if_neg asked] at run
    by_cases overflow : done < 0
    · rw [if_pos overflow] at run
      cases run
    · rw [if_neg overflow] at run
      cases outcome : sys call with
      | fail =>
        simp only [outcome, Option.some.injEq, Prod.mk.injEq] at run
        omega
      | done limit =>
        simp only [outcome, Bool.false_eq_true, if_false, Option.some.injEq, Prod.mk.injEq] at run
        omega

/-- A transfer that ends has either failed to seek and changed nothing or run its loop from the
offset it found. -/
theorem seek_cases {After : Type} {result : SysResult} {place : Int} {before after : After}
    {res : Int} {loop : Nat → Option (Int × After)}
    (run : (match lseek result place with
      | none => some (-1, before)
      | some offset => if int32 offset < 0 then some (int32 offset, before) else loop offset) =
        some (res, after)) :
    res < 0 ∧ after = before ∨
      ∃ offset : Nat, place = offset ∧ offset % 2 ^ 32 < 2 ^ 31 ∧
        loop offset = some (res, after) := by
  cases sought : lseek result place with
  | none =>
    simp only [sought, Option.some.injEq, Prod.mk.injEq] at run
    exact .inl ⟨by omega, run.2.symm⟩
  | some offset =>
    simp only [sought] at run
    have clear := int32_natCast_nonneg offset
    generalize int32 offset = seen at run clear
    by_cases negative : seen < 0
    · rw [if_pos negative] at run
      simp only [Option.some.injEq, Prod.mk.injEq] at run
      exact .inl ⟨by omega, run.2.symm⟩
    · rw [if_neg negative] at run
      exact .inr ⟨offset, lseek_some sought, clear.mp (Int.not_lt.mp negative), run⟩

end Transfers

/-! ### One access -/

section Confined

variable {v : Container} {file after : ByteFile} {a : Access} {position res : Int} {filled : Buffer}

/-- A write that ends has failed to seek or run its loop from the place of its position. -/
theorem access_write (writes : a.writes = true)
    (run : v.access file a position = some (res, after, filled)) :
    res < 0 ∧ after = file ∨
      ∃ offset : Nat, v.place position = offset ∧ offset % 2 ^ 32 < 2 ^ 31 ∧
        imageFileWriteLoop a.sys v.root.fd.writeable a.buf a.fuel 1 offset file 0 a.count =
          some (res, after) := by
  rw [Container.access, if_pos writes, Container.write_root, imageFileWrite,
    Int.sub_add_cancel] at run
  obtain ⟨⟨result, written⟩, ends, same⟩ := Option.map_eq_some_iff.mp run
  simp only [Prod.mk.injEq] at same
  obtain ⟨rfl, rfl, _⟩ := same
  exact seek_cases ends

/-- So has a read, which leaves the file as it is. -/
theorem access_read (reads : a.writes = false)
    (run : v.access file a position = some (res, after, filled)) :
    after = file ∧ (res < 0 ∨
      ∃ offset : Nat, v.place position = offset ∧ offset % 2 ^ 32 < 2 ^ 31 ∧
        imageFileReadLoop a.sys file a.count 1 offset a.buf 0 a.count = some (res, filled)) := by
  rw [Container.access, if_neg (by rw [reads]; decide), Container.read_root, imageFileRead,
    Int.sub_add_cancel] at run
  obtain ⟨⟨result, bytes⟩, ends, same⟩ := Option.map_eq_some_iff.mp run
  simp only [Prod.mk.injEq] at same
  obtain ⟨rfl, rfl, rfl⟩ := same
  exact ⟨rfl, (seek_cases ends).imp_left And.left⟩

/-- An access the file refuses returns an error and leaves the file as it is. -/
theorem access_refused (asked : a.count ≠ 0) (refused : a.Refused v file position)
    (run : v.access file a position = some (res, after, filled)) : res < 0 ∧ after = file := by
  rw [Access.Refused] at refused
  cases writes : a.writes with
  | true =>
    rw [if_pos writes] at refused
    rcases access_write writes run with failed | ⟨offset, place, clear, loop⟩
    · exact failed
    · obtain readOnly : v.root.fd.writeable = false := by
        rw [place] at refused
        rcases refused with negative | far | readOnly
        · omega
        · omega
        · exact readOnly
      rw [readOnly] at loop
      exact ⟨imageFileWriteLoop_readOnly_lt asked loop, imageFileWriteLoop_readOnly _ _ _ _ _ loop⟩
  | false =>
    rw [if_neg (by rw [writes]; decide)] at refused
    obtain ⟨rfl, failed | ⟨offset, place, clear, loop⟩⟩ := access_read writes run
    · exact ⟨failed, rfl⟩
    · rw [place] at refused
      have failed := imageFileReadLoop_past a.moves _ _ _ _ _ _ _ (by omega) (by omega) loop
      exact ⟨by omega, rfl⟩

/-- No access changes a byte before or behind its run. -/
theorem access_kept {index : Nat} (outside : (index : Int) < v.place position ∨
    v.place position + a.count ≤ index)
    (run : v.access file a position = some (res, after, filled)) :
    after.byte index = file.byte index := by
  cases writes : a.writes with
  | true =>
    rcases access_write writes run with ⟨_, rfl⟩ | ⟨offset, place, _, loop⟩
    · rfl
    · rw [place] at outside
      exact imageFileWriteLoop_kept a.moves _ _ _ _ _ _ _ _ (by omega) loop
  | false => rw [(access_read writes run).1]

end Confined

/-! ### Runs -/

/-- A property of each access that was made holds of all accesses of a run, by induction on it. -/
theorem Run.forall_steps {container : Container} {property : AccessStep → Prop}
    {file after : ByteFile} {steps : List AccessStep} (run : Run container file steps after)
    (holds : ∀ step ∈ steps, container.access step.file step.access step.access.position =
      some step.outcome → property step) : ∀ step ∈ steps, property step := by
  induction run with
  | start => exact fun _ none => absurd none List.not_mem_nil
  | access _ ends inductionHypothesis =>
    obtain ⟨earlier, last⟩ := List.forall_mem_append.mp holds
    exact List.forall_mem_append.mpr ⟨inductionHypothesis earlier,
      List.forall_mem_singleton.mpr (List.forall_mem_singleton.mp last ends)⟩

/-- The bytes outside the partition are those of the file a confined run began with. -/
theorem Run.kept {container : Container} {p : PartitionInfo} {file after : ByteFile}
    {steps : List AccessStep} (run : Run container file steps after)
    (confined : ∀ step ∈ steps, Confined p step.file step.access step.outcome) {index : Nat}
    (outside : p.Outside index) : after.byte index = file.byte index := by
  induction run with
  | start => rfl
  | access _ _ inductionHypothesis =>
    obtain ⟨earlier, last⟩ := List.forall_mem_append.mp confined
    exact ((List.forall_mem_singleton.mp last).kept index outside).trans
      (inductionHypothesis earlier)

/-- A decoded record names the volume it was read from. -/
theorem mbrPartitionInfo_volume {build : Build} {sys : Nat → Schedule} {v : Container}
    {file : ByteFile} {partitionNumber : Nat} {p : PartitionInfo}
    (decoded : mbrPartitionInfo build sys v file partitionNumber = some p) : p.volume = v := by
  rw [mbrPartitionInfo] at decoded
  split_ifs at decoded
  split at decoded
  · split_ifs at decoded
    rw [← Option.some.inj decoded]
  · cases decoded

section Partition

variable {build : Build} {p : PartitionInfo} {memory : PartitionMemory} {sys : Nat → Schedule}
  {v : Container}
  {file after : ByteFile} {partitionNumber : Nat}

/-- An access through an opened partition is the access of its volume a fixed number of bytes
further on. -/
theorem partitionOpen_access (word : p.start < build.word) (offset : p.start < 2 ^ 63)
    (file : ByteFile) (a : Access) :
    (partitionOpen build p memory).access file a a.position =
      p.volume.access file a (p.start + a.position) := by
  have goesTo := partitionOpen_goesTo memory word offset a.fuel a.sys file a.position a.buf a.count
  rw [Container.access, Container.access, goesTo.1, goesTo.2]
  rfl

/-- An access that stays within the partition or is refused is confined. -/
theorem confined_of_within (word : p.start < build.word) (offset : p.start < 2 ^ 63) {a : Access}
    {outcome : Int × ByteFile × Buffer}
    (met : a.Within p.length ∨ a.Refused p.volume file (p.start + a.position))
    (ends : (partitionOpen build p memory).access file a a.position = some outcome) :
    Confined p file a outcome := by
  rw [partitionOpen_access word offset] at ends
  obtain ⟨res, after, filled⟩ := outcome
  refine ⟨fun _ => ends, fun leaves => ?_, fun index outside => ?_⟩
  · have refused := met.resolve_left leaves
    exact (access_refused (fun none => leaves (.inl none)) refused ends).1
  · by_cases within : a.Within p.length
    · refine access_kept ?_ ends
      rw [Container.place_add]
      rw [PartitionInfo.Outside] at outside
      rw [Access.Within] at within
      omega
    · rw [(access_refused (fun none => within (.inl none)) (met.resolve_left within) ends).2]

/-- A partition whose start in bytes fits in `unsigned long` and in `off_t`, opened in memory that
holds its length and a function to close it, is a confined sub-volume in every run whose accesses
stay within it or are refused by the image file. -/
theorem partitionOpen_subVolume {begun : ByteFile} {steps : List AccessStep}
    (decoded : mbrPartitionInfo build sys v begun partitionNumber = some p)
    (word : p.startSector * v.bytesPerSector < build.word)
    (offset : p.startSector * v.bytesPerSector < 2 ^ 63)
    (length : memory.sectorCount = p.sectorCount)
    (closes : ∀ address, memory.close ≠ .unset address)
    (run : Run (partitionOpen build p memory) file steps after)
    (met : ∀ step ∈ steps, step.access.Within p.length ∨
      step.access.Refused v step.file (p.start + step.access.position)) :
    SubVolume p (partitionOpen build p memory) file steps after := by
  obtain rfl : p.volume = v := mbrPartitionInfo_volume decoded
  have confined : ∀ step ∈ steps, Confined p step.file step.access step.outcome :=
    run.forall_steps fun step member ends =>
      confined_of_within word offset (met step member) ends
  exact ⟨length, closes, confined, fun _ outside => run.kept confined outside⟩

end Partition

/-- A table whose first partition is the sector of the table itself. -/
def ownTable : Buffer := (Buffer.zero.storeDword (recordPlace 0 + 12) 1).storeWord bs55AA 0xAA55

/-- The image that holds it. -/
def ownImage : Container := .file ⟨⟨0, true⟩, 0, 512, 1⟩

/-- An access to one byte right behind the partition. -/
def behind (writes : Bool) : Access :=
  ⟨writes, 512, .fill .zero 0 1 1, 1, .kernel, 1, fun _ => show 0x7ffff000 < 2 ^ 31 by decide⟩

/-- Its record. -/
def ownRecord : PartitionInfo := decodedRecord .lp64 ownImage ownTable 0

theorem ownRecord_decoded :
    mbrPartitionInfo .lp64 (fun _ => .kernel) ownImage (oneSector ownTable) 0 = some ownRecord :=
  mbrPartitionInfo_shows rfl (oneSector_shows ownTable) (Buffer.loadWord_storeWord _ _ _)
    (by decide)

/-- A read right behind the partition, which is also the end of the file. -/
theorem partitionOpen_subVolume_behind : ∃ outcome,
    SubVolume ownRecord (partitionOpen .lp64 ownRecord ⟨1, .partitionClose⟩) (oneSector ownTable)
      [⟨oneSector ownTable, behind false, outcome⟩] outcome.2.1 := by
  have length : ownRecord.sectorCount = 1 := by decide
  have refused : (behind false).Refused ownImage (oneSector ownTable) (ownRecord.start + 512) :=
    .inr (.inr (show (512 : Int) < 513 by decide))
  exact ⟨_, partitionOpen_subVolume ownRecord_decoded (by decide) (by decide) length.symm
    (fun address => by simp) (.access .start rfl)
    (List.forall_mem_singleton.mpr (.inr refused))⟩

/-- A container built in cleared memory reports no sectors and has no `close`; and whatever the
memory held, a write right behind the partition succeeds and changes a byte there. -/
theorem not_subVolume : ∃ p,
    mbrPartitionInfo .lp64 (fun _ => .kernel) ownImage (oneSector ownTable) 0 = some p ∧
      (partitionOpen .lp64 p ⟨0, .unset 0⟩).sectorCount ≠ p.sectorCount ∧
      ¬(behind true).Within p.length ∧
      ∀ memory, ∃ after filled,
        (partitionOpen .lp64 p memory).access (oneSector ownTable) (behind true) 512 =
            some (1, after, filled) ∧
          p.Outside 512 ∧ after.byte 512 ≠ (oneSector ownTable).byte 512 := by
  have length : ownRecord.length = 512 := by decide
  have place : ownRecord.volume.place ownRecord.start = 0 := by decide
  have leaves : ¬(behind true).Within ownRecord.length := by
    rw [length, Access.Within]
    decide
  have outside : ownRecord.Outside 512 := by
    rw [PartitionInfo.Outside, place, length]
    decide
  have stored := @imageFileWrite_steady .kernel ⟨⟨0, true⟩, 0, 512, 1⟩ (oneSector ownTable) 512 1 1
    Schedule.kernel_steady (.fill .zero 0 1 1) (by decide) (by decide) rfl (by decide)
  have made (memory : PartitionMemory) :
      (partitionOpen .lp64 ownRecord memory).access (oneSector ownTable) (behind true) 512 =
        some (1, (oneSector ownTable).write 512 1 (.fill .zero 0 1 1), .fill .zero 0 1 1) := by
    have goesTo := @partitionOpen_access .lp64 ownRecord memory (by decide) (by decide)
      (oneSector ownTable)
      (behind true)
    refine goesTo.trans ?_
    rw [Container.access, if_pos (show (behind true).writes = true from rfl)]
    exact congrArg (Option.map fun done : Int × ByteFile =>
      (done.1, done.2, Buffer.fill .zero 0 1 1))
      stored
  refine ⟨ownRecord, ownRecord_decoded, by decide, leaves,
    fun memory => ⟨_, _, made memory, outside, ?_⟩⟩
  rw [ByteFile.byte_write, Buffer.blit_inside _ _ _ _ (Nat.le_refl _) (by decide)]
  decide

end Hdfmonkey
