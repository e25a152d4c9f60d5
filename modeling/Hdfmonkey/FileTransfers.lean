/-
This file proves what the loops of `get` and `put_file` do to the sectors of a volume.

The loop of `get` delivers the bytes of a file in order, however its clusters are spread.
The loop of `put_file` stores as many bytes as there is room for and disturbs nothing else,
and from the entry that is left they are read back.
-/

import Hdfmonkey.FileClose
import Hdfmonkey.GetFile

namespace Hdfmonkey

namespace Ff

open Program

/-! ### Reading -/

/-- The bytes that are left of an open file, on a volume whose sectors are seen. -/
def Unread (vol : Nat) (volume : VolumeContainer) (size : Nat) (build : Build) (fmt : FatType)
    (disk : Nat → Buffer) (cells : List Nat) (state : Driver) (file : Nat)
    (rest : List UInt8) : Prop :=
  ∃ fs fp, state.fils[file]? = some fp ∧ OnFile vol volume size build fmt fs disk state.machine
    cells ∧ Reading vol fs disk cells fp ∧
    rest = (fileBytes fs cells disk).slice fp.fptr (fp.fsize - fp.fptr)

section Get

variable {vol : Nat} {volume : VolumeContainer} {size : Nat} {build : Build} {fmt : FatType}
  {disk : Nat → Buffer} {cells : List Nat} {state : Driver} {file btr fuel : Nat}
  {rest : List UInt8}
  {output : Output} {named : Bool} {stream : OutputStream}

/-- A call of `f_read` on the driver delivers the first of the bytes that are left. -/
theorem fRead_unread (btr : Nat)
    (unread : Unread vol volume size build fmt disk cells state file rest) :
    ∃ after, (driver.fRead file btr).Outcome state (.ok (rest.take btr, file)) after ∧
      Unread vol volume size build fmt disk cells after file (rest.drop btr) := by
  obtain ⟨fs, fp, present, onFile, reading, rfl⟩ := unread
  obtain ⟨fp', win, winsect, wflag, after, run, onFileAfter, readingAfter, fptr, fsize⟩ :=
    fRead_delivers btr onFile reading
  have inside : file < state.fils.length := (List.getElem?_eq_some_iff.mp present).1
  have place : fp.fsize - fp.fptr - min btr (fp.fsize - fp.fptr) = fp'.fsize - fp'.fptr := by omega
  refine ⟨_, (fRead_driver present).mpr ⟨_, after, run, ?_, rfl⟩, _, fp',
    List.getElem?_set_self inside, onFileAfter, { readingAfter with
      placed := { readingAfter.placed with } }, ?_⟩
  · rw [Buffer.take_slice]
    rfl
  · rw [Buffer.drop_slice, place, ← fptr]
    rfl

/-- The calls of `f_read` deliver a file in order. -/
theorem driver_readsInOrder :
    driver.toFatFiles.ReadsInOrder (Unread vol volume size build fmt disk cells) := by
  intro state file rest btr buffer next after unread run
  obtain ⟨finish, delivered, unreadAfter⟩ := fRead_unread btr unread
  obtain ⟨same, rfl⟩ := run.unique delivered
  obtain ⟨rfl, rfl⟩ := Prod.mk.inj (Except.ok.inj same)
  exact ⟨rfl, unreadAfter⟩

/-- Closing a file that was read leaves the volume alone. -/
theorem fClose_unread (unread : Unread vol volume size build fmt disk cells state file rest) :
    ∃ fils fs, (driver.fClose file).Outcome state (.ok ()) ⟨state.machine, fils⟩ ∧
      OnFile vol volume size build fmt fs disk state.machine cells := by
  obtain ⟨fs, fp, present, onFile, reading, _⟩ := unread
  refine ⟨_, fs, (@fClose_driver _ _ _ _ (.ok ()) present).mpr
    ⟨(.ok, { fp with fs := none }), state.machine, ?_, rfl, rfl⟩, onFile⟩
  rw [fClose]
  refine outcome_bind.mpr ⟨(.ok, fp), state.machine, ?_, outcome_pure.mpr ⟨rfl, rfl⟩⟩
  rw [fSync]
  refine outcome_bind.mpr ⟨.ok, state.machine, ?_, ?_⟩
  · rw [validate]
    refine outcome_bind.mpr ⟨_, _, outcome_get.mpr ⟨rfl, rfl⟩, ?_⟩
    rw [reading.owner, Option.bind_some, onFile.sees.registered]
    refine outcome_pure.mpr ⟨(if_pos ⟨?_, reading.id.symm⟩).symm, rfl⟩
    rw [onFile.tabled.type, Option.isSome_some]
  · rw [if_neg (not_not.mpr rfl), reading.unchanged, if_pos Bool.false_ne_true]
    exact outcome_pure.mpr ⟨rfl, rfl⟩

/-- The loop of `get` comes to its end, by induction on its turns. -/
theorem getContents_ends (enough : rest.length / bufferSize < fuel)
    (unread : Unread vol volume size build fmt disk cells state file rest) :
    ∃ finish after fs, (getContents driver.toFatFiles output named fuel file stream).Outcome state
        (0, finish) after ∧
      OnFile vol volume size build fmt fs disk after.machine cells := by
  induction fuel generalizing state rest stream with
  | zero => exact absurd enough (Nat.not_lt_zero _)
  | succ fuel inductionHypothesis =>
    obtain ⟨middle, delivered, unreadMiddle⟩ := fRead_unread bufferSize unread
    rw [getContents]
    by_cases full : (rest.take bufferSize).length = bufferSize
    · have size : bufferSize ≤ rest.length := by
        rw [List.length_take] at full
        omega
      have fewer : (rest.drop bufferSize).length / bufferSize < fuel := by
        rw [List.length_drop]
        rw [bufferSize] at *
        omega
      obtain ⟨finish, after, fs, run, onFile⟩ := inductionHypothesis fewer unreadMiddle
      refine ⟨finish, after, fs, outcome_bind.mpr ⟨_, _, delivered, ?_⟩, onFile⟩
      dsimp only
      rw [if_pos full]
      exact run
    · obtain ⟨fils, fs, closed, onFile⟩ := fClose_unread unreadMiddle
      let stored := stream.fwrite output (rest.take bufferSize)
      refine ⟨if named then stored.fclose output else stored, ⟨middle.machine, fils⟩, fs,
        outcome_bind.mpr ⟨_, _, delivered, ?_⟩, onFile⟩
      dsimp only
      rw [if_neg full]
      exact outcome_bind.mpr ⟨_, _, closed, outcome_pure.mpr ⟨rfl, rfl⟩⟩

/-- The loop of `get` over the sectors of a volume ends with zero and leaves the volume alone, and
its output is the file if and only if every call of the library stores what it is given. -/
theorem getContents_sectors (enough : rest.length / bufferSize < fuel)
    (unread : Unread vol volume size build fmt disk cells state file rest) :
    ∃ finish after fs,
      (getContents driver.toFatFiles output named fuel file .blank).Outcome state
      (0, finish) after ∧ (finish.accepted = rest ↔ output.Delivers named rest) ∧
      OnFile vol volume size build fmt fs disk after.machine cells := by
  obtain ⟨finish, after, fs, run, onFile⟩ :=
    @getContents_ends _ _ _ _ _ _ _ _ _ _ _ output named .blank enough unread
  exact ⟨finish, after, fs, run, getContents_complete_iff driver_readsInOrder unread run, onFile⟩

end Get

/-! ### Writing -/

/-- The bytes that an open file has taken since a state of its volume. -/
def Filling {Owner : Type} (vol : Nat) (entry : Nat × Nat) (volume : VolumeContainer) (size : Nat)
    (build : Build) (fmt : FatType) (counts : Prop) (fs₀ : Fatfs) (disk₀ : Nat → Buffer)
    (allocation₀ : Allocation Owner) (owner : Owner) (state : Driver) (file : Nat)
    (written : List UInt8) : Prop :=
  ∃ fs disk allocation fp, state.fils[file]? = some fp ∧
    Storing vol volume size build fmt counts fs disk state.machine allocation owner ∧
    Grown owner fs₀ disk₀ allocation₀ fs disk allocation ∧
    Writing vol entry fs disk (allocation.clusters owner) fp written ∧
    fp.written = true ∧ fp.fsize = written.length

/-- The bytes that the clusters of a file and those that are left have room for. -/
noncomputable def capacity {Owner : Type} (fs : Fatfs) (allocation : Allocation Owner)
    (owner : Owner) : Nat :=
  ((allocation.clusters owner).length + allocation.left fs.maxClust) * fs.csize * sectorSize

/-- A volume on which a file was written and closed since a state of it. -/
structure Filled {Owner : Type} (vol : Nat) (entry : Nat × Nat) (volume : VolumeContainer)
    (size : Nat)
    (build : Build) (fmt : FatType) (counts : Prop) (fs₀ : Fatfs) (disk₀ : Nat → Buffer)
    (allocation₀ : Allocation Owner) (owner : Owner) (fs : Fatfs) (disk : Nat → Buffer)
    (machine : Machine) (allocation : Allocation Owner) (stored : List UInt8) : Prop where
  storing : Storing vol volume size build fmt counts fs disk machine allocation owner
  used : Used fs₀ fs
  others : ∀ other, other ≠ owner → allocation.clusters other = allocation₀.clusters other
  recorded : Recorded (disk₀ entry.1) (disk entry.1) entry.2 ((allocation.clusters owner).headD 0)
    stored.length
  kept : ∀ sector, OutsideFat fs₀ sector → fs₀.fatbase ≤ sector → sector ≠ entry.1 →
    (∀ number, number < (allocation.clusters owner).length * fs.csize →
      sector ≠ fileSector fs (allocation.clusters owner) number) → disk sector = disk₀ sector
  bytes : (fileBytes fs (allocation.clusters owner) disk).slice 0 stored.length = stored
  room : stored.length ≤ (allocation.clusters owner).length * fs.csize * sectorSize
  settled : Settled volume size fs disk machine

section Put

variable {Owner : Type} {vol : Nat} {entry : Nat × Nat} {volume : VolumeContainer}
  {size : Nat} {build : Build} {fmt : FatType} {counts : Prop} {fs₀ : Fatfs} {disk₀ : Nat → Buffer}
  {allocation₀ : Allocation Owner} {owner : Owner} {state : Driver} {file fuel : Nat}
  {written front : List UInt8} {inputFile : LocalFile}

/-- As much of some bytes and of those behind them as there is room for. -/
theorem take_put (front buff : List UInt8) (limit : Nat) :
    front.take limit ++ buff.take (min buff.length (limit - (front.take limit).length)) =
      (front ++ buff).take limit := by
  rw [List.take_append, List.length_take]
  refine congrArg _ ?_
  rcases Nat.le_total front.length limit with inside | beyond
  · rw [Nat.min_eq_right inside, Nat.min_comm, ← List.take_eq_take_min]
  · rw [Nat.min_eq_left beyond, Nat.sub_self, Nat.sub_eq_zero_of_le beyond, Nat.min_zero]

/-- `f_close` leaves what the file has taken. -/
theorem fClose_filling (inTable : InTable volume size fs₀ allocation₀ owner entry)
    (filling : Filling vol entry volume size build fmt counts fs₀ disk₀ allocation₀ owner state file
      written) :
    ∃ fs disk allocation after fils fp,
      (driver.fClose file).Outcome state (.ok ()) ⟨after, fils⟩ ∧
      Filled vol entry volume size build fmt counts fs₀ disk₀ allocation₀ owner fs disk after
        allocation
        written ∧ fils[file]? = some fp ∧ fp.Closed := by
  obtain ⟨fs, disk, allocation, fp, present, storing, grown, writing, changed, whole⟩ := filling
  have inTable := inTable.grown grown
  have inside : file < state.fils.length := (List.getElem?_eq_some_iff.mp present).1
  obtain ⟨fs', disk', after, fp', run, storingAfter, used, recorded, kept, bytes, room, settled,
    closed⟩ := fClose_records storing writing inTable changed whole
  have outside := (grown.reworked.outside _).mp (inTable.outside storing.allots.sees.one)
  have csize := grown.reworked.csize
  have sectors := grown.reworked.fileSector
  have front : fs.fatbase = fs₀.fatbase := congrArg FatArea.start grown.reworked.area
  have same : disk entry.1 = disk₀ entry.1 := by
    refine grown.kept _ outside ?_
    rw [← csize, ← sectors]
    exact inTable.apart storing
  refine ⟨fs', disk', allocation, after, _, fp', (@fClose_driver _ _ _ _ (.ok ()) present).mpr
    ⟨(.ok, fp'), after, run, rfl, rfl⟩, ⟨storingAfter, grown.reworked.used.trans used, grown.others,
    same ▸ recorded, fun sector outside behind other apart => ?_, ?_, ?_, settled⟩,
    List.getElem?_set_self inside, closed⟩
  · rw [used.csize, used.fileSector] at apart
    rw [kept sector (front ▸ behind) other apart]
    rw [csize, sectors] at apart
    exact grown.kept sector outside apart
  · rw [fileBytes, used.fileSector]
    exact bytes
  · rw [used.csize]
    exact room

variable [DecidableEq Owner]

/-- A call of `f_write` on the driver takes as many bytes as there is room for. -/
theorem fWrite_filling (buff : List UInt8) (short : buff.length < 2 ^ 31)
    (filling : Filling vol entry volume size build fmt counts fs₀ disk₀ allocation₀ owner state file
      (front.take (capacity fs₀ allocation₀ owner))) :
    ∃ after taken, (driver.fWrite file buff).Outcome state (.ok (taken, file)) after ∧
      Filling vol entry volume size build fmt counts fs₀ disk₀ allocation₀ owner after file
        ((front ++ buff).take (capacity fs₀ allocation₀ owner)) := by
  obtain ⟨fs, disk, allocation, fp, present, storing, grown, writing, _, _⟩ := filling
  have inside : file < state.fils.length := (List.getElem?_eq_some_iff.mp present).1
  have room := writing.room storing.area.positive
  have small := storing.chain.small storing.area
  obtain ⟨fs', disk', allocation', after, taken, fp', run, storingAfter, grownAfter, writingAfter,
    changed, whole, most⟩ := fWrite_writes buff storing writing (by omega)
  have limit : ((allocation.clusters owner).length + allocation.left fs.maxClust) * fs.csize *
      sectorSize = capacity fs₀ allocation₀ owner := by
    rw [grown.reworked.maxClust, grown.room, grown.reworked.csize]
    rfl
  rw [limit] at most
  have stored := take_put front buff (capacity fs₀ allocation₀ owner)
  rw [← most] at stored
  have positive : 0 < fs₀.csize := grown.reworked.csize ▸ storing.area.positive
  refine ⟨⟨after, state.fils.set file fp'⟩, taken, ?_, fs', disk', allocation', fp',
    List.getElem?_set_self inside, storingAfter, grown.trans positive grownAfter,
    stored ▸ writingAfter, changed, ?_⟩
  · exact (outcome_onFil present).mpr ⟨_, after,
      outcome_bind.mpr ⟨_, _, run, outcome_pure.mpr ⟨rfl, rfl⟩⟩, rfl, rfl⟩
  · have size : (buff.take taken).length = taken := by
      rw [List.length_take]
      omega
    rw [whole, ← stored, List.length_append, size]

/-- The loop of `put_file` over the sectors of a volume stores as much of the local file as there is
room for, by induction on its turns. It ends with zero in any case. -/
theorem putContents_sectors (enough : inputFile.rest.length / bufferSize < fuel)
    (readable : inputFile.Readable)
    (inTable : InTable volume size fs₀ allocation₀ owner entry)
    (filling : Filling vol entry volume size build fmt counts fs₀ disk₀ allocation₀ owner state file
      (front.take (capacity fs₀ allocation₀ owner))) :
    ∃ fs disk allocation after fils fp,
      (putContents driver.toFatFiles fuel inputFile file).Outcome state 0 ⟨after, fils⟩ ∧
      Filled vol entry volume size build fmt counts fs₀ disk₀ allocation₀ owner fs disk after
        allocation
        ((front ++ inputFile.rest).take (capacity fs₀ allocation₀ owner)) ∧
      fils[file]? = some fp ∧ fp.Closed := by
  induction fuel generalizing state front inputFile with
  | zero => exact absurd enough (Nat.not_lt_zero _)
  | succ fuel inductionHypothesis =>
    obtain ⟨served, others⟩ := LocalFile.readable_iff.mp readable
    have good : ¬inputFile.failing.headD false = true := Bool.eq_false_iff.mp served
    -- the buffer is written, unless it is empty
    obtain ⟨middle, taken, written, fillingMiddle⟩ : ∃ middle taken,
        (if inputFile.rest.take bufferSize = [] then return .ok (0, file) else
          driver.fWrite file (inputFile.rest.take bufferSize) : Program Driver _).Outcome state
            (.ok (taken, file)) middle ∧
        Filling vol entry volume size build fmt counts fs₀ disk₀ allocation₀ owner middle file
          ((front ++ inputFile.rest.take bufferSize).take (capacity fs₀ allocation₀ owner)) := by
      by_cases empty : inputFile.rest.take bufferSize = []
      · rw [if_pos empty, empty, List.append_nil]
        exact ⟨state, 0, outcome_pure.mpr ⟨rfl, rfl⟩, filling⟩
      · rw [if_neg empty]
        exact fWrite_filling _ (Nat.lt_of_le_of_lt (List.length_take_le _ _) (by decide)) filling
    have size : (inputFile.rest.take bufferSize).length = min bufferSize inputFile.rest.length :=
      List.length_take
    rw [putContents, if_neg good]
    by_cases full : (inputFile.rest.take bufferSize).length = bufferSize
    · have left : (inputFile.rest.drop bufferSize).length = inputFile.rest.length - bufferSize :=
        List.length_drop
      have split := List.take_append_drop bufferSize inputFile.rest
      obtain ⟨fs, disk, allocation, after, fils, fp, run, filled, closed⟩ := @inductionHypothesis _
        (front ++ inputFile.rest.take bufferSize)
        ⟨inputFile.rest.drop bufferSize, inputFile.failing.tail⟩
        (by
          dsimp only
          rw [left]
          rw [bufferSize] at *
          omega)
        (others (by omega))
        fillingMiddle
      rw [List.append_assoc, split] at filled
      refine ⟨fs, disk, allocation, after, fils, fp, outcome_bind.mpr ⟨_, _, written, ?_⟩, filled,
        closed⟩
      dsimp only
      rw [if_pos full]
      exact run
    · have last : inputFile.rest.take bufferSize = inputFile.rest :=
        List.take_of_length_le (by omega)
      obtain ⟨fs, disk, allocation, after, fils, fp, closed, filled, given⟩ :=
        fClose_filling inTable fillingMiddle
      rw [last] at filled
      refine ⟨fs, disk, allocation, after, fils, fp, outcome_bind.mpr ⟨_, _, written, ?_⟩, filled,
        given⟩
      dsimp only
      rw [if_neg full]
      exact outcome_bind.mpr ⟨_, _, closed, outcome_pure.mpr ⟨rfl, rfl⟩⟩

end Put

end Ff

end Hdfmonkey
