/-
This file asks whether `put_file` closes every file it has opened on the volume.

`put_file` closes its file at the end and after a write that failed, but not after
a read of the local file that failed. A file that is open has clusters, a length and a
changed sector that are known to its object and to the window only; `f_close` puts them
where the next command finds them. The second half of the file follows `put_file`
through the driver's code, from the `f_open` that made the entry to the sectors of the
image: the entry is brought up to date if and only if the reads go on.
-/

import Hdfmonkey.FileCreation
import Hdfmonkey.FileTransfers

namespace Hdfmonkey

/-! ### Files and their handles -/

/-- The results of the calls of the driver, each `f_write` by its number. -/
structure PutResults where
  opening : Except FResult PUnit
  writing : Nat → Except FResult Nat
  closing : Except FResult PUnit

/-- The files that were opened to be created, the files passed to `f_close`, and the number of
calls of `f_write`. -/
structure Handles where
  opened : List Nat
  closed : List Nat
  writes : Nat

/-- The driver that answers with these results and keeps the handles. -/
def answering (results : PutResults) : FatFiles Handles Nat where
  fOpen _ _ := fun handles =>
    match results.opening with
    | .error code => .ok (.error code, handles)
    | .ok _ => .ok (.ok handles.opened.length,
        { handles with opened := handles.opened.length :: handles.opened })
  fRead _ _ := Program.undefined
  fWrite file _ := fun handles =>
    .ok ((results.writing handles.writes).map fun bw => (bw, file),
      { handles with writes := handles.writes + 1 })
  fClose file := fun handles =>
    .ok (results.closing, { handles with closed := file :: handles.closed })

/-- Every file that was opened has been passed to `f_close`. -/
def Handles.AllClosed (handles : Handles) : Prop := ∀ file ∈ handles.opened, file ∈ handles.closed

section Handles

variable {results : PutResults} {handles after : Handles} {fuel file : Nat} {inputFile : LocalFile}
  {result : Int}

theorem fClose_closed {closing : Except FResult PUnit}
    (run : ((answering results).fClose file).Outcome handles closing after) :
    after = { handles with closed := file :: handles.closed } :=
  (Prod.mk.inj (Except.ok.inj run)).2.symm

theorem fWrite_answer {buff : List UInt8} {outcome : Except FResult (Nat × Nat)}
    (run : ((answering results).fWrite file buff).Outcome handles outcome after) :
    outcome = (results.writing handles.writes).map (fun bw => (bw, file)) ∧
      after = { handles with writes := handles.writes + 1 } :=
  (Prod.mk.inj (Except.ok.inj run)).imp Eq.symm Eq.symm

/-- The loop closes the file if and only if the reads go on, by induction on its turns. -/
theorem putContents_closes
    (run : (putContents (answering results) fuel inputFile file).Outcome handles result after) :
    after.opened = handles.opened ∧
      (inputFile.ReadsOn results.writing handles.writes → after.closed = file :: handles.closed) ∧
      (¬inputFile.ReadsOn results.writing handles.writes → after.closed = handles.closed) := by
  induction fuel generalizing inputFile handles with
  | zero => exact absurd run Program.outcome_undefined
  | succ fuel inductionHypothesis =>
    rw [putContents] at run
    rw [LocalFile.readsOn_iff]
    by_cases failing : inputFile.failing.headD false = true
    · rw [if_pos failing] at run
      obtain ⟨_, rfl⟩ := Program.outcome_pure.mp run
      exact ⟨rfl, fun reads => absurd (failing.symm.trans reads.1) (by decide), fun _ => rfl⟩
    rw [if_neg failing] at run
    have served := Bool.eq_false_iff.mpr failing
    obtain ⟨outcome, middle, written, rest⟩ := Program.outcome_bind.mp run
    have size : (inputFile.rest.take bufferSize).length = min bufferSize inputFile.rest.length :=
      List.length_take
    by_cases nothing : inputFile.rest.take bufferSize = []
    · rw [if_pos nothing] at written
      obtain ⟨rfl, rfl⟩ := Program.outcome_pure.mp written
      rw [nothing, List.length_nil] at size
      dsimp only at rest
      rw [if_neg (by rw [nothing, bufferSize]; decide)] at rest
      obtain ⟨_, closed, close, returned⟩ := Program.outcome_bind.mp rest
      obtain ⟨_, rfl⟩ := Program.outcome_pure.mp returned
      obtain rfl := fClose_closed close
      refine ⟨rfl, fun _ => rfl, fun stops => absurd ⟨served, fun full => ?_⟩ stops⟩
      rw [bufferSize] at size full
      omega
    · rw [if_neg nothing] at written
      obtain ⟨answer, rfl⟩ := fWrite_answer written
      cases wrote : results.writing handles.writes with
      | error code =>
        rw [wrote] at answer
        obtain rfl := answer
        obtain ⟨_, closed, close, returned⟩ := Program.outcome_bind.mp rest
        obtain ⟨_, rfl⟩ := Program.outcome_pure.mp returned
        obtain rfl := fClose_closed close
        refine ⟨rfl, fun _ => rfl, fun stops => absurd ⟨served, fun _ good => ?_⟩ stops⟩
        obtain ⟨bw, good⟩ := good
        cases good
      | ok bw =>
        rw [wrote] at answer
        obtain rfl := answer
        dsimp only [Except.map] at rest
        by_cases full : (inputFile.rest.take bufferSize).length = bufferSize
        · rw [if_pos full] at rest
          obtain ⟨opened, closes, stays⟩ := inductionHypothesis rest
          refine ⟨opened, fun reads => closes (reads.2 (by omega) ⟨bw, rfl⟩), fun stops => stays ?_⟩
          exact fun others => stops ⟨served, fun _ _ => others⟩
        · rw [if_neg full] at rest
          obtain ⟨_, closed, close, returned⟩ := Program.outcome_bind.mp rest
          obtain ⟨_, rfl⟩ := Program.outcome_pure.mp returned
          obtain rfl := fClose_closed close
          refine ⟨rfl, fun _ => rfl, fun stops => absurd ⟨served, fun more => ?_⟩ stops⟩
          omega

/-- From no open file on, the opened file is closed if and only if the reads go on. -/
theorem putFile_allClosed_iff {inputFile : Option LocalFile} {destFilename : FatPath}
    (run : (putFile (answering results) fuel inputFile destFilename).Outcome ⟨[], [], 0⟩ result
      after) :
    after.AllClosed ↔ ∀ localFile, inputFile = some localFile → results.opening = .ok () →
      localFile.ReadsOn results.writing 0 := by
  have none : Handles.AllClosed ⟨[], [], 0⟩ := fun _ member => absurd member List.not_mem_nil
  cases inputFile with
  | none =>
    obtain ⟨_, rfl⟩ := Program.outcome_pure.mp run
    exact iff_of_true none fun _ same => absurd same (by simp)
  | some localFile =>
    obtain ⟨outcome, middle, opened, rest⟩ := Program.outcome_bind.mp run
    cases opening : results.opening with
    | error code =>
      have answer : (answering results).fOpen destFilename .createAlways ⟨[], [], 0⟩ =
          .ok (.error code, ⟨[], [], 0⟩) := by
        rw [answering]
        simp only [opening]
      obtain ⟨rfl, rfl⟩ := Prod.mk.inj (Except.ok.inj (opened.symm.trans answer))
      obtain ⟨_, rfl⟩ := Program.outcome_pure.mp rest
      exact iff_of_true none fun _ _ good => absurd good (by simp)
    | ok _ =>
      have answer : (answering results).fOpen destFilename .createAlways ⟨[], [], 0⟩ =
          .ok (.ok 0, ⟨[0], [], 0⟩) := by
        rw [answering]
        simp only [opening, List.length_nil]
      obtain ⟨rfl, rfl⟩ := Prod.mk.inj (Except.ok.inj (opened.symm.trans answer))
      obtain ⟨kept, closes, stays⟩ := putContents_closes rest
      rw [Handles.AllClosed, kept]
      constructor
      · rintro all _ same -
        obtain rfl := Option.some.inj same
        by_contra stops
        have closed := all 0 List.mem_cons_self
        rw [stays stops] at closed
        exact absurd closed List.not_mem_nil
      · intro reads file member
        rw [closes (reads _ rfl rfl), List.mem_singleton.mp member]
        exact List.mem_cons_self

end Handles

/-! ### The file that was opened -/

namespace Ff

open Program

section Put

variable {Owner : Type} {vol : Nat} {volume : VolumeContainer} {size : Nat} {build : Build}
  {fmt : FatType} {counts : Prop} {fs fs' : Fatfs} {disk disk' : Nat → Buffer}
  {start after : Machine}
  {allocation allocation' : Allocation Owner} {owner : Owner} {fp : Fil} {path : FatPath}
  {opened finish : Driver} {file fuel : Nat} {inputFile : LocalFile} {written stored : List UInt8}

/-- The object that `f_open` creates is that of the entry in the window, whose attribute is zero. -/
theorem fOpen_opens (run : (fOpen path .createAlways).Outcome start (.ok fp) after) :
    ∃ dj fs, after.fatFs dj.fs = some fs ∧ fp = openedFil dj .createAlways fs ∧
      fs.win (dj.entry + dirAttr) = 0 := by
  obtain ⟨mounted, _, _, run⟩ := outcome_bind.mp run
  by_cases refused : mounted ≠ .ok
  · rw [if_pos refused] at run
    exact absurd (outcome_pure.mp run).1 (by simp)
  rw [if_neg refused] at run
  obtain ⟨found, _, _, run⟩ := outcome_bind.mp run
  obtain ⟨created, middle, _, run⟩ := outcome_bind.mp run
  by_cases failed : created.1 ≠ .ok
  · rw [if_pos failed] at run
    exact absurd (outcome_pure.mp run).1 (by simp)
  rw [if_neg failed] at run
  obtain ⟨time, ticked, _, run⟩ := outcome_bind.mp run
  rw [outcome_modifyFatfs_bind] at run
  cases registered : ticked.fatFs created.2.fs with
  | none =>
    rw [registered] at run
    obtain ⟨_, _, looked, _⟩ := outcome_bind.mp run
    obtain ⟨_, _, got, looked⟩ := outcome_bind.mp looked
    obtain ⟨rfl, rfl⟩ := outcome_get.mp got
    rw [Machine.fatFs_register] at looked
    exact absurd looked outcome_undefined
  | some fs =>
    rw [registered, Option.map_some, outcome_fatfs_bind (Machine.fatFs_register _ _ _)] at run
    obtain ⟨same, rfl⟩ := outcome_pure.mp run
    refine ⟨created.2, _, Machine.fatFs_register _ _ _, Except.ok.inj same, ?_⟩
    dsimp only
    rw [Buffer.storeDword_of_outside _ (by simp only [dirAttr, dirCrtTime]; omega)]
    exact Buffer.store_self _ _ _

/-- The driver's `f_open` puts the object into memory. -/
theorem fOpen_driver {mode : OpenMode} (run : (driver.fOpen path mode).Outcome opened
    (.ok file) finish) : ∃ fp after, (fOpen path mode).Outcome opened.machine (.ok fp) after ∧
      finish = ⟨after, opened.fils ++ [fp]⟩ ∧ file = opened.fils.length := by
  obtain ⟨outcome, middle, called, run⟩ := outcome_bind.mp run
  obtain ⟨after, call, rfl⟩ := outcome_onMachine.mp called
  cases outcome with
  | error code => exact absurd (outcome_pure.mp run).1 (by simp)
  | ok fp =>
    obtain ⟨_, _, made, run⟩ := outcome_bind.mp run
    obtain ⟨rfl, rfl⟩ := Prod.mk.inj (Except.ok.inj made)
    obtain ⟨same, rfl⟩ := outcome_pure.mp run
    exact ⟨fp, after, call, rfl, Except.ok.inj same⟩

/-- A file that was opened to be created has taken nothing yet. Its entry has no attribute. -/
theorem fOpen_filling (run : (driver.fOpen path .createAlways).Outcome opened (.ok file) finish)
    (present : finish.fils[file]? = some fp)
    (begun : Begun vol volume size build fmt counts fs disk finish.machine allocation owner fp) :
    Filling vol (fp.dirSect, fp.dirPtr) volume size build fmt counts fs disk allocation owner finish
      file [] ∧ disk fp.dirSect (fp.dirPtr + dirAttr) = 0 := by
  obtain ⟨_, after, call, rfl, rfl⟩ := fOpen_driver run
  rw [List.getElem?_concat_length] at present
  obtain rfl := Option.some.inj present
  obtain ⟨dj, object, registered, rfl, blank⟩ := fOpen_opens call
  have sees := begun.storing.allots.sees
  have area := begun.storing.area
  obtain rfl : dj.fs = vol := Option.some.inj begun.drive
  obtain rfl : object = fs := Option.some.inj (registered.symm.trans sees.registered)
  have inside : dj.entry + 32 ≤ sectorSize := begun.inTable.inside
  have there : object.winsect ≠ 0 := by
    have behind : object.fatbase + object.nFats * object.sectsFat ≤ object.winsect :=
      begun.inTable.behind
    have front := sees.behind
    omega
  have shown := (sees.window there).2
  have byte (offset : Nat) (before : offset < 32) :
      disk object.winsect (dj.entry + offset) = object.win (dj.entry + offset) := by
    rw [← shown, cut_inside (by omega)]
  have first : startCluster object.win dj.entry = 0 :=
    (startCluster_congr fun index before => (byte index before).symm).trans begun.start
  have length : object.win.loadDword (dj.entry + dirFileSize) = 0 := by
    have whole := begun.length
    dsimp only [openedFil] at whole
    rw [← shown, loadDword_cut (by rw [dirFileSize]; omega)] at whole
    exact whole
  have begins : passed (openedFil dj .createAlways object) = 0 := by
    rw [passed]
    exact Nat.div_eq_of_lt (Nat.lt_of_lt_of_eq (Nat.lt_succ_self _) rfl)
  refine ⟨⟨object, disk, allocation, _, List.getElem?_concat_length, begun.storing, .refl,
    ⟨rfl, rfl, rfl, rfl, rfl, ?_, ?_, rfl, ?_, ?_, ?_, ?_, rfl⟩, rfl, length⟩, ?_⟩
  · rw [begun.none]
    exact first
  · exact ⟨fun _ => area.few.trans (Nat.le_of_ble_eq_true rfl),
      fun some => absurd begins (Nat.ne_of_gt some), fun some => absurd begins (Nat.ne_of_gt some)⟩
  · exact length.le
  · have positive := area.positive
    rw [begun.none, begins]
    exact (Nat.div_eq_of_lt (by omega)).symm
  · exact fun dirty => absurd dirty Bool.false_ne_true
  · exact fun partly => absurd rfl partly
  · exact (byte dirAttr (by decide)).trans blank

/-- The entry of a file that is still open has not been brought up to date. -/
theorem Filling.not_filled {entry : Nat × Nat}
    (filling : Filling vol entry volume size build fmt counts fs disk allocation owner finish file
      written)
    (inTable : InTable volume size fs allocation owner entry)
    (blank : disk entry.1 (entry.2 + dirAttr) = 0) :
    ¬Filled vol entry volume size build fmt counts fs disk allocation owner fs' disk' finish.machine
      allocation' stored := by
  intro filled
  obtain ⟨object, seen, grownTo, fp, present, storing, grown, writing, changed, whole⟩ := filling
  have sees := storing.allots.sees
  obtain rfl : fs' = object :=
    Option.some.inj (filled.storing.allots.sees.registered.symm.trans sees.registered)
  have inTable := inTable.grown grown
  have same : seen entry.1 = disk entry.1 := by
    refine grown.kept _ ((grown.reworked.outside _).mp (inTable.outside sees.one)) ?_
    rw [← grown.reworked.csize, ← grown.reworked.fileSector]
    exact inTable.apart storing
  have again : disk' entry.1 = seen entry.1 := by
    rw [← filled.storing.allots.sees.seen _ inTable.worked, sees.seen _ inTable.worked]
  have marked := filled.recorded.attr
  rw [again, same, blank] at marked
  exact absurd marked (by decide)

variable [DecidableEq Owner]

/-- Where a read of the local file fails the loop leaves the file as it is, by induction on its
turns. -/
theorem putContents_stops {front : List UInt8} {entry : Nat × Nat}
    (stops : ¬inputFile.Readable) (enough : inputFile.rest.length / bufferSize < fuel)
    (filling : Filling vol entry volume size build fmt counts fs disk allocation owner opened file
      (front.take (capacity fs allocation owner))) :
    ∃ finish written, (putContents driver.toFatFiles fuel inputFile file).Outcome opened
      (-1) finish ∧ Filling vol entry volume size build fmt counts fs disk allocation owner finish
        file written := by
  induction fuel generalizing opened front inputFile with
  | zero => exact absurd enough (Nat.not_lt_zero _)
  | succ fuel inductionHypothesis =>
    rw [putContents]
    by_cases failing : inputFile.failing.headD false = true
    · exact ⟨opened, _, by rw [if_pos failing]; exact outcome_pure.mpr ⟨rfl, rfl⟩, filling⟩
    rw [LocalFile.readable_iff, not_and, Classical.not_imp] at stops
    obtain ⟨more, stops⟩ := stops (Bool.eq_false_iff.mpr failing)
    have size : (inputFile.rest.take bufferSize).length = bufferSize := by
      rw [List.length_take]
      omega
    have some : inputFile.rest.take bufferSize ≠ [] := fun none => by
      rw [none] at size
      exact absurd size (by decide)
    have left : (inputFile.rest.drop bufferSize).length = inputFile.rest.length - bufferSize :=
      List.length_drop
    obtain ⟨middle, taken, wrote, fillingMiddle⟩ :=
      fWrite_filling (inputFile.rest.take bufferSize) (by rw [size]; decide) filling
    obtain ⟨finish, written, run, fillingAfter⟩ := inductionHypothesis stops
      (by
        dsimp only
        rw [left]
        rw [bufferSize] at *
        omega)
      fillingMiddle
    refine ⟨finish, written, ?_, fillingAfter⟩
    rw [if_neg failing, if_neg some]
    refine outcome_bind.mpr ⟨_, _, wrote, ?_⟩
    dsimp only
    rw [if_pos size]
    exact run

/-- More fuel changes nothing. -/
theorem putContents_more {State File : Type} {fat : FatFiles State File} {more : Nat} {code : Int}
    {start finish : State} {output : File} (enough : fuel ≤ more)
    (run : (putContents fat fuel inputFile output).Outcome start code finish) :
    (putContents fat more inputFile output).Outcome start code finish := by
  induction fuel generalizing more start inputFile output with
  | zero => exact absurd run outcome_undefined
  | succ fuel inductionHypothesis =>
    obtain ⟨more, rfl⟩ := Nat.exists_eq_add_of_lt enough
    rw [putContents] at run ⊢
    by_cases failing : inputFile.failing.headD false = true
    · rwa [if_pos failing] at run ⊢
    rw [if_neg failing] at run ⊢
    obtain ⟨outcome, middle, wrote, rest⟩ := outcome_bind.mp run
    refine outcome_bind.mpr ⟨outcome, middle, wrote, ?_⟩
    cases outcome with
    | error _ => exact rest
    | ok done =>
      dsimp only at rest ⊢
      by_cases full : (inputFile.rest.take bufferSize).length = bufferSize
      · rw [if_pos full] at rest ⊢
        exact inductionHypothesis (by omega) rest
      · rwa [if_neg full] at rest ⊢

/-- `put_file` on a volume that serves every call: the file is closed, and on the image, if and only
if no read of the local file fails. -/
theorem putFile_leaves {code : Int} {begun : Driver}
    (run : (putFile driver.toFatFiles fuel (some inputFile) path).Outcome opened code finish)
    (opens : (driver.fOpen path .createAlways).Outcome opened (.ok file) begun)
    (present : begun.fils[file]? = some fp)
    (inOrder : Begun vol volume size build fmt counts fs disk begun.machine allocation owner fp) :
    ((∃ closed, finish.fils[file]? = some closed ∧ closed.Closed) ↔ inputFile.Readable) ∧
    ((∃ fs' disk' allocation', Filled vol (fp.dirSect, fp.dirPtr) volume size build fmt counts fs
        disk allocation owner fs' disk' finish.machine allocation'
        (inputFile.rest.take (capacity fs allocation owner))) ↔ inputFile.Readable) := by
  obtain ⟨filling, blank⟩ := fOpen_filling opens present inOrder
  obtain ⟨outcome, middle, opensToo, rest⟩ := outcome_bind.mp run
  obtain ⟨rfl, rfl⟩ := opensToo.unique opens
  have longer := putContents_more (Nat.le_max_left fuel
    (inputFile.rest.length / bufferSize + 1)) rest
  have enough : inputFile.rest.length / bufferSize <
      max fuel (inputFile.rest.length / bufferSize + 1) :=
    Nat.lt_of_succ_le (Nat.le_max_right _ _)
  by_cases readable : inputFile.Readable
  · obtain ⟨fs', disk', allocation', after, fils, closed, puts, filled, there, given⟩ :=
      @putContents_sectors _ _ _ _ _ _ _ _ _ _ _ _ _ _ _ [] _ _ enough readable inOrder.inTable
        (List.take_nil.symm ▸ filling)
    obtain ⟨rfl, rfl⟩ := longer.unique puts
    exact ⟨iff_of_true ⟨closed, there, given⟩ readable,
      iff_of_true ⟨fs', disk', allocation', filled⟩ readable⟩
  · obtain ⟨stopped, written, stops, left⟩ :=
      @putContents_stops _ _ _ _ _ _ _ _ _ _ _ _ _ _ _ _ [] _ readable enough
        (List.take_nil.symm ▸ filling)
    obtain ⟨rfl, rfl⟩ := longer.unique stops
    refine ⟨iff_of_false ?_ readable, iff_of_false ?_ readable⟩
    · rintro ⟨closed, there, given⟩
      obtain ⟨_, _, _, open', present, _, _, writing, _⟩ := left
      obtain rfl := Option.some.inj (there.symm.trans present)
      exact absurd (writing.owner.symm.trans given.1) (Option.some_ne_none _)
    · rintro ⟨_, _, _, filled⟩
      exact left.not_filled inOrder.inTable blank filled

end Put

end Ff

/-- Whatever the calls come to, `put_file` has closed the file it opened if and only if no read of
the local file failed before its end and before a write that failed. On a volume whose tables and
whose FAT agree this is what the entry and the clusters of the file depend on: once `f_open` has
found or made the entry, the file is closed, its entry on the image has its start and its length,
every cluster that is in use has an owner and nothing is in a buffer only, if and only if no read of
the local file fails before its end. -/
theorem putFile_closes_iff (results : PutResults) (fuel : Nat) (inputFile : Option LocalFile)
    (destFilename : FatPath) :
    (∀ (result : Int) (after : Handles),
      (putFile (answering results) fuel inputFile destFilename).Outcome ⟨[], [], 0⟩ result after →
      (after.AllClosed ↔ ∀ localFile, inputFile = some localFile → results.opening = .ok () →
        localFile.ReadsOn results.writing 0)) ∧
    ∀ (volume : VolumeContainer) (size : Nat) (build : Build) (fmt : FatType) (counts : Prop)
      (fs : Fatfs) (disk : Nat → Buffer) (tables : Nat → Prop) (allocation : Allocation Ff.Holder)
      (start opened finish : Ff.Driver) (file : Nat) (localFile : LocalFile) (result : Int),
      inputFile = some localFile →
      Ff.Catalogued (logicalDrive destFilename).1 volume size build fmt counts fs disk
        start.machine tables allocation →
      (Ff.driver.fOpen destFilename .createAlways).Outcome start (.ok file) opened →
      (putFile Ff.driver.toFatFiles fuel inputFile destFilename).Outcome start result finish →
      ∃ (fp : Ff.Fil) (place : Nat × Nat) (fs₁ : Fatfs) (disk₁ : Nat → Buffer)
        (allocation₁ : Allocation Ff.Holder),
        opened.fils[file]? = some fp ∧ place = (fp.dirSect, fp.dirPtr) ∧
        Ff.Begun (logicalDrive destFilename).1 volume size build fmt counts fs₁ disk₁ opened.machine
          allocation₁ (.file place) fp ∧
        Ff.Used fs fs₁ ∧
        (∀ other, other ≠ place →
          allocation₁.clusters (.file other) = allocation.clusters (.file other)) ∧
        ((∃ closed, finish.fils[file]? = some closed ∧ closed.Closed) ↔ localFile.Readable) ∧
        ((∃ fs' disk' allocation', Ff.Filled (logicalDrive destFilename).1 place volume size build
            fmt counts fs₁ disk₁ allocation₁ (.file place) fs' disk' finish.machine allocation'
            (localFile.rest.take (Ff.capacity fs₁ allocation₁ (.file place)))) ↔
          localFile.Readable) := by
  refine ⟨fun _ _ run => putFile_allClosed_iff run, ?_⟩
  rintro volume size build fmt counts fs disk tables allocation start opened finish file localFile
    result rfl catalogued opens run
  obtain ⟨fp, after, call, rfl, rfl⟩ := Ff.fOpen_driver opens
  obtain ⟨fs₁, disk₁, allocation₁, begun, used, others⟩ := Ff.fOpen_begins catalogued call
  have present : (start.fils ++ [fp])[start.fils.length]? = some fp :=
    List.getElem?_concat_length
  exact ⟨fp, _, fs₁, disk₁, allocation₁, present, rfl, begun, used, others,
    Ff.putFile_leaves run opens present begun⟩

/-- Every call of the driver succeeds. -/
def calm : PutResults := ⟨.ok (), fun _ => .ok 0, .ok ()⟩

/-- A volume of ten sectors. -/
def tenSectors : VolumeContainer := ⟨⟨0, true⟩, 0, sectorSize, 10⟩

/-- The object of a drive with a FAT of one sector and a root directory of one, which is in the
window. -/
def mountedFatfs : Fatfs :=
  { blankFatfs with
    fsType := some .fat12, csize := 1, nFats := 1, nRootdir := 16, freeClust := 0xFFFFFFFF
    fatbase := 1, sectsFat := 1, dirbase := 2, database := 3, maxClust := 9, winsect := 2 }

def mountedMachine : Machine := (imageMachine tenSectors).register 0 (some mountedFatfs)

/-- The machine with another window. -/
def mountedWith (win : Buffer) : Machine :=
  mountedMachine.register 0 (some { mountedFatfs with win, wflag := true })

/-- The entry of an empty file `A`. -/
def hollowEntry : Buffer := fun index => if index = 0 then 0x41 else if index < 11 then 0x20 else 0

theorem sectorBytes_mounted (sector : Nat) : mountedMachine.sectorBytes tenSectors sector =
    Buffer.zero :=
  (cut_congr fun _ _ => ByteFile.byte_truncate_empty _ _).trans (funext fun _ => ite_self 0)

namespace Ff

theorem mounted_sees : Sees 0 tenSectors 5120 .lp64 mountedFatfs (fun _ => Buffer.zero)
    mountedMachine := by
  have worked : (fatArea mountedFatfs).Worked tenSectors 5120 2 :=
    ⟨by decide, .inr (by decide), by decide, by decide⟩
  refine ⟨⟨⟨rfl, by decide, Nat.le_refl _, fun _ _ => Schedule.kernel_steady⟩, Nat.le_refl _,
    fun _ => rfl⟩, rfl, Nat.le_refl _, rfl, ⟨by decide, Nat.le_refl _⟩,
    Machine.fatFs_register _ _ _,
      rfl, by decide, by decide, by decide, ⟨fun place here => ?_, fun _ place here => ?_,
      fun dirty => absurd dirty Bool.false_ne_true, fun sector _ _ copy copied => ?_⟩,
    fun sector _ => ?_, fun sector _ => sectorBytes_mounted sector⟩
  · obtain rfl := Option.some.inj here
    exact worked
  · exact (funext fun _ => ite_self 0 : cut Buffer.zero = Buffer.zero).trans
      (sectorBytes_mounted place).symm
  · change copy ∈ (if sector < 2 then [] else []) at copied
    rw [ite_self] at copied
    exact absurd copied List.not_mem_nil
  · rw [WriteBack.view]
    split_ifs
    · exact funext fun _ => ite_self 0
    · exact sectorBytes_mounted sector

/-- No cluster of the volume is in use. -/
theorem mounted_allots : Allots 0 tenSectors 5120 .lp64 .fat12 False mountedFatfs
    (fun _ => Buffer.zero)
    mountedMachine (⟨fun _ => [], 0⟩ : Allocation Holder) := by
  have free (clst : Nat) : linksOf .fat12 mountedFatfs (fun _ => Buffer.zero) clst = .free := by
    rw [linksOf, fatLinks]
    split_ifs
    · refine if_pos ?_
      rw [fatEntry]
      split_ifs
      · exact Nat.zero_div _
      · exact Nat.zero_mod _
    · rfl
  exact ⟨mounted_sees,
    ⟨rfl, by decide, by decide, by decide, by decide, by decide, fun fat32 => by cases fat32⟩,
    ⟨fun _ => trivial, fun _ _ _ member => absurd member List.not_mem_nil,
      fun clst used => absurd (free clst) used⟩, rfl,
    ⟨False.elim, fun _ => rfl, fun _ => False.elim, fun _ => False.elim⟩⟩

theorem mounted_area : DataArea tenSectors 5120 mountedFatfs :=
  ⟨by decide, by decide, by decide, by decide, by decide⟩

/-- The volume with the entry of an empty file, in the root directory. -/
theorem hollow_catalogued : Catalogued 0 tenSectors 5120 .lp64 .fat12 False
    { mountedFatfs with win := hollowEntry, wflag := true }
    (Function.update (fun _ => Buffer.zero) 2 (cut hollowEntry)) (mountedWith hollowEntry) (· = 0)
    ⟨fun _ => [], 0⟩ := by
  have edited := edit_sees mounted_sees rfl (by decide) hollowEntry
  refine ⟨mounted_allots.data edited fun sector before => ?_, { mounted_area with }, rfl, ⟨0, rfl⟩,
    rfl, ?_, fun _ _ _ => by decide, fun _ _ => show 0 < 16 by decide, ?_,
    fun _ some => absurd rfl some⟩
  · exact Function.update_of_ne (Nat.ne_of_lt before) _ _
  · rintro _ rfl
    rfl
  · rintro _ index rfl shown
    -- the second entry is the end of the table
    obtain rfl : index = 0 := by
      by_contra some
      exact shown.before 1 (Nat.pos_of_ne_zero some) rfl
    rfl

end Ff

/-- A file of two blocks is put and closed where every call succeeds. A file of one byte is put into
the empty one of a volume: it is closed, and on the image. -/
theorem putFile_closes_iff_calm :
    (∃ result after, (putFile (answering calm) 3
        (some ⟨List.replicate (bufferSize + 1) 0, []⟩) []).Outcome ⟨[], [], 0⟩ result after ∧
      after.AllClosed) ∧
    ∃ result after, (putFile Ff.driver.toFatFiles 2 (some ⟨[7], []⟩) [0x41]).Outcome
        ⟨mountedWith hollowEntry, []⟩ result after ∧
      (∃ closed, after.fils[0]? = some closed ∧ closed.Closed) ∧
      ∃ (place : Nat × Nat) (fs : Fatfs) (disk : Nat → Buffer) (allocation : Allocation Ff.Holder)
        (fs' : Fatfs) (disk' : Nat → Buffer) (allocation' : Allocation Ff.Holder),
        Ff.Filled 0 place tenSectors 5120 .lp64 .fat12 False fs disk allocation (.file place) fs'
          disk' after.machine allocation' ([7].take (Ff.capacity fs allocation (.file place))) := by
  have puts : (putFile (answering calm) 3 (some ⟨List.replicate (bufferSize + 1) 0, []⟩) []
      ⟨[], [], 0⟩).toOption.map (·.1) = some 0 := by decide +kernel
  have stores : (putFile Ff.driver.toFatFiles 2 (some ⟨[7], []⟩) [0x41]
      ⟨mountedWith hollowEntry, []⟩).toOption.map (·.1) = some 0 := by decide +kernel
  obtain ⟨_, after, run, rfl⟩ := Program.outcome_of_observed puts
  obtain ⟨_, finish, store, rfl⟩ := Program.outcome_of_observed stores
  obtain ⟨opened, opens⟩ : ∃ opened, (Ff.driver.fOpen [0x41] .createAlways).Outcome
      ⟨mountedWith hollowEntry, []⟩ (.ok 0) opened := ⟨_, rfl⟩
  have readable (rest : List UInt8) : LocalFile.Readable ⟨rest, []⟩ := fun _ _ => rfl
  obtain ⟨_, place, fs, disk, allocation, _, _, _, _, _, closed, filled⟩ :=
    (putFile_closes_iff calm 2 (some ⟨[7], []⟩) [0x41]).2 tenSectors 5120 .lp64 .fat12 False _ _
      _ _ ⟨mountedWith hollowEntry, []⟩ _ finish 0 ⟨[7], []⟩ _ rfl
      (by exact Ff.hollow_catalogued) opens store
  refine ⟨⟨0, after, run, ((putFile_closes_iff calm _ _ _).1 _ _ run).mpr ?_⟩, 0, finish, store,
    closed.mpr (readable _), place, fs, disk, allocation, filled.mpr (readable _)⟩
  rintro _ same - block - -
  obtain rfl := Option.some.inj same
  rfl

/-- Where the first read of the local file fails, the file stays open. -/
theorem not_putFile_closes :
    ¬ ∀ (results : PutResults) (fuel : Nat) (inputFile : Option LocalFile) (destFilename : FatPath)
      (result : Int) (after : Handles),
      (putFile (answering results) fuel inputFile destFilename).Outcome ⟨[], [], 0⟩ result after →
      after.AllClosed := by
  intro always
  have fails : (putFile (answering calm) 1 (some ⟨[0], [true]⟩) [] ⟨[], [], 0⟩).toOption.map
      (fun done => (done.1, done.2.opened, done.2.closed)) = some (-1, [0], []) := by decide +kernel
  obtain ⟨_, after, run, same⟩ := Program.outcome_of_observed fails
  obtain ⟨rfl, handles⟩ := Prod.mk.inj same
  obtain ⟨opened, closed⟩ := Prod.mk.inj handles
  have member := always _ _ _ _ _ _ run 0 (opened ▸ List.mem_cons_self)
  rw [closed] at member
  exact absurd member List.not_mem_nil

end Hdfmonkey
