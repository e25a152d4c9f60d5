/-
This file proves that `f_read` delivers the bytes of a file: those of its sectors, in the
order of its chain, as many as are asked for and are left.

The object of the file stands at the last sector that it has come to. Behind that sector
it goes on in the same cluster, or in the one that the FAT names next. A run of whole
sectors in one cluster is read directly, and the rest by way of the object's buffer, which
shows the sector that it was filled from.
-/

import Hdfmonkey.FileSectors

namespace Hdfmonkey

namespace Ff

open Program

/-! ### Where a file object stands -/

/-- The number of sectors that a file object has come to. -/
def passed (fp : Fil) : Nat := (fp.fptr + (sectorSize - 1)) / sectorSize

/-- The object stands at the last sector that it has come to. -/
structure Placed (fs : Fatfs) (cells : List Nat) (fp : Fil) : Prop where
  fresh : passed fp = 0 → fs.csize ≤ fp.csect
  cluster : 0 < passed fp → fp.currClust = cells.getD ((passed fp - 1) / fs.csize) 0
  sector : 0 < passed fp → fp.csect = (passed fp - 1) % fs.csize + 1

/-- The clusters of a file are a list in the FAT, and the window is at none of its sectors. -/
structure OnFile (vol : Nat) (volume : VolumeContainer) (size : Nat) (build : Build) (fmt : FatType)
    (fs : Fatfs) (disk : Nat → Buffer) (machine : Machine) (cells : List Nat) : Prop where
  sees : Sees vol volume size build fs disk machine
  tabled : Tabled volume size fmt fs
  area : DataArea volume size fs
  linked : Linked (linksOf fmt fs disk) cells
  apart : ∀ number, number < cells.length * fs.csize → fs.winsect ≠ fileSector fs cells number

/-- An object that a file is read with. Its buffer shows the sector that it was filled from. -/
structure Reading (vol : Nat) (fs : Fatfs) (disk : Nat → Buffer) (cells : List Nat) (fp : Fil) :
    Prop where
  owner : fp.fs = some vol
  id : fp.id = fs.id
  good : fp.error = false
  mode : fp.read = true
  unchanged : fp.written = false
  clean : fp.dirty = false
  first : fp.orgClust = cells.headD 0
  placed : Placed fs cells fp
  before : fp.fptr ≤ fp.fsize
  room : fp.fsize ≤ cells.length * fs.csize * sectorSize
  filled : fp.dsect ≠ 0 → cut fp.buf = disk fp.dsect
  current : fp.fptr % sectorSize ≠ 0 → fp.dsect = fileSector fs cells (passed fp - 1)

section Reading

variable {vol : Nat} {volume : VolumeContainer} {size : Nat} {build : Build} {fmt : FatType}
  {fs : Fatfs} {disk : Nat → Buffer} {machine : Machine} {cells : List Nat} {fp : Fil}
  {btr number : Nat}

/-- The object is at the start of its file, or at the end of a cluster, or inside one. -/
theorem Placed.group (placed : Placed fs cells fp) (positive : 0 < fs.csize) :
    (passed fp = 0 ∧ fs.csize ≤ fp.csect) ∨
    (0 < passed fp ∧ fs.csize ≤ fp.csect ∧ passed fp % fs.csize = 0 ∧
      passed fp / fs.csize = (passed fp - 1) / fs.csize + 1) ∨
    (0 < passed fp ∧ fp.csect < fs.csize ∧ fp.csect = passed fp % fs.csize ∧
      fp.currClust = cells.getD (passed fp / fs.csize) 0) := by
  rcases Nat.eq_zero_or_pos (passed fp) with zero | some
  · exact .inl ⟨zero, placed.fresh zero⟩
  · have cluster := placed.cluster some
    have sector := placed.sector some
    obtain ⟨number, last⟩ := Nat.exists_eq_succ_of_ne_zero (Nat.pos_iff_ne_zero.mp some)
    rw [last, Nat.succ_eq_add_one, Nat.add_sub_cancel] at cluster sector
    rw [last, Nat.succ_eq_add_one, Nat.add_sub_cancel]
    rcases succ_in_group positive number with ⟨less, quotient, rest⟩ | ⟨full, quotient, rest⟩
    · exact .inr (.inr ⟨Nat.succ_pos _, sector ▸ less, sector.trans rest.symm,
        quotient ▸ cluster⟩)
    · exact .inr (.inl ⟨Nat.succ_pos _, sector ▸ full.ge, rest, quotient⟩)

/-- Between sectors, the object has come to as many as it has delivered. -/
theorem passed_boundary (boundary : fp.fptr % sectorSize = 0) :
    fp.fptr = passed fp * sectorSize := by
  rw [passed]
  rw [sectorSize] at boundary ⊢
  omega

theorem OnFile.windowed {win : Buffer} {winsect : Nat} {wflag : Bool} {after : Machine}
    (onFile : OnFile vol volume size build fmt fs disk machine cells)
    (sees : Sees vol volume size build { fs with win, winsect, wflag } disk after)
    (strays : Strays fs winsect) :
    OnFile vol volume size build fmt { fs with win, winsect, wflag } disk after cells := by
  have area := onFile.area
  refine ⟨sees, { onFile.tabled with }, { area with }, onFile.linked, fun number inside => ?_⟩
  have data := area.sector (.of_linked onFile.linked) inside
  change winsect ≠ fileSector fs cells number
  rcases strays with same | none | fat
  · exact same ▸ onFile.apart number inside
  · have front : 0 < fs.database := Nat.lt_of_lt_of_le onFile.sees.behind
      ((Nat.le_add_right _ _).trans area.behind)
    rw [none]
    exact Nat.ne_of_lt (Nat.lt_of_lt_of_le front data.1)
  · exact fun same => fat (same ▸ area.outside onFile.sees.one data.1)

/-- The cluster of the next sector is found. -/
theorem readCluster_reads (onFile : OnFile vol volume size build fmt fs disk machine cells)
    (placed : Placed fs cells fp) (first : fp.orgClust = cells.headD 0)
    (boundary : fp.fptr % sectorSize = 0) (inside : passed fp < cells.length * fs.csize) :
    ∃ win winsect wflag after, (readCluster vol fp).Outcome machine
        (.ok { fp with
          currClust := cells.getD (passed fp / fs.csize) 0
          csect := passed fp % fs.csize }) after ∧
      OnFile vol volume size build fmt { fs with win, winsect, wflag } disk after cells := by
  have sees := onFile.sees
  have place := passed_boundary boundary
  have chain := Chain.of_linked onFile.linked
  obtain ⟨lower, upper⟩ := chain.range _ (Chain.cell inside)
  have width := onFile.tabled.width
  have widest : 2 ^ entryBits fmt ≤ 2 ^ 28 := by cases fmt <;> decide
  rw [readCluster]
  rcases placed.group onFile.area.positive with ⟨zero, full⟩ | ⟨some, full, rest, quotient⟩ |
      ⟨some, less, sector, cluster⟩
  · -- the first sector of the file
    have start : fp.fptr = 0 := by rw [place, zero, Nat.zero_mul]
    have head : fp.orgClust = cells.getD (passed fp / fs.csize) 0 := by
      rw [first, zero, Nat.zero_div]
      cases cells <;> rfl
    refine ⟨fs.win, fs.winsect, fs.wflag, machine, ?_, onFile⟩
    rw [outcome_fatfs_bind sees.registered, if_pos full, readLink, if_pos start]
    refine outcome_bind.mpr ⟨_, _, outcome_pure.mpr ⟨rfl, rfl⟩, ?_⟩
    rw [head, if_neg (by omega), if_neg (by rw [diskError]; omega), zero, Nat.zero_mod]
    exact outcome_pure.mpr ⟨rfl, rfl⟩
  · -- the first sector of a cluster that the FAT names
    have begun : fp.fptr ≠ 0 := by
      rw [place, sectorSize]
      omega
    have within : (passed fp - 1) / fs.csize + 1 < cells.length := by
      rw [← quotient]
      exact Nat.div_lt_of_lt_mul (Nat.mul_comm _ _ ▸ inside)
    have link := onFile.linked.next_at within 0
    have current : cells.getD ((passed fp - 1) / fs.csize) 0 ∈ cells := by
      rw [List.getD_eq_getElem _ _ (Nat.lt_of_succ_lt within)]
      exact List.getElem_mem _
    obtain ⟨lower', upper'⟩ := chain.range _ current
    obtain ⟨win, winsect, wflag, after, got, there, seesAfter⟩ :=
      getFat_sees sees onFile.tabled lower' upper'
    rw [next_entry link, ← quotient] at got
    refine ⟨win, winsect, wflag, after, ?_, onFile.windowed seesAfter (.inr (.inr there))⟩
    rw [outcome_fatfs_bind sees.registered, if_pos full, readLink, if_neg begun,
      placed.cluster some]
    refine outcome_bind.mpr ⟨_, _, got, ?_⟩
    rw [if_neg (by omega), if_neg (by rw [diskError]; omega), rest]
    exact outcome_pure.mpr ⟨rfl, rfl⟩
  · refine ⟨fs.win, fs.winsect, fs.wflag, machine, ?_, onFile⟩
    rw [outcome_fatfs_bind sees.registered, if_neg (Nat.not_le.mpr less), ← sector, ← cluster]
    exact outcome_pure.mpr ⟨rfl, rfl⟩

/-- The object after sectors of one cluster were passed. -/
theorem Placed.of_advance {offset : Nat} (positive : 0 < offset)
    (fits : number % fs.csize + offset ≤ fs.csize) (came : passed fp = number + offset)
    (cluster : fp.currClust = cells.getD (number / fs.csize) 0)
    (sector : fp.csect = number % fs.csize + offset) : Placed fs cells fp := by
  obtain ⟨before, rfl⟩ := Nat.exists_eq_succ_of_ne_zero (Nat.pos_iff_ne_zero.mp positive)
  rw [Nat.succ_eq_add_one] at *
  have same : passed fp - 1 = number + before := by omega
  obtain ⟨quotient, rest⟩ := @add_in_group number before fs.csize (by omega)
  refine ⟨fun zero => by omega, fun _ => ?_, fun _ => ?_⟩
  · rw [same, quotient, cluster]
  · rw [same, rest, sector, Nat.add_assoc]

/-- The place after some bytes of the sector of a place. -/
theorem passed_advance {next : Fil} (some : fp.fptr < next.fptr)
    (inside : next.fptr ≤ (fp.fptr / sectorSize + 1) * sectorSize) :
    passed next = fp.fptr / sectorSize + 1 := by
  rw [passed]
  rw [sectorSize] at inside ⊢
  omega

/-- What a turn of the loop of `f_read` delivers. -/
structure Delivered (vol : Nat) (fs : Fatfs) (disk : Nat → Buffer) (cells : List Nat) (fp : Fil)
    (btr : Nat) (more : List UInt8) (after : Fil) : Prop where
  some : 0 < more.length
  most : more.length ≤ btr
  bytes : more = (fileBytes fs cells disk).slice fp.fptr more.length
  fptr : after.fptr = fp.fptr
  fsize : after.fsize = fp.fsize
  reading : Reading vol fs disk cells { after with fptr := after.fptr + more.length }

theorem length_readPartial : (readPartial btr fp).length =
    min (sectorSize - fp.fptr % sectorSize) btr := by
  rw [readPartial, Buffer.slice_length]

/-- Bytes that the buffer shows. -/
theorem readPartial_slice (shown : cut fp.buf = disk (fileSector fs cells (fp.fptr / sectorSize))) :
    readPartial btr fp = (fileBytes fs cells disk).slice fp.fptr (readPartial btr fp).length := by
  rw [length_readPartial, readPartial, Buffer.slice, Buffer.slice]
  refine List.map_congr_left fun index member => ?_
  have inside := List.mem_range.mp member
  have before : fp.fptr % sectorSize + index < sectorSize := by
    rw [sectorSize] at inside ⊢
    omega
  obtain ⟨quotient, rest⟩ := @add_in_group fp.fptr index sectorSize before
  rw [fileBytes, striped, quotient, rest, ← shown, cut_inside before]

theorem OnFile.sector_pos (onFile : OnFile vol volume size build fmt fs disk machine cells)
    (inside : number < cells.length * fs.csize) : 0 < fileSector fs cells number :=
  Nat.lt_of_lt_of_le onFile.sees.behind (((Nat.le_add_right _ _).trans onFile.area.behind).trans
    (onFile.area.sector (.of_linked onFile.linked) inside).1)

/-- A sector of the file is seen without anything behind it. -/
theorem OnFile.clipped (onFile : OnFile vol volume size build fmt fs disk machine cells)
    (inside : number < cells.length * fs.csize) :
    cut (disk (fileSector fs cells number)) = disk (fileSector fs cells number) := by
  obtain ⟨lower, upper⟩ := onFile.area.sector (.of_linked onFile.linked) inside
  rw [← onFile.sees.stored (onFile.area.worked lower upper) (onFile.apart number inside),
    Machine.sectorBytes, cut_clip]

/-- A turn that takes bytes from the buffer, which shows their sector. -/
theorem readPartial_delivers {start : Fil} (reading : Reading vol fs disk cells start)
    (placed : Placed fs cells { fp with fptr := fp.fptr + (readPartial btr fp).length })
    (same : fp = { start with
      currClust := fp.currClust, csect := fp.csect, dsect := fp.dsect, buf := fp.buf })
    (some : 0 < btr) (less : start.fptr + btr ≤ start.fsize)
    (sector : fp.dsect = fileSector fs cells (fp.fptr / sectorSize))
    (shown : cut fp.buf = disk fp.dsect) :
    Delivered vol fs disk cells start btr (readPartial btr fp) fp := by
  have length := @length_readPartial fp btr
  have positive : 0 < (readPartial btr fp).length := by
    rw [length, sectorSize]
    omega
  have most : (readPartial btr fp).length ≤ btr := by
    rw [length]
    exact Nat.min_le_right _ _
  have next : passed { fp with fptr := fp.fptr + (readPartial btr fp).length } =
      fp.fptr / sectorSize + 1 := by
    refine passed_advance (Nat.lt_add_of_pos_right positive) ?_
    dsimp only
    rw [length, sectorSize]
    omega
  have bytes := @readPartial_slice fs disk cells fp btr (sector ▸ shown)
  have fptr : fp.fptr = start.fptr := by rw [same]
  have fsize : fp.fsize = start.fsize := by rw [same]
  refine ⟨positive, most, fptr ▸ bytes, fptr, fsize, ?_⟩
  generalize (readPartial btr fp).length = count at *
  refine ⟨?_, ?_, ?_, ?_, ?_, ?_, ?_, placed, ?_, ?_, fun _ => shown, fun _ => ?_⟩
  · rw [same]
    exact reading.owner
  · rw [same]
    exact reading.id
  · rw [same]
    exact reading.good
  · rw [same]
    exact reading.mode
  · rw [same]
    exact reading.unchanged
  · rw [same]
    exact reading.clean
  · rw [same]
    exact reading.first
  · dsimp only
    omega
  · dsimp only
    rw [fsize]
    exact reading.room
  · rw [next, Nat.add_sub_cancel]
    exact sector

/-- The sectors that are transferred together stay inside the cluster. -/
theorem clip_fits {cc : Nat} (within : fp.csect < fs.csize) (some : cc ≠ 0) :
    0 < clip fs fp cc ∧ fp.csect + clip fs fp cc ≤ fs.csize ∧ clip fs fp cc ≤ cc := by
  rw [clip]
  split_ifs <;> omega

/-- A turn that reads whole sectors directly. -/
theorem readDirect_delivers (onFile : OnFile vol volume size build fmt fs disk machine cells)
    (reading : Reading vol fs disk cells fp) (boundary : fp.fptr % sectorSize = 0)
    (whole : btr / sectorSize ≠ 0) (less : fp.fptr + btr ≤ fp.fsize) :
    ∃ more fp' after,
      (readDirect vol (fileSector fs cells (passed fp)) (btr / sectorSize) { fp with
        currClust := cells.getD (passed fp / fs.csize) 0
        csect := passed fp % fs.csize }).Outcome machine (.ok more, fp') after ∧
      OnFile vol volume size build fmt fs disk after cells ∧
      Delivered vol fs disk cells fp btr more fp' := by
  have place := passed_boundary boundary
  have room := reading.room
  have inside : passed fp < cells.length * fs.csize := by
    rw [sectorSize] at *
    omega
  have within := Nat.mod_lt (passed fp) onFile.area.positive
  obtain ⟨cc, clipped⟩ : ∃ cc, cc = clip fs { fp with
      currClust := cells.getD (passed fp / fs.csize) 0
      csect := passed fp % fs.csize } (btr / sectorSize) := ⟨_, rfl⟩
  obtain ⟨positive, fits, few⟩ : 0 < cc ∧ passed fp % fs.csize + cc ≤ fs.csize ∧
      cc ≤ btr / sectorSize := clipped ▸ clip_fits within whole
  have most := (Nat.mul_le_mul_right _ few).trans (Nat.div_mul_le_self btr sectorSize)
  have direct := direct_fileSector onFile.area (.of_linked onFile.linked) onFile.apart inside
    positive fits
  have read := @diskRead_direct vol volume size build fs disk machine Buffer.zero _ _ onFile.sees
    onFile.area direct
  have bytes : (Buffer.zero.blit 0 (cc * sectorSize) fun index =>
      disk (fileSector fs cells (passed fp) + index / sectorSize) (index % sectorSize)).slice 0
        (cc * sectorSize) = (fileBytes fs cells disk).slice fp.fptr (cc * sectorSize) := by
    rw [Buffer.slice, Buffer.slice]
    refine List.map_congr_left fun index member => ?_
    have before := List.mem_range.mp member
    have block : index / sectorSize < cc :=
      Nat.div_lt_of_lt_mul (Nat.mul_comm cc sectorSize ▸ before)
    rw [Nat.zero_add, Buffer.blit_inside _ _ _ _ (Nat.zero_le _) (by omega), Nat.sub_zero,
      fileBytes, striped, place, Nat.mul_comm, Nat.mul_add_div (by decide), Nat.mul_add_mod,
        fileSector_add]
    omega
  have length : ((fileBytes fs cells disk).slice fp.fptr (cc * sectorSize)).length =
      cc * sectorSize := Buffer.slice_length _ _ _
  refine ⟨(fileBytes fs cells disk).slice fp.fptr (cc * sectorSize), { fp with
      currClust := cells.getD (passed fp / fs.csize) 0
      csect := passed fp % fs.csize + cc }, _, ?_,
    ⟨onFile.sees.later 1, onFile.tabled, onFile.area, onFile.linked, onFile.apart⟩, ?_⟩
  · rw [readDirect, outcome_fatfs_bind onFile.sees.registered]
    refine outcome_bind.mpr ⟨_, _, outcome_get.mpr ⟨rfl, rfl⟩, ?_⟩
    dsimp only
    rw [← clipped]
    refine outcome_bind.mpr ⟨_, _, read, ?_⟩
    rw [if_neg (not_not.mpr rfl), if_neg fun both => by simp [reading.clean] at both, bytes]
    exact outcome_pure.mpr ⟨rfl, rfl⟩
  · have next : passed { fp with fptr := fp.fptr + cc * sectorSize } = passed fp + cc := by
      rw [passed]
      dsimp only
      rw [sectorSize] at *
      omega
    refine ⟨?_, ?_, ?_, rfl, rfl, ?_⟩
    · rw [length]
      exact Nat.mul_pos positive (by decide)
    · rw [length]
      exact most
    · rw [length]
    · rw [length]
      refine ⟨reading.owner, reading.id, reading.good, reading.mode, reading.unchanged,
        reading.clean, reading.first,
        .of_advance positive fits next rfl rfl, ?_, reading.room, reading.filled, fun partly => ?_⟩
      · dsimp only
        omega
      · refine absurd ?_ partly
        dsimp only
        rw [Nat.add_mul_mod_self_right, boundary]

/-- A turn that reads a part of a sector, by way of the buffer. -/
theorem readSector_delivers (onFile : OnFile vol volume size build fmt fs disk machine cells)
    (reading : Reading vol fs disk cells fp) (boundary : fp.fptr % sectorSize = 0) (some : 0 < btr)
    (less : fp.fptr + btr ≤ fp.fsize) :
    ∃ more fp' after,
      (readSector vol (fileSector fs cells (passed fp)) btr { fp with
        currClust := cells.getD (passed fp / fs.csize) 0
        csect := passed fp % fs.csize }).Outcome machine (.ok more, fp') after ∧
      OnFile vol volume size build fmt fs disk after cells ∧
      Delivered vol fs disk cells fp btr more fp' := by
  have place := passed_boundary boundary
  have room := reading.room
  have inside : passed fp < cells.length * fs.csize := by
    rw [sectorSize] at *
    omega
  have present := onFile.sector_pos inside
  have here : fp.fptr / sectorSize = passed fp := by
    rw [place, Nat.mul_div_cancel _ (by decide)]
  have flushed : ∀ fp : Fil, fp.dirty = false →
      (flushBuffer vol fp).Outcome machine (.ok, fp) machine := fun fp clean => by
    rw [flushBuffer, if_neg (by rw [clean]; decide)]
    exact outcome_pure.mpr ⟨rfl, rfl⟩
  have placed (count : Nat) (some : 0 < count) (most : count ≤ sectorSize) (buf : Buffer)
      (dsect : Nat) : Placed fs cells { fp with
        currClust := cells.getD (passed fp / fs.csize) 0
        csect := passed fp % fs.csize + 1
        dsect, buf
        fptr := fp.fptr + count } := by
    refine @Placed.of_advance fs cells _ (passed fp) 1 Nat.one_pos
      (Nat.mod_lt _ onFile.area.positive) ?_ rfl rfl
    rw [passed]
    dsimp only
    rw [sectorSize] at *
    omega
  have taken (fp : Fil) : 0 < (readPartial btr fp).length ∧
    (readPartial btr fp).length ≤ sectorSize := by
    rw [length_readPartial, sectorSize]
    omega
  by_cases already : fp.dsect = fileSector fs cells (passed fp)
  · refine ⟨_, { fp with
        currClust := cells.getD (passed fp / fs.csize) 0
        csect := passed fp % fs.csize + 1 }, machine, ?_, onFile,
      readPartial_delivers reading (placed _ (taken _).1 (taken _).2 fp.buf fp.dsect) rfl
        some less ?_
        (reading.filled ?_)⟩
    · rw [readSector]
      refine outcome_bind.mpr ⟨_, _, flushed _ reading.clean, ?_⟩
      rw [if_neg (not_not.mpr rfl), if_pos already]
      exact outcome_pure.mpr ⟨rfl, rfl⟩
    · rw [here]
      exact already
    · rw [already]
      exact Nat.ne_of_gt present
  · have direct := direct_fileSector onFile.area (.of_linked onFile.linked) onFile.apart inside
      Nat.one_pos (Nat.mod_lt _ onFile.area.positive)
    have read := @diskRead_direct vol volume size build fs disk machine fp.buf _ _ onFile.sees
      onFile.area direct
    rw [Nat.one_mul] at read
    refine ⟨_, { fp with
        currClust := cells.getD (passed fp / fs.csize) 0
        csect := passed fp % fs.csize + 1
        dsect := fileSector fs cells (passed fp)
        buf := fp.buf.blit 0 sectorSize fun index =>
          disk (fileSector fs cells (passed fp) + index / sectorSize) (index % sectorSize) },
      { machine with transfers := machine.transfers + 1 }, ?_,
      ⟨onFile.sees.later 1, onFile.tabled, onFile.area, onFile.linked, onFile.apart⟩,
      readPartial_delivers reading (placed _ (taken _).1 (taken _).2 _ _) rfl some less ?_ ?_⟩
    · rw [readSector]
      refine outcome_bind.mpr ⟨_, _, flushed _ reading.clean, ?_⟩
      rw [if_neg (not_not.mpr rfl), if_neg already, outcome_fatfs_bind onFile.sees.registered]
      refine outcome_bind.mpr ⟨_, _, read, ?_⟩
      dsimp only
      rw [if_neg (not_not.mpr rfl)]
      exact outcome_pure.mpr ⟨rfl, rfl⟩
    · rw [here]
    · rw [cut_blit, ← onFile.clipped inside]
      refine cut_congr fun index before => ?_
      rw [Nat.div_eq_of_lt before, Nat.mod_eq_of_lt before, Nat.add_zero]

/-- A turn of the loop of `f_read` delivers some of the bytes that are asked for. -/
theorem readTurn_delivers (onFile : OnFile vol volume size build fmt fs disk machine cells)
    (reading : Reading vol fs disk cells fp) (some : 0 < btr) (less : fp.fptr + btr ≤ fp.fsize) :
    ∃ more fp' win winsect wflag after,
      (readTurn vol btr fp).Outcome machine (.ok more, fp') after ∧
      OnFile vol volume size build fmt { fs with win, winsect, wflag } disk after cells ∧
      Delivered vol fs disk cells fp btr more fp' := by
  have room := reading.room
  rw [readTurn]
  by_cases partly : fp.fptr % sectorSize ≠ 0
  · have here : passed fp = fp.fptr / sectorSize + 1 := by
      rw [passed]
      rw [sectorSize] at partly ⊢
      omega
    have number : fp.fptr / sectorSize < cells.length * fs.csize := by
      rw [Nat.div_lt_iff_lt_mul (by decide)]
      omega
    have sector := reading.current partly
    rw [here, Nat.add_sub_cancel] at sector
    have same : passed { fp with fptr := fp.fptr + (readPartial btr fp).length } = passed fp := by
      rw [here]
      refine passed_advance ?_ ?_
      · dsimp only
        rw [length_readPartial, sectorSize]
        omega
      · dsimp only
        rw [length_readPartial, sectorSize]
        omega
    refine ⟨_, fp, fs.win, fs.winsect, fs.wflag, machine, ?_, onFile,
      readPartial_delivers reading ⟨fun zero => ?_, fun some => ?_, fun some => ?_⟩ rfl some
        less sector
        (reading.filled ?_)⟩
    · rw [if_pos partly]
      exact outcome_pure.mpr ⟨rfl, rfl⟩
    · exact reading.placed.fresh (same ▸ zero)
    · rw [same]
      exact reading.placed.cluster (same ▸ some)
    · rw [same]
      exact reading.placed.sector (same ▸ some)
    · rw [sector]
      exact Nat.ne_of_gt (onFile.sector_pos number)
  · have boundary := not_not.mp partly
    have place := passed_boundary boundary
    have inside : passed fp < cells.length * fs.csize := by
      rw [sectorSize] at *
      omega
    obtain ⟨win, winsect, wflag, middle, found, onFileMiddle⟩ :=
      readCluster_reads onFile reading.placed reading.first boundary inside
    obtain ⟨present, sector⟩ := @clust2sect_fileSector volume size middle.build _ _ _
      onFileMiddle.area
      (.of_linked onFile.linked) onFile.sees.behind inside
    have readingMiddle : Reading vol { fs with win, winsect, wflag } disk cells fp :=
      { reading with placed := { reading.placed with } }
    rw [if_neg partly]
    by_cases whole : btr / sectorSize ≠ 0
    · obtain ⟨more, fp', after, run, onFileAfter, delivered⟩ :=
        readDirect_delivers onFileMiddle readingMiddle boundary whole less
      refine ⟨more, fp', win, winsect, wflag, after, outcome_bind.mpr ⟨_, _, found, ?_⟩,
        onFileAfter, { delivered with reading := ?_ }⟩
      · dsimp only
        refine outcome_bind.mpr ⟨_, _, outcome_get.mpr ⟨rfl, rfl⟩, ?_⟩
        rw [outcome_fatfs_bind onFileMiddle.sees.registered, if_neg present, if_pos whole, sector]
        exact run
      · have after := delivered.reading
        exact { after with placed := { after.placed with } }
    · obtain ⟨more, fp', after, run, onFileAfter, delivered⟩ :=
        readSector_delivers onFileMiddle readingMiddle boundary some less
      refine ⟨more, fp', win, winsect, wflag, after, outcome_bind.mpr ⟨_, _, found, ?_⟩,
        onFileAfter, { delivered with reading := ?_ }⟩
      · dsimp only
        refine outcome_bind.mpr ⟨_, _, outcome_get.mpr ⟨rfl, rfl⟩, ?_⟩
        rw [outcome_fatfs_bind onFileMiddle.sees.registered, if_neg present, if_neg whole, sector]
        exact run
      · have after := delivered.reading
        exact { after with placed := { after.placed with } }

/-- The loop of `f_read` delivers all bytes that are asked for, by induction on its turns. -/
theorem readFile_delivers (fuel : Nat) (bytes : List UInt8)
    (onFile : OnFile vol volume size build fmt fs disk machine cells)
    (reading : Reading vol fs disk cells fp) (less : fp.fptr + btr ≤ fp.fsize)
    (enough : btr < fuel) : ∃ fp' win winsect wflag after,
      (readFile vol fuel btr bytes fp).Outcome machine
        (.ok, bytes ++ (fileBytes fs cells disk).slice fp.fptr btr, fp') after ∧
      OnFile vol volume size build fmt { fs with win, winsect, wflag } disk after cells ∧
      Reading vol fs disk cells fp' ∧ fp'.fptr = fp.fptr + btr ∧ fp'.fsize = fp.fsize := by
  induction fuel generalizing btr bytes fs machine fp with
  | zero => exact absurd enough (Nat.not_lt_zero _)
  | succ fuel inductionHypothesis =>
    rw [readFile]
    by_cases none : btr = 0
    · subst none
      refine ⟨fp, fs.win, fs.winsect, fs.wflag, machine, ?_, onFile, reading, rfl, rfl⟩
      rw [if_pos rfl, show (fileBytes fs cells disk).slice fp.fptr 0 = [] from rfl, List.append_nil]
      exact outcome_pure.mpr ⟨rfl, rfl⟩
    · obtain ⟨more, middleFil, win, winsect, wflag, middle, turn, onFileMiddle, delivered⟩ :=
        readTurn_delivers onFile reading (Nat.pos_of_ne_zero none) less
      have some := delivered.some
      have most := delivered.most
      have fptr := delivered.fptr
      have fsize := delivered.fsize
      have readingMiddle : Reading vol { fs with win, winsect, wflag } disk cells
          { middleFil with fptr := middleFil.fptr + more.length } :=
        { delivered.reading with placed := { delivered.reading.placed with } }
      obtain ⟨fp', win', winsect', wflag', after, run, onFileAfter, readingAfter, fptr', fsize'⟩ :=
        @inductionHypothesis _ _ _ (btr - more.length) (bytes ++ more) onFileMiddle readingMiddle
          (show middleFil.fptr + more.length + (btr - more.length) ≤ middleFil.fsize by omega)
          (by omega)
      refine ⟨fp', win', winsect', wflag', after, ?_, onFileAfter,
        { readingAfter with placed := { readingAfter.placed with } }, ?_, fsize'.trans fsize⟩
      · rw [if_neg none]
        refine outcome_bind.mpr ⟨_, _, turn, ?_⟩
        have split := Buffer.slice_add (fileBytes fs cells disk) fp.fptr more.length
          (btr - more.length)
        rw [Nat.add_sub_cancel' most, ← delivered.bytes, ← fptr] at split
        rw [← fptr, split, ← List.append_assoc]
        exact run
      · dsimp only at fptr'
        omega

/-- `f_read` delivers as many bytes as are asked for and are left. -/
theorem fRead_delivers (btr : Nat) (onFile : OnFile vol volume size build fmt fs disk machine cells)
    (reading : Reading vol fs disk cells fp) :
    ∃ fp' win winsect wflag after,
      (fRead fp btr).Outcome machine
        (.ok, (fileBytes fs cells disk).slice fp.fptr (min btr (fp.fsize - fp.fptr)), fp') after ∧
      OnFile vol volume size build fmt { fs with win, winsect, wflag } disk after cells ∧
      Reading vol fs disk cells fp' ∧ fp'.fptr = fp.fptr + min btr (fp.fsize - fp.fptr) ∧
      fp'.fsize = fp.fsize := by
  have small := (Chain.of_linked onFile.linked).small onFile.area
  have word := build.le_word
  have room := reading.room
  have before := reading.before
  obtain ⟨fp', win, winsect, wflag, after, run, rest⟩ :=
    @readFile_delivers vol volume size build fmt fs disk machine cells fp
      (min btr (fp.fsize - fp.fptr)) (min btr (fp.fsize - fp.fptr) + 1) [] onFile reading (by omega)
      (Nat.lt_succ_self _)
  refine ⟨fp', win, winsect, wflag, after, ?_, rest⟩
  rw [fRead]
  refine outcome_bind.mpr ⟨.ok, machine, ?_, ?_⟩
  · rw [validate]
    refine outcome_bind.mpr ⟨_, _, outcome_get.mpr ⟨rfl, rfl⟩, ?_⟩
    rw [reading.owner, Option.bind_some, onFile.sees.registered]
    refine outcome_pure.mpr ⟨(if_pos ⟨?_, reading.id.symm⟩).symm, rfl⟩
    rw [onFile.tabled.type, Option.isSome_some]
  · rw [if_neg (not_not.mpr rfl), reading.good, if_neg Bool.false_ne_true, reading.mode,
      if_neg (not_not.mpr rfl)]
    refine outcome_bind.mpr ⟨_, _, outcome_get.mpr ⟨rfl, rfl⟩, ?_⟩
    dsimp only
    rw [onFile.sees.word, build.sub_of_le (by omega) before, reading.owner]
    exact run

end Reading

end Ff

end Hdfmonkey
