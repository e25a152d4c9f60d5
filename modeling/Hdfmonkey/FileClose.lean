/-
This file proves that closing a file that was written brings it to its directory entry: the
entry has the number of its bytes and its first cluster, all else in the table stays, and an
object that is opened from the entry reads the bytes that were written.

The entry may be in the fixed table of a root directory or in a table that has clusters of
its own. Those are never clusters of the file.
-/

import Hdfmonkey.FileWrites

namespace Hdfmonkey

namespace Ff

open Program

/-! ### The entry of a file -/

/-- The place of an entry in a directory table: a sector and a place there. The table is the fixed
one of the root directory or that of another owner. -/
structure InTable {Owner : Type} (volume : VolumeContainer) (size : Nat) (fs : Fatfs)
    (allocation : Allocation Owner) (owner : Owner) (entry : Nat × Nat) : Prop where
  worked : (fatArea fs).Worked volume size entry.1
  behind : fs.fatbase + fs.nFats * fs.sectsFat ≤ entry.1
  table : entry.1 < fs.database ∨ ∃ other number, other ≠ owner ∧
    number < (allocation.clusters other).length * fs.csize ∧
      entry.1 = fileSector fs (allocation.clusters other) number
  inside : entry.2 + 32 ≤ sectorSize

/-- What the directory entry of a file is after the file was closed. The name stays, and so does
everything outside the entry. -/
structure Recorded (old new : Buffer) (place first length : Nat) : Prop where
  size : new.loadDword (place + dirFileSize) = length
  start : startCluster new place = first
  attr : new (place + dirAttr) = old (place + dirAttr) ||| amArc
  kept : ∀ index, index < place + dirAttr ∨ place + 32 ≤ index → new index = old index

/-- An object was given back with nothing left in its buffer. -/
def Fil.Closed (fp : Fil) : Prop := fp.fs = none ∧ fp.dirty = false ∧ fp.written = false

/-- The window after the entry of a file was brought up to date. -/
def updatedEntry (win : Buffer) (fp : Fil) (time : Nat) : Buffer :=
  let win := win.store (fp.dirPtr + dirAttr) (win (fp.dirPtr + dirAttr) ||| amArc)
  let win := win.storeDword (fp.dirPtr + dirFileSize) fp.fsize
  (storeCluster win fp.dirPtr fp.orgClust).storeDword (fp.dirPtr + dirWrtTime) time

/-- An object whose window and counts may have changed in any way. -/
def Used (fs after : Fatfs) : Prop :=
  ∃ win winsect wflag fsiFlag lastClust freeClust,
    after = { fs with win, winsect, wflag, fsiFlag, lastClust, freeClust }

section Entry

variable {Owner : Type} {vol : Nat} {entry : Nat × Nat} {volume : VolumeContainer} {size : Nat}
  {build : Build} {fmt : FatType} {counts : Prop} {fs fs' : Fatfs} {disk disk' : Nat → Buffer}
  {machine : Machine} {allocation allocation' : Allocation Owner} {owner : Owner} {cells : List Nat}
  {fp : Fil} {written : List UInt8} {win : Buffer} {time : Nat}

theorem Reworked.used (reworked : Reworked fs fs') : Used fs fs' := by
  obtain ⟨win, winsect, wflag, fsiFlag, lastClust, freeClust, _, rfl⟩ := reworked
  exact ⟨win, winsect, wflag, fsiFlag, lastClust, freeClust, rfl⟩

/-- The sector of an entry is none of the file. -/
theorem InTable.apart (inTable : InTable volume size fs allocation owner entry)
    (storing : Storing vol volume size build fmt counts fs disk machine allocation owner) :
    ∀ number, number < (allocation.clusters owner).length * fs.csize →
      entry.1 ≠ fileSector fs (allocation.clusters owner) number := by
  intro number inside same
  have area := storing.area
  rcases inTable.table with fixed | ⟨other, place, different, within, there⟩
  · exact absurd (same ▸ (area.sector storing.chain inside).1) (Nat.not_le.mpr fixed)
  · have chain := Chain.of_linked (storing.allots.allotted.linked other)
    refine fileSector_apart area storing.chain chain (fun clst member again => ?_) inside within
      (same.symm.trans there)
    exact different (storing.allots.allotted.apart _ _ _ again member)

/-- Only the FSInfo sector is written past the window, in front of the FAT. -/
theorem Tabled.synced_behind (tabled : Tabled volume size fmt fs) {sector : Nat}
    (behind : fs.fatbase ≤ sector) : synced fmt fs disk sector = disk sector :=
  synced_of_ne fun fat32 => Nat.ne_of_gt (Nat.lt_of_lt_of_le (tabled.info fat32) behind)

theorem InTable.outside (inTable : InTable volume size fs allocation owner entry)
    (one : 1 ≤ fs.nFats) : OutsideFat fs entry.1 :=
  .inr ((Nat.add_le_add_left (Nat.le_mul_of_pos_left _ one) _).trans inTable.behind)

/-- It stays the place of an entry while the others keep their clusters. -/
theorem InTable.kept (inTable : InTable volume size fs allocation owner entry) (used : Used fs fs')
    (others : ∀ other, other ≠ owner →
      allocation'.clusters other = allocation.clusters other) :
    InTable volume size fs' allocation' owner entry := by
  obtain ⟨_, _, _, _, _, _, rfl⟩ := used
  refine ⟨inTable.worked, inTable.behind, inTable.table.imp_right ?_, inTable.inside⟩
  rintro ⟨other, number, different, within, there⟩
  exact ⟨other, number, different, by rwa [others other different], by
    rw [others other different]
    exact there⟩

/-- It stays the place of an entry while the file is written. -/
theorem InTable.grown (inTable : InTable volume size fs allocation owner entry)
    (grown : Grown owner fs disk allocation fs' disk' allocation') :
    InTable volume size fs' allocation' owner entry :=
  inTable.kept grown.reworked.used grown.others

theorem Used.trans {fs'' : Fatfs} (first : Used fs fs') (second : Used fs' fs'') :
    Used fs fs'' := by
  obtain ⟨_, _, _, _, _, _, rfl⟩ := first
  obtain ⟨win, winsect, wflag, fsiFlag, lastClust, freeClust, rfl⟩ := second
  exact ⟨win, winsect, wflag, fsiFlag, lastClust, freeClust, rfl⟩

theorem Used.csize (used : Used fs fs') : fs'.csize = fs.csize := by
  obtain ⟨_, _, _, _, _, _, rfl⟩ := used
  rfl

theorem Used.fileSector (used : Used fs fs') : fileSector fs' = fileSector fs := by
  obtain ⟨_, _, _, _, _, _, rfl⟩ := used
  rfl

theorem startCluster_congr {first second : Buffer} {place : Nat}
    (same : ∀ index, index < 32 → first (place + index) = second (place + index)) :
    startCluster first place = startCluster second place := by
  have word (offset : Nat) (inside : offset + 1 < 32) :
      first.loadWord (place + offset) = second.loadWord (place + offset) :=
    Buffer.loadWord_congr (same _ (by omega)) (same _ inside)
  rw [startCluster, startCluster, word _ (by decide), word _ (by decide)]

/-- An entry that was brought up to date. -/
theorem updatedEntry_recorded (inside : fp.dirPtr + 32 ≤ sectorSize) (first : fp.orgClust < 2 ^ 32)
    (length : fp.fsize < 2 ^ 32) :
    Recorded (cut win) (cut (updatedEntry win fp time)) fp.dirPtr fp.orgClust fp.fsize := by
  have within {index : Nat} (before : index < 32) : fp.dirPtr + index < sectorSize := by omega
  refine ⟨?_, ?_, ?_, fun index outside => ?_⟩
  · rw [loadDword_cut (by rw [dirFileSize]; omega)]
    simp (disch := simp only [dirFileSize, dirFstClusLo, dirFstClusHi, dirWrtTime]; omega) only
      [updatedEntry, storeCluster, Buffer.loadDword_storeDword_past,
        Buffer.loadDword_storeWord_past, Buffer.loadDword_storeDword]
    exact Nat.mod_eq_of_lt length
  · rw [startCluster_congr fun index before => cut_inside (within before)]
    simp (disch := simp only [dirFileSize, dirFstClusLo, dirFstClusHi, dirWrtTime]; omega) only
      [updatedEntry, storeCluster, startCluster, Buffer.loadWord_storeDword_past,
        Buffer.loadWord_storeWord_past, Buffer.loadWord_storeWord]
    omega
  · rw [cut_inside (within (by decide)), cut_inside (within (by decide))]
    simp (disch := simp only [dirAttr, dirFileSize, dirFstClusLo, dirFstClusHi, dirWrtTime]; omega)
      only [updatedEntry, storeCluster, Buffer.storeDword_of_outside, Buffer.storeWord_of_outside]
    exact Buffer.store_self _ _ _
  · by_cases before : index < sectorSize
    · rw [dirAttr] at outside
      rw [cut_inside before, cut_inside before]
      simp (disch := simp only [dirAttr, dirFileSize, dirFstClusLo, dirFstClusHi,
        dirWrtTime]; omega)
        only [updatedEntry, storeCluster, Buffer.storeDword_of_outside, Buffer.storeWord_of_outside,
          Buffer.store_of_ne]
    · exact (if_neg before).trans (if_neg before).symm

/-- The entry of a file that was written is brought up to date, and the volume to its image. -/
theorem updateEntry_records
    (storing : Storing vol volume size build fmt counts fs disk machine allocation owner)
    (inTable : InTable volume size fs allocation owner entry)
    (place : (fp.dirSect, fp.dirPtr) = entry) (first : fp.orgClust < 2 ^ 32)
    (length : fp.fsize < 2 ^ 32) :
    ∃ fs' disk' after,
      (updateEntry vol fp).Outcome machine (.ok, { fp with written := false }) after ∧
      Storing vol volume size build fmt counts fs' disk' after allocation owner ∧ Used fs fs' ∧
      Recorded (disk entry.1) (disk' entry.1) entry.2 fp.orgClust fp.fsize ∧
      (∀ sector, sector ≠ entry.1 → fs.fatbase ≤ sector → disk' sector = disk sector) ∧
      Settled volume size fs' disk' after := by
  subst place
  have sees := storing.allots.sees
  have present : fp.dirSect ≠ 0 :=
    Nat.ne_of_gt (Nat.lt_of_lt_of_le sees.behind ((Nat.le_add_right _ _).trans inTable.behind))
  obtain ⟨win, wflag, moved, move, seesMoved⟩ := moveWindow_sees sees inTable.worked
  have shown := (seesMoved.window present).2
  have seesTicked := seesMoved.ticked
  have seesEdited := edit_sees seesTicked storing.mode present
    (updatedEntry win fp (moved.time moved.ticks))
  dsimp only at shown seesEdited
  have area := storing.area
  have edited : Storing vol volume size build fmt counts
      { fs with
        win := updatedEntry win fp (moved.time moved.ticks)
        winsect := fp.dirSect
        wflag := true }
      (Function.update disk fp.dirSect (cut (updatedEntry win fp (moved.time moved.ticks)))) _
      allocation owner :=
    ⟨storing.allots.data seesEdited fun sector before =>
      Function.update_of_ne (Nat.ne_of_lt (Nat.lt_of_lt_of_le before inTable.behind)) _ _,
      { area with }, storing.mode, inTable.apart storing⟩
  obtain ⟨fs', after, synchronised, allots, reworked, _, _, settled⟩ :=
    sync_settles edited.allots storing.mode
  have recorded := @updatedEntry_recorded fp win
    (moved.time moved.ticks) inTable.inside first length
  rw [shown] at recorded
  refine ⟨fs', _, after, ?_, edited.strays reworked allots (.inl rfl), ?_, ?_,
    fun sector other behind => ?_, settled⟩
  · rw [updateEntry]
    refine outcome_bind.mpr ⟨_, _, move, ?_⟩
    rw [if_neg (not_not.mpr rfl)]
    refine outcome_bind.mpr ⟨_, _, rfl, ?_⟩
    rw [outcome_modifyFatfs_bind, seesTicked.registered]
    exact outcome_bind.mpr ⟨_, _, synchronised, outcome_pure.mpr ⟨rfl, rfl⟩⟩
  · obtain ⟨win, winsect, wflag, fsiFlag, lastClust, freeClust, _, rfl⟩ := reworked
    exact ⟨win, winsect, wflag, fsiFlag, lastClust, freeClust, rfl⟩
  · have now := @Tabled.synced_behind _ _ _ _ (Function.update disk fp.dirSect
      (cut (updatedEntry win fp (moved.time moved.ticks)))) edited.allots.tabled _
        inTable.worked.first
    rw [Function.update_self] at now
    exact now.symm ▸ recorded
  · exact (edited.allots.tabled.synced_behind behind).trans (Function.update_of_ne other _ _)

/-- `f_close` of a file that was written: its bytes are in its sectors, and its entry says how many
and where they begin. -/
theorem fClose_records
    (storing : Storing vol volume size build fmt counts fs disk machine allocation owner)
    (writing : Writing vol entry fs disk (allocation.clusters owner) fp written)
    (inTable : InTable volume size fs allocation owner entry) (changed : fp.written = true)
    (whole : fp.fsize = written.length) :
    ∃ fs' disk' after fp', (fClose fp).Outcome machine (.ok, fp') after ∧
      Storing vol volume size build fmt counts fs' disk' after allocation owner ∧ Used fs fs' ∧
      Recorded (disk entry.1) (disk' entry.1) entry.2 ((allocation.clusters owner).headD 0)
        written.length ∧
      (∀ sector, fs.fatbase ≤ sector → sector ≠ entry.1 →
        (∀ number, number < (allocation.clusters owner).length * fs.csize →
          sector ≠ fileSector fs (allocation.clusters owner) number) → disk' sector = disk sector) ∧
      (fileBytes fs (allocation.clusters owner) disk').slice 0 written.length = written ∧
      written.length ≤ (allocation.clusters owner).length * fs.csize * sectorSize ∧
      Settled volume size fs' disk' after ∧ fp'.Closed := by
  have area := storing.area
  have enough := (writing.enough area.positive).1
  have fptr := writing.fptr
  have room := writing.room area.positive
  have there (dirty : fp.dirty = true) :
      passed fp - 1 < (allocation.clusters owner).length * fs.csize ∧
        fp.dsect = fileSector fs (allocation.clusters owner) (passed fp - 1) := by
    obtain ⟨begun, there⟩ := writing.dirty dirty
    exact ⟨by omega, there⟩
  obtain ⟨middle, flush, storingMiddle⟩ := flushBuffer_flushes storing fun dirty => ⟨_, there dirty⟩
  have away (sector : Nat) (apart : ∀ number,
      number < (allocation.clusters owner).length * fs.csize →
        sector ≠ fileSector fs (allocation.clusters owner) number) :
      flushed fp disk sector = disk sector := by
    rw [flushed]
    split_ifs with dirty
    · exact Function.update_of_ne ((there dirty).2 ▸ apart _ (there dirty).1) _ _
    · rfl
  have first : fp.orgClust < 2 ^ 32 := by
    have few := storing.allots.tabled.width
    have widest : 2 ^ entryBits fmt ≤ 2 ^ 32 := by cases fmt <;> decide
    rw [writing.first]
    cases cells : allocation.clusters owner with
    | nil => decide
    | cons clst rest =>
      have upper := (storing.chain.range clst (cells ▸ List.mem_cons_self)).2
      exact Nat.lt_trans upper (Nat.lt_of_lt_of_le few widest)
  have small := storing.chain.small area
  obtain ⟨fs', disk', after, update, storingAfter, used, recorded, kept, settled⟩ :=
    @updateEntry_records Owner vol entry volume size build fmt counts fs _ middle allocation owner
      { fp with dirty := false } storingMiddle inTable writing.entry first
      (show fp.fsize < 2 ^ 32 by omega)
  rw [away _ (inTable.apart storing)] at recorded
  refine ⟨fs', disk', after, { fp with dirty := false, written := false, fs := none }, ?_,
    storingAfter, used, ?_, fun sector behind other apart =>
    (kept sector other behind).trans (away sector apart), ?_, room, settled, rfl, rfl, rfl⟩
  · rw [fClose]
    refine outcome_bind.mpr ⟨(.ok, { fp with dirty := false, written := false }), after, ?_,
      outcome_pure.mpr ⟨rfl, rfl⟩⟩
    rw [fSync]
    refine outcome_bind.mpr ⟨.ok, machine, ?_, ?_⟩
    · rw [validate]
      refine outcome_bind.mpr ⟨_, _, outcome_get.mpr ⟨rfl, rfl⟩, ?_⟩
      rw [writing.owner, Option.bind_some, storing.allots.sees.registered]
      refine outcome_pure.mpr ⟨(if_pos ⟨?_, writing.id.symm⟩).symm, rfl⟩
      rw [storing.allots.tabled.type, Option.isSome_some]
    · have drive : fp.fs.getD 0 = vol := by rw [writing.owner, Option.getD_some]
      rw [if_neg (not_not.mpr rfl), changed, if_neg (not_not.mpr rfl), drive]
      refine outcome_bind.mpr ⟨_, _, flush, ?_⟩
      rw [if_neg (not_not.mpr rfl)]
      exact update
  · rw [← writing.first, ← whole]
    exact recorded
  · refine Eq.trans (List.map_congr_left fun index member => ?_) writing.bytes
    have before := List.mem_range.mp member
    refine @Striped.striped_congr Nat sectorSize
      ((allocation.clusters owner).length * fs.csize) _ _ _ _
      (fun number inside => ?_) (by omega)
    have data := (area.sector storing.chain inside).1
    refine kept _ (fun same => inTable.apart storing number inside same.symm) ?_
    exact ((Nat.le_add_right _ _).trans area.behind).trans data

end Entry

end Ff

end Hdfmonkey
