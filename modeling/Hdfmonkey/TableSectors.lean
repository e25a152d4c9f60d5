/-
This file says where the entries of a directory table lie: in the fixed sectors of a root
directory, or in the sectors of a chain of clusters. Seeking and stepping in a table come to
the sectors and places that these are, and stop where the table ends.

A table is worked on through the window, which may be anywhere between the calls.
-/

import Hdfmonkey.FileSectors

namespace Hdfmonkey

namespace Ff

open Program

/-! ### Places -/

/-- The sector of a table that has the given number in it. A table without clusters is the fixed
one. -/
def tableSector (fs : Fatfs) (cells : List Nat) (number : Nat) : Nat :=
  if cells = [] then fs.dirbase + number else fileSector fs cells number

/-- The number of the entries of a table. -/
def tableLength (fs : Fatfs) (cells : List Nat) : Nat :=
  if cells = [] then fs.nRootdir else cells.length * fs.csize * 16

/-- An entry of a table. -/
def tableSlot (fs : Fatfs) (cells : List Nat) (disk : Nat → Buffer) (index : Nat) :
    Buffer := fun place =>
  if place < 32 then disk (tableSector fs cells (index / 16)) (index % 16 * 32 + place) else 0

/-- The entries of a table from an index on. -/
def tableSlots (fs : Fatfs) (cells : List Nat) (disk : Nat → Buffer) (index : Nat) : List Buffer :=
  (List.range' index (tableLength fs cells - index)).map (tableSlot fs cells disk)

/-- A volume, and a table on it that begins at a cluster, or in the fixed sectors. The root
directory begins at cluster 0 whatever it is. -/
structure OnTable (vol : Nat) (volume : VolumeContainer) (size : Nat) (build : Build)
    (fmt : FatType)
    (fs : Fatfs) (disk : Nat → Buffer) (machine : Machine) (cells : List Nat) (start : Nat) :
    Prop where
  sees : Sees vol volume size build fs disk machine
  tabled : Tabled volume size fmt fs
  area : DataArea volume size fs
  power : ∃ bits, fs.csize = 2 ^ bits
  linked : Linked (linksOf fmt fs disk) cells
  begins : (if start = 0 ∧ fmt = .fat32 then fs.dirbase else start) = cells.headD 0
  fixed : cells = [] → fs.fatbase + fs.nFats * fs.sectsFat ≤ fs.dirbase ∧
    fs.dirbase + fs.nRootdir / 16 ≤ fs.database ∧ fs.nRootdir % 16 = 0

/-- A directory object that is at an entry of a table. -/
structure AtSlot (vol : Nat) (fs : Fatfs) (cells : List Nat) (start : Nat) (dj : Dir)
    (index : Nat) : Prop where
  drive : dj.fs = vol
  sclust : dj.sclust = start
  number : dj.index = index
  sect : dj.sect = tableSector fs cells (index / 16)
  dir : dj.dir = some (index % 16 * 32)
  clust : dj.clust = cells.getD (index / 16 / fs.csize) 0

section Tables

variable {vol : Nat} {volume : VolumeContainer} {size : Nat} {build : Build} {fmt : FatType}
  {fs : Fatfs} {disk : Nat → Buffer} {machine : Machine} {cells : List Nat} {start index : Nat}
  {dj : Dir}

theorem OnTable.windowed {win : Buffer} {winsect : Nat} {wflag : Bool} {after : Machine}
    (onTable : OnTable vol volume size build fmt fs disk machine cells start)
    (sees : Sees vol volume size build { fs with win, winsect, wflag } disk after) :
    OnTable vol volume size build fmt { fs with win, winsect, wflag } disk after cells start :=
  ⟨sees, { onTable.tabled with }, { onTable.area with }, onTable.power, onTable.linked,
    onTable.begins, onTable.fixed⟩

theorem OnTable.chain (onTable : OnTable vol volume size build fmt fs disk machine cells start) :
    Chain fs cells := .of_linked onTable.linked

/-- The sector of an entry of a table is worked on through the window. -/
theorem OnTable.worked (onTable : OnTable vol volume size build fmt fs disk machine cells start)
    (inside : index < tableLength fs cells) :
    (fatArea fs).Worked volume size (tableSector fs cells (index / 16)) ∧
      fs.fatbase + fs.nFats * fs.sectsFat ≤ tableSector fs cells (index / 16) := by
  have area := onTable.area
  rw [tableLength] at inside
  rw [tableSector]
  split_ifs at inside ⊢ with none
  · obtain ⟨behind, front, whole⟩ := onTable.fixed none
    have near := area.near
    have within := area.inside
    have before : fs.dirbase + index / 16 + 1 ≤ fs.database := by omega
    have most := Nat.mul_le_mul_right sectorSize before
    rw [Nat.add_mul, Nat.one_mul] at most
    rw [Nat.add_mul] at within
    refine ⟨⟨?_, .inr (behind.trans (Nat.le_add_right _ _)), ?_, ?_⟩,
      behind.trans (Nat.le_add_right _ _)⟩
    · exact (Nat.le_add_right _ _).trans (behind.trans (Nat.le_add_right _ _))
    · exact Nat.lt_of_lt_of_le before ((Nat.le_add_right _ _).trans near)
    · omega
  · have number : index / 16 < cells.length * fs.csize := by omega
    obtain ⟨lower, upper⟩ := area.sector onTable.chain number
    exact ⟨area.worked lower upper, area.behind.trans lower⟩

/-- Links of a chain are followed. -/
theorem followLinks_follows (onTable : OnTable vol volume size build fmt fs disk machine
    cells start)
    (links : Nat) {number : Nat} (within : number + links < cells.length) :
    ∃ win winsect wflag after,
      (followLinks vol fs.maxClust links (cells.getD number 0)).Outcome machine
        (.ok (cells.getD (number + links) 0)) after ∧
      OnTable vol volume size build fmt { fs with win, winsect, wflag } disk after cells start := by
  induction links generalizing fs machine number with
  | zero => exact ⟨_, _, _, machine, outcome_pure.mpr ⟨rfl, rfl⟩, onTable⟩
  | succ links inductionHypothesis =>
    have member (place : Nat) (inside : place < cells.length) : cells.getD place 0 ∈ cells := by
      rw [List.getD_eq_getElem _ _ inside]
      exact List.getElem_mem inside
    have link := onTable.linked.next_at (show number + 1 < cells.length by omega) 0
    obtain ⟨lower, upper⟩ := onTable.chain.range _ (member number (by omega))
    obtain ⟨lower', upper'⟩ := onTable.chain.range _ (member (number + 1) (by omega))
    obtain ⟨win, winsect, wflag, middle, got, _, seesMiddle⟩ :=
      getFat_sees onTable.sees onTable.tabled lower upper
    rw [next_entry link] at got
    have small : cells.getD (number + 1) 0 < 2 ^ 28 := by
      have width := onTable.tabled.width
      have widest : 2 ^ entryBits fmt ≤ 2 ^ 28 := by cases fmt <;> decide
      exact Nat.lt_trans upper' (Nat.lt_of_lt_of_le width widest)
    obtain ⟨win, winsect, wflag, after, run, onTableAfter⟩ :=
      @inductionHypothesis _ middle (onTable.windowed seesMiddle) (number + 1) (by omega)
    refine ⟨win, winsect, wflag, after, ?_, onTableAfter⟩
    rw [followLinks]
    refine outcome_bind.mpr ⟨_, _, got, ?_⟩
    rw [if_neg (by rw [diskError]; omega), if_neg (by omega), Nat.add_comm links 1, ← Nat.add_assoc]
    exact run

/-- The cluster and the place in it of an entry of a chain. -/
theorem slot_parts (csize index : Nat) :
    index / (16 * csize) = index / 16 / csize ∧ index % (16 * csize) / 16 = index / 16 % csize ∧
      index % (16 * csize) % 16 = index % 16 := by
  refine ⟨(Nat.div_div_eq_div_mul _ _ _).symm, Nat.mod_mul_right_div_self _ _ _, ?_⟩
  exact Nat.mod_mod_of_dvd _ (Nat.dvd_mul_right _ _)

/-- `dir_seek` comes to an entry of the table. -/
theorem dirSeek_comes (onTable : OnTable vol volume size build fmt fs disk machine cells start)
    (drive : dj.fs = vol) (sclust : dj.sclust = start) (inside : index < tableLength fs cells) :
    ∃ dj' win winsect wflag after, (dirSeek dj index).Outcome machine (.ok, dj') after ∧
      OnTable vol volume size build fmt { fs with win, winsect, wflag } disk after cells start ∧
      AtSlot vol fs cells start dj' index ∧
      dj' = { dj with
        index := dj'.index
        clust := dj'.clust
        sect := dj'.sect
        dir := dj'.dir } := by
  subst drive sclust
  have sees := onTable.sees
  have begun := onTable.tabled.begun
  have word := build.le_word
  have first : (if dj.sclust = 0 ∧ fs.fsType = some .fat32 then fs.dirbase else dj.sclust) =
      cells.headD 0 := by
    simpa only [onTable.tabled.type, Option.some.injEq] using onTable.begins
  have valid : ¬(dj.sclust = 1 ∨ dj.sclust ≥ fs.maxClust) := by
    by_cases zero : dj.sclust = 0
    · omega
    · rw [if_neg fun both => zero both.1] at first
      cases cells with
      | nil => exact absurd first zero
      | cons clst rest =>
        rw [List.headD_cons] at first
        have range := onTable.chain.range clst List.mem_cons_self
        omega
  rw [tableLength] at inside
  by_cases none : cells = []
  · subst none
    rw [if_pos rfl] at inside
    rw [List.headD_nil] at first
    have front := (onTable.fixed rfl).2.1
    have near := onTable.area.near
    have sector : machine.build.add fs.dirbase (index / 16) = fs.dirbase + index / 16 := by
      rw [reach] at near
      rw [sees.word, build.add_of_lt]
      omega
    refine ⟨{ dj with
        index
        clust := 0
        sect := machine.build.add fs.dirbase (index / 16)
        dir := some (index % 16 * 32) }, fs.win, fs.winsect, fs.wflag, machine, ?_, onTable,
      ⟨rfl, rfl, rfl, sector, rfl, List.getD_nil.symm⟩, rfl⟩
    rw [dirSeek, outcome_fatfs_bind sees.registered]
    dsimp only
    rw [if_neg valid]
    refine outcome_bind.mpr ⟨_, _, outcome_get.mpr ⟨rfl, rfl⟩, ?_⟩
    rw [first, if_pos rfl, if_neg (Nat.not_le.mpr inside)]
    exact outcome_pure.mpr ⟨rfl, rfl⟩
  · rw [if_neg none] at inside
    obtain ⟨quotient, rest, place⟩ := slot_parts fs.csize index
    have number : index / 16 < cells.length * fs.csize := by omega
    have links : 0 + index / 16 / fs.csize < cells.length := by
      rw [Nat.zero_add]
      exact (Nat.div_lt_iff_lt_mul onTable.area.positive).mpr number
    obtain ⟨win, winsect, wflag, after, followed, onTableAfter⟩ :=
      followLinks_follows onTable _ links
    rw [Nat.zero_add] at followed
    have head : cells.headD 0 = cells.getD 0 0 := by cases cells <;> rfl
    have present : cells.headD 0 ≠ 0 := by
      cases cells with
      | nil => exact absurd rfl none
      | cons clst rest =>
        rw [List.headD_cons]
        have range := onTable.chain.range clst List.mem_cons_self
        omega
    obtain ⟨_, sector⟩ := @clust2sect_fileSector volume size machine.build
      { fs with win, winsect, wflag } cells (index / 16) onTableAfter.area onTableAfter.chain
      onTableAfter.sees.behind number
    refine ⟨{ dj with
        index
        clust := cells.getD (index / 16 / fs.csize) 0
        sect := fileSector fs cells (index / 16)
        dir := some (index % 16 * 32) }, win, winsect, wflag, after, ?_, onTableAfter,
      ⟨rfl, rfl, rfl, (if_neg none).symm, rfl, rfl⟩, rfl⟩
    rw [dirSeek, outcome_fatfs_bind sees.registered]
    dsimp only
    rw [if_neg valid]
    refine outcome_bind.mpr ⟨_, _, outcome_get.mpr ⟨rfl, rfl⟩, ?_⟩
    rw [first, if_neg present, head]
    refine outcome_bind.mpr ⟨.ok (cells.getD (index / 16 / fs.csize) 0), after, ?_, ?_⟩
    · rw [show sectorSize / 32 = 16 from rfl, quotient]
      exact followed
    · dsimp only
      rw [outcome_fatfs_bind onTableAfter.sees.registered, Dir.point,
        show sectorSize / 32 = 16 from rfl, rest, place]
      refine outcome_pure.mpr ⟨?_, rfl⟩
      rw [sector]
      rfl

/-- The cluster behind one of the chain is found. -/
theorem nextCluster_finds (onTable : OnTable vol volume size build fmt fs disk machine cells start)
    (stretch : Bool) (drive : dj.fs = vol) {number : Nat} (clust : dj.clust = cells.getD number 0)
    (behind : number + 1 < cells.length) :
    ∃ win winsect wflag after,
      (nextCluster dj stretch).Outcome machine (.ok (cells.getD (number + 1) 0)) after ∧
      OnTable vol volume size build fmt { fs with win, winsect, wflag } disk after cells start := by
  subst drive
  have member (place : Nat) (inside : place < cells.length) : cells.getD place 0 ∈ cells := by
    rw [List.getD_eq_getElem _ _ inside]
    exact List.getElem_mem inside
  have link := onTable.linked.next_at behind 0
  obtain ⟨lower, upper⟩ := onTable.chain.range _ (member number (by omega))
  obtain ⟨lower', upper'⟩ := onTable.chain.range _ (member (number + 1) behind)
  obtain ⟨win, winsect, wflag, after, got, _, seesAfter⟩ :=
    getFat_sees onTable.sees onTable.tabled lower upper
  rw [next_entry link] at got
  have width := onTable.tabled.width
  have widest : 2 ^ entryBits fmt ≤ 2 ^ 28 := by cases fmt <;> decide
  have small := Nat.lt_trans upper' (Nat.lt_of_lt_of_le width widest)
  refine ⟨win, winsect, wflag, after, ?_, onTable.windowed seesAfter⟩
  rw [nextCluster, clust]
  refine outcome_bind.mpr ⟨_, _, got, ?_⟩
  rw [if_neg (by omega), if_neg (by rw [diskError]; omega), outcome_fatfs_bind seesAfter.registered,
    if_neg (by dsimp only; omega)]
  exact outcome_pure.mpr ⟨rfl, rfl⟩

/-- Behind the last cluster of the chain there is none. -/
theorem nextCluster_ends (onTable : OnTable vol volume size build fmt fs disk machine cells start)
    (drive : dj.fs = vol) (clust : dj.clust = cells.getD (cells.length - 1) 0)
    (some : cells ≠ []) :
    ∃ win winsect wflag after,
      (nextCluster dj false).Outcome machine (.error .noFile) after ∧
      OnTable vol volume size build fmt { fs with win, winsect, wflag } disk after cells start := by
  subst drive
  have length := List.length_pos_iff.mpr some
  have inside : cells.length - 1 < cells.length := by omega
  have member : cells.getD (cells.length - 1) 0 ∈ cells := by
    rw [List.getD_eq_getElem _ _ inside]
    exact List.getElem_mem inside
  have link := onTable.linked.last_at some 0
  obtain ⟨lower, upper⟩ := onTable.chain.range _ member
  obtain ⟨win, winsect, wflag, after, got, _, seesAfter⟩ :=
    getFat_sees onTable.sees onTable.tabled lower upper
  have past := last_entry link
  have bits := @fatEntry_lt fmt (fatBytes disk fs.fatbase) (cells.getD (cells.length - 1) 0)
  have widest : 2 ^ entryBits fmt ≤ 2 ^ 28 := by cases fmt <;> decide
  have small := Nat.lt_of_lt_of_le bits widest
  refine ⟨win, winsect, wflag, after, ?_, onTable.windowed seesAfter⟩
  rw [nextCluster, clust]
  refine outcome_bind.mpr ⟨_, _, got, ?_⟩
  rw [if_neg (by omega), if_neg (by rw [diskError]; omega), outcome_fatfs_bind seesAfter.registered,
    if_pos (show _ ≥ fs.maxClust from past), if_pos Bool.false_ne_true]
  exact outcome_pure.mpr ⟨rfl, rfl⟩

/-- A number is the first of its group of `csize` exactly if the bits below are zero. -/
theorem mask_eq_zero_iff {csize : Nat} (power : ∃ bits, csize = 2 ^ bits) (number : Nat) :
    number &&& (csize - 1) = 0 ↔ number % csize = 0 := by
  obtain ⟨bits, rfl⟩ := power
  rw [Nat.and_two_pow_sub_one_eq_mod]

/-- `dir_next` comes to the next entry if the table has one. -/
theorem dirNext_comes (stretch : Bool)
    (onTable : OnTable vol volume size build fmt fs disk machine cells start)
    (at' : AtSlot vol fs cells start dj index) (inside : index + 1 < tableLength fs cells)
    (small : index + 1 < 2 ^ 16) :
    ∃ dj' win winsect wflag after, (dirNext dj stretch).Outcome machine (.ok, dj') after ∧
      OnTable vol volume size build fmt { fs with win, winsect, wflag } disk after cells start ∧
      AtSlot vol fs cells start dj' (index + 1) ∧
      dj' = { dj with
        index := dj'.index
        clust := dj'.clust
        sect := dj'.sect
        dir := dj'.dir } := by
  have sees := onTable.sees
  have positive := onTable.area.positive
  have behind := (onTable.worked (Nat.lt_of_succ_lt inside)).2
  have near := (onTable.worked inside).1.near
  have word := build.le_word
  have front := sees.behind
  have wraps : ¬((dj.index + 1) % 2 ^ 16 = 0 ∨ dj.sect = 0) := by
    rw [at'.number, at'.sect]
    omega
  have next : (dj.index + 1) % 2 ^ 16 = index + 1 := by
    rw [at'.number, Nat.mod_eq_of_lt small]
  obtain ⟨drive, sclust, -, sect, -, clust⟩ := at'
  subst drive
  by_cases crosses : (index + 1) % 16 ≠ 0
  · -- the entry is in the same sector
    have same : (index + 1) / 16 = index / 16 := by omega
    refine ⟨{ dj with index := index + 1 }.point (index + 1), fs.win, fs.winsect, fs.wflag, machine,
      ?_, onTable, ⟨rfl, sclust, rfl, same.symm ▸ sect, rfl, same.symm ▸ clust⟩, rfl⟩
    rw [dirNext]
    dsimp only
    rw [if_neg wraps, outcome_fatfs_bind sees.registered]
    refine outcome_bind.mpr ⟨_, _, outcome_get.mpr ⟨rfl, rfl⟩, ?_⟩
    rw [next, if_pos (show (index + 1) % (sectorSize / 32) ≠ 0 from crosses)]
    exact outcome_pure.mpr ⟨rfl, rfl⟩
  · rw [not_not] at crosses
    have number : (index + 1) / 16 = index / 16 + 1 := by omega
    by_cases none : cells = []
    · -- the next sector of the fixed table
      subst none
      rw [tableLength, if_pos rfl] at inside
      have place : tableSector fs [] ((index + 1) / 16) = tableSector fs [] (index / 16) + 1 := by
        rw [tableSector, tableSector, if_pos rfl, if_pos rfl, number]
        rfl
      have sector : machine.build.add dj.sect 1 = tableSector fs [] ((index + 1) / 16) := by
        rw [place, sect, sees.word, build.add_of_lt]
        rw [place, reach] at near
        omega
      refine ⟨{ dj with sect := machine.build.add dj.sect 1, index := index + 1 }.point (index + 1),
        fs.win, fs.winsect, fs.wflag, machine, ?_, onTable,
        ⟨rfl, sclust, rfl, sector, rfl, clust⟩, rfl⟩
      rw [dirNext]
      dsimp only
      rw [if_neg wraps, outcome_fatfs_bind sees.registered]
      refine outcome_bind.mpr ⟨_, _, outcome_get.mpr ⟨rfl, rfl⟩, ?_⟩
      rw [next, if_neg (show ¬(index + 1) % (sectorSize / 32) ≠ 0 from not_not.mpr crosses),
        if_pos (clust.trans List.getD_nil), if_neg (Nat.not_le.mpr inside)]
      exact outcome_pure.mpr ⟨rfl, rfl⟩
    · rw [tableLength, if_neg none] at inside
      have within : index / 16 + 1 < cells.length * fs.csize := by omega
      have present : dj.clust ≠ 0 := by
        rw [clust]
        have range := onTable.chain.range _ (Chain.cell (Nat.lt_of_succ_lt within))
        omega
      have group := mask_eq_zero_iff onTable.power ((index + 1) / 16)
      rw [number] at group
      rcases succ_in_group positive (index / 16) with ⟨less, quotient, rest⟩ |
        ⟨full, quotient, rest⟩
      · -- the next sector of the cluster
        have place : tableSector fs cells ((index + 1) / 16) =
          tableSector fs cells (index / 16) + 1 := by
          rw [tableSector, tableSector, if_neg none, if_neg none, number, fileSector_add less]
        have sector : machine.build.add dj.sect 1 = tableSector fs cells ((index + 1) / 16) := by
          rw [place, sect, sees.word, build.add_of_lt]
          rw [place, reach] at near
          omega
        have same : (index + 1) / 16 / fs.csize = index / 16 / fs.csize := by rw [number, quotient]
        refine ⟨{ dj with sect := machine.build.add dj.sect 1, index := index + 1 }.point
          (index + 1), fs.win, fs.winsect, fs.wflag, machine, ?_, onTable,
          ⟨rfl, sclust, rfl, sector, rfl, same.symm ▸ clust⟩, rfl⟩
        rw [dirNext]
        dsimp only
        rw [if_neg wraps, outcome_fatfs_bind sees.registered]
        refine outcome_bind.mpr ⟨_, _, outcome_get.mpr ⟨rfl, rfl⟩, ?_⟩
        rw [next, if_neg (show ¬(index + 1) % (sectorSize / 32) ≠ 0 from not_not.mpr crosses),
          if_neg present, show sectorSize / 32 = 16 from rfl, number,
            if_neg (by rw [group, rest]; omega)]
        exact outcome_pure.mpr ⟨rfl, rfl⟩
      · -- the first sector of the next cluster
        have behind : index / 16 / fs.csize + 1 < cells.length := by
          rw [← quotient]
          exact (Nat.div_lt_iff_lt_mul positive).mpr within
        obtain ⟨win, winsect, wflag, after, found, onTableAfter⟩ :=
          @nextCluster_finds _ _ _ _ _ _ _ _ _
            _ { dj with sect := machine.build.add dj.sect 1 } onTable
            stretch rfl _ clust behind
        have parts : (index + 1) / 16 / fs.csize = index / 16 / fs.csize + 1 := by
          rw [number, quotient]
        have sector := @clust2sect_eq volume size machine.build { fs with win, winsect, wflag } _
          onTableAfter.area (onTable.chain.range _ (Chain.cell within)).1
          (onTable.chain.range _ (Chain.cell within)).2
        have place : tableSector fs cells ((index + 1) / 16) =
            clusterStart fs (cells.getD ((index / 16 + 1) / fs.csize) 0) := by
          rw [tableSector, if_neg none, fileSector, number, rest, Nat.add_zero]
        refine ⟨{ dj with
            sect := clust2sect machine.build { fs with win, winsect, wflag }
              (cells.getD (index / 16 / fs.csize + 1) 0)
            index := index + 1
            clust := cells.getD (index / 16 / fs.csize + 1) 0 }.point (index + 1),
          win, winsect, wflag, after, ?_, onTableAfter,
          ⟨rfl, sclust, rfl, ?_, rfl, ?_⟩, rfl⟩
        · rw [dirNext]
          dsimp only
          rw [if_neg wraps, outcome_fatfs_bind sees.registered]
          refine outcome_bind.mpr ⟨_, _, outcome_get.mpr ⟨rfl, rfl⟩, ?_⟩
          rw [next, if_neg (show ¬(index + 1) % (sectorSize / 32) ≠ 0 from not_not.mpr crosses),
            if_neg present, show sectorSize / 32 = 16 from rfl, number, if_pos (group.mpr rest)]
          refine outcome_bind.mpr ⟨_, _, found, ?_⟩
          dsimp only
          rw [outcome_fatfs_bind onTableAfter.sees.registered]
          exact outcome_pure.mpr ⟨rfl, rfl⟩
        · change clust2sect machine.build _ (cells.getD (index / 16 / fs.csize + 1) 0) =
            tableSector fs cells ((index + 1) / 16)
          rw [place, quotient]
          rw [quotient] at sector
          exact sector
        · change cells.getD (index / 16 / fs.csize + 1) 0 =
            cells.getD ((index + 1) / 16 / fs.csize) 0
          rw [parts]

/-- `dir_next` stops where the table ends, or the index numbers do. -/
theorem dirNext_ends (onTable : OnTable vol volume size build fmt fs disk machine cells start)
    (at' : AtSlot vol fs cells start dj index) (inside : index < tableLength fs cells)
    (last : tableLength fs cells ≤ index + 1 ∨ index + 1 = 2 ^ 16) (small : index < 2 ^ 16) :
    ∃ dj' win winsect wflag after, (dirNext dj false).Outcome machine (.noFile, dj') after ∧
      OnTable vol volume size build fmt { fs with win, winsect, wflag } disk after cells start ∧
      dj' = { dj with sect := dj'.sect } := by
  have sees := onTable.sees
  have behind := (onTable.worked inside).2
  have front := sees.behind
  obtain ⟨drive, -, number, sect, -, clust⟩ := at'
  subst drive
  by_cases wraps : index + 1 = 2 ^ 16
  · refine ⟨dj, fs.win, fs.winsect, fs.wflag, machine, ?_, onTable, rfl⟩
    rw [dirNext]
    dsimp only
    rw [number, wraps, if_pos (.inl (Nat.mod_self _))]
    exact outcome_pure.mpr ⟨rfl, rfl⟩
  · have ends : tableLength fs cells = index + 1 := by omega
    have next : (dj.index + 1) % 2 ^ 16 = index + 1 := by
      rw [number, Nat.mod_eq_of_lt (by omega)]
    have goes : ¬(index + 1 = 0 ∨ dj.sect = 0) := by
      rw [sect]
      omega
    have crosses : (index + 1) % (sectorSize / 32) = 0 := by
      rw [show sectorSize / 32 = 16 from rfl, ← ends, tableLength]
      split_ifs with none
      · exact (onTable.fixed none).2.2
      · exact Nat.mul_mod_left _ _
    by_cases none : cells = []
    · subst none
      rw [tableLength, if_pos rfl] at ends
      refine ⟨{ dj with sect := machine.build.add dj.sect 1 }, fs.win, fs.winsect, fs.wflag,
        machine, ?_, onTable, rfl⟩
      rw [dirNext]
      dsimp only
      rw [next, if_neg goes, outcome_fatfs_bind sees.registered]
      refine outcome_bind.mpr ⟨_, _, outcome_get.mpr ⟨rfl, rfl⟩, ?_⟩
      rw [if_neg (not_not.mpr crosses), if_pos (clust.trans List.getD_nil), if_pos ends.le]
      exact outcome_pure.mpr ⟨rfl, rfl⟩
    · rw [tableLength, if_neg none] at ends
      have positive := onTable.area.positive
      have length := List.length_pos_iff.mpr none
      have sectors : (index + 1) / 16 = cells.length * fs.csize := by omega
      have sum : index / 16 + 1 = cells.length * fs.csize := by
        have some := Nat.mul_pos length positive
        omega
      have within : index / 16 < cells.length * fs.csize := sum ▸ Nat.lt_succ_self _
      have cluster : index / 16 / fs.csize = cells.length - 1 := by
        rcases succ_in_group positive (index / 16) with ⟨less, _, rest⟩ | ⟨_, quotient, _⟩
        · rw [sum, Nat.mul_mod_left] at rest
          exact absurd rest (Nat.succ_ne_zero _).symm
        · rw [sum, Nat.mul_div_cancel _ positive] at quotient
          omega
      have present : dj.clust ≠ 0 := by
        rw [clust]
        have range := onTable.chain.range _ (Chain.cell within)
        omega
      rw [cluster] at clust
      obtain ⟨win, winsect, wflag, after, ended, onTableAfter⟩ :=
        @nextCluster_ends _ _ _ _ _ _ _ _ _ _ { dj with sect := machine.build.add dj.sect 1 }
          onTable rfl
          clust none
      refine ⟨{ dj with sect := machine.build.add dj.sect 1 }, win, winsect, wflag, after, ?_,
        onTableAfter, rfl⟩
      rw [dirNext]
      dsimp only
      rw [next, if_neg goes, outcome_fatfs_bind sees.registered]
      refine outcome_bind.mpr ⟨_, _, outcome_get.mpr ⟨rfl, rfl⟩, ?_⟩
      rw [if_neg (not_not.mpr crosses), if_neg present, show sectorSize / 32 = 16 from rfl, sectors,
        if_pos ((mask_eq_zero_iff onTable.power _).mpr (Nat.mul_mod_left _ _))]
      refine outcome_bind.mpr ⟨_, _, ended, ?_⟩
      exact outcome_pure.mpr ⟨rfl, rfl⟩

end Tables

end Ff

end Hdfmonkey
