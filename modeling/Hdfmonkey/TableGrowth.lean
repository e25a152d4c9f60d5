/-
This file proves what `dir_next` does where it may stretch a table: the table gets another
cluster if one is left, the cluster is cleared, and no sector of another cluster changes.

The driver clears a cluster from its window. While it does so the window is at the next
sector that it will write and shows nothing of what is there.
-/

import Hdfmonkey.DirSearch
import Hdfmonkey.FileClose

namespace Hdfmonkey

namespace Ff

open Program

/-! ### Clearing sectors from the window -/

/-- Some sectors in a row are given one content. -/
def cleared (disk : Nat → Buffer) (sector count : Nat) (win : Buffer) : Nat → Buffer :=
  fun place => if sector ≤ place ∧ place < sector + count then cut win else disk place

section Clearing

variable {vol : Nat} {volume : VolumeContainer} {size : Nat} {build : Build} {fs : Fatfs}
  {disk : Nat → Buffer} {machine : Machine} {win : Buffer} {winsect : Nat}

/-- The window may be moved by hand while it is unchanged, with a change of another sector. -/
theorem Sees.load (sees : Sees vol volume size build fs disk machine)
    (mode : volume.fd.writeable = true) (clean : fs.wflag = false)
    (worked : (fatArea fs).Worked volume size winsect) (win : Buffer) :
    Sees vol volume size build { fs with win, winsect, wflag := true }
      (Function.update disk winsect (cut win))
      (machine.register vol (some { fs with win, winsect, wflag := true })) := by
  have there : winsect ≠ 0 :=
    Nat.pos_iff_ne_zero.mp (Nat.lt_of_lt_of_le sees.behind worked.first)
  have loaded : cacheOf (machine.register vol (some { fs with win, winsect, wflag := true })) volume
      { fs with win, winsect, wflag := true } =
      (cacheOf machine volume fs).load winsect (cut win) := by
    rw [WriteBack.load, cacheOf, if_neg there]
    rfl
  refine sees.step _ { sees.attends with mode := fun _ => mode } sees.enough rfl sees.turns
    (Machine.fatFs_register _ _ _) ?_ (fun sector known => ?_) fun sector before => ?_
  · rw [loaded]
    exact sees.coherent.load clean worked _
  · rw [loaded, WriteBack.view_load sees.coherent clean]
    by_cases same : sector = winsect
    · rw [same, Function.update_self, Function.update_self]
    · rw [Function.update_of_ne same, Function.update_of_ne same, sees.seen sector known]
  · have away : sector ≠ winsect := Nat.ne_of_lt (Nat.lt_of_lt_of_le before worked.first)
    rw [Function.update_of_ne away]
    exact sees.front sector before

/-- It may be moved to a sector whose content it shows. -/
theorem Sees.point (sees : Sees vol volume size build fs disk machine) (clean : fs.wflag = false)
    (worked : (fatArea fs).Worked volume size winsect) (shown : cut win = disk winsect) :
    Sees vol volume size build { fs with win, winsect, wflag := false } disk
      (machine.register vol (some { fs with win, winsect, wflag := false })) := by
  have there : winsect ≠ 0 :=
    Nat.pos_iff_ne_zero.mp (Nat.lt_of_lt_of_le sees.behind worked.first)
  have view := (sees.seen winsect worked).trans shown.symm
  have moved : cacheOf (machine.register vol (some { fs with win, winsect, wflag := false })) volume
      { fs with win, winsect, wflag := false } =
      (cacheOf machine volume fs).move (fatArea fs).copies winsect := by
    have unchanged : (cacheOf machine volume fs).dirty = false := clean
    have flushed := @WriteBack.flush_of_clean _ _ _ (fatArea fs).copies _ unchanged
    rw [WriteBack.move, flushed]
    rw [WriteBack.view] at view
    split_ifs at view ⊢ with already
    · rw [cacheOf, if_neg there, ← view, ← already, cacheOf, clean]
      rfl
    · rw [cacheOf, if_neg there, ← view, cacheOf, clean]
      rfl
  refine sees.step _ { sees.attends with mode := fun dirty => absurd dirty Bool.false_ne_true }
    sees.enough rfl sees.turns (Machine.fatFs_register _ _ _) ?_ (fun sector known => ?_) sees.front
  · rw [moved]
    exact sees.coherent.move (FatArea.mirroring _) worked
  · rw [moved, ← sees.seen sector known]
    exact WriteBack.view_move (FatArea.mirroring _) sees.coherent known winsect

/-- The loop that clears a cluster writes the window to one sector after the other, by induction on
their number. -/
theorem clearSectors_clears {seen : Buffer} {place : Nat} (win : Buffer) (count : Nat)
    (sees : Sees vol volume size build { fs with win := seen, winsect := place, wflag := false }
      disk machine)
    (mode : volume.fd.writeable = true)
    (worked : ∀ offset < count, (fatArea fs).Worked volume size (winsect + offset)) :
    ∃ seen place after, (clearSectors build vol count).Outcome
        (machine.register vol (some { fs with win, winsect, wflag := false })) .ok
        (after.register vol (some { fs with win, winsect := winsect + count, wflag := false })) ∧
      Sees vol volume size build { fs with win := seen, winsect := place, wflag := false }
        (cleared disk winsect count win) after := by
  induction count generalizing machine disk winsect seen place with
  | zero =>
    refine ⟨seen, place, machine, outcome_pure.mpr ⟨rfl, rfl⟩, ?_⟩
    have same : cleared disk winsect 0 win = disk := funext fun sector => if_neg (by omega)
    rw [same]
    exact sees
  | succ count inductionHypothesis =>
    have first := worked 0 (Nat.succ_pos _)
    rw [Nat.add_zero] at first
    have loaded := sees.load mode rfl first win
    obtain ⟨flushed, run, seesFlushed, _⟩ := moveWindow_flush loaded
    have word := build.le_word
    have near := first.near
    have next : build.add winsect 1 = winsect + 1 := by
      rw [reach] at near
      exact build.add_of_lt (by omega)
    obtain ⟨seen, place, after, goesOn, seesAfter⟩ := @inductionHypothesis _ flushed (winsect + 1)
      win winsect seesFlushed fun offset before => by
        rw [Nat.add_assoc, Nat.add_comm 1]
        exact worked _ (Nat.succ_lt_succ before)
    refine ⟨seen, place, after, ?_, ?_⟩
    · rw [clearSectors, outcome_modifyFatfs_bind, Machine.fatFs_register, Option.map_some,
        Machine.register_register]
      refine outcome_bind.mpr ⟨_, _, run, ?_⟩
      rw [if_neg (not_not.mpr rfl), outcome_modifyFatfs_bind, seesFlushed.registered,
        Option.map_some, next]
      rw [Nat.add_assoc, Nat.add_comm 1] at goesOn
      exact goesOn
    · have same : cleared (Function.update disk winsect (cut win)) (winsect + 1) count win =
          cleared disk winsect (count + 1) win := by
        funext sector
        rw [cleared, cleared]
        by_cases here : sector = winsect
        · rw [if_neg (by omega), if_pos (by omega), here, Function.update_self]
        · rw [Function.update_of_ne here]
          exact if_congr (by omega) rfl rfl
      rw [← same]
      exact seesAfter

end Clearing

/-! ### Another cluster for a table -/

/-- A sector in front of the clusters, or of a cluster that has an owner. -/
def Occupied {Owner : Type} (fs : Fatfs) (allocation : Allocation Owner) (sector : Nat) : Prop :=
  sector < fs.database ∨ ∃ owner number,
    number < (allocation.clusters owner).length * fs.csize ∧
      sector = fileSector fs (allocation.clusters owner) number

/-- What is left as it was when a table gets more clusters. -/
structure Extended {Owner : Type} (table : Owner) (fs : Fatfs) (disk : Nat → Buffer)
    (allocation : Allocation Owner) (fs' : Fatfs) (disk' : Nat → Buffer)
    (allocation' : Allocation Owner) : Prop where
  used : Used fs fs'
  others : ∀ other, other ≠ table → allocation'.clusters other = allocation.clusters other
  longer : ∃ more, allocation'.clusters table = allocation.clusters table ++ more
  kept : ∀ sector, OutsideFat fs sector → Occupied fs allocation sector → disk' sector = disk sector

section Growth

variable {Owner : Type} {vol : Nat} {volume : VolumeContainer} {size : Nat} {build : Build}
  {fmt : FatType} {counts : Prop} {fs fs' fs'' : Fatfs} {disk disk' disk'' : Nat → Buffer}
  {machine after : Machine} {allocation allocation' allocation'' : Allocation Owner} {table : Owner}
  {clst : Nat}

theorem Used.refl : Used fs fs := ⟨_, _, _, _, _, _, rfl⟩

theorem Used.outside (used : Used fs fs') (sector : Nat) :
    OutsideFat fs' sector ↔ OutsideFat fs sector := by
  obtain ⟨_, _, _, _, _, _, rfl⟩ := used
  rfl

theorem Used.database (used : Used fs fs') : fs'.database = fs.database := by
  obtain ⟨_, _, _, _, _, _, rfl⟩ := used
  rfl

theorem Extended.refl : Extended table fs disk allocation fs disk allocation :=
  ⟨.refl, fun _ _ => rfl, ⟨[], (List.append_nil _).symm⟩, fun _ _ _ => rfl⟩

/-- A sector that is occupied stays occupied. -/
theorem Extended.occupied (extended : Extended table fs disk allocation fs' disk' allocation')
    (positive : 0 < fs.csize) {sector : Nat} (occupied : Occupied fs allocation sector) :
    Occupied fs' allocation' sector := by
  have csize := extended.used.csize
  have sectors := extended.used.fileSector
  rcases occupied with front | ⟨owner, number, inside, rfl⟩
  · exact .inl (extended.used.database ▸ front)
  · refine .inr ⟨owner, number, ?_⟩
    rw [csize, sectors]
    by_cases same : owner = table
    · obtain ⟨more, longer⟩ := extended.longer
      rw [same] at inside ⊢
      rw [longer, fileSector_append positive inside, List.length_append, Nat.add_mul]
      exact ⟨Nat.lt_add_right _ inside, rfl⟩
    · rw [extended.others owner same]
      exact ⟨inside, rfl⟩

theorem Extended.trans (first : Extended table fs disk allocation fs' disk' allocation')
    (second : Extended table fs' disk' allocation' fs'' disk'' allocation'')
    (positive : 0 < fs.csize) : Extended table fs disk allocation fs'' disk'' allocation'' := by
  obtain ⟨more, longer⟩ := first.longer
  obtain ⟨evenMore, evenLonger⟩ := second.longer
  refine ⟨first.used.trans second.used, fun other different =>
    (second.others other different).trans (first.others other different), ⟨more ++ evenMore, ?_⟩,
    fun sector outside occupied => ?_⟩
  · rw [evenLonger, longer, List.append_assoc]
  · exact (second.kept sector ((first.used.outside sector).mpr outside)
      (first.occupied positive occupied)).trans (first.kept sector outside occupied)

/-- The sectors of a cluster that has no owner are not occupied. -/
theorem not_occupied (allots : Allots vol volume size build fmt counts fs disk machine allocation)
    (area : DataArea volume size fs) (lower : 2 ≤ clst) (free : ¬allocation.Taken clst)
    {offset : Nat} (inside : offset < fs.csize) :
    ¬Occupied fs allocation (clusterStart fs clst + offset) := by
  rintro (front | ⟨owner, number, within, same⟩)
  · rw [clusterStart, Nat.add_assoc] at front
    exact absurd front (Nat.not_lt.mpr (Nat.le_add_right _ _))
  · have member := Chain.cell within
    obtain ⟨cell, _⟩ := clusterStart_inj lower (allots.range member).1 inside
      (Nat.mod_lt _ area.positive) same
    exact free ⟨owner, cell ▸ member⟩

variable [DecidableEq Owner]

omit [DecidableEq Owner] in
theorem stretchTable_fails {res : FResult} {clust : Nat}
    (run : (stretchTable vol clust).Outcome machine (.error res) after) : res ≠ .ok := by
  rintro rfl
  obtain ⟨_, _, _, run⟩ := outcome_bind.mp run
  split_ifs at run
  · exact absurd (outcome_pure.mp run).1 (by simp)
  · exact absurd (outcome_pure.mp run).1 (by simp)
  · exact absurd (outcome_pure.mp run).1 (by simp)
  · obtain ⟨_, _, _, run⟩ := outcome_bind.mp run
    split_ifs at run
    · exact absurd (outcome_pure.mp run).1 (by simp)
    · obtain ⟨_, _, _, run⟩ := outcome_bind.mp run
      obtain ⟨_, _, _, run⟩ := outcome_bind.mp run
      obtain ⟨_, _, _, run⟩ := outcome_bind.mp run
      obtain ⟨_, _, _, run⟩ := outcome_bind.mp run
      split_ifs at run
      · exact absurd (outcome_pure.mp run).1 (by simp)
      · obtain ⟨_, _, _, run⟩ := outcome_bind.mp run
        exact absurd (outcome_pure.mp run).1 (by simp)

/-- A table that is stretched gets the cluster that the allocator chooses, and it is cleared. -/
theorem stretchTable_stretches
    (allots : Allots vol volume size build fmt counts fs disk machine allocation)
    (area : DataArea volume size fs) (mode : volume.fd.writeable = true)
    (run : (stretchTable vol ((allocation.clusters table).getLast?.getD 0)).Outcome machine
      (.ok clst) after) :
    ∃ fs' disk' allocation', Allots vol volume size build fmt counts fs' disk' after allocation' ∧
      allocation'.clusters table = allocation.clusters table ++ [clst] ∧
      Extended table fs disk allocation fs' disk' allocation' := by
  obtain ⟨fs₁, disk₁, chained, created, allots₁, reworked, _, outside⟩ :=
    createChain_grows allots mode table
  obtain ⟨_, _, creating, rest⟩ := outcome_bind.mp run
  obtain ⟨rfl, rfl⟩ := creating.unique created
  cases choice : allocation.choice fs.maxClust table with
  | none =>
    rw [choice, Option.getD_none, if_pos rfl] at rest
    exact absurd (outcome_pure.mp rest).1 (by simp)
  | some fresh =>
    obtain ⟨lower, upper, _⟩ := allots.chosen choice
    have free := Allocation.free_of_choice choice
    have width := Nat.lt_trans upper allots.tabled.width
    have widest : 2 ^ entryBits fmt ≤ 2 ^ 28 := by cases fmt <;> decide
    rw [choice, Option.getD_some, if_neg (by omega), if_neg (by omega),
      if_neg (by rw [diskError]; omega)] at rest
    obtain ⟨flushed, flushing, seesFlushed, _⟩ := moveWindow_flush allots₁.sees
    obtain ⟨_, _, flushes, rest⟩ := outcome_bind.mp rest
    obtain ⟨rfl, rfl⟩ := flushes.unique flushing
    have area₁ := reworked.dataArea area
    have csize : fs₁.csize = fs.csize := reworked.csize
    have begins : clusterStart fs₁ fresh = clusterStart fs fresh := by
      obtain ⟨_, _, _, _, _, _, _, rfl⟩ := reworked
      rfl
    have upper₁ : fresh < fs₁.maxClust := reworked.maxClust.symm ▸ upper
    have cells (offset : Nat) (inside : offset < fs₁.csize) :
        (fatArea fs₁).Worked volume size (clusterStart fs₁ fresh + offset) := by
      obtain ⟨least, most⟩ := clusterStart_range lower upper₁ inside
      exact area₁.worked least most
    have first := cells 0 area₁.positive
    rw [Nat.add_zero] at first
    have sector : clust2sect build { fs₁ with wflag := false } fresh = clusterStart fs₁ fresh :=
      @clust2sect_eq volume size build { fs₁ with wflag := false } _ { area₁ with } lower upper₁
    -- the cluster is cleared
    let win := fs₁.win.fill 0 sectorSize 0
    obtain ⟨seen, place, done, clears, seesDone⟩ :=
      clearSectors_clears win fs₁.csize seesFlushed mode cells
    rw [if_neg (not_not.mpr rfl)] at rest
    obtain ⟨_, _, got, stored⟩ := outcome_bind.mp rest
    obtain ⟨rfl, rfl⟩ := outcome_get.mp got
    rw [outcome_modifyFatfs_bind, seesFlushed.registered, Option.map_some, seesFlushed.word, sector,
      outcome_fatfs_bind (Machine.fatFs_register _ _ _)] at stored
    obtain ⟨_, _, clearing, ended⟩ := outcome_bind.mp stored
    obtain ⟨rfl, rfl⟩ := clearing.unique clears
    have near := (cells _ (Nat.sub_lt area₁.positive Nat.one_pos)).near
    have word := build.le_word
    rw [if_neg (not_not.mpr rfl), outcome_modifyFatfs_bind, Machine.fatFs_register,
      Option.map_some, Machine.register_register] at ended
    obtain ⟨same, rfl⟩ := outcome_pure.mp ended
    obtain rfl := Except.ok.inj same
    have back : build.sub (clusterStart fs₁ clst + fs₁.csize) fs₁.csize =
        clusterStart fs₁ clst := by
      rw [reach] at near
      rw [build.sub_of_le (by omega) (Nat.le_add_left _ _), Nat.add_sub_cancel]
    have pointed := @Sees.point _ _ _ _ _ _ _ win (clusterStart fs₁ clst) seesDone rfl first
      (if_pos ⟨Nat.le_refl _, Nat.lt_add_of_pos_right area₁.positive⟩).symm
    have front : ∀ sector, sector < fs₁.fatbase + fs₁.nFats * fs₁.sectsFat →
        cleared disk₁ (clusterStart fs₁ clst) fs₁.csize win sector = disk₁ sector := by
      intro sector before
      refine if_neg fun inside => ?_
      have least := (clusterStart_range lower upper₁ area₁.positive).1
      rw [Nat.add_zero] at least
      exact absurd inside.1 (Nat.not_le.mpr
        (Nat.lt_of_lt_of_le before (area₁.behind.trans least)))
    dsimp only
    rw [back]
    refine ⟨_, _, _, allots₁.data pointed front, Allocation.grow_clusters choice,
      reworked.used.trans ⟨_, _, _, _, _, _, rfl⟩, fun other different =>
      Allocation.grow_others different, ⟨[clst], Allocation.grow_clusters choice⟩,
      fun sector away occupied => ?_⟩
    rw [cleared, if_neg fun inside => ?_, outside sector away]
    rw [begins, csize] at inside
    refine not_occupied allots area lower free (show sector - clusterStart fs clst < fs.csize by
      omega) ?_
    rw [Nat.add_sub_cancel' inside.1]
    exact occupied

end Growth

/-! ### A table that may grow -/

/-- A volume and a table on it that begins at a cluster and is to be worked on. -/
structure OnDirectory {Owner : Type} (vol : Nat) (volume : VolumeContainer) (size : Nat)
    (build : Build) (fmt : FatType) (counts : Prop) (fs : Fatfs) (disk : Nat → Buffer)
    (machine : Machine) (allocation : Allocation Owner) (table : Owner) (start : Nat) : Prop where
  allots : Allots vol volume size build fmt counts fs disk machine allocation
  area : DataArea volume size fs
  mode : volume.fd.writeable = true
  power : ∃ bits, fs.csize = 2 ^ bits
  begins : (if start = 0 ∧ fmt = .fat32 then fs.dirbase else start) =
    (allocation.clusters table).headD 0
  fixed : allocation.clusters table = [] → fs.fatbase + fs.nFats * fs.sectsFat ≤ fs.dirbase ∧
    fs.dirbase + fs.nRootdir / 16 ≤ fs.database ∧ fs.nRootdir % 16 = 0
  nonempty : 0 < tableLength fs (allocation.clusters table)

section Directory

variable {Owner : Type} {vol : Nat} {volume : VolumeContainer} {size : Nat} {build : Build}
  {fmt : FatType} {counts : Prop} {fs fs' : Fatfs} {disk disk' : Nat → Buffer}
  {machine after : Machine} {allocation allocation' : Allocation Owner} {table : Owner}
  {start index : Nat} {dj dj' : Dir}

theorem OnDirectory.onTable
    (onDirectory : OnDirectory vol volume size build fmt counts fs disk machine allocation table
      start) :
    OnTable vol volume size build fmt fs disk machine (allocation.clusters table) start :=
  ⟨onDirectory.allots.sees, onDirectory.allots.tabled, onDirectory.area, onDirectory.power,
    onDirectory.allots.allotted.linked table, onDirectory.begins, onDirectory.fixed⟩

/-- The window may be anywhere. -/
theorem OnDirectory.windowed {win : Buffer} {winsect : Nat} {wflag : Bool}
    (onDirectory : OnDirectory vol volume size build fmt counts fs disk machine allocation table
      start)
    (sees : Sees vol volume size build { fs with win, winsect, wflag } disk after) :
    OnDirectory vol volume size build fmt counts { fs with win, winsect, wflag } disk after
      allocation table start :=
  ⟨onDirectory.allots.data sees fun _ _ => rfl, { onDirectory.area with }, onDirectory.mode,
    onDirectory.power, onDirectory.begins, onDirectory.fixed, onDirectory.nonempty⟩

/-- The window may be changed behind the FAT. -/
theorem OnDirectory.edited
    (onDirectory : OnDirectory vol volume size build fmt counts fs disk machine allocation table
      start)
    (behind : fs.fatbase + fs.nFats * fs.sectsFat ≤ fs.winsect) (win : Buffer) :
    OnDirectory vol volume size build fmt counts { fs with win, wflag := true }
      (Function.update disk fs.winsect (cut win))
      (machine.register vol (some { fs with win, wflag := true })) allocation table start := by
  have sees := onDirectory.allots.sees
  have there : fs.winsect ≠ 0 := by
    have front := sees.behind
    omega
  refine ⟨onDirectory.allots.data (edit_sees sees onDirectory.mode there win)
    fun sector before => ?_, { onDirectory.area with }, onDirectory.mode,
    onDirectory.power, onDirectory.begins, onDirectory.fixed, onDirectory.nonempty⟩
  exact Function.update_of_ne (Nat.ne_of_lt (Nat.lt_of_lt_of_le before behind)) _ _

variable [DecidableEq Owner]

/-- `dir_next` comes to the next entry of a table that may be stretched, if it comes to any. -/
theorem dirNext_steps
    (onDirectory : OnDirectory vol volume size build fmt counts fs disk machine allocation table
      start)
    (at' : AtSlot vol fs (allocation.clusters table) start dj index)
    (inside : index < tableLength fs (allocation.clusters table)) (small : index < 2 ^ 16)
    (run : (dirNext dj true).Outcome machine (.ok, dj') after) :
    index + 1 < 2 ^ 16 ∧ ∃ fs' disk' allocation',
      OnDirectory vol volume size build fmt counts fs' disk' after allocation' table start ∧
      AtSlot vol fs' (allocation'.clusters table) start dj' (index + 1) ∧
      index + 1 < tableLength fs' (allocation'.clusters table) ∧
      Extended table fs disk allocation fs' disk' allocation' ∧ dj'.fn = dj.fn := by
  have onTable := onDirectory.onTable
  have sees := onTable.sees
  by_cases goes : index + 1 < tableLength fs (allocation.clusters table) ∧ index + 1 < 2 ^ 16
  · obtain ⟨next, win, winsect, wflag, middle, comes, onTableNext, atNext, same⟩ :=
      dirNext_comes true onTable at' goes.1 goes.2
    obtain ⟨result, rfl⟩ := run.unique comes
    obtain rfl := (Prod.mk.inj result).2
    exact ⟨goes.2, _, disk, allocation, onDirectory.windowed onTableNext.sees, { atNext with },
      goes.1, ⟨⟨_, _, _, _, _, _, rfl⟩, fun _ _ => rfl, ⟨[], (List.append_nil _).symm⟩,
        fun _ _ _ => rfl⟩, by rw [same]⟩
  · have behind := (onTable.worked inside).2
    have front := sees.behind
    obtain ⟨drive, sclust, number, sect, -, clust⟩ := at'
    subst drive sclust
    rw [dirNext] at run
    dsimp only at run
    by_cases wraps : (dj.index + 1) % 2 ^ 16 = 0 ∨ dj.sect = 0
    · rw [if_pos wraps] at run
      exact absurd (outcome_pure.mp run).1 (by simp)
    rw [if_neg wraps, outcome_fatfs_bind sees.registered] at run
    have next : (dj.index + 1) % 2 ^ 16 = index + 1 := by
      rw [number] at wraps ⊢
      omega
    rw [number] at wraps
    have small : index + 1 < 2 ^ 16 := by omega
    have ends : tableLength fs (allocation.clusters table) = index + 1 := by omega
    have crosses : (index + 1) % (sectorSize / 32) = 0 := by
      rw [show sectorSize / 32 = 16 from rfl, ← ends, tableLength]
      split_ifs with none
      · exact (onTable.fixed none).2.2
      · exact Nat.mul_mod_left _ _
    obtain ⟨_, _, got, stepped⟩ := outcome_bind.mp run
    obtain ⟨rfl, rfl⟩ := outcome_get.mp got
    rw [next, if_neg (not_not.mpr crosses)] at stepped
    by_cases none : allocation.clusters table = []
    · -- the fixed table ends
      rw [tableLength, if_pos none] at ends
      rw [if_pos (by rw [clust, none]; rfl), if_pos ends.le] at stepped
      exact absurd (outcome_pure.mp stepped).1 (by simp)
    have positive := onTable.area.positive
    have length := List.length_pos_iff.mpr none
    rw [tableLength, if_neg none] at ends inside
    have sectors : (index + 1) / 16 = (allocation.clusters table).length * fs.csize := by omega
    have cluster : index / 16 / fs.csize = (allocation.clusters table).length - 1 := by
      have sum : index / 16 + 1 = (allocation.clusters table).length * fs.csize := by omega
      rcases succ_in_group positive (index / 16) with ⟨less, _, rest⟩ | ⟨_, quotient, _⟩
      · rw [sum, Nat.mul_mod_left] at rest
        exact absurd rest (Nat.succ_ne_zero _).symm
      · rw [sum, Nat.mul_div_cancel _ positive] at quotient
        omega
    rw [cluster] at clust
    have within : (allocation.clusters table).length - 1 < (allocation.clusters table).length := by
      omega
    have member : (allocation.clusters table).getD ((allocation.clusters table).length - 1) 0 ∈
        allocation.clusters table := by
      rw [List.getD_eq_getElem _ _ within]
      exact List.getElem_mem within
    obtain ⟨lower, upper⟩ := onTable.chain.range _ member
    rw [if_neg (by rw [clust]; omega), show sectorSize / 32 = 16 from rfl, sectors,
      if_pos ((mask_eq_zero_iff onTable.power _).mpr (Nat.mul_mod_left _ _))] at stepped
    -- there is no cluster behind the last one
    obtain ⟨found, stretched, finding, rest⟩ := outcome_bind.mp stepped
    obtain ⟨win, winsect, wflag, looked, got, _, seesLooked⟩ :=
      getFat_sees sees onTable.tabled lower upper
    have past := last_entry (onTable.linked.last_at none 0)
    have bits := @fatEntry_lt fmt (fatBytes disk fs.fatbase)
      ((allocation.clusters table).getD ((allocation.clusters table).length - 1) 0)
    have widest : 2 ^ entryBits fmt ≤ 2 ^ 28 := by cases fmt <;> decide
    have small' := Nat.lt_of_lt_of_le bits widest
    have looking := onDirectory.windowed seesLooked
    rw [nextCluster, clust] at finding
    obtain ⟨_, _, getting, finding⟩ := outcome_bind.mp finding
    obtain ⟨rfl, rfl⟩ := getting.unique got
    rw [if_neg (by omega), if_neg (by rw [diskError]; omega),
      outcome_fatfs_bind seesLooked.registered, if_pos (show _ ≥ fs.maxClust from past),
      if_neg (not_not.mpr rfl)] at finding
    cases found with
    | error res =>
      obtain ⟨result, rfl⟩ := outcome_pure.mp rest
      exact absurd (Prod.mk.inj result).1.symm (stretchTable_fails finding)
    | ok clst =>
      have last : (allocation.clusters table).getD ((allocation.clusters table).length - 1) 0 =
          (allocation.clusters table).getLast?.getD 0 := by
        rw [List.getLast?_eq_getElem?, List.getD_eq_getElem?_getD]
      rw [last] at finding
      obtain ⟨fs', disk', allocation', allots, longer, extended⟩ :=
        stretchTable_stretches looking.allots looking.area looking.mode finding
      obtain ⟨win', winsect', wflag', fsiFlag, lastClust, freeClust, rfl⟩ := extended.used
      rw [outcome_fatfs_bind allots.sees.registered] at rest
      obtain ⟨result, rfl⟩ := outcome_pure.mp rest
      obtain rfl := (Prod.mk.inj result).2
      have area := onDirectory.area
      obtain ⟨least, most⟩ := allots.range
        (longer.symm ▸ List.mem_append_right _ List.mem_cons_self : clst ∈ _)
      have slots : tableLength fs (allocation'.clusters table) = index + 1 + fs.csize * 16 := by
        rw [longer, tableLength,
          if_neg (List.append_ne_nil_of_right_ne_nil _ (List.cons_ne_nil _ _)),
          List.length_append, List.length_singleton, Nat.add_mul, Nat.add_mul, Nat.one_mul, ends]
      have long : allocation'.clusters table ≠ [] := by
        rw [longer]
        exact List.append_ne_nil_of_right_ne_nil _ (List.cons_ne_nil _ _)
      have cell : (allocation'.clusters table).getD ((index + 1) / 16 / fs.csize) 0 = clst := by
        rw [sectors, Nat.mul_div_cancel _ positive, longer, List.getD_append_right _ _ _ _ le_rfl,
          Nat.sub_self]
        rfl
      have more : index + 1 < tableLength fs (allocation'.clusters table) := by omega
      refine ⟨small, _, disk', allocation', ⟨allots, { area with }, looking.mode, looking.power, ?_,
        fun empty => absurd empty long, Nat.zero_lt_of_lt more⟩,
        ⟨rfl, rfl, rfl, ?_, rfl, cell.symm⟩, more,
        ⟨⟨_, _, _, _, _, _, rfl⟩, extended.others, extended.longer, extended.kept⟩, rfl⟩
      · have begins := onDirectory.begins
        obtain ⟨first, others, same⟩ := List.exists_cons_of_ne_nil none
        rw [longer, same]
        rw [same] at begins
        exact begins
      · change clust2sect _ _ clst = tableSector fs (allocation'.clusters table) ((index + 1) / 16)
        rw [tableSector, if_neg long, fileSector, cell, sectors, Nat.mul_mod_left, Nat.add_zero]
        exact clust2sect_eq { area with } least most

end Directory

end Ff

end Hdfmonkey
