/-
This file says where the bytes of a file lie: in the sectors of its clusters, in the order
of its chain. The transfers of `f_read` and `f_write` go straight to these sectors, past
the window, which never is at one of them.

The data area lies behind the copies of the FAT, within reach of the driver, and in the
image.
-/

import Hdfmonkey.Remount
import Hdfmonkey.Striped
import Mathlib.Data.List.GetD

namespace Hdfmonkey

namespace Ff

open Program

/-! ### Places -/

/-- The data area of a volume. -/
structure DataArea (volume : VolumeContainer) (size : Nat) (fs : Fatfs) : Prop where
  behind : fs.fatbase + fs.nFats * fs.sectsFat ≤ fs.database
  near : fs.database + (fs.maxClust - 2) * fs.csize ≤ reach
  inside : (fs.database + (fs.maxClust - 2) * fs.csize) * sectorSize + volume.dataOffset ≤ size
  positive : 0 < fs.csize
  few : fs.csize ≤ 128

/-- Clusters of a volume, none of them twice. -/
structure Chain (fs : Fatfs) (cells : List Nat) : Prop where
  nodup : cells.Nodup
  range : ∀ clst ∈ cells, 2 ≤ clst ∧ clst < fs.maxClust

/-- The first sector of a cluster. -/
def clusterStart (fs : Fatfs) (clst : Nat) : Nat := fs.database + (clst - 2) * fs.csize

/-- The sector of a file that has the given number in it. -/
def fileSector (fs : Fatfs) (cells : List Nat) (number : Nat) : Nat :=
  clusterStart fs (cells.getD (number / fs.csize) 0) + number % fs.csize

/-- The bytes of a file, without its end. -/
def fileBytes (fs : Fatfs) (cells : List Nat) (disk : Nat → Buffer) : Buffer :=
  striped sectorSize disk (fileSector fs cells)

section Places

variable {volume : VolumeContainer} {size : Nat} {build : Build} {fs : Fatfs}
  {cells others : List Nat}
  {clst other number offset : Nat}

theorem Chain.of_linked {fmt : FatType} {disk : Nat → Buffer}
    (linked : Linked (linksOf fmt fs disk) cells) : Chain fs cells :=
  ⟨linked.nodup, fun _ member => range_of_used (linked.used member)⟩

theorem Chain.length_le (chain : Chain fs cells) : cells.length ≤ fs.maxClust - 2 := by
  have inside : cells.toFinset ⊆ Finset.Ico 2 fs.maxClust := fun clst member =>
    Finset.mem_Ico.mpr (chain.range clst (List.mem_toFinset.mp member))
  have length := Finset.card_le_card inside
  rwa [List.toFinset_card_of_nodup chain.nodup, Nat.card_Ico] at length

/-- The bytes of a file are counted in a word. -/
theorem Chain.small (chain : Chain fs cells) (area : DataArea volume size fs) :
    cells.length * fs.csize * sectorSize ≤ 2 ^ 31 := by
  have most : cells.length * fs.csize ≤ reach :=
    (Nat.mul_le_mul_right _ chain.length_le).trans ((Nat.le_add_left _ _).trans area.near)
  exact (Nat.mul_le_mul_right sectorSize most).trans (by decide)

/-- A number that a file has is in one of its clusters. -/
theorem Chain.cell (inside : number < cells.length * fs.csize) :
    cells.getD (number / fs.csize) 0 ∈ cells := by
  have within : number / fs.csize < cells.length :=
    Nat.div_lt_of_lt_mul (Nat.mul_comm _ _ ▸ inside)
  rw [List.getD_eq_getElem _ _ within]
  exact List.getElem_mem within

/-- Sectors of clusters are told apart by the cluster and by the place in it. -/
theorem clusterStart_inj {place : Nat} (lower : 2 ≤ clst) (lower' : 2 ≤ other)
    (before : offset < fs.csize) (before' : place < fs.csize)
    (same : clusterStart fs clst + offset = clusterStart fs other + place) :
    clst = other ∧ offset = place := by
  rw [clusterStart, clusterStart, Nat.add_assoc, Nat.add_assoc, Nat.add_left_cancel_iff] at same
  have positive : 0 < fs.csize := Nat.lt_of_le_of_lt (Nat.zero_le _) before
  have quotient := congrArg (· / fs.csize) same
  have rest := congrArg (· % fs.csize) same
  rw [Nat.mul_comm, Nat.mul_add_div positive, Nat.div_eq_of_lt before, Nat.mul_comm (other - 2),
    Nat.mul_add_div positive, Nat.div_eq_of_lt before'] at quotient
  rw [Nat.mul_add_mod_of_lt before, Nat.mul_add_mod_of_lt before'] at rest
  exact ⟨by omega, rest⟩

/-- A cluster of the volume lies in the data area. -/
theorem clusterStart_range (lower : 2 ≤ clst)
    (upper : clst < fs.maxClust) (before : offset < fs.csize) :
    fs.database ≤ clusterStart fs clst + offset ∧
      clusterStart fs clst + offset < fs.database + (fs.maxClust - 2) * fs.csize := by
  have most : (clst - 2 + 1) * fs.csize ≤ (fs.maxClust - 2) * fs.csize :=
    Nat.mul_le_mul_right _ (by omega)
  rw [Nat.add_mul, Nat.one_mul] at most
  rw [clusterStart]
  omega

theorem DataArea.worked {sector : Nat} (area : DataArea volume size fs)
    (lower : fs.database ≤ sector) (upper : sector < fs.database + (fs.maxClust - 2) * fs.csize) :
    (fatArea fs).Worked volume size sector := by
  have behind := area.behind
  have most := Nat.mul_le_mul_right sectorSize (Nat.succ_le_of_lt upper)
  rw [Nat.succ_mul] at most
  exact ⟨(Nat.le_add_right _ _).trans (behind.trans lower), .inr (behind.trans lower),
    Nat.lt_of_lt_of_le upper area.near, by have inside := area.inside; omega⟩

theorem DataArea.outside {sector : Nat} (area : DataArea volume size fs) (one : 1 ≤ fs.nFats)
    (lower : fs.database ≤ sector) : OutsideFat fs sector := by
  have fewest : fs.sectsFat ≤ fs.nFats * fs.sectsFat := Nat.le_mul_of_pos_left _ one
  have behind := area.behind
  exact .inr (by omega)

/-- The sectors of a file are in the data area. -/
theorem DataArea.sector (area : DataArea volume size fs) (chain : Chain fs cells)
    (inside : number < cells.length * fs.csize) :
    fs.database ≤ fileSector fs cells number ∧
      fileSector fs cells number < fs.database + (fs.maxClust - 2) * fs.csize := by
  obtain ⟨lower, upper⟩ := chain.range _ (Chain.cell inside)
  exact clusterStart_range lower upper (Nat.mod_lt _ area.positive)

/-- No two sectors of a file are one. -/
theorem fileSector_inj (area : DataArea volume size fs) (chain : Chain fs cells) {place : Nat}
    (inside : number < cells.length * fs.csize) (inside' : place < cells.length * fs.csize)
    (same : fileSector fs cells number = fileSector fs cells place) : number = place := by
  obtain ⟨cell, rest⟩ := clusterStart_inj (chain.range _ (Chain.cell inside)).1
    (chain.range _ (Chain.cell inside')).1 (Nat.mod_lt _ area.positive)
    (Nat.mod_lt _ area.positive) same
  have within : number / fs.csize < cells.length :=
    Nat.div_lt_of_lt_mul (Nat.mul_comm _ _ ▸ inside)
  have within' : place / fs.csize < cells.length :=
    Nat.div_lt_of_lt_mul (Nat.mul_comm _ _ ▸ inside')
  rw [List.getD_eq_getElem _ _ within, List.getD_eq_getElem _ _ within',
    chain.nodup.getElem_inj_iff] at cell
  rw [← Nat.div_add_mod number fs.csize, cell, rest, Nat.div_add_mod]

/-- Files without a common cluster have no common sector. -/
theorem fileSector_apart (area : DataArea volume size fs) (chain : Chain fs cells)
    (chain' : Chain fs others) (apart : ∀ clst ∈ cells, clst ∉ others) {place : Nat}
    (inside : number < cells.length * fs.csize) (inside' : place < others.length * fs.csize) :
    fileSector fs cells number ≠ fileSector fs others place := by
  intro same
  obtain ⟨cell, _⟩ := clusterStart_inj (chain.range _ (Chain.cell inside)).1
    (chain'.range _ (Chain.cell inside')).1 (Nat.mod_lt _ area.positive)
    (Nat.mod_lt _ area.positive) same
  exact apart _ (Chain.cell inside) (cell ▸ Chain.cell inside')

/-- A number that is not too far behind another one is in the same group of `count`. -/
theorem add_in_group {count : Nat} (later : number % count + offset < count) :
    (number + offset) / count = number / count ∧
    (number + offset) % count = number % count + offset := by
  have positive : 0 < count := Nat.lt_of_le_of_lt (Nat.zero_le _) later
  have split : number + offset = count * (number / count) + (number % count + offset) := by
    rw [← Nat.add_assoc, Nat.div_add_mod]
  constructor
  · rw [split, Nat.mul_add_div positive, Nat.div_eq_of_lt later, Nat.add_zero]
  · rw [split, Nat.mul_add_mod, Nat.mod_eq_of_lt later]

/-- The number behind one is in the same group of `count`, or begins the next. -/
theorem succ_in_group {count : Nat} (positive : 0 < count) (number : Nat) :
    (number % count + 1 < count ∧ (number + 1) / count = number / count ∧
      (number + 1) % count = number % count + 1) ∨
    (number % count + 1 = count ∧ (number + 1) / count = number / count + 1 ∧
      (number + 1) % count = 0) := by
  have split : number + 1 = count * (number / count) + (number % count + 1) := by
    rw [← Nat.add_assoc, Nat.div_add_mod]
  have most : number % count + 1 ≤ count := Nat.mod_lt number positive
  rcases Nat.lt_or_eq_of_le most with less | last
  · refine .inl ⟨less, ?_, ?_⟩
    · rw [split, Nat.mul_add_div positive, Nat.div_eq_of_lt less, Nat.add_zero]
    · rw [split, Nat.mul_add_mod, Nat.mod_eq_of_lt less]
  · refine .inr ⟨last, ?_, ?_⟩
    · rw [split, last, ← Nat.mul_succ, Nat.mul_div_cancel_left _ positive]
    · rw [split, last, ← Nat.mul_succ, Nat.mul_mod_right]

/-- The sectors behind one in its cluster follow it. -/
theorem fileSector_add (later : number % fs.csize + offset < fs.csize) :
    fileSector fs cells (number + offset) = fileSector fs cells number + offset := by
  obtain ⟨quotient, rest⟩ := add_in_group later
  rw [fileSector, fileSector, quotient, rest, Nat.add_assoc]

/-- They are in the file too. -/
theorem add_inside (inside : number < cells.length * fs.csize)
    (later : number % fs.csize + offset < fs.csize) :
    number + offset < cells.length * fs.csize := by
  have positive : 0 < fs.csize := Nat.lt_of_le_of_lt (Nat.zero_le _) later
  rw [← Nat.div_lt_iff_lt_mul positive, (add_in_group later).1]
  exact Nat.div_lt_of_lt_mul (Nat.mul_comm _ _ ▸ inside)

/-- `clust2sect` finds the first sector of a cluster. -/
theorem clust2sect_eq (area : DataArea volume size fs) (lower : 2 ≤ clst)
    (upper : clst < fs.maxClust) : clust2sect build fs clst = clusterStart fs clst := by
  have word := build.le_word
  have near := area.near
  have most : (clst - 2) * fs.csize ≤ (fs.maxClust - 2) * fs.csize :=
    Nat.mul_le_mul_right _ (by omega)
  have clusters : fs.maxClust - 2 ≤ (fs.maxClust - 2) * fs.csize :=
    Nat.le_mul_of_pos_right _ area.positive
  rw [reach] at near
  rw [clust2sect, build.sub_of_le (by omega) lower, build.sub_of_le (by omega) (by omega),
    if_neg (by omega), build.mul_of_lt (by omega), build.add_of_lt (by omega), clusterStart,
    Nat.add_comm]

/-- It is not zero, and with the place in the cluster it is the sector of the file. -/
theorem clust2sect_fileSector (area : DataArea volume size fs) (chain : Chain fs cells)
    (front : 0 < fs.fatbase) (inside : number < cells.length * fs.csize) :
    clust2sect build fs (cells.getD (number / fs.csize) 0) ≠ 0 ∧
      build.add (clust2sect build fs (cells.getD (number / fs.csize) 0)) (number % fs.csize) =
        fileSector fs cells number := by
  obtain ⟨lower, upper⟩ := chain.range _ (Chain.cell inside)
  have data := (area.sector chain inside).2
  have behind := area.behind
  have near := area.near
  have word := build.le_word
  have first : fs.fatbase ≤ fs.database := (Nat.le_add_right _ _).trans behind
  rw [fileSector] at data
  rw [reach] at near
  rw [clust2sect_eq area lower upper, build.add_of_lt (by omega), fileSector]
  refine ⟨?_, rfl⟩
  rw [clusterStart]
  omega

end Places

/-! ### Transfers -/

/-- The sectors of a disk after a run of them was written. -/
def storeRun (disk : Nat → Buffer) (sector count : Nat) (buff : Buffer) :
    Nat → Buffer := fun place =>
  if sector ≤ place ∧ place < sector + count then
    cut fun index => buff ((place - sector) * sectorSize + index)
  else disk place

/-- A run of sectors of the data area that the window is not at. -/
structure Direct (fs : Fatfs) (sector count : Nat) : Prop where
  lower : fs.database ≤ sector
  upper : sector + count ≤ fs.database + (fs.maxClust - 2) * fs.csize
  positive : 0 < count
  few : count ≤ 128
  apart : ∀ place, sector ≤ place → place < sector + count → fs.winsect ≠ place

/-- A run of sectors of a file in one cluster can be transferred past the window. -/
theorem direct_fileSector {volume : VolumeContainer} {size : Nat} {fs : Fatfs} {cells : List Nat}
    {number count : Nat} (area : DataArea volume size fs) (chain : Chain fs cells)
    (apart : ∀ number, number < cells.length * fs.csize → fs.winsect ≠ fileSector fs cells number)
    (inside : number < cells.length * fs.csize) (positive : 0 < count)
    (fits : number % fs.csize + count ≤ fs.csize) :
    Direct fs (fileSector fs cells number) count := by
  have few := area.few
  refine ⟨(area.sector chain inside).1, ?_, positive, by omega, fun place lower upper => ?_⟩
  · have last : number % fs.csize + (count - 1) < fs.csize := by omega
    have data := (area.sector chain (add_inside inside last)).2
    rw [fileSector_add last] at data
    omega
  · obtain ⟨offset, rfl⟩ := Nat.exists_eq_add_of_le lower
    have later : number % fs.csize + offset < fs.csize := by omega
    rw [← fileSector_add later]
    exact apart _ (add_inside inside later)

section Transfers

variable {vol : Nat} {volume : VolumeContainer} {size : Nat} {build : Build} {fs : Fatfs}
  {disk : Nat → Buffer} {machine : Machine} {buff : Buffer} {sector count : Nat}

/-- The place of a run of sectors that is within reach does not wrap around. -/
theorem diskPosition_near (full : volume.bytesPerSector = sectorSize) (near : sector < reach) :
    diskPosition build volume sector = (sector * sectorSize : Nat) := by
  have place := @sector_place volume sector build (by rw [full]) near
  rw [full] at place
  rw [diskPosition, full, place]

/-- A run of sectors in the image is read. -/
theorem diskRead_run (reads : machine.Reads vol volume) (full : volume.bytesPerSector = sectorSize)
    (near : sector < reach) (few : count ≤ 128)
    (inside : sector * sectorSize + volume.dataOffset + count * sectorSize ≤
      (machine.files.file volume.fd.node).size) :
    (diskRead vol buff sector count).Outcome machine
      (.ok, buff.blit 0 (count * sectorSize) fun index => (machine.files.file volume.fd.node).byte
        (sector * sectorSize + volume.dataOffset + index))
      { machine with transfers := machine.transfers + 1 } := by
  have displaced := reads.near
  have clear : (sector * sectorSize + volume.dataOffset) % 2 ^ 32 < 2 ^ 31 := by
    rw [reach] at near
    rw [sectorSize]
    omega
  have short : count * sectorSize < 2 ^ 31 := by
    rw [sectorSize]
    omega
  refine (diskRead_iff reads.mapped).mpr ⟨(count * sectorSize : Nat), ?_, ?_, rfl⟩
  · rw [diskPosition_near full near, full]
    exact imageFileRead_steady (reads.steady _ (Nat.le_refl _)) buff short clear inside
  · rw [full, if_pos rfl]

/-- A run of sectors is written. -/
theorem diskWrite_run (serves : machine.Serves vol volume)
    (full : volume.bytesPerSector = sectorSize) (near : sector < reach) (few : count ≤ 128)
    (enough : count * sectorSize ≤ machine.fuel) :
    ∃ after, (diskWrite vol buff sector count).Outcome machine .ok after ∧
      Stored vol volume machine after ∧
      after.sectorBytes volume = storeRun (machine.sectorBytes volume) sector count buff := by
  have displaced := serves.near
  have clear : (sector * sectorSize + volume.dataOffset) % 2 ^ 32 < 2 ^ 31 := by
    rw [reach] at near
    rw [sectorSize]
    omega
  have short : count * sectorSize < 2 ^ 31 := by
    rw [sectorSize]
    omega
  have write : imageFileWrite machine.fuel (machine.sys machine.transfers) volume
      (machine.files.file volume.fd.node) (sector * sectorSize) buff
        (count * sectorSize) = some _ :=
    imageFileWrite_steady (serves.steady _ (Nat.le_refl _)) buff short enough serves.writeable clear
  have run : (diskWrite vol buff sector count).Outcome machine .ok _ :=
    (diskWrite_iff serves.mapped).mpr ⟨_, _, by
      rw [diskPosition_near full near, full]
      exact write, by rw [full, if_pos rfl], rfl⟩
  refine ⟨_, run, ⟨?_, ?_, _, _, _, rfl⟩, funext fun place => ?_⟩
  · exact ⟨⟨serves.mapped, serves.near, serves.small, fun call later =>
      serves.steady call (Nat.le_of_succ_le later)⟩, serves.writeable, serves.enough⟩
  · dsimp only
    rw [FileStore.file_put_self]
    exact ByteFile.size_le_write _ _ _ _
  · unfold storeRun Machine.sectorBytes
    dsimp only
    rw [FileStore.file_put_self]
    split_ifs with inside
    · refine cut_congr fun index before => ?_
      rw [ByteFile.byte_write, Buffer.blit_inside]
      · refine congrArg buff ?_
        rw [sectorSize] at before ⊢
        omega
      · rw [sectorSize] at before ⊢
        omega
      · rw [sectorSize] at before ⊢
        omega
    · refine cut_congr fun index before => ?_
      rw [ByteFile.byte_write, Buffer.blit_outside]
      rw [sectorSize] at before ⊢
      omega

/-- Time that passes in the kernel changes nothing that is seen. -/
theorem Sees.later (sees : Sees vol volume size build fs disk machine) (calls : Nat) :
    Sees vol volume size build fs disk
      { machine with transfers := machine.transfers + calls } := by
  have attends := sees.attends
  exact ⟨⟨⟨attends.mapped, attends.near, attends.small, fun call later =>
    attends.steady call (Nat.le_of_add_right_le later)⟩, attends.enough, attends.mode⟩, sees.full,
    sees.enough, sees.word, sees.turns, sees.registered, sees.bound, sees.behind, sees.one,
    sees.fats, sees.coherent, sees.seen, sees.front⟩

/-- A sector that the window is not at holds what is seen of it. -/
theorem Sees.stored (sees : Sees vol volume size build fs disk machine)
    (worked : (fatArea fs).Worked volume size sector) (apart : fs.winsect ≠ sector) :
    machine.sectorBytes volume sector = disk sector := by
  have elsewhere : (cacheOf machine volume fs).place ≠ some sector := fun there => by
    unfold cacheOf at there
    split_ifs at there
    exact apart (Option.some.inj there)
  rw [← sees.seen sector worked]
  exact (if_neg elsewhere).symm

/-- Sectors of the data area are read past the window. -/
theorem diskRead_direct (sees : Sees vol volume size build fs disk machine)
    (area : DataArea volume size fs) (direct : Direct fs sector count) :
    (diskRead fs.drive buff sector count).Outcome machine
      (.ok, buff.blit 0 (count * sectorSize) fun index =>
        disk (sector + index / sectorSize) (index % sectorSize))
      { machine with transfers := machine.transfers + 1 } := by
  have positive := direct.positive
  have upper := direct.upper
  have near : sector < reach := Nat.lt_of_lt_of_le (by omega) area.near
  have most := Nat.mul_le_mul_right sectorSize upper
  rw [Nat.add_mul] at most
  have inside := area.inside
  have enough := sees.enough
  have bound := sees.bound
  subst bound
  have read := @diskRead_run fs.drive volume machine buff sector count
    sees.attends.toReads sees.full
    near direct.few (by omega)
  have bytes := Buffer.blit_congr buff (fun index => (machine.files.file volume.fd.node).byte
      (sector * sectorSize + volume.dataOffset + index))
    (fun index => disk (sector + index / sectorSize) (index % sectorSize)) 0 (count * sectorSize)
    fun index before => by
      have block : index / sectorSize < count :=
        Nat.div_lt_of_lt_mul (Nat.mul_comm count sectorSize ▸ before)
      have before := Nat.add_lt_add_left block sector
      have worked := @DataArea.worked volume size fs (sector + index / sectorSize) area
        (direct.lower.trans (Nat.le_add_right _ _)) (Nat.lt_of_lt_of_le before upper)
      rw [← sees.stored worked (direct.apart _ (Nat.le_add_right _ _) before),
        Machine.sectorBytes, cut_inside (Nat.mod_lt _ (by decide))]
      refine congrArg _ ?_
      rw [sectorSize]
      omega
  rwa [bytes] at read

/-- Sectors of the data area are written past the window. -/
theorem diskWrite_direct (sees : Sees vol volume size build fs disk machine)
    (mode : volume.fd.writeable = true) (area : DataArea volume size fs)
    (direct : Direct fs sector count) (cluster : count ≤ fs.csize) :
      ∃ after, (diskWrite fs.drive buff sector count).Outcome machine .ok after ∧
      Sees vol volume size build fs (storeRun disk sector count buff) after ∧
        Stored vol volume machine after := by
  have positive := direct.positive
  have lower := direct.lower
  have upper := direct.upper
  have behind := area.behind
  have near : sector < reach := Nat.lt_of_lt_of_le (by omega) area.near
  have bound := sees.bound
  subst bound
  obtain ⟨after, run, stored, sectors⟩ := @diskWrite_run fs.drive volume machine buff sector count
    (sees.serves mode) sees.full near direct.few
    ((Nat.mul_le_mul_right _ cluster).trans sees.turns.bytes)
  refine ⟨after, run, ?_, stored⟩
  have cache : cacheOf after volume fs = (cacheOf machine volume fs).putPast
      (fun place => sector ≤ place ∧ place < sector + count)
      fun place => cut fun index => buff ((place - sector) * sectorSize + index) := by
    change WriteBack.mk (after.sectorBytes volume) _ _ _ = _
    rw [sectors]
    rfl
  have elsewhere (place : Nat) (inside : sector ≤ place ∧ place < sector + count) :
      (cacheOf machine volume fs).place ≠ some place := fun there => by
    unfold cacheOf at there
    split_ifs at there
    exact direct.apart place inside.1 inside.2 (Option.some.inj there)
  have rest := stored.rest
  have fatEnd : fs.sectsFat ≤ fs.nFats * fs.sectsFat := Nat.le_mul_of_pos_left _ sees.one
  refine ⟨attends_of_serves stored.serves _, sees.full, sees.enough.trans stored.size, ?_, ?_, ?_,
    sees.bound, sees.behind, sees.one, sees.fats, ?_, fun place worked =>
      ?_, fun place before => ?_⟩
  · obtain ⟨_, _, _, rfl⟩ := rest
    exact sees.word
  · obtain ⟨_, _, _, rfl⟩ := rest
    exact sees.turns
  · obtain ⟨_, _, _, rfl⟩ := rest
    exact sees.registered
  · rw [cache]
    refine sees.coherent.putPast elsewhere (fun other worked copy copied inside => ?_)
      (fun place inside _ => ?_) _
    · obtain ⟨fat, number, _, fewer, rfl⟩ := FatArea.mem_copies copied
      have most : (number + 1) * fs.sectsFat ≤ fs.nFats * fs.sectsFat :=
        Nat.mul_le_mul_right _ fewer
      rw [Nat.add_mul, Nat.one_mul] at most
      simp only [fatArea] at fat inside
      omega
    · refine if_neg ?_
      simp only [fatArea]
      omega
  · rw [cache, WriteBack.view_putPast elsewhere, sees.seen place worked]
    rfl
  · have front : fs.fatbase ≤ fs.database := (Nat.le_add_right _ _).trans behind
    rw [sectors, storeRun, storeRun, if_neg (by omega), if_neg (by omega), sees.front place before]

end Transfers

end Ff

end Hdfmonkey
