/-
This file proves that `f_write` puts bytes behind those that a file has, as many as there
is room for, and that nothing else on the volume changes.

The file is one that was opened to be created and is written from its start, as the
commands do. It takes a cluster when it comes to one, so that it never has more than it
needs. The last sector may be in the buffer of the object only: what is on the disk once
the buffer is flushed is what counts as written.
-/

import Hdfmonkey.FileReads

namespace Hdfmonkey

/-! ### The clusters that are left -/

namespace Allocation

variable {Owner : Type} {allocation : Allocation Owner} {mcl : Nat} {owner : Owner}

open Classical in
/-- The number of the clusters that no owner has. -/
noncomputable def left (mcl : Nat) (allocation : Allocation Owner) : Nat :=
  ((Finset.Ico 2 mcl).filter fun clst => ¬allocation.Taken clst).card

open Classical in
/-- A cluster is chosen as long as some are left. -/
theorem left_of_none (begins : 1 ≤ searchStart mcl allocation.hint (allocation.clusters owner))
    (bounded : searchStart mcl allocation.hint (allocation.clusters owner) < mcl)
    (none : allocation.choice mcl owner = none) : allocation.left mcl = 0 := by
  rw [left, Finset.card_eq_zero, Finset.filter_eq_empty_iff]
  intro clst inside free
  have listed := (ClusterVolume.mem_candidates begins bounded).mpr (Finset.mem_Ico.mp inside)
  exact absurd free (by simpa using List.find?_eq_none.mp none clst listed)

theorem free_of_choice {fresh : Nat} (choice : allocation.choice mcl owner = some fresh) :
    ¬allocation.Taken fresh := by simpa using List.find?_some choice

open Classical in
/-- One that is given to an owner is not left. -/
theorem left_grow [DecidableEq Owner] {fresh : Nat} (lower : 2 ≤ fresh) (upper : fresh < mcl)
    (choice : allocation.choice mcl owner = some fresh) :
    (allocation.grow mcl owner).left mcl + 1 = allocation.left mcl := by
  have free := free_of_choice choice
  have rest : (Finset.Ico 2 mcl).filter (fun clst => ¬(allocation.grow mcl owner).Taken clst) =
      ((Finset.Ico 2 mcl).filter fun clst => ¬allocation.Taken clst).erase fresh := by
    ext clst
    have taken : (allocation.grow mcl owner).Taken clst ↔ allocation.Taken clst ∨ clst = fresh := by
      rw [grow, choice]
      simp only [Taken, mem_grow, exists_or]
      simp
    rw [Finset.mem_erase, Finset.mem_filter, Finset.mem_filter, taken]
    tauto
  rw [left, left, rest, Finset.card_erase_add_one]
  exact Finset.mem_filter.mpr ⟨Finset.mem_Ico.mpr ⟨lower, upper⟩, free⟩

theorem grow_clusters [DecidableEq Owner] {fresh : Nat}
    (choice : allocation.choice mcl owner = some fresh) :
    (allocation.grow mcl owner).clusters owner = allocation.clusters owner ++ [fresh] := by
  rw [grow, choice]
  exact Function.update_self _ _ _

theorem grow_others [DecidableEq Owner] {other : Owner} (different : other ≠ owner) :
    (allocation.grow mcl owner).clusters other = allocation.clusters other := by
  rw [grow]
  cases allocation.choice mcl owner with
  | none => rfl
  | some fresh => exact Function.update_of_ne different _ _

end Allocation

namespace Ff

open Program

/-! ### A file that is written -/

/-- What the disk will be once the buffer of an object is flushed. -/
def flushed (fp : Fil) (disk : Nat → Buffer) : Nat → Buffer :=
  if fp.dirty then Function.update disk fp.dsect (cut fp.buf) else disk

/-- The volume of an owner's file. The window is at none of its sectors. -/
structure Storing {Owner : Type} (vol : Nat) (volume : VolumeContainer) (size : Nat) (build : Build)
    (fmt : FatType) (counts : Prop) (fs : Fatfs) (disk : Nat → Buffer) (machine : Machine)
    (allocation : Allocation Owner) (owner : Owner) : Prop where
  allots : Allots vol volume size build fmt counts fs disk machine allocation
  area : DataArea volume size fs
  mode : volume.fd.writeable = true
  apart : ∀ number, number < (allocation.clusters owner).length * fs.csize →
    fs.winsect ≠ fileSector fs (allocation.clusters owner) number

/-- An object that a file is written with from its start, and the bytes that it was given. Its
directory entry is at some place of a sector. -/
structure Writing (vol : Nat) (entry : Nat × Nat) (fs : Fatfs) (disk : Nat → Buffer)
    (cells : List Nat) (fp : Fil)
    (written : List UInt8) : Prop where
  owner : fp.fs = some vol
  id : fp.id = fs.id
  good : fp.error = false
  mode : fp.write = true
  entry : (fp.dirSect, fp.dirPtr) = entry
  first : fp.orgClust = cells.headD 0
  placed : Placed fs cells fp
  fptr : fp.fptr = written.length
  fsize : fp.fsize ≤ written.length
  needed : cells.length = (passed fp + (fs.csize - 1)) / fs.csize
  dirty : fp.dirty = true → 0 < passed fp ∧ fp.dsect = fileSector fs cells (passed fp - 1)
  partly : fp.fptr % sectorSize ≠ 0 → fp.dirty = true
  bytes : (fileBytes fs cells (flushed fp disk)).slice 0 written.length = written

/-- What the calls on a file leave as it was, from one state of a volume to another. -/
structure Grown {Owner : Type} (owner : Owner) (fs : Fatfs) (disk : Nat → Buffer)
    (allocation : Allocation Owner) (fs' : Fatfs) (disk' : Nat → Buffer)
    (allocation' : Allocation Owner) : Prop where
  reworked : Reworked fs fs'
  others : ∀ other, other ≠ owner → allocation'.clusters other = allocation.clusters other
  longer : ∃ more, allocation'.clusters owner = allocation.clusters owner ++ more
  room : (allocation'.clusters owner).length + allocation'.left fs.maxClust =
    (allocation.clusters owner).length + allocation.left fs.maxClust
  kept : ∀ sector, OutsideFat fs sector →
    (∀ number, number < (allocation'.clusters owner).length * fs.csize →
      sector ≠ fileSector fs (allocation'.clusters owner) number) → disk' sector = disk sector

section Writing

variable {Owner : Type} {vol : Nat} {entry : Nat × Nat}
  {volume : VolumeContainer} {size : Nat} {build : Build} {fmt : FatType} {counts : Prop}
  {fs fs' : Fatfs} {disk disk' : Nat → Buffer}
  {machine : Machine} {allocation allocation' : Allocation Owner} {owner : Owner}
  {cells more : List Nat}
  {fp : Fil} {written : List UInt8} {number : Nat}

/-- The sectors of a file stay where they are when it gets more clusters. -/
theorem fileSector_append (positive : 0 < fs.csize) (inside : number < cells.length * fs.csize) :
    fileSector fs (cells ++ more) number = fileSector fs cells number := by
  have within : number / fs.csize < cells.length := (Nat.div_lt_iff_lt_mul positive).mpr inside
  rw [fileSector, fileSector, List.getD_append _ _ _ _ within]

theorem Reworked.fileSector (reworked : Reworked fs fs') : fileSector fs' = fileSector fs := by
  obtain ⟨_, _, _, _, _, _, _, rfl⟩ := reworked
  rfl

theorem Reworked.csize (reworked : Reworked fs fs') : fs'.csize = fs.csize := by
  obtain ⟨_, _, _, _, _, _, _, rfl⟩ := reworked
  rfl

theorem Reworked.dataArea (reworked : Reworked fs fs') (area : DataArea volume size fs) :
    DataArea volume size fs' := by
  obtain ⟨_, _, _, _, _, _, _, rfl⟩ := reworked
  exact { area with }

theorem Grown.refl : Grown owner fs disk allocation fs disk allocation :=
  ⟨.refl, fun _ _ => rfl, ⟨[], (List.append_nil _).symm⟩, rfl, fun _ _ _ => rfl⟩

theorem Grown.trans {fs'' : Fatfs} {disk'' : Nat → Buffer} {allocation'' : Allocation Owner}
    (positive : 0 < fs.csize) (first : Grown owner fs disk allocation fs' disk' allocation')
    (second : Grown owner fs' disk' allocation' fs'' disk'' allocation'') :
    Grown owner fs disk allocation fs'' disk'' allocation'' := by
  obtain ⟨more, longer⟩ := first.longer
  obtain ⟨evenMore, evenLonger⟩ := second.longer
  have room := second.room
  rw [first.reworked.maxClust] at room
  refine ⟨first.reworked.trans second.reworked, fun other different =>
    (second.others other different).trans (first.others other different),
    ⟨more ++ evenMore, ?_⟩, room.trans first.room, fun sector outside away => ?_⟩
  · rw [evenLonger, longer, List.append_assoc]
  · rw [second.kept sector ((first.reworked.outside sector).mpr outside)]
    · refine first.kept sector outside fun number inside => ?_
      have still : number < (allocation''.clusters owner).length * fs.csize := by
        rw [evenLonger, List.length_append, Nat.add_mul]
        exact Nat.lt_add_right _ inside
      have same := away number still
      rwa [evenLonger, fileSector_append positive inside] at same
    · rw [first.reworked.fileSector, first.reworked.csize]
      exact away

/-- What the owners have does not depend on the window, nor on what is behind the FAT. -/
theorem Allots.data {win : Buffer} {winsect : Nat} {wflag : Bool} {after : Machine}
    (allots : Allots vol volume size build fmt counts fs disk machine allocation)
    (sees : Sees vol volume size build { fs with win, winsect, wflag } disk' after)
    (same : ∀ sector, sector < fs.fatbase + fs.nFats * fs.sectsFat → disk' sector = disk sector) :
    Allots vol volume size build fmt counts { fs with win, winsect, wflag } disk' after
      allocation := by
  have fewest : fs.sectsFat ≤ fs.nFats * fs.sectsFat := Nat.le_mul_of_pos_left _ allots.sees.one
  have links : linksOf fmt fs disk' = linksOf fmt fs disk := by
    refine fatLinks_congr (fun index inside => ?_) allots.tabled.room
    have bound : index / sectorSize < fs.sectsFat :=
      (Nat.div_lt_iff_lt_mul (by decide)).mpr inside
    rw [fatBytes, fatBytes, same]
    exact Nat.add_lt_add_left (Nat.lt_of_lt_of_le bound fewest) _
  have accounted := allots.accounted
  refine ⟨sees, { allots.tabled with }, links.symm ▸ allots.allotted, allots.hint,
    fun known => ?_, accounted.uncounted, accounted.hinted, fun fat32 known clean => ?_⟩
  · exact links.symm ▸ accounted.counted known
  · change Informs (disk' fs.fsiSector) _ _
    rw [same _ (Nat.lt_add_right _ (allots.tabled.info fat32))]
    exact accounted.informed fat32 known clean

theorem storeRun_one (disk : Nat → Buffer) (sector : Nat) (buff : Buffer) :
    storeRun disk sector 1 buff = Function.update disk sector (cut buff) := by
  funext place
  rw [storeRun]
  by_cases here : place = sector
  · subst here
    rw [if_pos (by omega), Function.update_self, Nat.sub_self]
    simp only [Nat.zero_mul, Nat.zero_add]
  · rw [if_neg (by omega), Function.update_of_ne here]

/-- The clusters of a file that is written are enough, and none is left over. -/
theorem Writing.enough (writing : Writing vol entry fs disk cells fp written)
    (positive : 0 < fs.csize) : passed fp ≤ cells.length * fs.csize ∧
    cells.length * fs.csize < passed fp + fs.csize := by
  have split := Nat.div_add_mod (passed fp + (fs.csize - 1)) fs.csize
  have rest := Nat.mod_lt (passed fp + (fs.csize - 1)) positive
  rw [← writing.needed, Nat.mul_comm] at split
  omega

/-- The clusters of a file have room for what it was given. -/
theorem Writing.room (writing : Writing vol entry fs disk cells fp written)
    (positive : 0 < fs.csize) : written.length ≤ cells.length * fs.csize * sectorSize := by
  have most := Nat.mul_le_mul_right sectorSize (writing.enough positive).1
  have place : fp.fptr ≤ passed fp * sectorSize := by
    rw [passed, sectorSize]
    omega
  rw [writing.fptr] at place
  exact place.trans most

theorem Storing.chain
    (storing : Storing vol volume size build fmt counts fs disk machine allocation owner) :
    Chain fs (allocation.clusters owner) := .of_linked (storing.allots.allotted.linked owner)

/-- The calls on the FAT leave the window away from the file. -/
theorem Storing.strays {after : Machine}
    (storing : Storing vol volume size build fmt counts fs disk machine allocation owner)
    (reworked : Reworked fs fs')
    (allots : Allots vol volume size build fmt counts fs' disk' after allocation')
    (fat : allocation'.clusters owner = allocation.clusters owner ∨ ¬OutsideFat fs fs'.winsect) :
    Storing vol volume size build fmt counts fs' disk' after allocation' owner := by
  have area := reworked.dataArea storing.area
  have chain := Chain.of_linked (allots.allotted.linked owner)
  refine ⟨allots, area, storing.mode, fun number inside => ?_⟩
  have data := (area.sector chain inside).1
  have away (inFat : ¬OutsideFat fs fs'.winsect) :
      fs'.winsect ≠ fileSector fs' (allocation'.clusters owner) number := fun same =>
    inFat ((reworked.outside _).mp (same ▸ area.outside allots.sees.one data))
  rcases fat with clusters | inFat
  · have csize := reworked.csize
    have sectors := reworked.fileSector
    rw [clusters, csize] at inside
    obtain ⟨win, winsect, wflag, fsiFlag, lastClust, freeClust, strays, rfl⟩ := reworked
    rcases strays with same | none | inFat
    · change winsect ≠ fileSector fs (allocation'.clusters owner) number
      rw [same, clusters]
      exact storing.apart number inside
    · have front : 0 < fs.database := Nat.lt_of_lt_of_le allots.sees.behind
        ((Nat.le_add_right _ _).trans area.behind)
      change winsect ≠ _
      rw [none]
      exact Nat.ne_of_lt (Nat.lt_of_lt_of_le front data)
    · exact away inFat
  · exact away inFat

/-- The buffer is flushed. -/
theorem flushBuffer_flushes
    (storing : Storing vol volume size build fmt counts fs disk machine allocation owner)
    (there : fp.dirty = true → ∃ number, number < (allocation.clusters owner).length * fs.csize ∧
      fp.dsect = fileSector fs (allocation.clusters owner) number) :
    ∃ after, (flushBuffer vol fp).Outcome machine (.ok, { fp with dirty := false }) after ∧
      Storing vol volume size build fmt counts fs (flushed fp disk) after allocation owner := by
  have area := storing.area
  have sees := storing.allots.sees
  rw [flushBuffer, flushed]
  by_cases dirty : fp.dirty = true
  · obtain ⟨number, inside, there⟩ := there dirty
    have direct := direct_fileSector area storing.chain storing.apart inside Nat.one_pos
      (Nat.mod_lt _ area.positive)
    rw [← there] at direct
    obtain ⟨after, wrote, seesAfter, _⟩ := @diskWrite_direct vol volume size build fs disk machine
      fp.buf fp.dsect 1 sees storing.mode area direct area.positive
    rw [storeRun_one] at seesAfter
    refine ⟨after, ?_, ?_, area, storing.mode, storing.apart⟩
    · rw [if_pos dirty, outcome_fatfs_bind sees.registered]
      refine outcome_bind.mpr ⟨_, _, wrote, ?_⟩
      rw [if_neg (not_not.mpr rfl)]
      exact outcome_pure.mpr ⟨rfl, rfl⟩
    · rw [if_pos dirty]
      refine storing.allots.data seesAfter fun sector before => Function.update_of_ne ?_ _ _
      exact Nat.ne_of_lt (Nat.lt_of_lt_of_le before (area.behind.trans direct.lower))
  · have clean := Bool.eq_false_iff.mpr dirty
    refine ⟨machine, ?_, by rw [if_neg dirty]; exact storing⟩
    rw [if_neg dirty, ← clean]
    exact outcome_pure.mpr ⟨rfl, rfl⟩

/-- The object whose next sector was found. -/
abbrev Fil.at (fp : Fil) (fs : Fatfs) (cells : List Nat) : Fil :=
  { fp with
    orgClust := cells.headD 0
    currClust := cells.getD (passed fp / fs.csize) 0
    csect := passed fp % fs.csize }

/-- At the end of a cluster the object goes on in the one that it is linked to. -/
theorem writeCluster_link {after : Machine} {clst : Nat} (registered : machine.fatFs vol = some fs)
    (full : fs.csize ≤ fp.csect) (link : (writeLink vol fp).Outcome machine clst after) :
    (clst = 0 → (writeCluster vol fp).Outcome machine
      (.error .full, if fp.fptr = 0 then { fp with orgClust := clst } else fp) after) ∧
    (2 ≤ clst → clst < 2 ^ 28 → (writeCluster vol fp).Outcome machine
      (.ok (), { (if fp.fptr = 0 then { fp with orgClust := clst } else fp : Fil) with
        currClust := clst, csect := 0 }) after) := by
  constructor
  · intro none
    rw [writeCluster, outcome_fatfs_bind registered, if_pos full]
    refine outcome_bind.mpr ⟨_, _, link, ?_⟩
    rw [if_pos none]
    exact outcome_pure.mpr ⟨rfl, rfl⟩
  · intro lower upper
    rw [writeCluster, outcome_fatfs_bind registered, if_pos full]
    refine outcome_bind.mpr ⟨_, _, link, ?_⟩
    rw [if_neg (by omega), if_neg (by omega), if_neg (by rw [diskError]; omega)]
    exact outcome_pure.mpr ⟨rfl, rfl⟩

/-- The number of clusters, between two and inside one. -/
theorem Writing.clusters (writing : Writing vol entry fs disk cells fp written)
    (positive : 0 < fs.csize) : cells.length = passed fp / fs.csize + if passed fp % fs.csize =
    0 then 0 else 1 := by
  obtain ⟨least, most⟩ := writing.enough positive
  have split := Nat.div_add_mod (passed fp) fs.csize
  have rest := Nat.mod_lt (passed fp) positive
  rw [Nat.mul_comm] at split
  generalize passed fp / fs.csize = quotient at split ⊢
  split_ifs with whole
  · have lower := Nat.le_of_mul_le_mul_right (show quotient * fs.csize ≤ cells.length * fs.csize by
      omega) positive
    have upper := Nat.lt_of_mul_lt_mul_right
      (show cells.length * fs.csize < (quotient + 1) * fs.csize by
        rw [Nat.add_mul, Nat.one_mul]
        omega)
    omega
  · have lower := Nat.lt_of_mul_lt_mul_right (show quotient * fs.csize < cells.length * fs.csize by
      omega)
    have upper := Nat.lt_of_mul_lt_mul_right
      (show cells.length * fs.csize < (quotient + 2) * fs.csize by
        rw [Nat.add_mul]
        omega)
    omega

/-! ### The turns of the loop -/

/-- What a turn of the loop of `f_write` leaves. -/
structure Taken (vol : Nat) (entry : Nat × Nat) (fs : Fatfs) (disk : Nat → Buffer)
    (cells : List Nat)
    (written buff : List UInt8) (wcnt : Nat) (fp : Fil) : Prop where
  some : 0 < wcnt
  most : wcnt ≤ buff.length
  writing : Writing vol entry fs disk cells { fp with fptr := fp.fptr + wcnt }
    (written ++ buff.take wcnt)

/-- Bytes that are put into the block behind those that are there follow them. -/
theorem fileBytes_put {buff : List UInt8} {wcnt : Nat} {buf : Buffer}
    (area : DataArea volume size fs)
    (chain : Chain fs cells) (bytes : (fileBytes fs cells disk).slice 0 written.length = written)
    (inside : written.length / sectorSize < cells.length * fs.csize)
    (prior : ∀ index, index < written.length % sectorSize →
      buf index = disk (fileSector fs cells (written.length / sectorSize)) index)
    (fits : written.length % sectorSize + wcnt ≤ sectorSize) (most : wcnt ≤ buff.length) :
    (fileBytes fs cells (Function.update disk (fileSector fs cells (written.length / sectorSize))
      (cut (buf.blit (written.length % sectorSize) wcnt fun index => buff.getD index 0)))).slice 0
        (written.length + wcnt) = written ++ buff.take wcnt := by
  have split := Nat.div_add_mod written.length sectorSize
  have within := Nat.mul_le_mul_right sectorSize (Nat.succ_le_of_lt inside)
  rw [Nat.succ_mul, Nat.mul_comm _ sectorSize] at within
  have put {index : Nat} (before : index < cells.length * fs.csize * sectorSize) :=
    @Striped.striped_update Nat sectorSize _ (written.length / sectorSize) index disk
      (fileSector fs cells) _ (fun other less same => fileSector_inj area chain less inside same)
      (cut (buf.blit (written.length % sectorSize) wcnt fun index => buff.getD index 0)) before
  refine Buffer.slice_extend bytes most (fun index before => ?_) fun index before => ?_
  · rw [fileBytes, put (by omega), fileBytes]
    split_ifs with here
    · have below : index % sectorSize < written.length % sectorSize := by
        rw [← here] at split
        have parts := Nat.div_add_mod index sectorSize
        omega
      rw [cut_inside (Nat.mod_lt _ (by decide)), Buffer.blit_below _ _ _ _ below, prior _ below,
        ← here]
      rfl
    · rfl
  · have later : written.length % sectorSize + index < sectorSize := by omega
    obtain ⟨quotient, rest⟩ := add_in_group later
    rw [fileBytes, put (by omega), if_pos quotient, rest, cut_inside later,
      Buffer.blit_inside _ _ _ _ (Nat.le_add_right _ _) (by omega), Nat.add_sub_cancel_left]

/-- Sectors that are written at the end of the file follow its bytes. -/
theorem fileBytes_storeRun {buff : List UInt8} {cc : Nat} (area : DataArea volume size fs)
    (chain : Chain fs cells) (bytes : (fileBytes fs cells disk).slice 0 written.length = written)
    (boundary : written.length = number * sectorSize) (inside : number < cells.length * fs.csize)
    (fits : number % fs.csize + cc ≤ fs.csize) (most : cc * sectorSize ≤ buff.length) :
    (fileBytes fs cells (storeRun disk (fileSector fs cells number) cc fun index =>
      buff.getD index 0)).slice 0 (written.length + cc * sectorSize) =
        written ++ buff.take (cc * sectorSize) := by
  refine Buffer.slice_extend bytes most (fun index before => ?_) fun index before => ?_
  · have block : index / sectorSize < number := by
      rw [boundary] at before
      exact Nat.div_lt_of_lt_mul (Nat.mul_comm _ _ ▸ before)
    rw [fileBytes, striped, storeRun, if_neg, fileBytes, striped]
    rintro ⟨lower, upper⟩
    obtain ⟨offset, same⟩ := Nat.exists_eq_add_of_le lower
    have later : number % fs.csize + offset < fs.csize := by omega
    rw [← fileSector_add later] at same
    have equal := fileSector_inj area chain (Nat.lt_trans block inside)
      (add_inside inside later) same
    omega
  · have block : index / sectorSize < cc := Nat.div_lt_of_lt_mul (Nat.mul_comm _ _ ▸ before)
    have later : number % fs.csize + index / sectorSize < fs.csize := by omega
    rw [fileBytes, striped, boundary, Nat.mul_comm, Nat.mul_add_div (by decide), Nat.mul_add_mod,
      fileSector_add later, storeRun,
      if_pos ⟨Nat.le_add_right _ _, Nat.add_lt_add_left block _⟩, Nat.add_sub_cancel_left,
      cut_inside (Nat.mod_lt _ (by decide)), Nat.div_add_mod']

/-- As many clusters as hold the sectors up to one of the last cluster. -/
theorem needed_advance {count offset : Nat} (positive : 0 < offset)
    (fits : number % count + offset ≤ count) :
    (number + offset + (count - 1)) / count = number / count + 1 := by
  have split := Nat.div_add_mod number count
  have whole : number + offset + (count - 1) =
      count * (number / count + 1) + (number % count + offset - 1) := by
    rw [Nat.mul_succ]
    omega
  have group : 0 < count := Nat.lt_of_lt_of_le positive ((Nat.le_add_left _ _).trans fits)
  rw [whole, Nat.mul_add_div group, Nat.div_eq_of_lt (a := number % count + offset - 1),
    Nat.add_zero]
  exact Nat.lt_of_lt_of_le (Nat.sub_one_lt (Nat.ne_of_gt (Nat.add_pos_right _ positive))) fits

/-- A turn that writes whole sectors, past the buffer. -/
theorem writeDirect_writes {before : Nat → Buffer} {buff : List UInt8}
    (storing : Storing vol volume size build fmt counts fs disk machine allocation owner)
    (writing : Writing vol entry fs before cells fp written) (boundary : fp.fptr % sectorSize = 0)
    (length : (allocation.clusters owner).length = passed fp / fs.csize + 1)
    (bytes : (fileBytes fs (allocation.clusters owner) disk).slice 0 written.length = written)
    (whole : buff.length / sectorSize ≠ 0) :
    ∃ wcnt fp' disk' after,
      (writeDirect vol (fileSector fs (allocation.clusters owner) (passed fp))
        (buff.length / sectorSize) (fun index => buff.getD index 0)
        { fp.at fs (allocation.clusters owner) with dirty := false }).Outcome machine
          (.ok wcnt, fp') after ∧
      Storing vol volume size build fmt counts fs disk' after allocation owner ∧
      (∀ sector, (∀ number, number < (allocation.clusters owner).length * fs.csize →
        sector ≠ fileSector fs (allocation.clusters owner) number) → disk' sector = disk sector) ∧
      Taken vol entry fs disk' (allocation.clusters owner) written buff wcnt fp' := by
  have area := storing.area
  have positive := area.positive
  have sees := storing.allots.sees
  have place := passed_boundary boundary
  have fptr := writing.fptr
  have within := Nat.mod_lt (passed fp) positive
  have inside : passed fp < (allocation.clusters owner).length * fs.csize := by
    rw [length]
    exact Nat.lt_mul_of_div_lt (Nat.lt_succ_self _) positive
  obtain ⟨cc, clipped⟩ : ∃ cc, cc = clip fs { fp.at fs (allocation.clusters owner) with
      dirty := false } (buff.length / sectorSize) := ⟨_, rfl⟩
  obtain ⟨some, fits, few⟩ : 0 < cc ∧ passed fp % fs.csize + cc ≤ fs.csize ∧
      cc ≤ buff.length / sectorSize := clipped ▸ clip_fits within whole
  have most := (Nat.mul_le_mul_right _ few).trans (Nat.div_mul_le_self buff.length sectorSize)
  have direct := direct_fileSector area storing.chain storing.apart inside some fits
  obtain ⟨after, wrote, seesAfter, _⟩ := @diskWrite_direct vol volume size build fs disk machine
    (fun index => buff.getD index 0) _ _ sees storing.mode area direct (by omega)
  have allots := storing.allots.data seesAfter fun sector before => by
    have front := Nat.lt_of_lt_of_le before (area.behind.trans direct.lower)
    rw [storeRun, if_neg fun inside => Nat.not_le.mpr front inside.1]
  have next : passed { fp with fptr := fp.fptr + cc * sectorSize } = passed fp + cc := by
    rw [passed]
    dsimp only
    rw [place, ← Nat.add_mul, sectorSize]
    omega
  have stored := fileBytes_storeRun area storing.chain bytes
    (fptr.symm.trans place) inside fits most
  have longer : (written ++ buff.take (cc * sectorSize)).length =
      written.length + cc * sectorSize := by
    rw [List.length_append, List.length_take, Nat.min_eq_left most]
  -- the buffer is clean, whether it shows one of the sectors or not
  have result (buf : Buffer) : Taken vol entry fs
      (storeRun disk (fileSector fs (allocation.clusters owner) (passed fp)) cc fun index =>
        buff.getD index 0) (allocation.clusters owner) written buff (cc * sectorSize)
      { fp.at fs (allocation.clusters owner) with
        dirty := false, buf, csect := passed fp % fs.csize + cc } := by
    refine ⟨Nat.mul_pos some (by decide), most, writing.owner, writing.id, writing.good,
      writing.mode, writing.entry, rfl, .of_advance some fits next rfl rfl, ?_, ?_, ?_,
      fun dirty => (Bool.false_ne_true dirty).elim, fun partly => absurd ?_ partly, ?_⟩
    · rw [longer, ← fptr]
    · rw [longer]
      exact writing.fsize.trans (Nat.le_add_right _ _)
    · change _ = (passed { fp with fptr := fp.fptr + cc * sectorSize } + (fs.csize - 1)) / fs.csize
      rw [next, needed_advance some fits, length]
    · change (fp.fptr + cc * sectorSize) % sectorSize = 0
      rw [Nat.add_mul_mod_self_right, boundary]
    · rw [longer]
      exact stored
  refine ⟨cc * sectorSize, _, _, after, ?_, ⟨allots, area, storing.mode, storing.apart⟩,
    fun sector away => ?_, result (if build.sub (fp.at fs (allocation.clusters owner)).dsect
        (fileSector fs (allocation.clusters owner) (passed fp)) < cc then
      fp.buf.blit 0 sectorSize fun index => buff.getD (build.sub (fp.at fs
        (allocation.clusters owner)).dsect (fileSector fs (allocation.clusters owner) (passed fp)) *
          sectorSize + index) 0 else fp.buf)⟩
  · rw [writeDirect, outcome_fatfs_bind sees.registered]
    refine outcome_bind.mpr ⟨_, _, outcome_get.mpr ⟨rfl, rfl⟩, ?_⟩
    dsimp only
    rw [← clipped]
    refine outcome_bind.mpr ⟨_, _, wrote, ?_⟩
    rw [if_neg (not_not.mpr rfl), sees.word]
    by_cases cached : build.sub (fp.at fs (allocation.clusters owner)).dsect
        (fileSector fs (allocation.clusters owner) (passed fp)) < cc
    · rw [if_pos cached, if_pos cached]
      exact outcome_pure.mpr ⟨rfl, rfl⟩
    · rw [if_neg cached, if_neg cached]
      exact outcome_pure.mpr ⟨rfl, rfl⟩
  · rw [storeRun, if_neg]
    rintro ⟨lower, upper⟩
    obtain ⟨offset, rfl⟩ := Nat.exists_eq_add_of_le lower
    have later : passed fp % fs.csize + offset < fs.csize := by omega
    exact away _ (add_inside inside later) (fileSector_add later).symm

/-- A turn that fills the buffer on, inside a sector. -/
theorem writePartial_writes {buff : List UInt8}
    (storing : Storing vol volume size build fmt counts fs disk machine allocation owner)
    (writing : Writing vol entry fs disk (allocation.clusters owner) fp written)
    (partly : fp.fptr % sectorSize ≠ 0) (some : buff ≠ []) :
    ∃ wcnt fp', writePartial buff.length (fun index => buff.getD index 0) fp = (.ok wcnt, fp') ∧
      Taken vol entry fs disk (allocation.clusters owner) written buff wcnt fp' := by
  have fptr := writing.fptr
  have length := List.length_pos_iff.mpr some
  have dirty := writing.partly partly
  obtain ⟨begun, there⟩ := writing.dirty dirty
  have here : passed fp - 1 = written.length / sectorSize := by
    rw [passed, fptr]
    rw [fptr] at partly
    rw [sectorSize] at partly ⊢
    omega
  have next (wcnt : Nat) (positive : 0 < wcnt)
      (most : wcnt ≤ sectorSize - fp.fptr % sectorSize) :
      passed { fp with fptr := fp.fptr + wcnt } = passed fp := by
    rw [passed, passed]
    rw [sectorSize] at partly most ⊢
    dsimp only
    omega
  have inside : written.length / sectorSize < (allocation.clusters owner).length * fs.csize := by
    rw [← here]
    exact Nat.lt_of_lt_of_le (Nat.sub_one_lt_of_lt begun) (writing.enough storing.area.positive).1
  have shown : flushed fp disk = Function.update disk (fileSector fs (allocation.clusters owner)
      (written.length / sectorSize)) (cut fp.buf) := by
    rw [flushed, if_pos dirty, there, here]
  have rest := Nat.mod_lt fp.fptr (show 0 < sectorSize by decide)
  have fits : fp.fptr % sectorSize + min (sectorSize - fp.fptr % sectorSize) buff.length ≤
    sectorSize := by
    omega
  have bytes := writing.bytes
  rw [shown] at bytes
  have put := fileBytes_put storing.area storing.chain bytes inside
    (fun index before => show fp.buf index = _ by
      rw [Function.update_self, cut_inside (Nat.lt_trans before (Nat.mod_lt _ (by decide)))])
    (fptr ▸ fits) (Nat.min_le_right _ _)
  rw [Function.update_idem] at put
  have longer : (written ++ buff.take (min (sectorSize - fp.fptr % sectorSize) buff.length)).length
      = fp.fptr + min (sectorSize - fp.fptr % sectorSize) buff.length := by
    rw [List.length_append, List.length_take, Nat.min_eq_left (Nat.min_le_right _ _), fptr]
  have same := next (min (sectorSize - fp.fptr % sectorSize) buff.length) (by omega)
    (Nat.min_le_left _ _)
  refine ⟨_, _, rfl, by omega, Nat.min_le_right _ _, writing.owner, writing.id, writing.good,
    writing.mode, writing.entry, writing.first, ⟨fun zero => ?_, fun _ => ?_, fun _ => ?_⟩,
    longer.symm, ?_, ?_, fun _ => ⟨?_, ?_⟩, fun _ => rfl, ?_⟩
  · exact writing.placed.fresh (same ▸ zero)
  · exact same.symm ▸ writing.placed.cluster begun
  · exact same.symm ▸ writing.placed.sector begun
  · rw [longer, fptr]
    exact writing.fsize.trans (Nat.le_add_right _ _)
  · exact same.symm ▸ writing.needed
  · exact same.symm ▸ begun
  · exact same.symm ▸ there
  · rw [longer, flushed, if_pos rfl, fptr]
    dsimp only
    rw [there, here, ← fptr]
    rw [← fptr] at put
    exact put

/-- A turn that begins a sector in the buffer. -/
theorem writeSector_writes {before : Nat → Buffer} {buff : List UInt8}
    (storing : Storing vol volume size build fmt counts fs disk machine allocation owner)
    (writing : Writing vol entry fs before cells fp written) (boundary : fp.fptr % sectorSize = 0)
    (length : (allocation.clusters owner).length = passed fp / fs.csize + 1)
    (bytes : (fileBytes fs (allocation.clusters owner) disk).slice 0 written.length = written)
    (some : buff ≠ []) (less : ¬buff.length / sectorSize ≠ 0) :
    ∃ wcnt fp',
      (writeSector vol (fileSector fs (allocation.clusters owner) (passed fp)) buff.length
        (fun index => buff.getD index 0) { fp.at fs (allocation.clusters owner) with dirty := false
        }).Outcome machine (.ok wcnt, fp') machine ∧
      Taken vol entry fs disk (allocation.clusters owner) written buff wcnt fp' := by
  have positive := storing.area.positive
  have place := passed_boundary boundary
  have fptr := writing.fptr
  have count := List.length_pos_iff.mpr some
  have small : buff.length < sectorSize := by
    rw [not_not, Nat.div_eq_zero_iff_lt (by decide)] at less
    exact less
  have within := Nat.mod_lt (passed fp) positive
  have inside : passed fp < (allocation.clusters owner).length * fs.csize := by
    rw [length]
    exact Nat.lt_mul_of_div_lt (Nat.lt_succ_self _) positive
  have whole : min (sectorSize - fp.fptr % sectorSize) buff.length = buff.length := by
    rw [boundary, Nat.sub_zero, Nat.min_eq_right small.le]
  have next : passed { fp with fptr := fp.fptr + buff.length } = passed fp + 1 := by
    rw [passed]
    dsimp only
    rw [place]
    rw [sectorSize] at small ⊢
    omega
  have here : written.length / sectorSize = passed fp := by
    rw [← fptr, place, Nat.mul_div_cancel _ (by decide)]
  have front : written.length % sectorSize = 0 := fptr ▸ boundary
  have put := @fileBytes_put volume size fs disk
    (allocation.clusters owner) written buff buff.length
    fp.buf storing.area storing.chain bytes (here.symm ▸ inside)
    (fun index before => absurd (front ▸ before) (Nat.not_lt_zero _)) (by omega) (Nat.le_refl _)
  have longer : (written ++ buff.take buff.length).length = fp.fptr + buff.length := by
    rw [List.length_append, List.take_length, fptr]
  refine ⟨buff.length, { fp.at fs (allocation.clusters owner) with
      dirty := true
      buf := fp.buf.blit (fp.fptr % sectorSize) buff.length fun index => buff.getD index 0
      dsect := fileSector fs (allocation.clusters owner) (passed fp)
      csect := passed fp % fs.csize + 1 }, ?_, count, Nat.le_refl _, writing.owner, writing.id,
        writing.good,
    writing.mode, writing.entry, rfl, .of_advance Nat.one_pos within next rfl rfl, longer.symm, ?_,
    ?_, fun _ => ⟨?_, ?_⟩, fun _ => rfl, ?_⟩
  · rw [writeSector, if_neg fun both => ?_]
    · refine outcome_pure.mpr ⟨?_, rfl⟩
      rw [writePartial]
      dsimp only [Fil.at]
      rw [whole]
    · have known := both.2
      have most := writing.fsize
      dsimp only [Fil.at] at known
      omega
  · rw [longer, fptr]
    exact writing.fsize.trans (Nat.le_add_right _ _)
  · change _ = (passed { fp with fptr := fp.fptr + buff.length } + (fs.csize - 1)) / fs.csize
    rw [next, needed_advance Nat.one_pos within, length]
  · change 0 < passed { fp with fptr := fp.fptr + buff.length }
    rw [next]
    exact Nat.succ_pos _
  · change _ = fileSector fs _ (passed { fp with fptr := fp.fptr + buff.length } - 1)
    rw [next, Nat.add_sub_cancel]
  · rw [longer, flushed, if_pos rfl, fptr]
    rw [here, ← fptr] at put
    rw [← fptr]
    exact put

variable [DecidableEq Owner]

/-- A file takes a cluster if one is left, and nothing but the FAT changes. -/
theorem Storing.grows
    (storing : Storing vol volume size build fmt counts fs disk machine allocation owner)
    {last : Nat} (behind : last = (allocation.clusters owner).getLast?.getD 0) :
    ∃ fs' disk' allocation' after result, (createChain vol last).Outcome machine result after ∧
      Storing vol volume size build fmt counts fs' disk' after allocation' owner ∧
      Grown owner fs disk allocation fs' disk' allocation' ∧
      (∀ sector, OutsideFat fs sector → disk' sector = disk sector) ∧
      (result = 0 ∧ allocation' = allocation ∧ allocation.left fs.maxClust = 0 ∨
        2 ≤ result ∧ result < fs.maxClust ∧
          allocation'.clusters owner = allocation.clusters owner ++ [result]) := by
  obtain ⟨begins, bounded⟩ := storing.allots.start_bounds owner
  rw [storing.allots.hint] at begins bounded
  obtain ⟨fs', disk', after, run, allots, reworked, fat, outside⟩ :=
    createChain_grows storing.allots storing.mode owner
  rw [← behind] at run
  cases choice : allocation.choice fs.maxClust owner with
  | none =>
    have same : allocation.grow fs.maxClust owner = allocation := by
      rw [Allocation.grow, choice]
    rw [same] at allots
    rw [choice] at run
    exact ⟨fs', disk', allocation, after, 0, run, storing.strays reworked allots (.inl rfl),
      ⟨reworked, fun _ _ => rfl, ⟨[], (List.append_nil _).symm⟩, rfl,
        fun sector away _ => outside sector away⟩, outside,
      .inl ⟨rfl, rfl, Allocation.left_of_none begins bounded choice⟩⟩
  | some fresh =>
    obtain ⟨lower, upper, _⟩ := storing.allots.chosen choice
    rw [choice] at run
    refine ⟨fs', disk', _, after, fresh, run,
      storing.strays reworked allots (.inr (fat fresh choice)),
      ⟨reworked, fun other different => Allocation.grow_others different,
        ⟨[fresh], Allocation.grow_clusters choice⟩, ?_, fun sector away _ => outside sector away⟩,
      outside, .inr ⟨lower, upper, Allocation.grow_clusters choice⟩⟩
    have left := Allocation.left_grow lower upper choice
    rw [Allocation.grow_clusters choice, List.length_append, List.length_singleton]
    omega

/-- The cluster of the next sector is there or is taken, unless none is left. -/
theorem writeCluster_takes
    (storing : Storing vol volume size build fmt counts fs disk machine allocation owner)
    (writing : Writing vol entry fs disk (allocation.clusters owner) fp written)
    (boundary : fp.fptr % sectorSize = 0) :
    ∃ fs' disk' allocation' after result fp',
      (writeCluster vol fp).Outcome machine (result, fp') after ∧
      Storing vol volume size build fmt counts fs' disk' after allocation' owner ∧
      Grown owner fs disk allocation fs' disk' allocation' ∧
      (∀ sector, OutsideFat fs sector → disk' sector = disk sector) ∧
          (result = .error .full ∧ fp' = fp ∧ allocation' = allocation ∧
          allocation.left fs.maxClust = 0 ∧ passed fp =
            (allocation.clusters owner).length * fs.csize ∨
        result = .ok () ∧ fp' = fp.at fs (allocation'.clusters owner) ∧
          (allocation'.clusters owner).length = passed fp / fs.csize + 1) := by
  have sees := storing.allots.sees
  have positive := storing.area.positive
  have place := passed_boundary boundary
  have clusters := writing.clusters positive
  have small := storing.allots.tabled.width
  have widest : 2 ^ entryBits fmt ≤ 2 ^ 28 := by cases fmt <;> decide
  have within {clst : Nat} (upper : clst < fs.maxClust) : clst < 2 ^ 28 :=
    Nat.lt_trans upper (Nat.lt_of_lt_of_le small widest)
  rcases writing.placed.group positive with ⟨zero, full⟩ | ⟨some, full, rest, quotient⟩ |
      ⟨some, less, sector, cluster⟩
  · -- the first cluster of the file
    have start : fp.fptr = 0 := by rw [place, zero, Nat.zero_mul]
    rw [zero, Nat.zero_mod, if_pos rfl, Nat.zero_div] at clusters
    have none : allocation.clusters owner = [] := List.eq_nil_of_length_eq_zero clusters
    have first : fp.orgClust = 0 := by rw [writing.first, none, List.headD_nil]
    obtain ⟨fs', disk', allocation', after, result, run, storingAfter, grown, outside, ending⟩ :=
      storing.grows (show 0 = (allocation.clusters owner).getLast?.getD 0 by rw [none]; rfl)
    have link : (writeLink vol fp).Outcome machine result after := by
      rw [writeLink, if_neg (not_not.mpr start), if_pos first]
      exact run
    obtain ⟨stops, goesOn⟩ := writeCluster_link sees.registered full link
    rcases ending with ⟨rfl, same, left⟩ | ⟨lower, upper, more⟩
    · refine ⟨fs', disk', allocation', after, _, _, stops rfl, storingAfter, grown, outside,
        .inl ⟨rfl, ?_, same, left, ?_⟩⟩
      · rw [if_pos start, ← first]
      · rw [zero, none, List.length_nil, Nat.zero_mul]
    · refine ⟨fs', disk', allocation', after, _, _, goesOn lower (within upper),
        storingAfter, grown, outside, .inr ⟨rfl, ?_, ?_⟩⟩
      · rw [if_pos start, Fil.at, more, none, zero, Nat.zero_div, Nat.zero_mod]
        rfl
      · rw [more, none, zero, Nat.zero_div]
        rfl
  · -- a cluster behind the last one
    have begun : fp.fptr ≠ 0 := by
      rw [place, sectorSize]
      omega
    rw [rest, if_pos rfl, Nat.add_zero] at clusters
    have lastPlace : (passed fp - 1) / fs.csize = (allocation.clusters owner).length - 1 := by
      rw [clusters, quotient, Nat.add_sub_cancel]
    have last : fp.currClust = (allocation.clusters owner).getLast?.getD 0 := by
      rw [writing.placed.cluster some, lastPlace, List.getLast?_eq_getElem?,
        List.getD_eq_getElem?_getD]
    have head (fresh : Nat) : (allocation.clusters owner ++ [fresh]).headD 0 = fp.orgClust := by
      rw [writing.first]
      cases present : allocation.clusters owner with
      | nil =>
        rw [present, List.length_nil] at clusters
        omega
      | cons _ _ => rfl
    obtain ⟨fs', disk', allocation', after, result, run, storingAfter, grown, outside, ending⟩ :=
      storing.grows last
    have link : (writeLink vol fp).Outcome machine result after := by
      rw [writeLink, if_pos begun]
      exact run
    obtain ⟨stops, goesOn⟩ := writeCluster_link sees.registered full link
    rw [if_neg begun] at stops goesOn
    rcases ending with ⟨rfl, same, left⟩ | ⟨lower, upper, more⟩
    · refine ⟨fs', disk', allocation', after, _, _, stops rfl, storingAfter, grown, outside,
        .inl ⟨rfl, rfl, same, left, ?_⟩⟩
      rw [clusters, Nat.div_mul_cancel (Nat.dvd_of_mod_eq_zero rest)]
    · refine ⟨fs', disk', allocation', after, _, _, goesOn lower (within upper),
        storingAfter, grown, outside, .inr ⟨rfl, ?_, ?_⟩⟩
      · rw [Fil.at, more, rest, ← clusters, List.getD_append_right _ _ _ _ (Nat.le_refl _),
          Nat.sub_self, head]
        rfl
      · rw [more, List.length_append, clusters, List.length_singleton]
  · have inside : passed fp % fs.csize ≠ 0 := by
      have sector' := writing.placed.sector some
      omega
    rw [if_neg inside] at clusters
    refine ⟨fs, disk, allocation, machine, .ok (), fp, ?_, storing, .refl, fun _ _ => rfl,
      .inr ⟨rfl, ?_, clusters⟩⟩
    · rw [writeCluster, outcome_fatfs_bind sees.registered, if_neg (Nat.not_le.mpr less)]
      exact outcome_pure.mpr ⟨rfl, rfl⟩
    · rw [Fil.at, ← sector, ← cluster, ← writing.first]

/-- The bytes that a file has stay when it gets more clusters. -/
theorem fileBytes_grown {length : Nat} (area : DataArea volume size fs) (one : 1 ≤ fs.nFats)
    (chain : Chain fs cells) (outside : ∀ sector, OutsideFat fs sector → disk' sector = disk sector)
    (few : length ≤ cells.length * fs.csize * sectorSize) :
    (fileBytes fs (cells ++ more) (flushed fp disk')).slice 0 length =
      (fileBytes fs cells (flushed fp disk)).slice 0 length := by
  refine List.map_congr_left fun index member => ?_
  have before := List.mem_range.mp member
  have inside : (0 + index) / sectorSize < cells.length * fs.csize :=
    (Nat.div_lt_iff_lt_mul (by decide)).mpr (by omega)
  have data := outside _ (area.outside one (area.sector chain inside).1)
  rw [fileBytes, striped, fileBytes, striped, fileSector_append area.positive inside,
    flushed, flushed]
  by_cases dirty : fp.dirty = true
  · rw [if_pos dirty, if_pos dirty, Function.update_apply, Function.update_apply, data]
  · rw [if_neg dirty, if_neg dirty, data]

/-- A turn of the loop of `f_write` takes some of the bytes, unless no cluster is left. -/
theorem writeTurn_writes {buff : List UInt8}
    (storing : Storing vol volume size build fmt counts fs disk machine allocation owner)
    (writing : Writing vol entry fs disk (allocation.clusters owner) fp written)
    (some : buff ≠ []) : ∃ fs' disk' allocation' after result fp',
      (writeTurn vol buff.length (fun index => buff.getD index 0) fp).Outcome machine
      (result, fp') after ∧ Storing vol volume size build fmt counts fs' disk' after allocation'
      owner ∧ Grown owner fs disk allocation fs' disk' allocation' ∧
      (result = .error .full ∧ Writing vol entry fs' disk'
          (allocation'.clusters owner) fp' written ∧ allocation'.left fs.maxClust = 0 ∧
          written.length = (allocation'.clusters owner).length * fs.csize * sectorSize ∨
        ∃ wcnt, result = .ok wcnt ∧
          Taken vol entry fs' disk' (allocation'.clusters owner) written buff wcnt fp') := by
  rw [writeTurn]
  by_cases partly : fp.fptr % sectorSize ≠ 0
  · obtain ⟨wcnt, fp', run, taken⟩ := writePartial_writes storing writing partly some
    rw [if_pos partly, run]
    exact ⟨fs, disk, allocation, machine, _, _, outcome_pure.mpr ⟨rfl, rfl⟩, storing, .refl,
      .inr ⟨wcnt, rfl, taken⟩⟩
  · have boundary := not_not.mp partly
    have place := passed_boundary boundary
    have fptr := writing.fptr
    have enough := (writing.enough storing.area.positive).1
    have few : written.length ≤ (allocation.clusters owner).length * fs.csize * sectorSize := by
      rw [← fptr, place]
      exact Nat.mul_le_mul_right _ enough
    obtain ⟨fs', disk', allocation', middle, result, middleFil, found, storingMiddle, grown,
      outside, ending⟩ := writeCluster_takes storing writing boundary
    obtain ⟨more, longer⟩ := grown.longer
    have bytes := writing.bytes
    rw [← @fileBytes_grown volume size fs disk disk' _ more fp _ storing.area
      storing.allots.sees.one storing.chain outside few, ← longer] at bytes
    rw [if_neg partly]
    rcases ending with ⟨rfl, rfl, same, left, full⟩ | ⟨rfl, rfl, length⟩
    · -- the disk is full
      refine ⟨fs', disk', allocation', middle, .error .full, middleFil,
        outcome_bind.mpr ⟨_, _, found, ?_⟩, storingMiddle, grown, .inl ⟨rfl, ?_, same ▸ left, ?_⟩⟩
      · exact outcome_pure.mpr ⟨rfl, rfl⟩
      · obtain ⟨win, winsect, wflag, fsiFlag, lastClust, freeClust, _, rfl⟩ := grown.reworked
        rw [same] at bytes ⊢
        exact { writing with placed := { writing.placed with }, bytes := bytes }
      · rw [same, ← full, ← place, fptr]
    · have positive := storing.area.positive
      have there (dirty : fp.dirty = true) :
          passed fp - 1 < (allocation'.clusters owner).length * fs.csize ∧
            fp.dsect = fileSector fs (allocation'.clusters owner) (passed fp - 1) := by
        obtain ⟨begun, there⟩ := writing.dirty dirty
        have inside : passed fp - 1 < (allocation.clusters owner).length * fs.csize := by omega
        rw [longer, List.length_append, Nat.add_mul, fileSector_append positive inside]
        exact ⟨Nat.lt_add_right _ inside, there⟩
      have away (sector : Nat) (away : ∀ number,
          number < (allocation'.clusters owner).length * fs.csize →
            sector ≠ fileSector fs (allocation'.clusters owner) number) :
          flushed fp disk' sector = disk' sector := by
        rw [flushed]
        split_ifs with dirty
        · exact Function.update_of_ne ((there dirty).2 ▸ away _ (there dirty).1) _ _
        · rfl
      have reworked := grown.reworked
      obtain ⟨win, winsect, wflag, fsiFlag, lastClust, freeClust, strays, rfl⟩ := reworked
      obtain ⟨afterFlush, flush, storingFlush⟩ :=
        @flushBuffer_flushes Owner vol volume size build fmt
        counts _ disk' middle allocation' owner
          (fp.at fs (allocation'.clusters owner)) storingMiddle
        fun dirty => ⟨_, there dirty⟩
      have writingFlush : Writing vol entry
          { fs with win, winsect, wflag, fsiFlag, lastClust, freeClust } disk
          (allocation.clusters owner) fp written :=
        { writing with placed := { writing.placed with } }
      have inside : passed fp < (allocation'.clusters owner).length * fs.csize := by
        rw [length]
        exact Nat.lt_mul_of_div_lt (Nat.lt_succ_self _) positive
      obtain ⟨present, sector⟩ := @clust2sect_fileSector volume size afterFlush.build _ _ _
        storingFlush.area storingFlush.chain storingFlush.allots.sees.behind inside
      dsimp only at present sector
      by_cases whole : buff.length / sectorSize ≠ 0
      · obtain ⟨wcnt, fp', disk'', after, run, storingAfter, stored, taken⟩ :=
          writeDirect_writes storingFlush writingFlush boundary length bytes whole
        refine ⟨_, disk'', allocation', after, .ok wcnt, fp', outcome_bind.mpr ⟨_, _, found, ?_⟩,
          storingAfter, { grown with kept := fun sector outside apart => ?_ },
            .inr ⟨wcnt, rfl, taken⟩⟩
        · dsimp only
          refine outcome_bind.mpr ⟨_, _, flush, ?_⟩
          rw [if_neg (not_not.mpr rfl)]
          refine outcome_bind.mpr ⟨_, _, outcome_get.mpr ⟨rfl, rfl⟩, ?_⟩
          rw [outcome_fatfs_bind storingFlush.allots.sees.registered]
          rw [if_neg present, if_pos whole, sector]
          exact run
        · exact (stored sector apart).trans ((away sector apart).trans
            (grown.kept sector outside apart))
      · obtain ⟨wcnt, fp', run, taken⟩ :=
          writeSector_writes storingFlush writingFlush boundary length bytes some whole
        refine ⟨_, flushed fp disk', allocation', afterFlush, .ok wcnt, fp',
          outcome_bind.mpr ⟨_, _, found, ?_⟩, storingFlush,
          { grown with kept := fun sector outside apart => ?_ }, .inr ⟨wcnt, rfl, taken⟩⟩
        · dsimp only
          refine outcome_bind.mpr ⟨_, _, flush, ?_⟩
          rw [if_neg (not_not.mpr rfl)]
          refine outcome_bind.mpr ⟨_, _, outcome_get.mpr ⟨rfl, rfl⟩, ?_⟩
          rw [outcome_fatfs_bind storingFlush.allots.sees.registered]
          rw [if_neg present, if_neg whole, sector]
          exact run
        · exact (away sector apart).trans (grown.kept sector outside apart)

/-- The loop of `f_write` takes all bytes or those that there is room for, by induction on its
turns. -/
theorem writeFile_writes (fuel : Nat) {buff : List UInt8} (bw : Nat)
    (storing : Storing vol volume size build fmt counts fs disk machine allocation owner)
    (writing : Writing vol entry fs disk (allocation.clusters owner) fp written)
    (enough : buff.length < fuel) :
    ∃ fs' disk' allocation' after taken fp',
      (writeFile vol fuel buff bw fp).Outcome machine (.ok (), bw + taken, fp') after ∧
      Storing vol volume size build fmt counts fs' disk' after allocation' owner ∧
      Grown owner fs disk allocation fs' disk' allocation' ∧ taken ≤ buff.length ∧
      Writing vol entry fs' disk' (allocation'.clusters owner) fp' (written ++ buff.take taken) ∧
      (taken = buff.length ∨ allocation'.left fs.maxClust = 0 ∧
        written.length + taken = (allocation'.clusters owner).length * fs.csize * sectorSize) := by
  induction fuel generalizing buff bw fs disk machine allocation fp written with
  | zero => exact absurd enough (Nat.not_lt_zero _)
  | succ fuel inductionHypothesis =>
    rw [writeFile]
    by_cases none : buff = []
    · subst none
      refine ⟨fs, disk, allocation, machine, 0, fp, ?_, storing, .refl, Nat.le_refl _, ?_, .inl rfl⟩
      · rw [if_pos rfl]
        exact outcome_pure.mpr ⟨rfl, rfl⟩
      · rw [List.take_nil, List.append_nil]
        exact writing
    · obtain ⟨middleFs, middleDisk, middleAllocation, middle, result, middleFil, turn,
        storingMiddle, grown, ending⟩ := writeTurn_writes storing writing none
      rw [if_neg none]
      rcases ending with ⟨rfl, writingMiddle, left, full⟩ | ⟨wcnt, rfl, some, most, writingMiddle⟩
      · refine ⟨middleFs, middleDisk, middleAllocation, middle, 0, middleFil,
          outcome_bind.mpr ⟨_, _, turn, ?_⟩, storingMiddle, grown, Nat.zero_le _, ?_,
          .inr ⟨left, full⟩⟩
        · exact outcome_pure.mpr ⟨rfl, rfl⟩
        · rw [List.take_zero, List.append_nil]
          exact writingMiddle
      · have rest : (buff.drop wcnt).length = buff.length - wcnt := List.length_drop
        obtain ⟨fs', disk', allocation', after, taken, fp', run, storingAfter, grownAfter, fewer,
          writingAfter, done⟩ := @inductionHypothesis _ _ _ _ _ _ (buff.drop wcnt) (bw + wcnt)
            storingMiddle writingMiddle (by omega)
        refine ⟨fs', disk', allocation', after, wcnt + taken, fp',
          outcome_bind.mpr ⟨_, _, turn, ?_⟩, storingAfter,
          grown.trans storing.area.positive grownAfter, by omega, ?_, ?_⟩
        · rw [← Nat.add_assoc]
          exact run
        · rw [List.take_add, ← List.append_assoc]
          exact writingAfter
        · rw [List.length_append, List.length_take, Nat.min_eq_left most, grown.reworked.csize,
            grown.reworked.maxClust] at done
          rcases done with all | ⟨left, full⟩
          · exact .inl (by omega)
          · exact .inr ⟨left, by omega⟩

/-- `f_write` puts the bytes that it is given behind those of the file, as many as there is room
for. -/
theorem fWrite_writes (buff : List UInt8)
    (storing : Storing vol volume size build fmt counts fs disk machine allocation owner)
    (writing : Writing vol entry fs disk (allocation.clusters owner) fp written)
    (short : written.length + buff.length < 2 ^ 32) :
    ∃ fs' disk' allocation' after taken fp', (fWrite fp buff).Outcome machine
      (.ok, taken, fp') after ∧ Storing vol volume size build fmt counts fs' disk' after allocation'
      owner ∧ Grown owner fs disk allocation fs' disk' allocation' ∧
      Writing vol entry fs' disk' (allocation'.clusters owner) fp' (written ++ buff.take taken) ∧
      fp'.written = true ∧ fp'.fsize = written.length + taken ∧
      taken = min buff.length (((allocation.clusters owner).length + allocation.left fs.maxClust) *
        fs.csize * sectorSize - written.length) := by
  have fsize := writing.fsize
  obtain ⟨fs', disk', allocation', after, taken, fp', run, storingAfter, grown, fewer, writingAfter,
    done⟩ := writeFile_writes (buff.length + 1) 0 storing writing (Nat.lt_succ_self _)
  have length : (written ++ buff.take taken).length = written.length + taken := by
    rw [List.length_append, List.length_take, Nat.min_eq_left fewer]
  have whole := writingAfter.fsize
  have fptr := writingAfter.fptr
  rw [length] at whole fptr
  refine ⟨fs', disk', allocation', after, taken, { fp' with
      fsize := max fp'.fsize fp'.fptr
      written := true }, ?_, storingAfter, grown, ?_, rfl, ?_, ?_⟩
  · rw [fWrite]
    refine outcome_bind.mpr ⟨.ok, machine, ?_, ?_⟩
    · rw [validate]
      refine outcome_bind.mpr ⟨_, _, outcome_get.mpr ⟨rfl, rfl⟩, ?_⟩
      rw [writing.owner, Option.bind_some, storing.allots.sees.registered]
      refine outcome_pure.mpr ⟨(if_pos ⟨?_, writing.id.symm⟩).symm, rfl⟩
      rw [storing.allots.tabled.type, Option.isSome_some]
    · rw [if_neg (not_not.mpr rfl), writing.good, if_neg Bool.false_ne_true, writing.mode,
        if_neg (not_not.mpr rfl)]
      refine outcome_bind.mpr ⟨_, _, outcome_get.mpr ⟨rfl, rfl⟩, ?_⟩
      have word := build.le_word
      dsimp only
      rw [storing.allots.sees.word, build.add_of_lt (by omega), if_neg (by omega), writing.owner]
      refine outcome_bind.mpr ⟨_, _, run, ?_⟩
      dsimp only
      rw [Nat.zero_add]
      exact outcome_pure.mpr ⟨rfl, rfl⟩
  · exact { writingAfter with
      placed := { writingAfter.placed with }
      fsize := by
        rw [length]
        dsimp only
        omega }
  · dsimp only
    omega
  · have room := grown.room
    have enough := (writingAfter.enough storingAfter.area.positive).1
    have place : fp'.fptr ≤ passed fp' * sectorSize := by
      rw [passed, sectorSize]
      omega
    rw [grown.reworked.csize] at enough
    rw [← room]
    have within := Nat.mul_le_mul_right sectorSize enough
    rcases done with all | ⟨left, full⟩
    · have more := Nat.mul_le_mul_right sectorSize (Nat.mul_le_mul_right fs.csize
        (Nat.le_add_right (allocation'.clusters owner).length (allocation'.left fs.maxClust)))
      omega
    · rw [left, Nat.add_zero]
      omega

end Writing

end Ff

end Hdfmonkey
