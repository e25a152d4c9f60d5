/-
This file opens the root directory of an image that was formatted and used: `f_opendir`
mounts it and comes to the first entry of the root directory, be it in the fixed sectors
of FAT12 and FAT16 or in the chain of FAT32. `ls` then lists the table that is there.

Nothing of this needs an image that may be written.
-/

import Hdfmonkey.Listings
import Hdfmonkey.VolumeRuns

namespace Hdfmonkey

/-- The machine after `open_image`: the volume is mapped and the object registered. -/
def Machine.opened (machine : Machine) (volume : VolumeContainer) (object : Fatfs) : Machine :=
  (diskMap 0 volume { machine with transfers := machine.transfers + 2 }).register 0
    (some { object with fsType := none })

namespace Ff

open Program

section Root

variable {Owner : Type} {volume : VolumeContainer} {size : Nat} {layout : Layout}
  {machine : Machine}
  {clusters : Owner → List Nat} {root : Owner} {fs mounted : Fatfs} {fuel : Nat}

/-- The data area of a layout is behind its FATs and within its partition. -/
theorem dataArea_mounted (sound : layout.Sound) (matched : mounted.Matches layout)
    (near : layout.bPart + layout.nPart ≤ reach)
    (whole : (layout.bPart + layout.nPart) * sectorSize + volume.dataOffset ≤ size) :
    DataArea volume size mounted := by
  have bPart := sound.bPart
  have room := sound.room
  have most := Nat.div_mul_le_self (layout.nPart - layout.nRsv - layout.nFat * nFats - layout.nDir)
    layout.allocsize
  rw [← sound.nClst] at most
  have clusters : mounted.maxClust - 2 = layout.nClst := by
    rw [matched.maxClust]
    omega
  have edge : mounted.database + (mounted.maxClust - 2) * mounted.csize ≤
    layout.bPart + layout.nPart := by
    rw [matched.database, clusters, matched.csize, Layout.bData, Layout.bDir, Layout.bFat]
    omega
  refine ⟨?_, edge.trans near, ?_, ?_, ?_⟩
  · rw [matched.database, matched.fatbase, matched.nFats, matched.sectsFat, Layout.bData,
      Layout.bDir, Nat.mul_comm nFats]
    exact Nat.le_add_right _ _
  · exact (Nat.add_le_add_right (Nat.mul_le_mul_right _ edge) _).trans whole
  · rw [matched.csize]
    exact sound.allocsize_pos
  · rw [matched.csize]
    exact sound.allocsize_le.trans (by decide)

/-- The sector of the root directory that has the given number in it. -/
def rootSector (layout : Layout) (cells : List Nat) (number : Nat) : Nat :=
  if cells = [] then layout.bDir + number
  else layout.bData + (cells.getD (number / layout.allocsize) 0 - 2) * layout.allocsize +
    number % layout.allocsize

/-- The entries of the root directory of an image. -/
def rootSlots (layout : Layout) (cells : List Nat) (disk : Nat → Buffer) : List Buffer :=
  (List.range (if cells = [] then layout.nDir * 16 else cells.length * layout.allocsize * 16)).map
    fun index place =>
      if place < 32 then disk (rootSector layout cells (index / 16))
        (index % 16 * 32 + place) else 0

/-- The clusters of the root directory begin where the boot record has it, or are none. -/
def Rooted (layout : Layout) (cells : List Nat) : Prop :=
  cells.headD 0 = if layout.fmt = .fat32 then 2 else 0

theorem rooted_rootClusters [DecidableEq Owner] (root : Owner) (layout : Layout) :
    Rooted layout (rootClusters root layout.fmt root) := by
  rw [Rooted, rootClusters]
  split_ifs <;> simp_all

/-- The root directory of a mounted volume is a table. -/
theorem rootTable_mounted {vol : Nat} {build : Build} {disk : Nat → Buffer} {after : Machine}
    {counts : Prop}
    {allocation : Allocation Owner} (power : ∃ bits, layout.allocsize = 2 ^ bits)
    (allots : Allots vol volume size build layout.fmt counts mounted disk after allocation)
    (matched : mounted.Matches layout)
    (dirbase : mounted.dirbase = if layout.fmt = .fat32 then 2 else layout.bDir)
    (area : DataArea volume size mounted) (rooted : Rooted layout (allocation.clusters root)) :
    OnTable vol volume size build layout.fmt mounted disk after (allocation.clusters root) 0 := by
  refine ⟨allots.sees, allots.tabled, area, matched.csize ▸ power, allots.allotted.linked root, ?_,
    fun none => ?_⟩
  · rw [rooted, dirbase]
    split_ifs <;> simp_all
  · have kind : layout.fmt ≠ .fat32 := fun fat32 => by
      rw [Rooted, none, if_pos fat32] at rooted
      exact absurd rooted (by decide)
    rw [dirbase, if_neg kind, matched.fatbase, matched.nFats, matched.sectsFat, matched.database,
      matched.nRootdir, Layout.bData, Layout.bDir, sectorSize, Nat.mul_comm nFats]
    omega

/-- Its entries are those of the image. -/
theorem tableSlots_mounted (matched : mounted.Matches layout) {cells : List Nat}
    (dirbase : mounted.dirbase = if layout.fmt = .fat32 then 2 else layout.bDir)
    (rooted : Rooted layout cells) (disk : Nat → Buffer) :
    tableSlots mounted cells disk 0 = rootSlots layout cells disk := by
  have length : tableLength mounted cells =
      if cells = [] then layout.nDir * 16 else cells.length * layout.allocsize * 16 := by
    rw [tableLength, matched.nRootdir, matched.csize, Nat.mul_comm]
    rfl
  have sector (number : Nat) : tableSector mounted cells number =
    rootSector layout cells number := by
    rw [tableSector, rootSector, fileSector, clusterStart, matched.csize, matched.database, dirbase]
    split_ifs with none fat32
    · rw [Rooted, none, if_pos fat32] at rooted
      exact absurd rooted (by decide)
    · rfl
    · rfl
  rw [tableSlots, rootSlots, length, Nat.sub_zero, ← List.range_eq_range']
  refine List.map_congr_left fun index _ => funext fun place => ?_
  rw [tableSlot, sector]

/-- `f_opendir` comes to the first entry of the root directory of a stocked image. -/
theorem fOpendir_root (stocked : Stocked 0 volume size layout machine clusters)
    (registered : machine.fatFs 0 = some fs) (unmounted : fs.fsType = none)
    (near : layout.bPart + layout.nPart ≤ reach)
    (whole : (layout.bPart + layout.nPart) * sectorSize + volume.dataOffset ≤ size)
    (rooted : Rooted layout (clusters root)) :
    ∃ dj mounted after, (fOpendir []).Outcome machine (.ok dj) after ∧
      OnTable 0 volume size machine.build layout.fmt mounted (machine.sectorBytes volume) after
        (clusters root) 0 ∧
      InStep 0 mounted (clusters root) 0 (machine.sectorBytes volume) dj
        ⟨rootSlots layout (clusters root) (machine.sectorBytes volume), 0, dj.lfnIdx⟩ := by
  obtain ⟨first, mounted, mount, allots, matched, _, dirbase, _⟩ :=
    chkMounted_stocked stocked (by decide) registered unmounted
  have area := dataArea_mounted stocked.sound matched near whole
  have onTable := rootTable_mounted stocked.power allots matched dirbase area rooted
  have some : 0 < tableLength mounted (clusters root) := by
    have positive := area.positive
    rw [tableLength]
    split_ifs with none
    · have kind : layout.fmt ≠ .fat32 := fun fat32 => by
        rw [Rooted, none, if_pos fat32] at rooted
        exact absurd rooted (by decide)
      rw [matched.nRootdir, stocked.sound.nDir]
      cases type : layout.fmt
      · decide
      · decide
      · exact absurd type kind
    · have length := List.length_pos_iff.mpr none
      exact Nat.mul_pos (Nat.mul_pos length positive) (by decide)
  obtain ⟨dj₁, win₁, winsect₁, wflag₁, second, sought, onTableSecond, at₁, same₁⟩ :=
    @dirSeek_comes _ _ _ _ _ _ _ _ _ _ 0 { Dir.blank 0 with sclust := 0 } onTable rfl rfl some
  have drive₁ : dj₁.fs = 0 := by rw [same₁]; rfl
  have sclust₁ : dj₁.sclust = 0 := by rw [same₁]
  obtain ⟨dj, win, winsect, wflag, after, again, onTableAfter, at', same⟩ :=
    @dirSeek_comes _ _ _ _ _ _ _ _ _ _ 0 (({ dj₁ with dir := none } : Dir).enter
      { mounted with win := win₁, winsect := winsect₁, wflag := wflag₁ }) onTableSecond drive₁
        sclust₁ some
  have id' : dj.id = mounted.id := by rw [same]; rfl
  refine ⟨dj, _, after, ?_, onTableAfter, at'.drive, id',
    .inr ⟨{ at' with }, some, Nat.two_pow_pos 16, rfl, ?_⟩⟩
  · rw [fOpendir]
    refine outcome_bind.mpr ⟨_, _, mount, ?_⟩
    rw [if_neg (not_not.mpr rfl)]
    refine outcome_bind.mpr ⟨(.ok, { dj₁ with dir := none }), second, ?_, ?_⟩
    · exact outcome_bind.mpr ⟨_, _, sought, outcome_pure.mpr ⟨rfl, rfl⟩⟩
    · rw [if_neg (not_not.mpr rfl)]
      refine (outcome_fatfs_bind onTableSecond.sees.registered).mpr ?_
      rw [if_neg fun both => Bool.false_ne_true both.1]
      refine outcome_bind.mpr ⟨_, _, again, ?_⟩
      rw [if_neg (not_not.mpr rfl)]
      exact outcome_pure.mpr ⟨rfl, rfl⟩
  · exact (tableSlots_mounted matched dirbase rooted _).symm

/-- `open_image` maps the volume and registers the object. -/
theorem openImage_opens {pathname : FileName} {writeable : Bool} {object : Fatfs}
    (opened : openVolume machine.build (fun call => machine.sys (machine.transfers + call))
      machine.files pathname writeable = some volume) :
    (openImage pathname (some object) writeable).Outcome machine (some volume)
      (machine.opened volume object) := by
  rw [openImage]
  refine outcome_bind.mpr ⟨_, { machine with transfers := machine.transfers + 2 }, rfl, ?_⟩
  refine outcome_bind.mpr ⟨_, _, outcome_get.mpr ⟨rfl, rfl⟩, ?_⟩
  dsimp only
  rw [opened]
  refine outcome_bind.mpr ⟨⟨⟩, _, outcome_modify.mpr rfl, ?_⟩
  refine outcome_bind.mpr ⟨.ok, machine.opened volume object, rfl, ?_⟩
  exact outcome_pure.mpr ⟨rfl, rfl⟩

/-- `ls` of an image that was formatted and used prints the names of the files and directories in
its root directory, with the sizes of the files and in the order of the table. -/
theorem cmdLs_names {program command imageFilename : FileName} {object : Fatfs}
    {entries : List (DirEntry × Nat)}
    (opened : openVolume machine.build (fun call => machine.sys (machine.transfers + call))
      machine.files imageFilename false = some volume)
    (stocked : Stocked 0 volume size layout (machine.opened volume object) clusters)
    (near : layout.bPart + layout.nPart ≤ reach)
    (whole : (layout.bPart + layout.nPart) * sectorSize + volume.dataOffset ≤ size)
    (rooted : Rooted layout (clusters root))
    (filed : Filed 0 entries (rootSlots layout (clusters root) (machine.sectorBytes volume)))
    (enough : entries.length < fuel) :
    ∃ after, (cmdLs object fuel [program, command, imageFilename]).Outcome machine
      (0, entries.map fun entry => lsLine machine.build (entryInfo entry)) after := by
  obtain ⟨dj, mounted, middle, opendir, onTable, inStep⟩ :=
    fOpendir_root stocked (Machine.fatFs_register _ _ _) rfl near whole rooted
  obtain ⟨_, _, _, after, run, _⟩ := lsLoop_names onTable inStep filed enough []
  refine ⟨after, ?_⟩
  rw [cmdLs]
  refine outcome_bind.mpr ⟨_, _, openImage_opens opened, ?_⟩
  exact outcome_bind.mpr ⟨_, _, opendir, run⟩

end Root

end Ff

end Hdfmonkey
