/-
This file proves what `f_open` leaves when it creates a file or empties one, on a volume
whose tables and whose FAT agree: an entry with neither a start cluster nor a length, at a
place that no other list of clusters is found by, and an owner there that has no clusters.
What the other files have is theirs still.

A new entry is at a place that was free, and an entry that is emptied has given its
clusters back before `f_open` returns.
-/

import Hdfmonkey.Catalogue

namespace Hdfmonkey

namespace Ff

open Program

/-- The entry of a file that has nothing, in the window. -/
structure NewEntry {Owner : Type} (vol : Nat) (volume : VolumeContainer) (size : Nat)
    (build : Build) (fmt : FatType) (counts : Prop) (fs : Fatfs) (disk : Nat → Buffer)
    (machine : Machine) (allocation : Allocation Owner) (owner : Owner) (place : Nat × Nat) :
    Prop where
  allots : Allots vol volume size build fmt counts fs disk machine allocation
  area : DataArea volume size fs
  mode : volume.fd.writeable = true
  inTable : InTable volume size fs allocation owner place
  window : fs.winsect = place.1
  none : allocation.clusters owner = []
  start : startCluster (disk place.1) place.2 = 0
  length : (disk place.1).loadDword (place.2 + dirFileSize) = 0

/-- A volume in order on which a file was opened to be created. The file has no clusters, and its
entry has neither a start nor a length. -/
structure Begun {Owner : Type} (vol : Nat) (volume : VolumeContainer) (size : Nat) (build : Build)
    (fmt : FatType) (counts : Prop) (fs : Fatfs) (disk : Nat → Buffer) (machine : Machine)
    (allocation : Allocation Owner) (owner : Owner) (fp : Fil) : Prop where
  storing : Storing vol volume size build fmt counts fs disk machine allocation owner
  inTable : InTable volume size fs allocation owner (fp.dirSect, fp.dirPtr)
  drive : fp.fs = some vol
  none : allocation.clusters owner = []
  start : startCluster (disk fp.dirSect) fp.dirPtr = 0
  length : (disk fp.dirSect).loadDword (fp.dirPtr + dirFileSize) = 0

section Creation

variable {vol : Nat} {volume : VolumeContainer} {size : Nat} {build : Build} {fmt : FatType}
  {counts : Prop} {fs : Fatfs} {disk : Nat → Buffer} {machine after : Machine}
  {tables : Nat → Prop} {allocation : Allocation Holder} {start index : Nat} {cells : List Nat}
  {dj dj' : Dir} {path : FatPath} {res : FResult}

/-- The sectors of a table lie in front of the clusters or in those of the table. -/
theorem tableSector_lies
    (onTable : OnTable vol volume size build fmt fs disk machine cells start)
    (inside : index < tableLength fs cells) : tableSector fs cells (index / 16) < fs.database ∨
      ∃ number, number < cells.length * fs.csize ∧
        tableSector fs cells (index / 16) = fileSector fs cells number := by
  rw [tableLength] at inside
  rw [tableSector]
  split_ifs at inside ⊢ with none
  · have front := (onTable.fixed none).2.1
    have whole := (onTable.fixed none).2.2
    omega
  · exact .inr ⟨index / 16, by omega, rfl⟩

/-- The place of an entry of a table is one for a file. -/
theorem OnDirectory.inTable {Owner : Type} {allocation : Allocation Owner} {table owner : Owner}
    (onDirectory : OnDirectory vol volume size build fmt counts fs disk machine allocation table
      start)
    (inside : index < tableLength fs (allocation.clusters table)) (different : table ≠ owner) :
    InTable volume size fs allocation owner (slotPlace fs (allocation.clusters table) index) := by
  obtain ⟨worked, behind⟩ := onDirectory.onTable.worked inside
  refine ⟨worked, behind, ?_, ?_⟩
  · exact (tableSector_lies onDirectory.onTable inside).imp_right fun ⟨number, within, there⟩ =>
      ⟨table, number, different, within, there⟩
  · rw [slotPlace, sectorSize]
    omega

/-- The place that a directory object points to. -/
theorem AtSlot.place (at' : AtSlot vol fs cells start dj index) :
    (dj.sect, dj.entry) = slotPlace fs cells index := by
  rw [slotPlace, at'.sect, Dir.entry, at'.dir]
  rfl

/-- At a place that no shown entry has there is no file. -/
theorem Catalogued.unused
    (catalogued : Catalogued vol volume size build fmt counts fs disk machine tables allocation)
    {place : Nat × Nat} (vacant : Occupied fs allocation place.1 →
      disk place.1 place.2 = 0xE5 ∨ disk place.1 place.2 = 0) :
    allocation.clusters (.file place) = [] := by
  by_contra some
  obtain ⟨start, index, listed, shown, rfl⟩ := catalogued.files place some
  have onTable := (catalogued.onDirectory listed).onTable
  have occupied : Occupied fs allocation
      (slotPlace fs (allocation.clusters (.table start)) index).1 :=
    (tableSector_lies onTable shown.inside).imp_right fun ⟨number, within, there⟩ =>
      ⟨_, number, within, there⟩
  have first : tableSlot fs (allocation.clusters (.table start)) disk index 0 =
      disk (slotPlace fs (allocation.clusters (.table start)) index).1
        (slotPlace fs (allocation.clusters (.table start)) index).2 := if_pos (by decide)
  rcases vacant occupied with deleted | ended
  · exact shown.visible.1 (first.trans deleted)
  · exact shown.before index le_rfl (first.trans ended)

/-- An entry that was registered is new. -/
theorem dirRegister_new
    (catalogued : Catalogued vol volume size build fmt counts fs disk machine tables allocation)
    (drive : dj.fs = vol) (listed : tables dj.sclust) (eleven : dj.fn.fn.length = 11)
    (run : (dirRegister dj).Outcome machine (.ok, dj') after) :
    dj'.fs = vol ∧ ∃ fs' disk' allocation',
      NewEntry vol volume size build fmt counts fs' disk' after allocation'
        (Holder.file (dj'.sect, dj'.entry)) (dj'.sect, dj'.entry) ∧ Used fs fs' ∧
      ∀ place, place ≠ (dj'.sect, dj'.entry) →
        allocation'.clusters (.file place) = allocation.clusters (.file place) := by
  obtain ⟨fs', disk', allocation', index, onDirectory, at', inside, used, others, vacant, window,
    begins, length⟩ := dirRegister_registers (catalogued.onDirectory listed) drive rfl eleven run
  have unused := @Catalogued.unused _ _ _ _ _ _ _ _ _ _ _ catalogued (dj'.sect, dj'.entry) vacant
  refine ⟨at'.drive, fs', disk', allocation', ⟨onDirectory.allots, onDirectory.area,
    onDirectory.mode, ?_, window, ?_, begins, length⟩, used, fun place _ => others _ (by simp)⟩
  · rw [at'.place]
    exact onDirectory.inTable inside (by simp)
  · rw [others _ (by simp)]
    exact unused

/-! ### Emptying -/

/-- The window after an entry was emptied. -/
def emptiedEntry (win : Buffer) (entry : Nat) : Buffer :=
  (storeCluster win entry 0).storeDword (entry + dirFileSize) 0

/-- An entry that was emptied has neither a start cluster nor a length. -/
theorem emptiedEntry_blank (win : Buffer) {entry : Nat} (inside : entry + 32 ≤ sectorSize) :
    startCluster (cut (emptiedEntry win entry)) entry = 0 ∧
      (cut (emptiedEntry win entry)).loadDword (entry + dirFileSize) = 0 := by
  have within {offset : Nat} (before : offset < 32) : entry + offset < sectorSize := by omega
  constructor
  · rw [startCluster_congr fun offset before => cut_inside (within before)]
    simp (disch := simp only [dirFileSize, dirFstClusLo, dirFstClusHi]; omega) only
      [emptiedEntry, storeCluster, startCluster, Buffer.loadWord_storeDword_past,
        Buffer.loadWord_storeWord_past, Buffer.loadWord_storeWord]
    rfl
  · rw [loadDword_cut (by rw [dirFileSize]; omega), emptiedEntry, Buffer.loadDword_storeDword]
    rfl

/-- The search for a free cluster may begin behind any. -/
theorem Allots.hinted {Owner : Type} {allocation : Allocation Owner} {hint : Nat}
    (allots : Allots vol volume size build fmt counts fs disk machine allocation)
    (noted : counts → fs.fsiFlag = true) (small : hint < 2 ^ 32) :
    Allots vol volume size build fmt counts { fs with lastClust := hint } disk
      (machine.register vol (some { fs with lastClust := hint })) { allocation with hint } :=
  ⟨allots.sees.note fs.fsiFlag hint fs.freeClust, { allots.tabled with }, allots.allotted, rfl,
    allots.accounted.counted, allots.accounted.uncounted, fun _ _ => small, fun _ counted unset =>
      absurd ((noted counted).symm.trans unset) (by decide)⟩

/-- The window goes back to the entry that was emptied. -/
theorem moveWindow_new {Owner : Type} {allocation : Allocation Owner} {owner : Owner}
    {place : Nat × Nat}
    (allots : Allots vol volume size build fmt counts fs disk machine allocation)
    (area : DataArea volume size fs) (mode : volume.fd.writeable = true)
    (inTable : InTable volume size fs allocation owner place)
    (none : allocation.clusters owner = []) (begins : startCluster (disk place.1) place.2 = 0)
    (length : (disk place.1).loadDword (place.2 + dirFileSize) = 0)
    (run : (moveWindow vol place.1).Outcome machine .ok after) :
    ∃ fs', NewEntry vol volume size build fmt counts fs' disk after allocation owner place ∧
      Used fs fs' := by
  obtain ⟨win, wflag, moved, move, seesMoved⟩ := moveWindow_sees allots.sees inTable.worked
  obtain ⟨-, rfl⟩ := run.unique move
  exact ⟨_, ⟨allots.data seesMoved fun _ _ => rfl, { area with }, mode, { inTable with }, rfl, none,
    begins, length⟩, ⟨_, _, _, _, _, _, rfl⟩⟩

/-- A file that is emptied has given its clusters back. -/
theorem resizeToZero_empties
    (catalogued : Catalogued vol volume size build fmt counts fs disk machine tables allocation)
    (listed : tables dj.sclust)
    (found : Found vol fs (allocation.clusters (.table dj.sclust)) dj.sclust disk dj index)
    (file : fs.win (dj.entry + dirAttr) &&& amDir = 0)
    (run : (resizeToZero dj).Outcome machine .ok after) :
    ∃ fs' disk' allocation',
      NewEntry vol volume size build fmt counts fs' disk' after allocation'
        (Holder.file (dj.sect, dj.entry)) (dj.sect, dj.entry) ∧ Used fs fs' ∧
      ∀ place, place ≠ (dj.sect, dj.entry) →
        allocation'.clusters (.file place) = allocation.clusters (.file place) := by
  have drive := found.at'.drive
  subst drive
  have directory := catalogued.onDirectory listed
  have inTable := directory.inTable found.shown.inside
    (show Holder.table dj.sclust ≠ .file (dj.sect, dj.entry) by simp)
  rw [← found.at'.place] at inTable
  have sees := catalogued.allots.sees
  have word := build.le_word
  -- the entry heads the clusters of the file
  have heads := catalogued.entries dj.sclust index listed found.shown
  rw [Heads, ← found.shows dirAttr (by decide), if_neg (not_not.mpr file),
    ← found.shows.startCluster, ← found.at'.place] at heads
  -- the entry is emptied
  rw [resizeToZero, outcome_fatfs_bind sees.registered] at run
  dsimp only at run
  rw [outcome_modifyFatfs_bind, sees.registered, Option.map_some] at run
  have edited := directory.edited (by rw [found.window]; exact inTable.behind)
    (emptiedEntry fs.win dj.entry)
  have blank := emptiedEntry_blank fs.win inTable.inside
  have shown : Function.update disk fs.winsect (cut (emptiedEntry fs.win dj.entry)) dj.sect =
      cut (emptiedEntry fs.win dj.entry) := by
    rw [found.window, Function.update_self]
  have back : moveWindow dj.fs fs.winsect = moveWindow dj.fs dj.sect :=
    congrArg (moveWindow dj.fs) found.window
  rw [back] at run
  by_cases none : startCluster fs.win dj.entry = 0
  · rw [if_neg (not_not.mpr none)] at run
    have unowned : allocation.clusters (.file (dj.sect, dj.entry)) = [] := by
      cases cells : allocation.clusters (.file (dj.sect, dj.entry)) with
      | nil => rfl
      | cons clst rest =>
        rw [cells, none, List.headD_cons] at heads
        have range := catalogued.allots.range (cells ▸ List.mem_cons_self : clst ∈ _)
        omega
    obtain ⟨fs', new, used⟩ := moveWindow_new edited.allots edited.area edited.mode
      { inTable with } unowned (by rw [shown]; exact blank.1) (by rw [shown]; exact blank.2) run
    exact ⟨fs', _, allocation, new, .trans ⟨_, _, _, _, _, _, rfl⟩ used, fun _ _ => rfl⟩
  · rw [if_pos none] at run
    obtain ⟨rest, cells⟩ : ∃ rest, allocation.clusters (.file (dj.sect, dj.entry)) =
        startCluster fs.win dj.entry :: rest := by
      cases cells : allocation.clusters (.file (dj.sect, dj.entry)) with
      | nil => exact absurd (heads.trans (by rw [cells]; rfl)) none
      | cons clst rest => exact ⟨rest, by rw [heads, cells, List.headD_cons]⟩
    obtain ⟨fs₁, disk₁, removed, removes, allots₁, reworked, noted, outside⟩ :=
      removeChain_sheds edited.allots edited.mode cells
    obtain ⟨_, _, removing, run⟩ := outcome_bind.mp run
    obtain ⟨rfl, rfl⟩ := removing.unique removes
    rw [if_neg (not_not.mpr rfl)] at run
    obtain ⟨_, _, got, goes⟩ := outcome_bind.mp run
    have same := outcome_get.mp got
    rw [same.1, same.2, outcome_modifyFatfs_bind, allots₁.sees.registered, Option.map_some] at goes
    have range := catalogued.allots.range
      (cells ▸ List.mem_cons_self : startCluster fs.win dj.entry ∈ _)
    have width := Nat.lt_trans range.2 catalogued.allots.tabled.width
    have widest : 2 ^ entryBits fmt ≤ 2 ^ 28 := by cases fmt <;> decide
    rw [allots₁.sees.word, build.sub_of_le (by omega) (by omega)] at goes
    have hinted := allots₁.hinted noted
      (show startCluster fs.win dj.entry - 1 < 2 ^ 32 by omega)
    have kept : disk₁ dj.sect = cut (emptiedEntry fs.win dj.entry) :=
      (outside _ (inTable.outside sees.one)).trans shown
    have others : ∀ other, other ≠ Holder.file (dj.sect, dj.entry) →
        (allocation.shed (.file (dj.sect, dj.entry))).clusters other = allocation.clusters other :=
      fun _ different => Function.update_of_ne different _ _
    have inTable₁ := inTable.kept (.trans ⟨_, _, _, _, _, _, rfl⟩ reworked.used) others
    have area₁ := reworked.dataArea edited.area
    obtain ⟨fs', new, used⟩ := moveWindow_new hinted { area₁ with } edited.mode
      { inTable₁ with } (Function.update_self _ _ _) (by rw [kept]; exact blank.1)
      (by rw [kept]; exact blank.2) goes
    refine ⟨fs', disk₁, _, new, ?_, fun place different =>
      others _ (by simpa using different)⟩
    exact .trans ⟨_, _, _, _, _, _, rfl⟩ (reworked.used.trans (.trans ⟨_, _, _, _, _, _, rfl⟩ used))

/-! ### Opening -/

/-- The entry of a file that was created or emptied is new. -/
theorem createEntry_creates
    (catalogued : Catalogued vol volume size build fmt counts fs disk machine tables allocation)
    {found : FResult × Dir}
    (led : found.1 ≠ .invalidName → Led vol fs disk tables allocation found)
    (run : (createEntry found.1 found.2).Outcome machine (.ok, dj') after) :
    dj'.fs = vol ∧ ∃ fs' disk' allocation',
      NewEntry vol volume size build fmt counts fs' disk' after allocation'
        (Holder.file (dj'.sect, dj'.entry)) (dj'.sect, dj'.entry) ∧ Used fs fs' ∧
      ∀ place, place ≠ (dj'.sect, dj'.entry) →
        allocation'.clusters (.file place) = allocation.clusters (.file place) := by
  rw [createEntry] at run
  by_cases missing : found.1 = .noFile
  · rw [if_pos missing] at run
    have led := led (by rw [missing]; decide)
    exact dirRegister_new catalogued led.drive led.table (led.name missing) run
  rw [if_neg missing] at run
  by_cases failed : found.1 ≠ .ok
  · rw [if_pos failed] at run
    exact absurd (congrArg Prod.fst (outcome_pure.mp run).1).symm failed
  rw [if_neg failed] at run
  have good := not_not.mp failed
  obtain ⟨drive, table, -, stops⟩ := led (by rw [good]; decide)
  rw [drive, outcome_fatfs_bind catalogued.allots.sees.registered] at run
  split_ifs at run with denied
  · exact absurd (congrArg Prod.fst (outcome_pure.mp run).1) (by simp)
  obtain ⟨some, allowed⟩ := not_or.mp denied
  obtain ⟨res, _, resized, run⟩ := outcome_bind.mp run
  obtain ⟨same, rfl⟩ := outcome_pure.mp run
  obtain ⟨rfl, rfl⟩ := Prod.mk.inj same
  rcases stops good with none | ⟨index, at'⟩
  · exact absurd (by rw [none]; rfl) some
  · have file : fs.win (found.2.entry + dirAttr) &&& amDir = 0 := by
      rw [show amDir = (amRdo ||| amDir) &&& amDir from rfl, ← UInt8.and_assoc,
        not_not.mp allowed, UInt8.zero_and]
    exact ⟨drive, resizeToZero_empties catalogued table at' file resized⟩

/-- A volume that is mounted stays as it is. -/
theorem chkMounted_mounted (registered : machine.fatFs vol = some fs)
    (mounted : fs.fsType.isSome = true) (run : (chkMounted vol).Outcome machine .ok after) :
    after = machine := by
  rw [chkMounted] at run
  split_ifs at run with many
  · exact absurd (outcome_pure.mp run).1 (by decide)
  · obtain ⟨_, _, got, looked⟩ := outcome_bind.mp run
    have same := outcome_get.mp got
    rw [same.1, same.2, registered] at looked
    dsimp only at looked
    rw [if_pos mounted] at looked
    exact (outcome_pure.mp looked).2

/-- The start cluster and the length of an entry lie behind its times. -/
theorem entry_congr {first second : Buffer} {entry : Nat}
    (same : ∀ offset, 18 ≤ offset → offset < 32 →
      first (entry + offset) = second (entry + offset)) :
    startCluster first entry = startCluster second entry ∧
      first.loadDword (entry + dirFileSize) = second.loadDword (entry + dirFileSize) := by
  have word (offset : Nat) (behind : 18 ≤ offset) (before : offset + 1 < 32) :
      first.loadWord (entry + offset) = second.loadWord (entry + offset) :=
    Buffer.loadWord_congr (same _ behind (by omega)) (same _ (by omega) before)
  constructor
  · rw [startCluster, startCluster, dirFstClusHi, dirFstClusLo, word 20 (by decide) (by decide),
      word 26 (by decide) (by decide)]
  · rw [Buffer.loadDword, Buffer.loadDword, dirFileSize, Nat.add_assoc,
      word 28 (by decide) (by decide), word 30 (by decide) (by decide)]

/-- The window after an entry got a time, and no attribute. -/
def stampedEntry (win : Buffer) (entry time : Nat) : Buffer :=
  (win.store (entry + dirAttr) 0).storeDword (entry + dirCrtTime) time

theorem stampedEntry_behind (win : Buffer) {entry time offset : Nat} (behind : 18 ≤ offset) :
    stampedEntry win entry time (entry + offset) = win (entry + offset) := by
  rw [stampedEntry, Buffer.storeDword_of_outside _ (by rw [dirCrtTime]; omega),
    Buffer.store_of_ne _ _ (by rw [dirAttr]; omega)]

/-- A new entry that got its time is that of a file which has nothing yet. -/
theorem NewEntry.begins {Owner : Type} {allocation : Allocation Owner} {owner : Owner} {fp : Fil}
    (new : NewEntry dj.fs volume size build fmt counts fs disk machine allocation owner
      (dj.sect, dj.entry))
    (run : (do
      let time ← getFattime
      modifyFatfs dj.fs fun fs =>
        { fs with
          win := (fs.win.store (dj.entry + dirAttr) 0).storeDword (dj.entry + dirCrtTime) time
          wflag := true }
      return .ok (openedFil dj .createAlways (← fatfs dj.fs)) :
        Program Machine (Except FResult Fil)).Outcome machine (.ok fp) after) :
    ∃ fs' disk',
      Begun dj.fs volume size build fmt counts fs' disk' after allocation owner fp ∧ Used fs fs' ∧
      (fp.dirSect, fp.dirPtr) = (dj.sect, dj.entry) := by
  have window : fs.winsect = dj.sect := new.window
  have inTable := new.inTable
  have inside : dj.entry + 32 ≤ sectorSize := inTable.inside
  have sees := new.allots.sees
  have there : fs.winsect ≠ 0 := by
    have front := sees.behind
    have behind : _ ≤ dj.sect := inTable.behind
    omega
  obtain ⟨_, _, timing, stamping⟩ := outcome_bind.mp run
  obtain ⟨rfl, rfl⟩ := Prod.mk.inj (Except.ok.inj timing)
  have ticked := sees.ticked
  rw [outcome_modifyFatfs_bind, ticked.registered, Option.map_some,
    outcome_fatfs_bind (Machine.fatFs_register _ _ _)] at stamping
  obtain ⟨same, rfl⟩ := outcome_pure.mp stamping
  obtain rfl := Except.ok.inj same
  let win := stampedEntry fs.win dj.entry (machine.time machine.ticks)
  have edited := edit_sees ticked new.mode there win
  -- the rest of the entry is as it was
  have kept := @entry_congr (cut win) (disk dj.sect) dj.entry fun offset behind before => by
    rw [← window, ← (sees.window there).2, cut_inside (by omega), cut_inside (by omega)]
    exact stampedEntry_behind _ behind
  have data := new.allots.data edited fun sector before => Function.update_of_ne (by
    have behind : _ ≤ dj.sect := inTable.behind
    omega) _ _
  have area := new.area
  refine ⟨_, _, ⟨⟨data, { area with }, new.mode, fun number within => ?_⟩, ?_, rfl, new.none, ?_,
    ?_⟩, ⟨_, _, _, _, _, _, rfl⟩, Prod.ext window rfl⟩
  · rw [new.none, List.length_nil, Nat.zero_mul] at within
    exact absurd within (Nat.not_lt_zero _)
  · dsimp only [openedFil]
    rw [window]
    exact { inTable with }
  · dsimp only [openedFil]
    rw [Function.update_self, kept.1]
    exact new.start
  · dsimp only [openedFil]
    rw [Function.update_self, kept.2]
    exact new.length

/-- `f_open` leaves a file that nothing was put into yet, on a volume that is in order still. -/
theorem fOpen_begins {fp : Fil} {path : List UInt8}
    (catalogued : Catalogued (logicalDrive path).1 volume size build fmt counts fs disk machine
      tables allocation)
    (run : (fOpen path .createAlways).Outcome machine (.ok fp) after) :
    ∃ fs' disk' allocation',
      Begun (logicalDrive path).1 volume size build fmt counts fs' disk' after allocation'
        (Holder.file (fp.dirSect, fp.dirPtr)) fp ∧ Used fs fs' ∧
      ∀ place, place ≠ (fp.dirSect, fp.dirPtr) →
        allocation'.clusters (.file place) = allocation.clusters (.file place) := by
  obtain ⟨mounted, _, mounting, opening⟩ := outcome_bind.mp run
  by_cases refused : mounted ≠ .ok
  · rw [if_pos refused] at opening
    exact absurd (outcome_pure.mp opening).1 (by simp)
  rw [if_neg refused] at opening
  obtain rfl := not_not.mp refused
  obtain rfl := chkMounted_mounted catalogued.allots.sees.registered
    (by rw [catalogued.allots.tabled.type]; rfl) mounting
  obtain ⟨found, _, following, entering⟩ := outcome_bind.mp opening
  obtain ⟨win, winsect, wflag, looking, led⟩ := followPath_leads catalogued (by exact rfl) following
  obtain ⟨created, looked, creating, marking⟩ := outcome_bind.mp entering
  by_cases failed : created.1 ≠ .ok
  · rw [if_pos failed] at marking
    exact absurd (outcome_pure.mp marking).1 (by simp)
  rw [if_neg failed] at marking
  obtain ⟨res, dj⟩ := created
  obtain rfl := not_not.mp failed
  obtain ⟨drive, fs', disk', allocation', new, used, others⟩ :=
    createEntry_creates looking led creating
  rw [← drive] at new ⊢
  obtain ⟨fs'', disk'', begun, further, same⟩ := new.begins marking
  rw [same]
  exact ⟨fs'', disk'', allocation', same ▸ begun,
    .trans ⟨_, _, _, _, _, _, rfl⟩ (used.trans further), others⟩

end Creation

end Ff

end Hdfmonkey
