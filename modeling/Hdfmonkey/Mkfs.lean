/-
This file models `f_mkfs` and says what a run of it writes.

The function builds each sector in the window of the file system object and writes
it from there. Every write is checked but three: the backup of the boot record and
the two FSInfo sectors of FAT32. All writes together follow one plan: for a given
layout, label and time every sector has at most one content (`Layout.content`), so
a sector that was written twice holds the same as one that was written once.

`Wrote` relates two machines by the writes between them, and composes. The outcome
of `f_mkfs` is read off the plan through it.
-/

import Hdfmonkey.BootRecord

namespace Hdfmonkey

/-! ### The function -/

/-- Change the file system object of a drive. -/
def modifyFatfs (drive : Nat) (change : Fatfs → Fatfs) : Program Machine PUnit :=
  modify fun machine => machine.register drive ((machine.fatFs drive).map change)

/-- Put a sector into the window of the drive and write it from there. -/
def writeWindow (drive : Nat) (win : Buffer) (sector : Nat) : Program Machine DResult := do
  modifyFatfs drive fun fs => { fs with win }
  diskWrite drive win sector 1

/-- Write the same window to consecutive sectors, up to the first failure. -/
def writeRun (drive : Nat) (win : Buffer) : (sector count : Nat) → Program Machine DResult
  | _, 0 => return .ok
  | sector, count + 1 => do
    if (← writeWindow drive win sector) ≠ .ok then return .parErr
    writeRun drive win (sector + 1) count

/-- One pass of the loop over the FATs: the first sector of a FAT, and zeros for the others. -/
def writeFat (drive : Nat) (head : Buffer) (bFat nFat : Nat) : Program Machine DResult := do
  if (← writeWindow drive head bFat) ≠ .ok then return .parErr
  writeRun drive Buffer.zero (bFat + 1) (nFat - 1)

/-- The number of passes of the loop over the root directory, which counts down in a byte. -/
def rootPasses (layout : Layout) : Nat :=
  let m := (if layout.fmt = .fat32 then layout.allocsize else layout.nDir) % 2 ^ 8
  if m = 0 then 2 ^ 8 else m

/-- Write the same window to some sectors, whatever comes of it. -/
def writeUnchecked (drive : Nat) (win : Buffer) : List Nat → Program Machine PUnit
  | [] => return
  | sector :: sectors => do
    let _ ← writeWindow drive win sector
    writeUnchecked drive win sectors

/-- The partition table, "if needed". -/
def writeMbr (drive partition : Nat) (layout : Layout) : Program Machine DResult :=
  if partition = 0 then writeWindow drive (mbrSector layout) 0 else return .ok

/-- The writes of `f_mkfs`, from the partition table to the end. -/
def mkfsWrite (build : Build) (drive partition : Nat) (layout : Layout)
    (volumeLabel : Option (List UInt8)) : Program Machine FResult := do
  if (← writeMbr drive partition layout) ≠ .ok then return .diskErr
  let time ← getFattime
  let boot := bootSector layout partition volumeLabel time
  if (← writeWindow drive boot layout.bPart) ≠ .ok then return .diskErr
  writeUnchecked drive boot (if layout.fmt = .fat32 then [layout.bPart + 6] else [])
  let head := fatHead layout.fmt partition
  if (← writeFat drive head layout.bFat layout.nFat) ≠ .ok then return .diskErr
  if (← writeFat drive head (layout.bFat + layout.nFat) layout.nFat) ≠ .ok then return .diskErr
  if (← writeRun drive Buffer.zero layout.bDir (rootPasses layout)) ≠ .ok then return .diskErr
  writeUnchecked drive (fsInfoSector build layout)
    (if layout.fmt = .fat32 then [layout.bPart + 1, layout.bPart + 7] else [])
  return .ok

/-- `f_mkfs`. -/
def fMkfs (drive partition allocsize : Nat) (volumeLabel : Option (List UInt8))
    (fmt : Option FatType) : Program Machine FResult := do
  if drive ≥ drives then return .invalidDrive
  if partition ≥ 2 then return .mkfsAborted
  let machine ← get
  if (machine.fatFs drive).isNone then return .notEnabled
  modifyFatfs drive fun fs => { fs with fsType := none }
  let nPart ← diskSectorCount drive
  if nPart < minSector then return .mkfsAborted
  mkfsWrite machine.build drive partition (mkfsLayout machine.build partition allocsize fmt nPart)
    volumeLabel

/-! ### Two machines and the writes between them -/

/-- The sectors a run has written and the results, newest first. -/
abbrev WriteLog := List (Nat × DResult)

/-- The second machine is the first after the writes of the log, each of which put into its sector
the content that the sector is to have. -/
structure Wrote (drive : Nat) (volume : VolumeContainer) (content : Nat → Buffer)
    (start : Machine) (log : WriteLog) (after : Machine) : Prop where
  build : after.build = start.build
  containers : after.volumeContainers = start.volumeContainers
  written : after.written =
    log.map (fun entry => ⟨drive, entry.1, 1, entry.2⟩) ++ start.written
  object : ∀ fs, start.fatFs drive = some fs → ∃ win, after.fatFs drive = some { fs with win }
  serves : start.Serves drive volume → after.Serves drive volume
  stored : volume.bytesPerSector = sectorSize → ∀ sector, (sector, .ok) ∈ log →
    (sector, .parErr) ∉ log → after.Holds volume sector (content sector)
  kept : volume.bytesPerSector = sectorSize → ∀ sector bytes, (∀ result, (sector, result) ∉ log) →
    start.Holds volume sector bytes → after.Holds volume sector bytes

section Wrote

variable {drive : Nat} {volume : VolumeContainer} {content : Nat → Buffer}
  {start middle after : Machine}

theorem Wrote.refl (machine : Machine) : Wrote drive volume content machine [] machine where
  build := rfl
  containers := rfl
  written := rfl
  object fs registered := ⟨fs.win, registered⟩
  serves := id
  stored _ _ member := absurd member List.not_mem_nil
  kept _ _ _ _ := id

/-- The logs of two runs in a row are put together. A sector holds its content when neither run
failed to write it and one of them wrote it. -/
theorem Wrote.trans {first second : WriteLog}
    (begun : Wrote drive volume content start first middle)
    (ended : Wrote drive volume content middle second after) :
    Wrote drive volume content start (second ++ first) after where
  build := ended.build.trans begun.build
  containers := ended.containers.trans begun.containers
  written := by
    rw [ended.written, begun.written, List.map_append, List.append_assoc]
  object fs registered := by
    obtain ⟨_, between⟩ := begun.object fs registered
    obtain ⟨win, registered⟩ := ended.object _ between
    exact ⟨win, registered⟩
  serves serves := ended.serves (begun.serves serves)
  stored full sector member fine := by
    rw [List.mem_append, not_or] at fine
    by_cases again : (sector, DResult.ok) ∈ second
    · exact ended.stored full sector again fine.1
    · refine ended.kept full sector _ (fun result => ?_)
        (begun.stored full sector ((List.mem_append.mp member).resolve_left again) fine.2)
      cases result with
      | ok => exact again
      | parErr => exact fine.1
  kept full sector bytes untouched holds :=
    ended.kept full sector bytes
      (fun result member => untouched result (List.mem_append_left _ member))
      (begun.kept full sector bytes
        (fun result member => untouched result (List.mem_append_right _ member)) holds)

/-- The clock may tick between two writes. -/
theorem Wrote.tick (machine : Machine) : Wrote drive volume content machine []
    { machine with ticks := machine.ticks + 1 } where
  build := rfl
  containers := rfl
  written := rfl
  object fs registered := ⟨fs.win, registered⟩
  serves serves := { serves with }
  stored _ _ member := absurd member List.not_mem_nil
  kept _ _ _ _ holds := ⟨holds.inside, holds.byte⟩

end Wrote

section Write

variable {drive : Nat} {volume : VolumeContainer} {content : Nat → Buffer}
  {start after : Machine} {result : DResult}

/-- One write of the window is one entry of the log. -/
theorem writeWindow_wrote {win : Buffer} {sector : Nat}
    (mapped : start.volumeContainers drive = some volume)
    (small : volume.bytesPerSector ≤ sectorSize) (near : sector < reach)
    (planned : win = content sector)
    (run : (writeWindow drive win sector).Outcome start result after) :
    Wrote drive volume content start [(sector, result)] after := by
  obtain ⟨_, middle, changed, run⟩ := Program.outcome_bind.mp run
  rw [modifyFatfs, Program.outcome_modify] at changed
  subst changed
  subst planned
  obtain ⟨part, le, whole, rfl⟩ := diskWrite_outcome (by exact mapped) small near run
  constructor
  · rfl
  · rfl
  · rfl
  · intro fs registered
    refine ⟨content sector, ?_⟩
    rw [Machine.wrote, Machine.fatFs_register, registered, Option.map_some]
  · intro serves
    exact Machine.Serves.wrote ⟨⟨serves.mapped, serves.near, serves.small, serves.steady⟩,
      serves.writeable, serves.enough⟩
  · intro full other member fine
    obtain ⟨rfl, rfl⟩ := Prod.mk.inj (List.mem_singleton.mp member)
    rw [whole rfl]
    exact holds_wrote_self full _
  · intro full other bytes untouched holds
    refine holds_wrote_of_ne full (fun same => ?_) le ⟨holds.inside, holds.byte⟩
    exact untouched result (List.mem_singleton.mpr (by rw [same]))

/-- The log of a run that wrote the sectors of a set and nothing else, every time with success. -/
def WriteLog.Fills (log : WriteLog) (sectors : Nat → Prop) : Prop :=
  ∀ sector result, (sector, result) ∈ log ↔ result = .ok ∧ sectors sector

theorem writeRun_wrote {win : Buffer} {sector count : Nat}
    (mapped : start.volumeContainers drive = some volume)
    (small : volume.bytesPerSector ≤ sectorSize) (near : sector + count ≤ reach)
    (planned : ∀ other, sector ≤ other → other < sector + count → win = content other)
    (run : (writeRun drive win sector count).Outcome start .ok after) :
    ∃ log : WriteLog, Wrote drive volume content start log after ∧
      log.Fills fun other => sector ≤ other ∧ other < sector + count := by
  induction count generalizing start sector with
  | zero =>
    obtain ⟨_, rfl⟩ := Program.outcome_pure.mp run
    refine ⟨[], Wrote.refl _, fun other result => ?_⟩
    simp only [List.not_mem_nil, false_iff]
    omega
  | succ count inductionHypothesis =>
    rw [writeRun, Program.outcome_checked (by decide)] at run
    obtain ⟨middle, written, run⟩ := run
    have first := writeWindow_wrote mapped small (by omega)
      (planned sector (Nat.le_refl _) (by omega)) written
    have between : middle.volumeContainers drive = some volume := by
      rw [first.containers, mapped]
    obtain ⟨log, rest, fills⟩ := inductionHypothesis between (by omega)
      (fun other lower upper => planned other (by omega) (by omega)) run
    refine ⟨log ++ [(sector, .ok)], first.trans rest, fun other result => ?_⟩
    rw [List.mem_append, fills, List.mem_singleton, Prod.mk.injEq]
    constructor
    · rintro (⟨rfl, lower, upper⟩ | ⟨rfl, rfl⟩)
      · exact ⟨rfl, by omega, by omega⟩
      · exact ⟨rfl, Nat.le_refl _, by omega⟩
    · rintro ⟨rfl, lower, upper⟩
      by_cases same : other = sector
      · exact Or.inr ⟨same, rfl⟩
      · exact Or.inl ⟨rfl, by omega, by omega⟩

theorem writeFat_wrote {head : Buffer} {bFat nFat : Nat}
    (mapped : start.volumeContainers drive = some volume)
    (small : volume.bytesPerSector ≤ sectorSize) (positive : 0 < nFat)
    (near : bFat + nFat ≤ reach) (first : head = content bFat)
    (others : ∀ other, bFat < other → other < bFat + nFat → Buffer.zero = content other)
    (run : (writeFat drive head bFat nFat).Outcome start .ok after) :
    ∃ log : WriteLog, Wrote drive volume content start log after ∧
      log.Fills fun other => bFat ≤ other ∧ other < bFat + nFat := by
  rw [writeFat, Program.outcome_checked (by decide)] at run
  obtain ⟨middle, written, run⟩ := run
  have top := writeWindow_wrote mapped small (by omega) first written
  have between : middle.volumeContainers drive = some volume := by
    rw [top.containers, mapped]
  obtain ⟨log, rest, fills⟩ := writeRun_wrote between small (by omega)
    (fun other lower upper => others other (by omega) (by omega)) run
  refine ⟨log ++ [(bFat, .ok)], top.trans rest, fun other result => ?_⟩
  rw [List.mem_append, fills, List.mem_singleton, Prod.mk.injEq]
  constructor
  · rintro (⟨rfl, lower, upper⟩ | ⟨rfl, rfl⟩)
    · exact ⟨rfl, by omega, by omega⟩
    · exact ⟨rfl, Nat.le_refl _, by omega⟩
  · rintro ⟨rfl, lower, upper⟩
    by_cases same : other = bFat
    · exact Or.inr ⟨same, rfl⟩
    · exact Or.inl ⟨rfl, by omega, by omega⟩

theorem writeUnchecked_wrote {win : Buffer} {sectors : List Nat} {value : PUnit}
    (mapped : start.volumeContainers drive = some volume)
    (small : volume.bytesPerSector ≤ sectorSize)
    (near : ∀ sector ∈ sectors, sector < reach)
    (planned : ∀ sector ∈ sectors, win = content sector)
    (run : (writeUnchecked drive win sectors).Outcome start value after) :
    ∃ log : WriteLog, Wrote drive volume content start log after ∧
      ∀ sector, (∃ result, (sector, result) ∈ log) ↔ sector ∈ sectors := by
  induction sectors generalizing start with
  | nil =>
    obtain ⟨_, rfl⟩ := Program.outcome_pure.mp run
    exact ⟨[], Wrote.refl _, fun sector => by simp⟩
  | cons sector sectors inductionHypothesis =>
    obtain ⟨result, middle, written, run⟩ := Program.outcome_bind.mp run
    have first := writeWindow_wrote mapped small (near sector List.mem_cons_self)
      (planned sector List.mem_cons_self) written
    have between : middle.volumeContainers drive = some volume := by
      rw [first.containers, mapped]
    obtain ⟨log, rest, logged⟩ := inductionHypothesis between
      (fun other member => near other (List.mem_cons_of_mem _ member))
      (fun other member => planned other (List.mem_cons_of_mem _ member)) run
    refine ⟨log ++ [(sector, result)], first.trans rest, fun other => ?_⟩
    rw [List.mem_cons, ← logged other]
    constructor
    · rintro ⟨found, member⟩
      rcases List.mem_append.mp member with later | now
      · exact Or.inr ⟨found, later⟩
      · exact Or.inl (Prod.mk.inj (List.mem_singleton.mp now)).1
    · rintro (rfl | ⟨found, later⟩)
      · exact ⟨result, List.mem_append_right _ (List.mem_singleton.mpr rfl)⟩
      · exact ⟨found, List.mem_append_left _ later⟩

end Write

/-! ### The plan of a format -/

/-- What a format puts into a sector, if it writes it at all. -/
def Layout.content (layout : Layout) (build : Build) (volumeLabel : Option (List UInt8))
    (time sector : Nat) : Buffer :=
  if sector = 0 then mbrSector layout
  else if sector = layout.bPart ∨ sector = layout.bPart + 6 ∧ layout.fmt = .fat32 then
    bootSector layout 0 volumeLabel time
  else if (sector = layout.bPart + 1 ∨ sector = layout.bPart + 7) ∧ layout.fmt = .fat32 then
    fsInfoSector build layout
  else if sector = layout.bFat ∨ sector = layout.bFat + layout.nFat then fatHead layout.fmt 0
  else Buffer.zero

/-- The sectors whose writing is checked. -/
def Layout.Checked (layout : Layout) (sector : Nat) : Prop :=
  sector = 0 ∨ sector = layout.bPart ∨
    layout.bFat ≤ sector ∧ sector < layout.bDir + rootPasses layout

/-- The sectors whose writing is not checked. -/
def Layout.Unchecked (layout : Layout) (sector : Nat) : Prop :=
  layout.fmt = .fat32 ∧ (sector = layout.bPart + 1 ∨ sector = layout.bPart + 6 ∨
    sector = layout.bPart + 7)

section Content

variable {layout : Layout} (build : Build) (volumeLabel : Option (List UInt8)) (time : Nat)

theorem Layout.Sound.nFat_pos (sound : layout.Sound) : 0 < layout.nFat := by
  rw [sound.nFat]
  cases layout.fmt <;> simp only [fatSectors, sectorSize] <;> omega

/-- The reserved area of FAT32 has room for the boot record, its backup and the FSInfo sectors;
that of the other types holds the boot record only. -/
theorem Layout.Sound.bFat (sound : layout.Sound) :
    layout.bFat = if layout.fmt = .fat32 then 96 else 64 := by
  rw [Layout.bFat, sound.bPart, sound.nRsv]
  cases layout.fmt <;> rfl

theorem Layout.Sound.rootPasses_eq (sound : layout.Sound) :
    rootPasses layout = if layout.fmt = .fat32 then layout.allocsize else 32 := by
  have positive := sound.allocsize_pos
  have bound := sound.allocsize_le
  have root := sound.nDir
  simp only [rootPasses]
  split_ifs with fat32 empty empty
  · omega
  · omega
  · rw [root] at empty
    cases type : layout.fmt <;> rw [type] at empty fat32
    · exact absurd empty (by decide)
    · exact absurd empty (by decide)
    · exact absurd rfl fat32
  · rw [root]
    cases type : layout.fmt
    · rfl
    · rfl
    · exact absurd type fat32

theorem Layout.content_mbr (layout : Layout) :
    layout.content build volumeLabel time 0 = mbrSector layout := by
  rw [Layout.content, if_pos rfl]

theorem Layout.Sound.content_boot (sound : layout.Sound) :
    layout.content build volumeLabel time layout.bPart =
      bootSector layout 0 volumeLabel time := by
  rw [Layout.content, if_neg (by rw [sound.bPart]; decide), if_pos (Or.inl rfl)]

theorem Layout.content_backup (fat32 : layout.fmt = .fat32) :
    layout.content build volumeLabel time (layout.bPart + 6) =
      bootSector layout 0 volumeLabel time := by
  rw [Layout.content, if_neg (by omega), if_pos (Or.inr ⟨rfl, fat32⟩)]

theorem Layout.content_fsInfo (fat32 : layout.fmt = .fat32) {sector : Nat}
    (place : sector = layout.bPart + 1 ∨ sector = layout.bPart + 7) :
    layout.content build volumeLabel time sector = fsInfoSector build layout := by
  rw [Layout.content, if_neg (by omega), if_neg (by omega), if_pos ⟨place, fat32⟩]

theorem Layout.Sound.content_head (sound : layout.Sound) {sector : Nat}
    (place : sector = layout.bFat ∨ sector = layout.bFat + layout.nFat) :
    layout.content build volumeLabel time sector = fatHead layout.fmt 0 := by
  have start := sound.bFat
  have partitionStart := sound.bPart
  split_ifs at start with fat32
  · rw [Layout.content, if_neg (by omega), if_neg (by omega), if_neg (by omega), if_pos place]
  · rw [Layout.content, if_neg (by omega), if_neg
      (by simp only [fat32, and_false, or_false]; omega),
        if_neg (by simp only [fat32, and_false, not_false_eq_true]), if_pos place]

theorem Layout.Sound.content_zero (sound : layout.Sound) {sector : Nat}
    (behind : layout.bFat < sector)
    (other : sector ≠ layout.bFat + layout.nFat) :
    layout.content build volumeLabel time sector = Buffer.zero := by
  have start := sound.bFat
  have partitionStart := sound.bPart
  split_ifs at start with fat32
  · rw [Layout.content, if_neg (by omega), if_neg (by omega), if_neg (by omega),
      if_neg (by omega)]
  · rw [Layout.content, if_neg (by omega), if_neg
      (by simp only [fat32, and_false, or_false]; omega),
        if_neg (by simp only [fat32, and_false, not_false_eq_true]), if_neg (by omega)]

end Content

/-- The log of a format that reported success. -/
structure WriteLog.Formats (log : WriteLog) (layout : Layout) : Prop where
  checked : ∀ sector, layout.Checked sector → (sector, .ok) ∈ log
  unchecked : ∀ sector, layout.Unchecked sector → ∃ result, (sector, result) ∈ log
  planned : ∀ sector result, (sector, result) ∈ log →
    layout.Checked sector ∧ result = .ok ∨ layout.Unchecked sector

section Outcome

variable {build : Build} {drive : Nat} {volume : VolumeContainer} {layout : Layout}
  {volumeLabel : Option (List UInt8)} {start after : Machine}

/-- The stages of a format that reports success. -/
structure MkfsStages (build : Build) (drive : Nat) (layout : Layout)
    (volumeLabel : Option (List UInt8)) (time : Nat) (start partitioned booted backed halfway
      copied rooted after : Machine) : Prop where
  clock : time = partitioned.time partitioned.ticks
  mbr : (writeWindow drive (mbrSector layout) 0).Outcome start .ok partitioned
  boot : (writeWindow drive (bootSector layout 0 volumeLabel time) layout.bPart).Outcome
    { partitioned with ticks := partitioned.ticks + 1 } .ok booted
  backup : (writeUnchecked drive (bootSector layout 0 volumeLabel time)
    (if layout.fmt = .fat32 then [layout.bPart + 6] else [])).Outcome booted () backed
  first : (writeFat drive (fatHead layout.fmt 0) layout.bFat layout.nFat).Outcome backed .ok
    halfway
  second : (writeFat drive (fatHead layout.fmt 0) (layout.bFat + layout.nFat)
    layout.nFat).Outcome halfway .ok copied
  root : (writeRun drive Buffer.zero layout.bDir (rootPasses layout)).Outcome copied .ok rooted
  info : (writeUnchecked drive (fsInfoSector build layout)
    (if layout.fmt = .fat32 then [layout.bPart + 1, layout.bPart + 7] else [])).Outcome rooted ()
      after

theorem mkfsWrite_ok_iff :
    (mkfsWrite build drive 0 layout volumeLabel).Outcome start .ok after ↔
      ∃ time partitioned booted backed halfway copied rooted, MkfsStages build drive layout
        volumeLabel time start partitioned booted backed halfway copied rooted after := by
  have different : FResult.ok ≠ FResult.diskErr := by decide
  rw [mkfsWrite, Program.outcome_checked different]
  simp only [writeMbr, if_true]
  constructor
  · rintro ⟨partitioned, mbr, run⟩
    obtain ⟨time, ticked, clock, run⟩ := Program.outcome_bind.mp run
    obtain ⟨rfl, rfl⟩ := Prod.mk.inj (Except.ok.inj clock)
    simp only [Program.outcome_checked different] at run
    obtain ⟨booted, boot, run⟩ := run
    obtain ⟨_, backed, backup, run⟩ := Program.outcome_bind.mp run
    simp only [Program.outcome_checked different] at run
    obtain ⟨halfway, first, copied, second, rooted, root, run⟩ := run
    obtain ⟨_, informed, info, run⟩ := Program.outcome_bind.mp run
    obtain ⟨_, rfl⟩ := Program.outcome_pure.mp run
    exact ⟨_, partitioned, booted, backed, halfway, copied, rooted,
      ⟨rfl, mbr, boot, backup, first, second, root, info⟩⟩
  · rintro ⟨time, partitioned, booted, backed, halfway, copied, rooted, stages⟩
    obtain rfl := stages.clock
    refine ⟨partitioned, stages.mbr, Program.outcome_bind.mpr ⟨_, _, rfl, ?_⟩⟩
    simp only [Program.outcome_checked different]
    refine ⟨booted, stages.boot, Program.outcome_bind.mpr ⟨(), backed, stages.backup, ?_⟩⟩
    simp only [Program.outcome_checked different]
    exact ⟨halfway, stages.first, copied, stages.second, rooted, stages.root,
      Program.outcome_bind.mpr ⟨(), after, stages.info, Program.outcome_pure.mpr ⟨rfl, rfl⟩⟩⟩

theorem Layout.Sound.bounds (sound : layout.Sound) :
    layout.bFat + layout.nFat + layout.nFat = layout.bDir ∧
      layout.bDir + rootPasses layout ≤ reach := by
  have fats := sound.nFat_le
  have size := sound.allocsize_le
  have place := sound.bFat
  have passes := sound.rootPasses_eq
  rw [Layout.bDir, nFats, reach]
  split_ifs at place passes <;> omega

/-- The unchecked writes of FAT32. -/
theorem writeFat32_wrote {content : Nat → Buffer} {win : Buffer} {sectors : List Nat}
    (mapped : start.volumeContainers drive = some volume)
    (small : volume.bytesPerSector ≤ sectorSize)
    (near : ∀ sector ∈ sectors, sector < reach)
    (planned : layout.fmt = .fat32 → ∀ sector ∈ sectors, win = content sector)
    (run : (writeUnchecked drive win (if layout.fmt = .fat32 then sectors else [])).Outcome start ()
      after) :
    ∃ log : WriteLog, Wrote drive volume content start log after ∧
      ∀ sector, (∃ result, (sector, result) ∈ log) ↔ layout.fmt = .fat32 ∧ sector ∈ sectors := by
  by_cases fat32 : layout.fmt = .fat32
  · rw [if_pos fat32] at run
    obtain ⟨log, wrote, logged⟩ := writeUnchecked_wrote mapped small near (planned fat32) run
    exact ⟨log, wrote, fun sector => by rw [logged, and_iff_right fat32]⟩
  · rw [if_neg fat32] at run
    obtain ⟨_, rfl⟩ := Program.outcome_pure.mp run
    exact ⟨[], Wrote.refl _, fun sector => by simp [fat32]⟩

/-- The logs of the stages, newest first, are the log of a format. -/
theorem WriteLog.formats_of_parts {info root second first backup : WriteLog}
    (twice : layout.bFat + layout.nFat + layout.nFat = layout.bDir)
    (infoLogged : ∀ sector, (∃ result, (sector, result) ∈ info) ↔
      layout.fmt = .fat32 ∧ sector ∈ [layout.bPart + 1, layout.bPart + 7])
    (rootFills : root.Fills fun sector =>
      layout.bDir ≤ sector ∧ sector < layout.bDir + rootPasses layout)
    (secondFills : second.Fills fun sector => layout.bFat + layout.nFat ≤ sector ∧
      sector < layout.bFat + layout.nFat + layout.nFat)
    (firstFills : first.Fills fun sector =>
      layout.bFat ≤ sector ∧ sector < layout.bFat + layout.nFat)
    (backupLogged : ∀ sector, (∃ result, (sector, result) ∈ backup) ↔
      layout.fmt = .fat32 ∧ sector ∈ [layout.bPart + 6]) :
    WriteLog.Formats (info ++ (root ++ (second ++ (first ++ (backup ++
      ([(layout.bPart, .ok)] ++ ([] ++ [(0, .ok)]))))))) layout := by
  refine ⟨?_, ?_, ?_⟩
  · rintro sector (rfl | rfl | ⟨lower, upper⟩)
    · simp
    · simp
    · simp only [List.mem_append]
      rcases Nat.lt_or_ge sector (layout.bFat + layout.nFat) with inFirst | behind
      · exact Or.inr (Or.inr (Or.inr (Or.inl ((firstFills _ _).mpr ⟨rfl, lower, inFirst⟩))))
      · rcases Nat.lt_or_ge sector layout.bDir with inSecond | inRoot
        · exact Or.inr (Or.inr (Or.inl ((secondFills _ _).mpr ⟨rfl, behind, by omega⟩)))
        · exact Or.inr (Or.inl ((rootFills _ _).mpr ⟨rfl, inRoot, upper⟩))
  · rintro sector ⟨fat32, rfl | rfl | rfl⟩
    · obtain ⟨result, member⟩ := (infoLogged _).mpr ⟨fat32, List.mem_cons_self⟩
      exact ⟨result, List.mem_append_left _ member⟩
    · obtain ⟨result, member⟩ := (backupLogged _).mpr ⟨fat32, List.mem_cons_self⟩
      refine ⟨result, ?_⟩
      simp only [List.mem_append]
      exact Or.inr (Or.inr (Or.inr (Or.inr (Or.inl member))))
    · obtain ⟨result, member⟩ := (infoLogged _).mpr
        ⟨fat32, List.mem_cons_of_mem _ List.mem_cons_self⟩
      exact ⟨result, List.mem_append_left _ member⟩
  · intro sector result member
    simp only [List.mem_append, List.mem_singleton, List.not_mem_nil, false_or,
      Prod.mk.injEq] at member
    rcases member with infoEntry | rootEntry | secondEntry | firstEntry | backupEntry |
      ⟨rfl, rfl⟩ | ⟨rfl, rfl⟩
    · obtain ⟨fat32, place⟩ := (infoLogged _).mp ⟨result, infoEntry⟩
      simp only [List.mem_cons, List.not_mem_nil, or_false] at place
      exact Or.inr ⟨fat32, by omega⟩
    · obtain ⟨rfl, lower, upper⟩ := (rootFills _ _).mp rootEntry
      exact Or.inl ⟨Or.inr (Or.inr ⟨by omega, upper⟩), rfl⟩
    · obtain ⟨rfl, lower, upper⟩ := (secondFills _ _).mp secondEntry
      exact Or.inl ⟨Or.inr (Or.inr ⟨by omega, by omega⟩), rfl⟩
    · obtain ⟨rfl, lower, upper⟩ := (firstFills _ _).mp firstEntry
      exact Or.inl ⟨Or.inr (Or.inr ⟨lower, by omega⟩), rfl⟩
    · obtain ⟨fat32, place⟩ := (backupLogged _).mp ⟨result, backupEntry⟩
      simp only [List.mem_cons, List.not_mem_nil, or_false] at place
      exact Or.inr ⟨fat32, by omega⟩
    · exact Or.inl ⟨Or.inr (Or.inl rfl), rfl⟩
    · exact Or.inl ⟨Or.inl rfl, rfl⟩

/-- A format that reports success has written every checked sector and tried every other one of
its plan. -/
theorem mkfsWrite_wrote (sound : layout.Sound)
    (mapped : start.volumeContainers drive = some volume)
    (small : volume.bytesPerSector ≤ sectorSize)
    (run : (mkfsWrite build drive 0 layout volumeLabel).Outcome start .ok after) :
    ∃ time log, Wrote drive volume (layout.content build volumeLabel time) start log after ∧
      log.Formats layout := by
  obtain ⟨twice, near⟩ := sound.bounds
  have partitionStart := sound.bPart
  have positive := sound.nFat_pos
  have farther : layout.bPart + 7 < reach := by rw [partitionStart]; decide
  obtain ⟨time, partitioned, booted, backed, halfway, copied, rooted, stages⟩ :=
    mkfsWrite_ok_iff.mp run
  have mapped_of {middle : Machine} {log : WriteLog}
      (wrote : Wrote drive volume (layout.content build volumeLabel time) start log middle) :
      middle.volumeContainers drive = some volume := by
    rw [wrote.containers, mapped]
  have first : Wrote drive volume (layout.content build volumeLabel time) start [(0, .ok)]
      partitioned :=
    writeWindow_wrote mapped small reach_pos
      (layout.content_mbr build volumeLabel time).symm stages.mbr
  have ticked := first.trans (Wrote.tick partitioned)
  have booted := ticked.trans (writeWindow_wrote (mapped_of ticked) small (by omega)
    (sound.content_boot build volumeLabel time).symm stages.boot)
  obtain ⟨backupLog, backup, backupLogged⟩ := writeFat32_wrote (mapped_of booted) small
    (List.forall_mem_singleton.mpr (by omega)) (fun fat32 => List.forall_mem_singleton.mpr
      (Layout.content_backup build volumeLabel time fat32).symm) stages.backup
  have backed := booted.trans backup
  obtain ⟨firstLog, firstFat, firstFills⟩ := writeFat_wrote (mapped_of backed) small positive
    (by omega) (sound.content_head build volumeLabel time (Or.inl rfl)).symm
    (fun other lower upper => (sound.content_zero build volumeLabel time lower (by omega)).symm)
    stages.first
  have halfway := backed.trans firstFat
  obtain ⟨secondLog, secondFat, secondFills⟩ := writeFat_wrote (mapped_of halfway) small positive
    (by omega) (sound.content_head build volumeLabel time (Or.inr rfl)).symm
    (fun other lower upper => (sound.content_zero build volumeLabel time (by omega)
      (by omega)).symm) stages.second
  have copied := halfway.trans secondFat
  have empty (other : Nat) (lower : layout.bDir ≤ other)
      (_ : other < layout.bDir + rootPasses layout) :
      Buffer.zero = layout.content build volumeLabel time other :=
    (sound.content_zero build volumeLabel time (by omega) (by omega)).symm
  obtain ⟨rootLog, root, rootFills⟩ := writeRun_wrote (mapped_of copied) small near empty
    stages.root
  have rooted := copied.trans root
  obtain ⟨infoLog, info, infoLogged⟩ := writeFat32_wrote (mapped_of rooted) small
    (List.forall_mem_cons.mpr ⟨by omega, List.forall_mem_singleton.mpr (by omega)⟩)
    (fun fat32 => List.forall_mem_cons.mpr
      ⟨(Layout.content_fsInfo build volumeLabel time fat32 (Or.inl rfl)).symm,
        List.forall_mem_singleton.mpr
          (Layout.content_fsInfo build volumeLabel time fat32 (Or.inr rfl)).symm⟩) stages.info
  exact ⟨time, _, rooted.trans info,
    WriteLog.formats_of_parts twice infoLogged rootFills secondFills firstFills backupLogged⟩

/-- The machine whose drive is marked as not mounted. -/
def Machine.unmounted (machine : Machine) (drive : Nat) : Machine :=
  machine.register drive ((machine.fatFs drive).map fun fs => { fs with fsType := none })

/-- A partitioned format with the automatic cluster size is the writes of its layout, on a drive
that exists, has a file system object and enough sectors. -/
theorem fMkfs_ok_iff {fmt : Option FatType}
    (mapped : start.volumeContainers drive = some volume) :
    (fMkfs drive 0 0 volumeLabel fmt).Outcome start .ok after ↔
      drive < drives ∧ (start.fatFs drive).isSome ∧ minSector ≤ volume.sectorCount ∧
        (mkfsWrite start.build drive 0
          (autoLayout fmt (partitionSectors volume.sectorCount)) volumeLabel).Outcome
            (start.unmounted drive) .ok after := by
  have counted : (diskSectorCount drive).Outcome (start.unmounted drive) volume.sectorCount
      (start.unmounted drive) := by
    simp only [Program.Outcome, diskSectorCount, Machine.unmounted, Machine.register, mapped]
  have cleared : (modifyFatfs drive fun fs => { fs with fsType := none }).Outcome start ()
      (start.unmounted drive) := Program.outcome_modify.mpr rfl
  rw [fMkfs]
  constructor
  · intro run
    split_ifs at run with outside ill
    · exact absurd (Program.outcome_pure.mp run).1 (by decide)
    · exact absurd ill (by decide)
    · obtain ⟨_, _, taken, afterGet⟩ := Program.outcome_bind.mp run
      obtain ⟨rfl, rfl⟩ := Program.outcome_get.mp taken
      split_ifs at afterGet with missing
      · exact absurd (Program.outcome_pure.mp afterGet).1 (by decide)
      · obtain ⟨_, _, changed, afterClear⟩ := Program.outcome_bind.mp afterGet
        obtain ⟨_, rfl⟩ := changed.unique cleared
        obtain ⟨nPart, _, count, afterCount⟩ := Program.outcome_bind.mp afterClear
        obtain ⟨rfl, rfl⟩ := count.unique counted
        split_ifs at afterCount with few
        · exact absurd (Program.outcome_pure.mp afterCount).1 (by decide)
        · have enough := Nat.not_lt.mp few
          rw [mkfsLayout_auto _ _ enough] at afterCount
          exact ⟨Nat.not_le.mp outside, Option.isSome_iff_ne_none.mpr
            (fun none => missing (by rw [none]; rfl)), enough, afterCount⟩
  · rintro ⟨inside, registered, enough, run⟩
    rw [if_neg (Nat.not_le.mpr inside), if_neg (by decide)]
    refine Program.outcome_bind.mpr ⟨_, _, Program.outcome_get.mpr ⟨rfl, rfl⟩, ?_⟩
    rw [if_neg (by rw [← Option.not_isSome, registered]; decide)]
    refine Program.outcome_bind.mpr ⟨_, _, cleared, Program.outcome_bind.mpr ⟨_, _, counted, ?_⟩⟩
    rwa [if_neg (Nat.not_lt.mpr enough), mkfsLayout_auto _ _ enough]

end Outcome

/-! ### A drive that serves -/

/-- The drive still serves, and all writes since the start succeeded. -/
structure Served (drive : Nat) (volume : VolumeContainer) (start after : Machine) : Prop where
  serves : after.Serves drive volume
  written : ∃ recent, after.written = recent ++ start.written ∧
    ∀ write ∈ recent, write.result = .ok

section Served

variable {build : Build} {drive : Nat} {volume : VolumeContainer} {layout : Layout}
  {volumeLabel : Option (List UInt8)} {start middle after : Machine}

theorem Served.refl (serves : start.Serves drive volume) : Served drive volume start start :=
  ⟨serves, [], rfl, fun _ member => absurd member List.not_mem_nil⟩

theorem Served.trans (first : Served drive volume start middle)
    (second : Served drive volume middle after) : Served drive volume start after := by
  obtain ⟨early, earlyIs, earlyOk⟩ := first.written
  obtain ⟨late, lateIs, lateOk⟩ := second.written
  refine ⟨second.serves, late ++ early, by rw [lateIs, earlyIs, List.append_assoc], ?_⟩
  intro write member
  exact (List.mem_append.mp member).elim (lateOk write) (earlyOk write)

theorem Served.tick (serves : start.Serves drive volume) :
    Served drive volume start { start with ticks := start.ticks + 1 } :=
  ⟨{ serves with }, [], rfl, fun _ member => absurd member List.not_mem_nil⟩

/-- The sectors that only FAT32 has are near when they all are. -/
theorem near_fat32 (layout : Layout) (sectors : List Nat)
    (near : ∀ sector ∈ sectors, sector < reach) :
    ∀ sector ∈ (if layout.fmt = .fat32 then sectors else []), sector < reach := by
  intro sector member
  split_ifs at member
  · exact near sector member
  · exact absurd member List.not_mem_nil

theorem writeWindow_serves (win : Buffer) (sector : Nat) (serves : start.Serves drive volume)
    (near : sector < reach) : ∃ after, (writeWindow drive win sector).Outcome start .ok after ∧
      Served drive volume start after := by
  have ready : (start.register drive ((start.fatFs drive).map fun fs =>
      { fs with win })).Serves drive volume :=
    ⟨⟨serves.mapped, serves.near, serves.small, serves.steady⟩, serves.writeable, serves.enough⟩
  refine ⟨_, Program.outcome_bind.mpr ⟨(), _, rfl, diskWrite_serves ready near⟩,
    Machine.Serves.wrote ready, [⟨drive, sector, 1, .ok⟩], rfl, ?_⟩
  intro write member
  rw [List.mem_singleton.mp member]

theorem writeRun_serves (win : Buffer) (sector count : Nat) (serves : start.Serves drive volume)
    (near : sector + count ≤ reach) :
    ∃ after, (writeRun drive win sector count).Outcome start .ok after ∧
      Served drive volume start after := by
  induction count generalizing start sector with
  | zero => exact ⟨start, Program.outcome_pure.mpr ⟨rfl, rfl⟩, Served.refl serves⟩
  | succ count inductionHypothesis =>
    obtain ⟨middle, written, first⟩ := writeWindow_serves win sector serves (by omega)
    obtain ⟨after, rest, second⟩ := inductionHypothesis (sector + 1) first.serves (by omega)
    refine ⟨after, ?_, first.trans second⟩
    rw [writeRun, Program.outcome_checked (by decide)]
    exact ⟨middle, written, rest⟩

theorem writeFat_serves (win : Buffer) (bFat : Nat) {nFat : Nat}
    (serves : start.Serves drive volume) (positive : 0 < nFat) (near : bFat + nFat ≤ reach) :
    ∃ after, (writeFat drive win bFat nFat).Outcome start .ok after ∧
      Served drive volume start after := by
  obtain ⟨middle, written, first⟩ := writeWindow_serves win bFat serves (by omega)
  obtain ⟨after, rest, second⟩ :=
    writeRun_serves Buffer.zero (bFat + 1) (nFat - 1) first.serves (by omega)
  refine ⟨after, ?_, first.trans second⟩
  rw [writeFat, Program.outcome_checked (by decide)]
  exact ⟨middle, written, rest⟩

theorem writeUnchecked_serves (win : Buffer) {sectors : List Nat}
    (serves : start.Serves drive volume)
    (near : ∀ sector ∈ sectors, sector < reach) :
    ∃ after, (writeUnchecked drive win sectors).Outcome start () after ∧
      Served drive volume start after := by
  induction sectors generalizing start with
  | nil => exact ⟨start, Program.outcome_pure.mpr ⟨rfl, rfl⟩, Served.refl serves⟩
  | cons sector sectors inductionHypothesis =>
    obtain ⟨middle, written, first⟩ :=
      writeWindow_serves win sector serves (near sector List.mem_cons_self)
    obtain ⟨after, rest, second⟩ := inductionHypothesis first.serves
      fun other member => near other (List.mem_cons_of_mem _ member)
    exact ⟨after, Program.outcome_bind.mpr ⟨.ok, middle, written, rest⟩, first.trans second⟩

/-- On a drive that serves a format succeeds, and so does every write of it. -/
theorem mkfsWrite_serves (sound : layout.Sound) (serves : start.Serves drive volume) :
    ∃ after, (mkfsWrite build drive 0 layout volumeLabel).Outcome start .ok after ∧
      Served drive volume start after := by
  obtain ⟨twice, near⟩ := sound.bounds
  have partitionStart := sound.bPart
  have positive := sound.nFat_pos
  have farther : layout.bPart + 7 < reach := by rw [partitionStart]; decide
  obtain ⟨partitioned, mbr, first⟩ :=
    writeWindow_serves (mbrSector layout) 0 serves reach_pos
  let boot := bootSector layout 0 volumeLabel (partitioned.time partitioned.ticks)
  have ticked := Served.tick first.serves
  obtain ⟨booted, bootRun, second⟩ :=
    writeWindow_serves boot layout.bPart ticked.serves (by omega)
  obtain ⟨backed, backup, third⟩ := writeUnchecked_serves boot second.serves
    (near_fat32 layout [layout.bPart + 6] (List.forall_mem_singleton.mpr (by omega)))
  obtain ⟨halfway, firstFat, fourth⟩ :=
    writeFat_serves (fatHead layout.fmt 0) layout.bFat third.serves positive (by omega)
  obtain ⟨copied, secondFat, fifth⟩ := writeFat_serves (fatHead layout.fmt 0)
    (layout.bFat + layout.nFat) fourth.serves positive (by omega)
  obtain ⟨rooted, root, sixth⟩ := writeRun_serves Buffer.zero _ _ fifth.serves near
  obtain ⟨after, info, seventh⟩ := writeUnchecked_serves (fsInfoSector build layout) sixth.serves
    (near_fat32 layout [layout.bPart + 1, layout.bPart + 7] (List.forall_mem_cons.mpr
      ⟨by omega, List.forall_mem_singleton.mpr (by omega)⟩))
  refine ⟨after, mkfsWrite_ok_iff.mpr ⟨_, partitioned, booted, backed, halfway, copied, rooted,
    ⟨rfl, mbr, bootRun, backup, firstFat, secondFat, root, info⟩⟩, ?_⟩
  exact first.trans (ticked.trans (second.trans (third.trans (fourth.trans (fifth.trans
    (sixth.trans seventh))))))

end Served

end Hdfmonkey
