/-
This file proves that the sector window of `ff.c` is a write-back window over the sectors
of the drive: `move_window` never changes what the driver sees, a change in the window is
seen at its own sector only, and once the window is written back the sectors hold what is
seen, in every copy of the FAT.

The drive serves every call, and the sectors are those the FAT starts with and the ones
behind its copies, as far as the image reaches. The sectors in front of the FAT are
written past the window.
-/

import Hdfmonkey.DriveFrame
import Hdfmonkey.FormatAgreement
import Hdfmonkey.WriteBack

namespace Hdfmonkey

/-- The bytes of a sector, and nothing behind them. -/
def cut (buffer : Buffer) : Buffer := fun index => if index < sectorSize then buffer index else 0

/-- What a sector of a volume with full sectors holds. -/
def Machine.sectorBytes (machine : Machine) (volume : VolumeContainer) (sector : Nat) : Buffer :=
  cut fun index => (machine.files.file volume.fd.node).byte
    (sector * sectorSize + volume.dataOffset + index)

theorem cut_inside {buffer : Buffer} {index : Nat} (inside : index < sectorSize) :
    cut buffer index = buffer index := if_pos inside

theorem cut_congr {first second : Buffer}
    (agree : ∀ index, index < sectorSize → first index = second index) :
    cut first = cut second := by
  funext index
  unfold cut
  split_ifs with inside
  · exact agree index inside
  · rfl

theorem cut_clip (buffer : Buffer) : cut (cut buffer) = cut buffer :=
  cut_congr fun _ => cut_inside

/-- A sector that was filled from another one shows it. -/
theorem cut_blit (buffer bytes : Buffer) : cut (buffer.blit 0 sectorSize bytes) = cut bytes :=
  cut_congr fun index inside => by
    rw [Buffer.blit_inside _ _ _ _ (Nat.zero_le _) (by omega), Nat.sub_zero]

theorem update_eq_ite {Value : Type} (store : Nat → Value) (place : Nat) (value : Value) :
    Function.update store place value = fun other =>
      if other = place then value else store other := by
  funext other
  exact Function.update_apply _ _ _ _

theorem Machine.Holds.sectorBytes {machine : Machine} {volume : VolumeContainer} {sector : Nat}
    {bytes : Buffer} (holds : machine.Holds volume sector bytes) :
    machine.sectorBytes volume sector = cut bytes := cut_congr holds.byte

/-- Writing a sector changes that one. -/
theorem sectorBytes_wrote {machine : Machine} {volume : VolumeContainer} {drive sector : Nat}
    {buff : Buffer} {result : DResult} (full : volume.bytesPerSector = sectorSize) :
    (machine.wrote drive volume sector buff volume.bytesPerSector result).sectorBytes volume =
      Function.update (machine.sectorBytes volume) sector (cut buff) := by
  funext other
  have file : ((machine.wrote drive volume sector buff volume.bytesPerSector result).files.file
      volume.fd.node) = (machine.files.file volume.fd.node).write
        (sector * sectorSize + volume.dataOffset) sectorSize buff := by
    rw [Machine.wrote, full]
    exact FileStore.file_put_self _ _ _
  by_cases same : other = sector
  · subst same
    rw [Function.update_self]
    exact (holds_wrote_self full result).sectorBytes
  · rw [Function.update_of_ne same, Machine.sectorBytes, Machine.sectorBytes, file]
    refine cut_congr fun index inside => ?_
    rw [ByteFile.byte_write, Buffer.blit_outside]
    rw [sectorSize] at inside ⊢
    omega

theorem Machine.register_register (machine : Machine) (vol : Nat) (first second : Option Fatfs) :
    (machine.register vol first).register vol second = machine.register vol second := by
  rw [register, register, register, Function.update_idem]

namespace Ff

open Program

/-! ### Programs that begin with the object of a drive -/

section Object

variable {vol : Nat} {start after : Machine}

theorem fatfs_registered {object : Fatfs} (registered : start.fatFs vol = some object) :
    fatfs vol start = .ok (object, start) := by
  refine outcome_bind.mpr ⟨start, start, outcome_get.mpr ⟨rfl, rfl⟩, ?_⟩
  simp only [registered]
  exact outcome_pure.mpr ⟨rfl, rfl⟩

/-- A program that looks at the object of a drive first. -/
theorem outcome_fatfs_bind {Result : Type} {rest : Fatfs → Program Machine Result} {result : Result}
    {object : Fatfs} (registered : start.fatFs vol = some object) :
    (fatfs vol >>= rest).Outcome start result after ↔ (rest object).Outcome start result after := by
  rw [outcome_bind]
  constructor
  · rintro ⟨_, _, looked, run⟩
    obtain ⟨rfl, rfl⟩ := (Outcome.unique (fatfs_registered registered) looked)
    exact run
  · exact fun run => ⟨object, start, fatfs_registered registered, run⟩

/-- A program that changes the object of a drive first. -/
theorem outcome_modifyFatfs_bind {Result : Type} {change : Fatfs → Fatfs}
    {rest : PUnit → Program Machine Result} {result : Result} :
    (modifyFatfs vol change >>= rest).Outcome start result after ↔
      (rest ()).Outcome (start.register vol ((start.fatFs vol).map change)) result after := Iff.rfl

end Object

/-! ### The window of a drive -/

/-- The FATs of a volume: where the first starts, how long each is, and how many there are. -/
structure FatArea where
  start : Nat
  size : Nat
  count : Nat

def fatArea (fs : Fatfs) : FatArea := ⟨fs.fatbase, fs.sectsFat, fs.nFats⟩

/-- The copies of a sector of the FAT, which `move_window` writes along with it. -/
def FatArea.copies (fats : FatArea) (sector : Nat) : List Nat :=
  if sector < fats.start + fats.size then
    (List.range (fats.count - 1)).map fun copy => sector + (copy + 1) * fats.size
  else []

/-- The sectors that are worked on through the window: of the FAT and behind its copies, as far as
the driver and the image reach. -/
structure FatArea.Worked (fats : FatArea) (volume : VolumeContainer) (size sector : Nat) :
    Prop where
  first : fats.start ≤ sector
  single : sector < fats.start + fats.size ∨ fats.start + fats.count * fats.size ≤ sector
  near : sector < reach
  inside : sector * sectorSize + volume.dataOffset + sectorSize ≤ size

/-- The window of a drive. Sector 0 stands for none. -/
def cacheOf (machine : Machine) (volume : VolumeContainer) (fs : Fatfs) : WriteBack Nat Buffer where
  store := machine.sectorBytes volume
  place := if fs.winsect = 0 then none else some fs.winsect
  win := cut fs.win
  dirty := fs.wflag

/-- Fuel for a turn for each cluster, and for each byte of a cluster. -/
structure Fuelled (fuel mcl csize : Nat) : Prop where
  clusters : mcl ≤ fuel
  bytes : csize * sectorSize ≤ fuel

/-- A drive that is read. Its image is open for writing if there is anything to write back. -/
structure Attends (machine : Machine) (drive : Nat) (volume : VolumeContainer) (dirty : Bool) : Prop
    extends machine.Reads drive volume where
  enough : sectorSize ≤ machine.fuel
  mode : dirty = true → volume.fd.writeable = true

/-- A drive that is read and whose window is as it should be, and the sectors that are seen through
it. -/
structure Sees (vol : Nat) (volume : VolumeContainer) (size : Nat) (build : Build) (fs : Fatfs)
    (disk : Nat → Buffer) (machine : Machine) : Prop where
  attends : Attends machine vol volume fs.wflag
  full : volume.bytesPerSector = sectorSize
  enough : size ≤ (machine.files.file volume.fd.node).size
  word : machine.build = build
  turns : Fuelled machine.fuel fs.maxClust fs.csize
  registered : machine.fatFs vol = some fs
  bound : fs.drive = vol
  behind : 0 < fs.fatbase
  one : 1 ≤ fs.nFats
  fats : fs.fatbase + fs.nFats * fs.sectsFat ≤ reach
  coherent : (cacheOf machine volume fs).Coherent ((fatArea fs).Worked volume size)
    (fatArea fs).copies
  seen : ∀ sector, (fatArea fs).Worked volume size sector →
    (cacheOf machine volume fs).view sector = disk sector
  front : ∀ sector, sector < fs.fatbase → machine.sectorBytes volume sector = disk sector

section Window

variable {vol : Nat} {volume : VolumeContainer} {size : Nat} {build : Build} {fs : Fatfs}
  {disk : Nat → Buffer} {machine : Machine} {sector : Nat}

theorem FatArea.mem_copies {fats : FatArea} {copy : Nat} (copied : copy ∈ fats.copies sector) :
    sector < fats.start + fats.size ∧
      ∃ number, 1 ≤ number ∧ number < fats.count ∧ copy = sector + number * fats.size := by
  unfold copies at copied
  split_ifs at copied with fat
  · obtain ⟨number, member, rfl⟩ := List.mem_map.mp copied
    rw [List.mem_range] at member
    exact ⟨fat, number + 1, by omega, by omega, rfl⟩
  · exact absurd copied List.not_mem_nil

theorem FatArea.copy_mem {fats : FatArea} {copy : Nat} (fat : sector < fats.start + fats.size)
    (few : copy + 1 < fats.count) : sector + (copy + 1) * fats.size ∈ fats.copies sector := by
  rw [copies, if_pos fat]
  exact List.mem_map.mpr ⟨copy, List.mem_range.mpr (Nat.lt_sub_of_add_lt few), rfl⟩

/-- The copies of the FAT are copies in the sense of a write-back window. -/
theorem FatArea.mirroring (fats : FatArea) :
    WriteBack.Mirroring (fats.Worked volume size) fats.copies where
  apart place copy worked copied single := by
    obtain ⟨fat, number, positive, fewer, rfl⟩ := mem_copies copied
    have least : fats.size ≤ number * fats.size := Nat.le_mul_of_pos_left _ positive
    have most : (number + 1) * fats.size ≤ fats.count * fats.size :=
      Nat.mul_le_mul_right _ fewer
    have first := worked.first
    rw [Nat.add_mul, Nat.one_mul] at most
    rcases single.single with before | behind
    · omega
    · omega
  own place other copy worked also copied second := by
    obtain ⟨fat, number, _, _, rfl⟩ := mem_copies copied
    obtain ⟨fat', number', _, _, same⟩ := mem_copies second
    have first := worked.first
    have first' := also.first
    -- both sectors are the same one of a FAT
    have total : place - fats.start + number * fats.size =
        other - fats.start + number' * fats.size := by omega
    have offset := Nat.add_mul_mod_self_right (place - fats.start) number fats.size
    rw [total, Nat.add_mul_mod_self_right, Nat.mod_eq_of_lt (by omega), Nat.mod_eq_of_lt (by omega)]
      at offset
    omega

/-- The place of a window that was moved. -/
theorem cacheOf_place (there : fs.winsect ≠ 0) :
    (cacheOf machine volume fs).place = some fs.winsect := if_neg there

/-- A drive that is written may be read. -/
theorem attends_of_serves (serves : machine.Serves vol volume) (dirty : Bool) :
    Attends machine vol volume dirty := ⟨serves.toReads, serves.enough, fun _ => serves.writeable⟩

theorem Sees.serves (sees : Sees vol volume size build fs disk machine)
    (mode : volume.fd.writeable = true) : machine.Serves vol volume :=
  ⟨sees.attends.toReads, mode, sees.attends.enough⟩

/-- Where the window is, it shows what is seen. -/
theorem Sees.window (sees : Sees vol volume size build fs disk machine) (there : fs.winsect ≠ 0) :
    (fatArea fs).Worked volume size fs.winsect ∧ cut fs.win = disk fs.winsect := by
  have worked := sees.coherent.inside fs.winsect (cacheOf_place there)
  refine ⟨worked, ?_⟩
  rw [← sees.seen _ worked]
  exact WriteBack.win_eq_view (cacheOf_place there)

/-- The drive after a change that left all but the window and the sectors alone. -/
theorem Sees.step {win : Buffer} {winsect : Nat} {wflag : Bool} {disk' : Nat → Buffer}
    (sees : Sees vol volume size build fs disk machine) (after : Machine)
    (attends : Attends after vol volume wflag)
    (enough : size ≤ (after.files.file volume.fd.node).size) (word : after.build = machine.build)
    (turns : Fuelled after.fuel fs.maxClust fs.csize)
    (registered : after.fatFs vol = some { fs with win, winsect, wflag })
    (coherent : (cacheOf after volume { fs with win, winsect, wflag }).Coherent
      ((fatArea fs).Worked volume size) (fatArea fs).copies)
    (seen : ∀ sector, (fatArea fs).Worked volume size sector →
      (cacheOf after volume { fs with win, winsect, wflag }).view sector = disk' sector)
    (front : ∀ sector, sector < fs.fatbase → after.sectorBytes volume sector = disk' sector) :
    Sees vol volume size build { fs with win, winsect, wflag } disk' after :=
  ⟨attends, sees.full, enough, word.trans sees.word, turns, registered, sees.bound,
    sees.behind, sees.one, sees.fats, coherent, seen, front⟩

/-- The clock is no part of what is seen. -/
theorem Sees.ticked (sees : Sees vol volume size build fs disk machine) :
    Sees vol volume size build fs disk { machine with ticks := machine.ticks + 1 } :=
  ⟨{ sees.attends with }, sees.full, sees.enough, sees.word, sees.turns, sees.registered,
    sees.bound, sees.behind, sees.one, sees.fats, sees.coherent, sees.seen, sees.front⟩

/-! ### Writing back -/

/-- Some sectors of a drive were written, and nothing else has changed but what is known of the
calls. -/
structure Stored (vol : Nat) (volume : VolumeContainer) (machine after : Machine) : Prop where
  serves : after.Serves vol volume
  size : (machine.files.file volume.fd.node).size ≤ (after.files.file volume.fd.node).size
  rest : ∃ transfers files written, after = { machine with transfers, files, written }

theorem Stored.refl (serves : machine.Serves vol volume) : Stored vol volume machine machine :=
  ⟨serves, Nat.le_refl _, _, _, _, rfl⟩

theorem Stored.trans {middle after : Machine} (first : Stored vol volume machine middle)
    (second : Stored vol volume middle after) : Stored vol volume machine after := by
  obtain ⟨_, _, _, rfl⟩ := first.rest
  obtain ⟨_, _, _, rfl⟩ := second.rest
  exact ⟨second.serves, first.size.trans second.size, _, _, _, rfl⟩

/-- A sector within reach is stored. -/
theorem diskWrite_stores {buff : Buffer} (serves : machine.Serves vol volume)
    (full : volume.bytesPerSector = sectorSize) (near : sector < reach) :
    ∃ after, (diskWrite vol buff sector 1).Outcome machine .ok after ∧
      Stored vol volume machine after ∧
      after.sectorBytes volume =
        Function.update (machine.sectorBytes volume) sector (cut buff) := by
  refine ⟨_, diskWrite_serves serves near, ⟨serves.wrote, ?_, _, _, _, rfl⟩,
    sectorBytes_wrote full⟩
  rw [Machine.wrote, FileStore.file_put_self]
  exact ByteFile.size_le_write _ _ _ _

/-- The copies of a sector of the FAT are stored, by induction on their number. -/
theorem writeCopies_stores (build : Build) (object : Fatfs) (drive : object.drive = vol)
    (serves : machine.Serves vol volume) (full : volume.bytesPerSector = sectorSize) (count : Nat)
    (near : sector + count * object.sectsFat < reach) :
    ∃ after, (writeCopies build object count sector).Outcome machine () after ∧
      Stored vol volume machine after ∧
      after.sectorBytes volume = WriteBack.putAll (machine.sectorBytes volume)
        ((List.range count).map fun copy => sector + (copy + 1) * object.sectsFat)
        (cut object.win) := by
  induction count generalizing machine sector with
  | zero =>
    refine ⟨machine, outcome_pure.mpr ⟨rfl, rfl⟩, .refl serves, funext fun _ => ?_⟩
    exact (if_neg List.not_mem_nil).symm
  | succ count inductionHypothesis =>
    rw [Nat.add_mul, Nat.one_mul] at near
    have word := build.le_word
    have next : build.add sector object.sectsFat = sector + object.sectsFat :=
      build.add_of_lt (by rw [reach] at near; omega)
    obtain ⟨middle, wrote, stored, sectors⟩ := @diskWrite_stores vol volume machine
      (sector + object.sectsFat) object.win serves full (by omega)
    obtain ⟨after, run, behind, copies⟩ := @inductionHypothesis middle
      (sector + object.sectsFat) stored.serves (by omega)
    refine ⟨after, outcome_bind.mpr ⟨.ok, middle, ?_, ?_⟩, stored.trans behind, ?_⟩
    · rw [next, drive]
      exact wrote
    · rw [next]
      exact run
    · have list : (List.range (count + 1)).map (fun copy => sector + (copy + 1) * object.sectsFat) =
          (sector + object.sectsFat) ::
            (List.range count).map fun copy =>
              sector + object.sectsFat + (copy + 1) * object.sectsFat := by
        rw [List.range_succ_eq_map, List.map_cons, List.map_map, Nat.zero_add, Nat.one_mul]
        refine congrArg _ (List.map_congr_left fun copy _ => ?_)
        rw [Function.comp_apply, Nat.succ_eq_add_one, Nat.add_mul (copy + 1), Nat.one_mul]
        omega
      rw [copies, sectors, list, WriteBack.putAll_cons]

/-- The part of `move_window` that reflects a change of the FAT to its copies. -/
theorem reflect_stores (build : Build) (sector : Nat) (serves : machine.Serves fs.drive volume)
    (full : volume.bytesPerSector = sectorSize)
    (fats : fs.fatbase + fs.nFats * fs.sectsFat ≤ reach) (one : 1 ≤ fs.nFats) :
    ∃ after, (if sector < build.add fs.fatbase fs.sectsFat then do
        writeCopies build fs (fs.nFats - 1) sector
        return DResult.ok
      else return DResult.ok : Program Machine DResult).Outcome machine .ok after ∧
      Stored fs.drive volume machine after ∧
      after.sectorBytes volume = WriteBack.putAll (machine.sectorBytes volume)
        ((fatArea fs).copies sector) (cut fs.win) := by
  have word := build.le_word
  have fewest : fs.sectsFat ≤ fs.nFats * fs.sectsFat := Nat.le_mul_of_pos_left _ one
  have edge : build.add fs.fatbase fs.sectsFat = fs.fatbase + fs.sectsFat :=
    build.add_of_lt (by rw [reach] at fats; omega)
  rw [edge]
  unfold FatArea.copies
  by_cases fat : sector < fs.fatbase + fs.sectsFat
  · have split : (fs.nFats - 1) * fs.sectsFat + fs.sectsFat = fs.nFats * fs.sectsFat := by
      rw [← Nat.succ_mul, Nat.succ_eq_add_one, Nat.sub_add_cancel one]
    rw [if_pos fat]
    obtain ⟨after, run, stored, sectors⟩ := writeCopies_stores build fs rfl
      serves full (fs.nFats - 1) (show sector + (fs.nFats - 1) * fs.sectsFat < reach by omega)
    refine ⟨after, outcome_bind.mpr ⟨_, _, run, outcome_pure.mpr ⟨rfl, rfl⟩⟩, stored, ?_⟩
    rw [sectors]
    exact congrArg (WriteBack.putAll _ · _) (if_pos fat).symm
  · rw [if_neg fat]
    refine ⟨machine, outcome_pure.mpr ⟨rfl, rfl⟩, .refl serves, ?_⟩
    exact (WriteBack.putAll_nil _ _).symm.trans
      (congrArg (WriteBack.putAll _ · _) (if_neg fat).symm)

/-- The window and the sectors after a changed window was stored. -/
theorem cacheOf_flush {after : Machine} (dirty : fs.wflag = true) (there : fs.winsect ≠ 0)
    (sectors : after.sectorBytes volume = WriteBack.putAll
      (Function.update (machine.sectorBytes volume) fs.winsect (cut fs.win))
      ((fatArea fs).copies fs.winsect) (cut fs.win)) :
    cacheOf after volume { fs with wflag := false } =
      (cacheOf machine volume fs).flush (fatArea fs).copies := by
  have targets : (cacheOf machine volume fs).targets (fatArea fs).copies =
      fs.winsect :: (fatArea fs).copies fs.winsect := by
    rw [WriteBack.targets, cacheOf_place there]
  rw [WriteBack.flush, if_pos (show (cacheOf machine volume fs).dirty = true from dirty), targets,
    WriteBack.putAll_cons]
  change WriteBack.mk (after.sectorBytes volume) _ _ _ = _
  rw [sectors]
  rfl

/-- The window is not written to a sector in front of the FAT. -/
theorem Sees.notMem_targets (sees : Sees vol volume size build fs disk machine)
    (before : sector < fs.fatbase) :
    sector ∉ (cacheOf machine volume fs).targets (fatArea fs).copies := by
  intro target
  obtain ⟨here, there, rfl | copied⟩ := WriteBack.mem_targets.mp target
  · exact absurd (sees.coherent.inside _ there).first (Nat.not_le.mpr before)
  · obtain ⟨_, number, _, _, rfl⟩ := FatArea.mem_copies copied
    exact absurd ((sees.coherent.inside _ there).first.trans (Nat.le_add_right _ _))
      (Nat.not_le.mpr before)

/-- The window is written back: what is seen stays, and the sectors hold it. -/
theorem writeBack_sees (sees : Sees vol volume size build fs disk machine) :
    ∃ after, (writeBack vol).Outcome machine .ok after ∧
      Sees vol volume size build { fs with wflag := false } disk after ∧
      cacheOf after volume { fs with wflag := false } =
        (cacheOf machine volume fs).flush (fatArea fs).copies := by
  by_cases clean : fs.wflag = false
  · have same : ({ fs with wflag := false } : Fatfs) = fs := by rw [← clean]
    refine ⟨machine, ?_, by rwa [same], ?_⟩
    · rw [writeBack, outcome_fatfs_bind sees.registered, if_neg (by rw [clean]; decide)]
      exact outcome_pure.mpr ⟨rfl, rfl⟩
    · rw [same, WriteBack.flush_of_clean clean]
  · have dirty : fs.wflag = true := by simpa using clean
    have there : fs.winsect ≠ 0 := fun zero => sees.coherent.held dirty (if_pos zero)
    have bound := sees.bound
    subst bound
    obtain ⟨first, wrote, stored, sectors⟩ := @diskWrite_stores fs.drive volume machine fs.winsect
      fs.win (sees.serves (sees.attends.mode dirty)) sees.full (sees.window there).1.near
    obtain ⟨transfers, files, written, rfl⟩ := stored.rest
    have serves : (Machine.register { machine with transfers, files, written } fs.drive
        (some { fs with wflag := false })).Serves fs.drive volume := { stored.serves with }
    obtain ⟨after, run, behind, copies⟩ := reflect_stores machine.build
      fs.winsect serves sees.full sees.fats sees.one
    have cache := @cacheOf_flush volume fs machine after dirty there
      (copies.trans (congrArg (WriteBack.putAll · _ _) sectors))
    refine ⟨after, ?_, ?_, cache⟩
    · rw [writeBack, outcome_fatfs_bind sees.registered, if_pos dirty]
      refine outcome_bind.mpr ⟨.ok, _, wrote, ?_⟩
      have object : ({ machine with transfers, files, written } : Machine).fatFs fs.drive =
        some fs :=
        sees.registered
      rw [if_neg (not_not.mpr rfl), outcome_modifyFatfs_bind, object]
      exact outcome_bind.mpr ⟨_, _, outcome_get.mpr ⟨rfl, rfl⟩, run⟩
    · obtain ⟨_, _, _, rfl⟩ := behind.rest
      refine sees.step _ (attends_of_serves behind.serves _)
        (sees.enough.trans (stored.size.trans behind.size)) rfl
        sees.turns (Machine.fatFs_register _ _ _) ?_ (fun sector worked => ?_)
          fun sector before => ?_
      · exact cache ▸ sees.coherent.flush (FatArea.mirroring _)
      · rw [← sees.seen sector worked, cache]
        exact WriteBack.view_flush (FatArea.mirroring _) sees.coherent worked
      · have kept := @WriteBack.store_flush_of_notMem _ _ _ (fatArea fs).copies
          (cacheOf machine volume fs) sector (sees.notMem_targets before)
        exact (congrFun (congrArg WriteBack.store cache) sector).trans
          (kept.trans (sees.front sector before))

/-- A sector within the image holds its bytes. -/
theorem Sees.holds (sees : Sees vol volume size build fs disk machine)
    (worked : (fatArea fs).Worked volume size sector) :
    machine.Holds volume sector fun index => (machine.files.file volume.fd.node).byte
      (sector * sectorSize + volume.dataOffset + index) :=
  ⟨worked.inside.trans sees.enough, fun _ _ => rfl⟩

/-- `move_window` to a sector: what is seen stays, and the window is there. -/
theorem moveWindow_sees (sees : Sees vol volume size build fs disk machine)
    (worked : (fatArea fs).Worked volume size sector) :
    ∃ win wflag after, (moveWindow vol sector).Outcome machine .ok after ∧
      Sees vol volume size build { fs with win, winsect := sector, wflag } disk after := by
  have present : sector ≠ 0 := Nat.pos_iff_ne_zero.mp (Nat.lt_of_lt_of_le sees.behind worked.first)
  by_cases already : fs.winsect = sector
  · subst already
    refine ⟨fs.win, fs.wflag, machine, ?_, sees⟩
    rw [moveWindow, outcome_fatfs_bind sees.registered, if_pos rfl]
    exact outcome_pure.mpr ⟨rfl, rfl⟩
  · obtain ⟨middle, flushed, seesMiddle, cache⟩ := writeBack_sees sees
    have holds := seesMiddle.holds worked
    have bound := sees.bound
    subst bound
    have read := @diskRead_holds middle fs.drive volume fs.win sector _ seesMiddle.attends.toReads
      sees.full holds worked.near
    have object : ({ middle with transfers := middle.transfers + 1 } : Machine).fatFs fs.drive =
      some { fs with wflag := false } := seesMiddle.registered
    have bytes := holds.sectorBytes
    generalize (fun index => (middle.files.file volume.fd.node).byte
      (sector * sectorSize + volume.dataOffset + index)) = content at read bytes
    have moved : cacheOf (Machine.register { middle with transfers := middle.transfers + 1 }
        fs.drive (some { fs with
          win := fs.win.blit 0 sectorSize content
          winsect := sector
          wflag := false })) volume
        { fs with win := fs.win.blit 0 sectorSize content, winsect := sector, wflag := false } =
        (cacheOf machine volume fs).move (fatArea fs).copies sector := by
      have elsewhere : (cacheOf machine volume fs).place ≠ some sector := fun there => by
        unfold cacheOf at there
        split_ifs at there
        exact already (Option.some.inj there)
      rw [WriteBack.move, if_neg elsewhere, ← cache]
      change WriteBack.mk (middle.sectorBytes volume) _ _ _ =
        WriteBack.mk (middle.sectorBytes volume) _ (middle.sectorBytes volume sector) _
      rw [cut_blit, bytes, if_neg present]
      rfl
    refine ⟨fs.win.blit 0 sectorSize content, false, _, ?_,
      sees.step (Machine.register { middle with transfers := middle.transfers + 1 } fs.drive
        (some { fs with
          win := fs.win.blit 0 sectorSize content
          winsect := sector
          wflag := false })) ?_ seesMiddle.enough (seesMiddle.word.trans sees.word.symm)
        seesMiddle.turns (Machine.fatFs_register _ _ _) ?_ (fun other known => ?_)
        seesMiddle.front⟩
    · rw [moveWindow, outcome_fatfs_bind sees.registered, if_neg already]
      refine outcome_bind.mpr ⟨.ok, middle, flushed, ?_⟩
      rw [if_neg (not_not.mpr rfl), if_neg present]
      refine outcome_bind.mpr ⟨_, _, read, ?_⟩
      rw [outcome_modifyFatfs_bind, if_neg (not_not.mpr rfl), outcome_modifyFatfs_bind, object,
        Machine.fatFs_register, Machine.register_register]
      exact outcome_pure.mpr ⟨rfl, rfl⟩
    · have attends := seesMiddle.attends
      exact ⟨⟨attends.mapped, attends.near, attends.small, fun call later =>
        attends.steady call (Nat.le_of_succ_le later)⟩, attends.enough, fun dirty =>
          absurd dirty Bool.false_ne_true⟩
    · rw [moved]
      exact sees.coherent.move (FatArea.mirroring _) worked
    · rw [moved, ← sees.seen other known]
      exact WriteBack.view_move (FatArea.mirroring _) sees.coherent known sector

/-- `move_window` to no sector: what is seen stays, and the sectors hold it, every copy of the FAT
too. -/
theorem moveWindow_flush (sees : Sees vol volume size build fs disk machine) :
    ∃ after, (moveWindow vol 0).Outcome machine .ok after ∧
      Sees vol volume size build { fs with wflag := false } disk after ∧
      ∀ sector, (fatArea fs).Worked volume size sector →
        after.sectorBytes volume sector = disk sector ∧
        ∀ copy ∈ (fatArea fs).copies sector, after.sectorBytes volume copy = disk sector := by
  obtain ⟨after, run, seesAfter, cache⟩ := writeBack_sees sees
  have settled : ∀ sector, (fatArea fs).Worked volume size sector →
      after.sectorBytes volume sector = disk sector ∧
      ∀ copy ∈ (fatArea fs).copies sector, after.sectorBytes volume copy = disk sector := by
    intro sector worked
    have stored : after.sectorBytes volume =
        ((cacheOf machine volume fs).flush (fatArea fs).copies).store :=
      congrArg WriteBack.store cache
    rw [stored, ← sees.seen sector worked]
    exact ⟨WriteBack.store_flush (FatArea.mirroring _) sees.coherent worked, fun copy copied =>
      WriteBack.store_flush_copy (FatArea.mirroring _) sees.coherent worked copied⟩
  refine ⟨after, ?_, seesAfter, settled⟩
  rw [moveWindow, outcome_fatfs_bind sees.registered]
  by_cases none : fs.winsect = 0
  · -- there is nothing in the window that could have changed
    have clean : fs.wflag = false := by
      refine Bool.eq_false_iff.mpr fun dirty => ?_
      exact sees.coherent.held dirty (if_pos none)
    rw [writeBack, outcome_fatfs_bind sees.registered, if_neg (by rw [clean]; decide)] at run
    obtain ⟨_, rfl⟩ := outcome_pure.mp run
    rw [if_pos none]
    exact outcome_pure.mpr ⟨rfl, rfl⟩
  · rw [if_neg none]
    refine outcome_bind.mpr ⟨.ok, after, run, ?_⟩
    rw [if_neg (not_not.mpr rfl), if_pos rfl]
    exact outcome_pure.mpr ⟨rfl, rfl⟩

/-- A change in the window is seen in its sector, and nowhere else. -/
theorem edit_sees (sees : Sees vol volume size build fs disk machine)
    (mode : volume.fd.writeable = true) (there : fs.winsect ≠ 0) (win : Buffer) :
    Sees vol volume size build { fs with win, wflag := true }
      (Function.update disk fs.winsect (cut win))
      (machine.register vol (some { fs with win, wflag := true })) := by
  have edited : cacheOf (machine.register vol (some { fs with win, wflag := true })) volume
      { fs with win, wflag := true } = (cacheOf machine volume fs).edit fun _ => cut win := rfl
  refine sees.step _ { sees.attends with mode := fun _ => mode } sees.enough rfl sees.turns
    (Machine.fatFs_register _ _ _) ?_
    (fun sector worked => ?_) fun sector before => ?_
  · rw [edited]
    exact sees.coherent.edit (cacheOf_place there) _
  · rw [edited, WriteBack.view_edit _ (cacheOf_place there)]
    by_cases same : sector = fs.winsect
    · rw [same, Function.update_self, Function.update_self]
    · rw [Function.update_of_ne same, Function.update_of_ne same, sees.seen sector worked]
  · have away : sector ≠ fs.winsect :=
      Nat.ne_of_lt (Nat.lt_of_lt_of_le before (sees.window there).1.first)
    rw [Function.update_of_ne away]
    exact sees.front sector before

end Window

end Ff

end Hdfmonkey
