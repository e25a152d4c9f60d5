/-
This file proves that what the owners of clusters have got lasts: `sync` brings the FAT
and all its copies to the image, and the count of the free clusters and the hint to the
FSInfo sector of FAT32, and the next mount finds them again.

It begins with a format, whose FAT belongs to nobody but the root directory of FAT32.
-/

import Hdfmonkey.FatChains

namespace Hdfmonkey

namespace Ff

open Program

/-! ### Bringing a drive to its image -/

/-- The sectors after `sync`, which writes the FSInfo sector of FAT32 past the window. -/
def synced (fmt : FatType) (fs : Fatfs) (disk : Nat → Buffer) : Nat → Buffer :=
  if fmt = .fat32 ∧ fs.fsiFlag then Function.update disk fs.fsiSector (cut (fsInfo fs)) else disk

/-- The image holds what is seen, also in the copies of the FAT. -/
def Settled (volume : VolumeContainer) (size : Nat) (fs : Fatfs) (disk : Nat → Buffer)
    (machine : Machine) : Prop :=
  ∀ sector, (fatArea fs).Worked volume size sector →
    machine.sectorBytes volume sector = disk sector ∧ ∀ copy ∈ (fatArea fs).copies sector,
      machine.sectorBytes volume copy = disk sector

section Sync

variable {Owner : Type} {vol : Nat} {volume : VolumeContainer} {size : Nat} {build : Build}
  {fs : Fatfs} {disk : Nat → Buffer} {machine : Machine} {fmt : FatType} {counts : Prop}
  {allocation : Allocation Owner}

theorem loadDword_cut {buffer : Buffer} {place : Nat} (inside : place + 4 ≤ sectorSize) :
    (cut buffer).loadDword place = buffer.loadDword place :=
  Buffer.loadDword_congr fun _ _ before => cut_inside (by omega)

/-- The FSInfo sector has the count and the hint. -/
theorem fsInfo_informs (count : fs.freeClust < 2 ^ 32) (hint : fs.lastClust < 2 ^ 32) :
    Informs (cut (fsInfo fs)) fs.freeClust fs.lastClust := by
  have word : (cut (fsInfo fs)).loadWord bs55AA = (fsInfo fs).loadWord bs55AA :=
    Buffer.loadWord_congr (cut_inside (by decide)) (cut_inside (by decide))
  have fields : (fsInfo fs).loadWord bs55AA = 0xAA55 ∧
      (fsInfo fs).loadDword fsiLeadSig = 0x41615252 ∧
      (fsInfo fs).loadDword fsiStrucSig = 0x61417272 ∧
      (fsInfo fs).loadDword fsiFreeCount = fs.freeClust % 2 ^ 32 ∧
      (fsInfo fs).loadDword fsiNxtFree = fs.lastClust % 2 ^ 32 := by
    simp (disch := decide) only [fsInfo, Buffer.loadWord_storeDword_past,
      Buffer.loadWord_storeWord, Buffer.loadDword_storeDword_past, Buffer.loadDword_storeDword]
    exact ⟨by decide, by decide, by decide, trivial, trivial⟩
  obtain ⟨signature, lead, struc, free, last⟩ := fields
  exact ⟨word.trans signature, (loadDword_cut (by decide)).trans lead,
    (loadDword_cut (by decide)).trans struc,
    (loadDword_cut (by decide)).trans (free.trans (Nat.mod_eq_of_lt count)),
    (loadDword_cut (by decide)).trans (last.trans (Nat.mod_eq_of_lt hint))⟩

/-- A sector in front of the FAT is written past the window. -/
theorem front_sees {after : Machine} {sector : Nat} {win bytes : Buffer} {fsiFlag : Bool}
    (sees : Sees vol volume size build fs disk machine) (clean : fs.wflag = false)
    (before : sector < fs.fatbase) (attends : Attends after vol volume fs.wflag)
    (enough : size ≤ (after.files.file volume.fd.node).size) (word : after.build = machine.build)
    (turns : Fuelled after.fuel fs.maxClust fs.csize)
    (registered : after.fatFs vol = some { fs with win, winsect := 0, fsiFlag })
    (wrote : after.sectorBytes volume =
      Function.update (machine.sectorBytes volume) sector bytes) :
    Sees vol volume size build { fs with win, winsect := 0, fsiFlag }
      (Function.update disk sector bytes) after := by
  have cache : cacheOf after volume { fs with win, winsect := 0, fsiFlag } =
      ((cacheOf machine volume fs).putPast (· = sector) fun _ => bytes).drop (cut win) := by
    change WriteBack.mk (after.sectorBytes volume) none (cut win) fs.wflag = _
    rw [wrote, update_eq_ite]
    rfl
  have idle {other : Nat} (worked : (fatArea fs).Worked volume size other) : other ≠ sector :=
    fun same => absurd (same ▸ worked.first) (Nat.not_le.mpr before)
  have single (other : Nat) (worked : (fatArea fs).Worked volume size other) (copy : Nat)
      (copied : copy ∈ (fatArea fs).copies other) : copy ≠ sector := by
    obtain ⟨_, number, _, _, rfl⟩ := FatArea.mem_copies copied
    exact fun same => absurd (worked.first.trans ((Nat.le_add_right _ _).trans_eq same))
      (Nat.not_le.mpr before)
  have elsewhere (other : Nat) (here : other = sector) :
      (cacheOf machine volume fs).place ≠ some other := fun there =>
    idle (sees.coherent.inside other there) here
  have coherent := sees.coherent.putPast elsewhere single
    (fun other here worked => absurd here (idle worked)) fun _ => bytes
  refine ⟨attends, sees.full, enough, word.trans sees.word, turns, registered, sees.bound,
    sees.behind, sees.one, sees.fats, ?_, fun other worked => ?_, fun other inside => ?_⟩
  · rw [cache]
    exact coherent.drop clean (cut win)
  · rw [cache, WriteBack.view_drop coherent clean, WriteBack.view_putPast elsewhere,
      if_neg (idle worked), Function.update_of_ne (idle worked), sees.seen other worked]
  · rw [wrote]
    by_cases same : other = sector
    · rw [same, Function.update_self, Function.update_self]
    · rw [Function.update_of_ne same, Function.update_of_ne same, sees.front other inside]

theorem synced_of_ne {sector : Nat} (other : fmt = .fat32 → sector ≠ fs.fsiSector) :
    synced fmt fs disk sector = disk sector := by
  unfold synced
  split_ifs with info
  · exact Function.update_of_ne (other info.1) _ _
  · rfl

theorem linksOf_synced (tabled : Tabled volume size fmt fs) :
    linksOf fmt fs (synced fmt fs disk) = linksOf fmt fs disk := by
  unfold synced
  split_ifs with info
  · have before := tabled.info info.1
    have same : fatBytes (Function.update disk fs.fsiSector (cut (fsInfo fs))) fs.fatbase =
        fatBytes disk fs.fatbase := by
      funext index
      have different : fs.fatbase + index / sectorSize ≠ fs.fsiSector :=
        Nat.ne_of_gt (Nat.lt_of_lt_of_le before (Nat.le_add_right _ _))
      rw [fatBytes, fatBytes, Function.update_of_ne different]
    rw [linksOf, same]
    rfl
  · rfl

/-- The account is kept by writing the FSInfo sector. -/
theorem accounted_synced {win : Buffer} {winsect : Nat} {wflag fsiFlag : Bool}
    (accounted : Accounted counts fmt fs disk) (tabled : Tabled volume size fmt fs)
    (sees : Sees vol volume size build fs disk machine)
    (kept : ¬(fmt = .fat32 ∧ fs.fsiFlag = true) → fsiFlag = fs.fsiFlag) :
    Accounted counts fmt { fs with win, winsect, wflag, fsiFlag } (synced fmt fs disk) := by
  refine ⟨fun known => ?_, accounted.uncounted, accounted.hinted, fun type known clean => ?_⟩
  · have counted := accounted.counted known
    rw [← linksOf_synced tabled] at counted
    exact counted
  · dsimp only at clean ⊢
    unfold synced
    by_cases flagged : fs.fsiFlag = true
    · rw [if_pos ⟨type, flagged⟩, Function.update_self]
      have small := accounted.small tabled sees known
      exact fsInfo_informs (by omega) (accounted.hinted type known)
    · rw [if_neg fun both => flagged both.2]
      exact accounted.informed type known
        ((kept fun both => flagged both.2).symm.trans clean)

/-- `sync` changes nothing that the owners have, and the image holds it. -/
theorem sync_settles (allots : Allots vol volume size build fmt counts fs disk machine allocation)
    (mode : volume.fd.writeable = true) :
    ∃ fs' after, (sync vol).Outcome machine .ok after ∧
      Allots vol volume size build fmt counts fs' (synced fmt fs disk) after allocation ∧
      Reworked fs fs' ∧ (fs'.freeClust = fs.freeClust ∧ fs'.lastClust = fs.lastClust) ∧
      (fmt = .fat32 → fs'.fsiFlag = false) ∧ Settled volume size fs'
        (synced fmt fs disk) after := by
  obtain ⟨sees, tabled, allotted, hint, accounted⟩ := allots
  obtain ⟨middle, flushed, seesMiddle, settled⟩ := moveWindow_flush sees
  have links := @linksOf_synced volume size fs disk fmt tabled
  rw [← links] at allotted
  by_cases info : fmt = .fat32 ∧ fs.fsiFlag = true
  · have before := tabled.info info.1
    have bound := sees.bound
    subst bound
    have near : fs.fsiSector < reach := by
      have fats := sees.fats
      omega
    obtain ⟨written, wrote, stored, sectors⟩ := @diskWrite_stores fs.drive volume
      (middle.register fs.drive (some { fs with
        wflag := false
        winsect := 0
        win := fs.win.blit 0 512 (fsInfo fs) })) fs.fsiSector
      (fs.win.blit 0 512 (fsInfo fs)) { seesMiddle.serves mode with } sees.full near
    have bytes : cut (fs.win.blit 0 512 (fsInfo fs)) = cut (fsInfo fs) := cut_blit _ _
    rw [bytes] at sectors
    have rest : written.build = middle.build ∧ written.fuel = middle.fuel ∧
        written.fatFs fs.drive = some { fs with
          wflag := false
          winsect := 0
          win := fs.win.blit 0 512 (fsInfo fs) } := by
      obtain ⟨_, _, _, rfl⟩ := stored.rest
      exact ⟨rfl, rfl, Machine.fatFs_register _ _ _⟩
    have seesAfter := @front_sees fs.drive volume size build { fs with wflag := false } disk middle
      (written.register fs.drive (some { fs with
        wflag := false
        winsect := 0
        win := fs.win.blit 0 512 (fsInfo fs)
        fsiFlag := false })) fs.fsiSector (fs.win.blit 0 512 (fsInfo fs)) (cut (fsInfo fs)) false
      seesMiddle rfl before { attends_of_serves stored.serves _ with }
        (seesMiddle.enough.trans stored.size) rest.1
      (rest.2.1 ▸ seesMiddle.turns) (Machine.fatFs_register _ _ _) sectors
    have told : synced fmt fs disk = Function.update disk fs.fsiSector (cut (fsInfo fs)) :=
      if_pos info
    rw [← told] at seesAfter
    have accountedAfter := @accounted_synced fs.drive volume size build fs disk machine fmt counts
      (fs.win.blit 0 512 (fsInfo fs)) 0 false false accounted tabled sees fun both =>
        absurd info both
    refine ⟨_, _, ?_, ⟨seesAfter, { tabled with }, allotted, hint, accountedAfter⟩,
      ⟨_, _, _, _, _, _, .inr (.inl rfl), rfl⟩, ⟨rfl, rfl⟩, fun _ => rfl, fun sector worked => ?_⟩
    · rw [sync]
      refine outcome_bind.mpr ⟨.ok, _, flushed, ?_⟩
      rw [if_neg (not_not.mpr rfl), outcome_fatfs_bind seesMiddle.registered,
        if_pos ⟨tabled.type.trans (congrArg some info.1), info.2⟩, outcome_modifyFatfs_bind,
        seesMiddle.registered, Option.map_some,
        outcome_fatfs_bind (Machine.fatFs_register _ _ _)]
      refine outcome_bind.mpr ⟨.ok, written, ?_, ?_⟩
      · exact wrote
      · rw [outcome_modifyFatfs_bind, rest.2.2]
        exact outcome_pure.mpr ⟨rfl, rfl⟩
    · have other {place : Nat} (behind : fs.fatbase ≤ place) :
          written.sectorBytes volume place = middle.sectorBytes volume place ∧
            synced fmt fs disk place = disk place := by
        have different : place ≠ fs.fsiSector := Nat.ne_of_gt (Nat.lt_of_lt_of_le before behind)
        rw [sectors, told, Function.update_of_ne different, Function.update_of_ne different]
        exact ⟨rfl, rfl⟩
      obtain ⟨here, copies⟩ := settled sector worked
      obtain ⟨same, shown⟩ := other worked.first
      refine ⟨(same.trans here).trans shown.symm, fun copy copied => ?_⟩
      obtain ⟨_, number, _, _, rfl⟩ := FatArea.mem_copies copied
      exact ((other (worked.first.trans (Nat.le_add_right _ _))).1.trans
        (copies _ copied)).trans shown.symm
  · have told : synced fmt fs disk = disk := if_neg info
    have accountedAfter := @accounted_synced vol volume size build fs disk machine fmt counts fs.win
      fs.winsect false fs.fsiFlag accounted tabled sees fun _ => rfl
    rw [told] at allotted accountedAfter ⊢
    refine ⟨{ fs with wflag := false }, middle, ?_,
      ⟨seesMiddle, { tabled with }, allotted, hint, accountedAfter⟩,
      ⟨_, _, _, _, _, _, .inl rfl, rfl⟩,
      ⟨rfl, rfl⟩, fun type => Bool.eq_false_iff.mpr fun flagged => info ⟨type, flagged⟩, settled⟩
    rw [sync]
    refine outcome_bind.mpr ⟨.ok, _, flushed, ?_⟩
    rw [if_neg (not_not.mpr rfl), outcome_fatfs_bind seesMiddle.registered, if_neg]
    · exact outcome_pure.mpr ⟨rfl, rfl⟩
    · rintro ⟨type, flagged⟩
      exact info ⟨Option.some.inj (tabled.type.symm.trans type), flagged⟩

end Sync

/-! ### Mounting an image -/

/-- An image with the boot record of a layout and a FAT that shows lists of clusters, the same in
both copies. On FAT32 an FSInfo sector has a count and a hint. -/
structure Stocked {Owner : Type} (vol : Nat) (volume : VolumeContainer) (size : Nat)
    (layout : Layout) (machine : Machine) (clusters : Owner → List Nat) : Prop where
  attends : Attends machine vol volume false
  full : volume.bytesPerSector = sectorSize
  sound : layout.Sound
  power : ∃ bits, layout.allocsize = 2 ^ bits
  formatted : ∃ volumeLabel time, Formatted machine volume layout volumeLabel time
  agrees : typeOfMaxClust (layout.nClst + 2) = layout.fmt
  enough : size ≤ (machine.files.file volume.fd.node).size
  inside : (layout.bFat + layout.nFat) * sectorSize + volume.dataOffset ≤ size
  turns : Fuelled machine.fuel (layout.nClst + 2) layout.allocsize
  allotted : Allotted (fatLinks layout.fmt (layout.nClst + 2)
    (fatBytes (machine.sectorBytes volume) layout.bFat)) clusters
  mirrored : ∀ sector, (FatArea.mk layout.bFat layout.nFat nFats).Worked volume size sector →
    ∀ copy ∈ (FatArea.mk layout.bFat layout.nFat nFats).copies sector,
      machine.sectorBytes volume copy = machine.sectorBytes volume sector
  informed : layout.fmt = .fat32 → ∃ freeClust lastClust,
    Informs (machine.sectorBytes volume (layout.bPart + 1)) freeClust lastClust ∧
      freeClust = freeCount (layout.nClst + 2) (fatLinks layout.fmt (layout.nClst + 2)
        (fatBytes (machine.sectorBytes volume) layout.bFat))

section Mount

variable {Owner : Type} {vol : Nat} {volume : VolumeContainer} {size : Nat} {fs : Fatfs}
  {machine : Machine} {layout : Layout} {clusters : Owner → List Nat}

/-- "Get fsinfo if needed" takes the count and the hint of an FSInfo sector. -/
theorem readFsInfo_informs {build : Build} {bsect sector freeClust lastClust : Nat} {bytes : Buffer}
    (fat32 : typeOfMaxClust fs.maxClust = .fat32) (reads : machine.Reads fs.drive volume)
    (full : volume.bytesPerSector = sectorSize) (holds : machine.Holds volume sector bytes)
    (near : sector < reach) (place : build.add bsect (fs.win.loadWord bpbFsInfo) = sector)
    (informs : Informs (cut bytes) freeClust lastClust) :
    (readFsInfo build bsect fs).Outcome machine
      { fs with
        fsiFlag := false
        fsiSector := sector
        win := fs.win.blit 0 sectorSize bytes
        lastClust
        freeClust } { machine with transfers := machine.transfers + 1 } := by
  have shown (index : Nat) (inside : index < sectorSize) :
      fs.win.blit 0 sectorSize bytes index = cut bytes index := by
    rw [shows_blit fs.win bytes index inside, cut_inside inside]
  have dword {place : Nat} (inside : place + 4 ≤ sectorSize) :
      (fs.win.blit 0 sectorSize bytes).loadDword place = (cut bytes).loadDword place :=
    Buffer.loadDword_congr fun _ _ before => shown _ (by omega)
  have word : (fs.win.blit 0 sectorSize bytes).loadWord bs55AA = (cut bytes).loadWord bs55AA :=
    Buffer.loadWord_congr (shown _ (by decide)) (shown _ (by decide))
  rw [readFsInfo, if_pos fat32, place]
  refine outcome_bind.mpr ⟨_, _, diskRead_holds reads full holds near, ?_⟩
  dsimp only
  rw [if_pos ⟨rfl, word.trans informs.signature, (dword (by decide)).trans informs.lead,
    (dword (by decide)).trans informs.struc⟩, (dword (by decide)).trans informs.count,
    (dword (by decide)).trans informs.hint]
  exact outcome_pure.mpr ⟨rfl, rfl⟩

/-- What "get fsinfo if needed" makes of the object of a stocked image. -/
theorem readFsInfo_stocked {volumeLabel : Option (List UInt8)} {time : Nat}
    (stocked : Stocked vol volume size layout machine clusters)
    (shows : Shows fs.win (bootSector layout 0 volumeLabel time)) (drive : fs.drive = vol) :
    ∃ fsiFlag fsiSector win lastClust freeClust transfers,
      (readFsInfo machine.build layout.bPart (initFatfs machine.build layout.bPart fs)).Outcome
        (machine.called 2)
        { initFatfs machine.build layout.bPart fs with
          fsiFlag, fsiSector, win, lastClust, freeClust } (machine.called transfers) ∧
      (layout.fmt ≠ .fat32 → freeClust = 0xFFFFFFFF) ∧
      (layout.fmt = .fat32 → fsiFlag = false ∧ fsiSector = layout.bPart + 1 ∧
        Informs (machine.sectorBytes volume (layout.bPart + 1)) freeClust lastClust) := by
  have sound := stocked.sound
  have most : (initFatfs machine.build layout.bPart fs).maxClust = layout.nClst + 2 :=
    maxClust_formatted sound shows _
  have kind := stocked.agrees
  rw [← most] at kind
  by_cases fat32 : layout.fmt = .fat32
  · obtain ⟨freeClust, lastClust, informs, _⟩ := stocked.informed fat32
    have bPart := sound.bPart
    have bFat := sound.bFat
    rw [if_pos fat32] at bFat
    have word := machine.build.le_word
    have one : fs.win.loadWord bpbFsInfo = 1 := by
      rw [← bootSector_fsInfo layout 0 volumeLabel time fat32]
      exact shows.word (by decide)
    have place : machine.build.add layout.bPart
        ((initFatfs machine.build layout.bPart fs).win.loadWord bpbFsInfo) = layout.bPart + 1 := by
      change machine.build.add layout.bPart (fs.win.loadWord bpbFsInfo) = _
      rw [one, bPart]
      exact machine.build.add_of_lt (by omega)
    have holds : machine.Holds volume (layout.bPart + 1) fun index =>
        (machine.files.file volume.fd.node).byte
          ((layout.bPart + 1) * sectorSize + volume.dataOffset + index) := by
      have front : (layout.bPart + 1) * sectorSize + sectorSize ≤
          (layout.bFat + layout.nFat) * sectorSize := by
        rw [← Nat.succ_mul]
        exact Nat.mul_le_mul_right _ (by omega)
      have inside := stocked.inside
      exact ⟨Nat.le_trans (by omega) stocked.enough, fun _ _ => rfl⟩
    have reads : (machine.called 2).Reads (initFatfs machine.build layout.bPart fs).drive
      volume := by
      change (machine.called 2).Reads fs.drive volume
      rw [drive]
      exact stocked.attends.toReads.called 2
    have run := readFsInfo_informs (kind.trans fat32) reads stocked.full (holds.called 2)
      (by rw [bPart, reach]; omega) place informs
    exact ⟨_, _, _, _, _, 3, run, fun other => absurd fat32 other, fun _ => ⟨rfl, rfl, informs⟩⟩
  · refine ⟨fs.fsiFlag, fs.fsiSector, fs.win, fs.lastClust, 0xFFFFFFFF, 2, ?_, fun _ => rfl,
      fun type => absurd type fat32⟩
    rw [readFsInfo, if_neg fun type => fat32 (kind.symm.trans type)]
    exact outcome_pure.mpr ⟨rfl, rfl⟩

/-- A mount of a stocked image finds the lists. -/
theorem chkMounted_stocked (stocked : Stocked vol volume size layout machine clusters)
    (inside : vol < drives) (registered : machine.fatFs vol = some fs)
    (unmounted : fs.fsType = none) :
    ∃ after mounted, (chkMounted vol).Outcome machine .ok after ∧
      Allots vol volume size machine.build layout.fmt (layout.fmt = .fat32) mounted
        (machine.sectorBytes volume) after ⟨clusters, mounted.lastClust⟩ ∧
      mounted.Matches layout ∧ mounted.winsect = 0 ∧
      mounted.dirbase = (if layout.fmt = .fat32 then 2 else layout.bDir) ∧
      (layout.fmt = .fat32 → mounted.fsiSector = layout.bPart + 1) := by
  have sound := stocked.sound
  obtain ⟨volumeLabel, time, formatted⟩ := stocked.formatted
  obtain ⟨win, shows, mountIff⟩ :=
    mountVolume_formatted stocked.attends.toReads stocked.full sound formatted fs
  have shown : Shows ({ fs with fsType := none, drive := vol, win } : Fatfs).win
    (bootSector layout 0 volumeLabel time) := shows
  obtain ⟨fsiFlag, fsiSector, window, lastClust, freeClust, transfers, info, uncounted, informs⟩ :=
    readFsInfo_stocked stocked shown rfl
  have matched := initFatfs_formatted sound shown machine.build
  obtain ⟨twice, near⟩ := sound.bounds
  have positive := sound.nFat_pos
  have bPart := sound.bPart
  have bFat := sound.bFat
  have front : 0 < layout.bFat := by
    rw [Layout.bFat, bPart]
    omega
  have clustersPos := sound.nClst_pos
  have type : typeOfMaxClust (initFatfs machine.build layout.bPart
      { fs with fsType := none, drive := vol, win }).maxClust = layout.fmt := by
    rw [matched.maxClust]
    exact stocked.agrees
  obtain ⟨mounted, is⟩ : ∃ mounted : Fatfs, mounted =
      { initFatfs machine.build layout.bPart { fs with fsType := none, drive := vol, win } with
        fsType := some (typeOfMaxClust (initFatfs machine.build layout.bPart
          { fs with fsType := none, drive := vol, win }).maxClust)
        winsect := 0
        id := ((machine.called transfers).fsid + 1) % 2 ^ 16
        fsiFlag, fsiSector, win := window, lastClust, freeClust } := ⟨_, rfl⟩
  have fatbase : mounted.fatbase = layout.bFat := by rw [is]; exact matched.fatbase
  have sectsFat : mounted.sectsFat = layout.nFat := by rw [is]; exact matched.sectsFat
  have count : mounted.nFats = nFats := by rw [is]; exact matched.nFats
  have most : mounted.maxClust = layout.nClst + 2 := by rw [is]; exact matched.maxClust
  have csize : mounted.csize = layout.allocsize := by rw [is]; exact matched.csize
  have area : fatArea mounted = FatArea.mk layout.bFat layout.nFat nFats := by
    rw [fatArea, fatbase, sectsFat, count]
  have links : linksOf layout.fmt mounted (machine.sectorBytes volume) =
      fatLinks layout.fmt (layout.nClst + 2)
        (fatBytes (machine.sectorBytes volume) layout.bFat) := by
    rw [linksOf, most, fatbase]
  have fsType : mounted.fsType = some layout.fmt := by rw [is, ← type]
  have drive : mounted.drive = vol := by rw [is]; rfl
  have winsect : mounted.winsect = 0 := by rw [is]
  have wflag : mounted.wflag = false := by rw [is]; rfl
  have flag : mounted.fsiFlag = fsiFlag := by rw [is]
  have info' : mounted.fsiSector = fsiSector := by rw [is]
  have free : mounted.freeClust = freeClust := by rw [is]
  have last : mounted.lastClust = lastClust := by rw [is]
  refine ⟨Machine.register { machine.called transfers with
    fsid := ((machine.called transfers).fsid + 1) % 2 ^ 16 } vol (some mounted), mounted,
    (chkMounted_unmounted inside registered unmounted).mpr
      ⟨mounted, _, (mountIff _ _).mpr ⟨_, _, info, is, rfl⟩, rfl⟩, ⟨?_, ?_, ?_, rfl, ?_⟩,
    is ▸ { matched with }, winsect, ?_, fun fat32 => ?_⟩
  · have attends := stocked.attends
    have place : (cacheOf machine volume mounted).place = none := if_pos winsect
    refine ⟨⟨⟨attends.mapped, attends.near, attends.small, fun call later =>
      attends.steady call (Nat.le_of_add_right_le later)⟩, attends.enough, wflag ▸ attends.mode⟩,
      stocked.full, stocked.enough, rfl, most ▸ csize ▸ stocked.turns, Machine.fatFs_register _ _ _,
      drive, fatbase ▸ front, by rw [count]; decide, by rw [fatbase, count, sectsFat, nFats]; omega,
      ?_, fun sector worked => ?_, fun _ _ => rfl⟩
    · refine ⟨fun sector there => ?_, fun _ sector there => ?_, fun dirty => ?_,
        fun sector worked _ copy copied => ?_⟩
      · exact absurd (place.symm.trans there) (Option.some_ne_none _).symm
      · exact absurd (place.symm.trans there) (Option.some_ne_none _).symm
      · exact absurd (wflag.symm.trans dirty) Bool.false_ne_true
      · rw [area] at worked copied
        exact stocked.mirrored sector worked copy copied
    · exact if_neg fun there => absurd (place.symm.trans there) (Option.some_ne_none _).symm
  · have begun : 1 < mounted.maxClust := by
      rw [most]
      omega
    have width : mounted.maxClust < 2 ^ entryBits layout.fmt := by
      have kind := (typeOfMaxClust_iff layout.fmt (layout.nClst + 2)).mp stocked.agrees
      have few : layout.nClst ≤ layout.nPart := by
        rw [sound.nClst]
        exact (Nat.div_le_self _ _).trans (by omega)
      have bound := sound.nPart
      rw [most]
      cases fmt : layout.fmt with
      | fat12 =>
        rw [fmt] at kind
        exact Nat.lt_trans kind (by decide)
      | fat16 =>
        rw [fmt] at kind
        exact Nat.lt_trans kind.2 (by decide)
      | fat32 =>
        rw [entryBits]
        omega
    refine ⟨fsType, by rw [most]; exact stocked.agrees, width, begun, ?_, ?_, fun fat32 => ?_⟩
    · rw [most, sectsFat]
      exact sound.capacity
    · rw [fatbase, sectsFat]
      exact stocked.inside
    · rw [if_pos fat32] at bFat
      rw [fatbase, info', (informs fat32).2.1]
      omega
  · rw [links]
    exact stocked.allotted
  · refine ⟨fun fat32 => ?_, fun other => free.trans (uncounted other), fun fat32 _ => ?_,
      fun fat32 _ _ => ?_⟩
    · obtain ⟨freeClust', lastClust', stored, counted⟩ := stocked.informed fat32
      rw [links, most, free, ← (informs fat32).2.2.count, stored.count]
      exact counted
    · rw [last, ← (informs fat32).2.2.hint]
      exact Buffer.loadDword_lt _ _
    · rw [info', free, last, (informs fat32).2.1]
      exact (informs fat32).2.2
  · rw [is]
    exact initFatfs_dirbase sound shown machine.build stocked.agrees
  · rw [info', (informs fat32).2.1]

end Mount

/-! ### Sessions -/

/-- A drive is mounted, some owners make requests, and all is brought to the image. -/
def session {Owner : Type} [DecidableEq Owner] (vol : Nat) (requests : List (Request Owner))
    (clusters : Owner → List Nat) : Program Machine (Except FResult (Owner → List Nat)) := do
  let res ← chkMounted vol
  if res ≠ .ok then return .error res
  match ← serve vol requests clusters with
  | .error code => return .error code
  | .ok clusters =>
    let res ← sync vol
    if res ≠ .ok then return .error res
    return .ok clusters

section Session

variable {Owner : Type} [DecidableEq Owner] {vol : Nat} {volume : VolumeContainer} {size : Nat}
  {fs : Fatfs} {machine : Machine} {layout : Layout} {clusters : Owner → List Nat}

/-- A sector that shows some bytes holds them. -/
theorem holds_of_sectorBytes {sector : Nat} {bytes : Buffer}
    (inside : sector * sectorSize + volume.dataOffset + sectorSize ≤
      (machine.files.file volume.fd.node).size)
    (shows : machine.sectorBytes volume sector = cut bytes) :
    machine.Holds volume sector bytes := by
  refine ⟨inside, fun index before => ?_⟩
  have same := congrFun shows index
  rw [cut_inside before] at same
  exact (cut_inside before).symm.trans same

/-- What the owners have got in a session is in the image that it leaves. -/
theorem session_keeps (stocked : Stocked vol volume size layout machine clusters)
    (mode : volume.fd.writeable = true) (inside : vol < drives)
    (registered : machine.fatFs vol = some fs)
    (unmounted : fs.fsType = none) (requests : List (Request Owner)) :
    ∃ hint after, (session vol requests clusters).Outcome machine
        (.ok (requests.foldl (Request.apply (layout.nClst + 2)) ⟨clusters, hint⟩).clusters) after ∧
      ∀ next drive reopened, Rereads after next volume drive reopened →
        Attends next drive reopened false → Fuelled next.fuel (layout.nClst + 2) layout.allocsize →
        Stocked drive reopened size layout next
          (requests.foldl (Request.apply (layout.nClst + 2)) ⟨clusters, hint⟩).clusters := by
  obtain ⟨first, mounted, mount, allots, matched, _, _, info⟩ :=
    chkMounted_stocked stocked inside registered unmounted
  have fatbase := matched.fatbase
  have most := matched.maxClust
  obtain ⟨fs₁, disk, second, served, allotsSecond, reworked, outside⟩ :=
    serve_allocates requests allots mode
  obtain ⟨fs₂, third, brought, allotsThird, reworked', _, clean, settled⟩ :=
    sync_settles allotsSecond mode
  rw [most] at served allotsSecond allotsThird
  refine ⟨mounted.lastClust, third, ?_, fun next drive reopened same attends turns => ?_⟩
  · refine outcome_bind.mpr ⟨_, _, mount, ?_⟩
    rw [if_neg (not_not.mpr rfl)]
    refine outcome_bind.mpr ⟨_, _, served, outcome_bind.mpr ⟨_, _, brought, ?_⟩⟩
    rw [if_neg (not_not.mpr rfl)]
    exact outcome_pure.mpr ⟨rfl, rfl⟩
  · have sound := stocked.sound
    have bFat := sound.bFat
    have bPart := sound.bPart
    have whole := reworked.trans reworked'
    have area : fatArea fs₂ = FatArea.mk layout.bFat layout.nFat nFats := by
      rw [whole.area, fatArea, fatbase, matched.sectsFat, matched.nFats]
    have start : fs₂.fatbase = layout.bFat := congrArg FatArea.start area
    have length : fs₂.sectsFat = layout.nFat := congrArg FatArea.size area
    have clusters₂ : fs₂.maxClust = layout.nClst + 2 := whole.maxClust.trans most
    have sectors : next.sectorBytes reopened = third.sectorBytes volume := by
      funext sector
      rw [Machine.sectorBytes, Machine.sectorBytes, same.image, same.dataOffset]
    have enough : size ≤ (next.files.file reopened.fd.node).size := by
      rw [same.image]
      exact allotsThird.sees.enough
    -- the boot record is where it was
    have front {sector : Nat} (before : sector < layout.bFat)
        (other : layout.fmt = .fat32 → sector ≠ layout.bPart + 1) :
        next.sectorBytes reopened sector = machine.sectorBytes volume sector := by
      rw [sectors, allotsThird.sees.front sector (start ▸ before), synced_of_ne]
      · exact outside sector (.inl (fatbase ▸ before))
      · intro fat32
        rw [reworked.fsiSector, info fat32]
        exact other fat32
    -- the FAT is what was seen
    have fats : fatLinks layout.fmt (layout.nClst + 2)
        (fatBytes (next.sectorBytes reopened) layout.bFat) =
          linksOf layout.fmt fs₂ (synced layout.fmt fs₁ disk) := by
      rw [linksOf, start, clusters₂]
      refine fatLinks_congr (fun index within => ?_) sound.capacity
      have worked := allotsThird.tabled.worked allotsThird.sees (length ▸ within)
      rw [sectors, fatBytes, fatBytes, ← start, (settled _ worked).1]
    have room : (layout.bPart + 1) * sectorSize + sectorSize ≤
        (layout.bFat + layout.nFat) * sectorSize := by
      have positive := sound.nFat_pos
      rw [← Nat.succ_mul]
      refine Nat.mul_le_mul_right _ ?_
      split_ifs at bFat <;> omega
    refine ⟨attends, same.bytesPerSector.trans stocked.full, sound, stocked.power, ?_,
      stocked.agrees, enough, ?_, turns, ?_, ?_, fun fat32 => ?_⟩
    · obtain ⟨volumeLabel, time, formatted⟩ := stocked.formatted
      have before : layout.bPart < layout.bFat := by
        split_ifs at bFat <;> omega
      have there {sector : Nat} (le : sector ≤ layout.bPart + 1) :
          sector * sectorSize + reopened.dataOffset + sectorSize ≤
            (next.files.file reopened.fd.node).size := by
        have product := Nat.mul_le_mul_right sectorSize le
        have inside := stocked.inside
        rw [same.dataOffset]
        omega
      refine ⟨volumeLabel, time, holds_of_sectorBytes (there (Nat.zero_le _)) ?_,
        holds_of_sectorBytes (there (Nat.le_succ _)) ?_⟩
      · rw [front (by omega) (by omega)]
        exact formatted.mbr.sectorBytes
      · rw [front before (by omega)]
        exact formatted.boot.sectorBytes
    · rw [same.dataOffset]
      exact stocked.inside
    · rw [fats]
      exact allotsThird.allotted
    · intro sector worked copy copied
      rw [← area] at worked copied
      have within : sector * sectorSize + volume.dataOffset + sectorSize ≤ size := by
        rw [← same.dataOffset]
        exact worked.inside
      obtain ⟨here, copies⟩ := settled sector ⟨worked.first, worked.single, worked.near, within⟩
      rw [sectors, here, copies copy copied]
    · have place : fs₂.fsiSector = layout.bPart + 1 := whole.fsiSector.trans (info fat32)
      have before : layout.bPart + 1 < fs₂.fatbase := by
        rw [start]
        rw [if_pos fat32] at bFat
        omega
      have informs := allotsThird.accounted.informed fat32 fat32 (clean fat32)
      rw [place, ← allotsThird.sees.front _ before, ← sectors] at informs
      refine ⟨fs₂.freeClust, fs₂.lastClust, informs, ?_⟩
      rw [allotsThird.accounted.counted fat32, clusters₂, fats]

end Session

/-! ### The first session -/

/-- What a format has taken: the root directory of FAT32 has the first cluster. -/
def rootClusters {Owner : Type} [DecidableEq Owner] (root : Owner) (fmt : FatType) (owner : Owner) :
    List Nat :=
  if fmt = .fat32 ∧ owner = root then [2] else []

section Format

variable {Owner : Type} [DecidableEq Owner] {drive vol : Nat} {volume reopened : VolumeContainer}
  {start after next : Machine} {layout : Layout} {volumeLabel : Option (List UInt8)}

/-- The links of a fresh FAT. -/
theorem fatLinks_fresh (sound : layout.Sound) {fat : Buffer}
    (fresh : ∀ clst, 2 ≤ clst → clst < layout.nClst + 2 →
      fatEntry layout.fmt fat clst = emptyEntry layout.fmt clst) (clst : Nat) :
    fatLinks layout.fmt (layout.nClst + 2) fat clst =
      if layout.fmt = .fat32 ∧ clst = 2 then .last else .free := by
  have some := sound.nClst_pos
  unfold fatLinks
  by_cases inside : 2 ≤ clst ∧ clst < layout.nClst + 2
  · rw [if_pos inside, fresh clst inside.1 inside.2, emptyEntry]
    by_cases root : layout.fmt = .fat32 ∧ clst = 2
    · have few : layout.nClst ≤ 131071937 := sound.nClst_le.trans sound.nPart
      rw [if_pos root, if_pos root, linkOf, if_neg (by decide), if_neg (by omega)]
    · rw [if_neg root, if_neg root, linkOf, if_pos rfl]
  · rw [if_neg inside, if_neg]
    rintro ⟨_, rfl⟩
    omega

theorem unshared_rootClusters (root : Owner) (fmt : FatType) :
    Unshared (rootClusters root fmt) := by
  intro owner other clst member also
  unfold rootClusters at member also
  split_ifs at member also with own second
  · exact own.2.trans second.2.symm
  · exact absurd also List.not_mem_nil
  · exact absurd member List.not_mem_nil
  · exact absurd member List.not_mem_nil

/-- A fresh FAT belongs to the root directory. -/
theorem allotted_fresh (root : Owner) {links : Nat → Link Nat}
    (fresh : ∀ clst, links clst = if layout.fmt = .fat32 ∧ clst = 2 then .last else .free) :
    Allotted links (rootClusters root layout.fmt) where
  linked owner := by
    unfold rootClusters
    split_ifs with own
    · exact (fresh 2).trans (if_pos ⟨own.1, rfl⟩)
    · trivial
  apart := unshared_rootClusters root layout.fmt
  owned clst used := by
    rw [fresh] at used
    split_ifs at used with own
    · exact ⟨root, by rw [rootClusters, if_pos ⟨own.1, rfl⟩, own.2]; exact List.mem_cons_self⟩
    · exact absurd rfl used

/-- All clusters but the first are free on FAT32. -/
theorem freeCount_fresh {mcl : Nat} {links : Nat → Link Nat}
    (fresh : ∀ clst, links clst = if clst = 2 then .last else .free) :
    freeCount mcl links = mcl - 3 := by
  have rest : (Finset.Ico 2 mcl).filter (fun clst => links clst = .free) = Finset.Ico 3 mcl := by
    ext clst
    rw [Finset.mem_filter, Finset.mem_Ico, Finset.mem_Ico, fresh]
    split_ifs with first
    · simp [first]
    · simp only [and_true]
      omega
  rw [freeCount, rest, Nat.card_Ico]

/-- On a drive that serves, a format puts its content everywhere it plans to. -/
theorem mkfsWrite_holds {build : Build} (sound : layout.Sound) (serves : start.Serves drive volume)
    (full : volume.bytesPerSector = sectorSize)
    (run : (mkfsWrite build drive 0 layout volumeLabel).Outcome start .ok after) :
    ∃ time, ∀ sector, layout.Checked sector ∨ layout.Unchecked sector →
      after.Holds volume sector (layout.content build volumeLabel time sector) := by
  obtain ⟨time, log, wrote, formats⟩ :=
    mkfsWrite_wrote sound serves.mapped (Nat.le_of_eq full) run
  obtain ⟨_, again, served⟩ := @mkfsWrite_serves build drive volume layout volumeLabel start sound
    serves
  obtain ⟨_, rfl⟩ := run.unique again
  obtain ⟨recent, written, fine⟩ := served.written
  have same := List.append_cancel_right (written.symm.trans wrote.written)
  have failed (sector : Nat) : (sector, DResult.parErr) ∉ log := fun member => by
    have bad := fine ⟨drive, sector, 1, .parErr⟩ (same ▸ List.mem_map_of_mem member)
    exact DResult.noConfusion bad
  refine ⟨time, fun sector planned => wrote.stored full sector ?_ (failed sector)⟩
  rcases planned with checked | unchecked
  · exact formats.checked sector checked
  · obtain ⟨result, member⟩ := formats.unchecked sector unchecked
    cases result with
    | ok => exact member
    | parErr => exact absurd member (failed sector)

/-- An image that was formatted is stocked: nothing is taken but the root directory of FAT32. -/
theorem stocked_formatted {fmt : Option FatType} (root : Owner)
    (serves : (start.unmounted drive).Serves drive volume)
    (full : volume.bytesPerSector = sectorSize)
    (run : (fMkfs drive 0 0 volumeLabel fmt).Outcome start .ok after)
    (planned : mkfsLayout start.build 0 0 fmt volume.sectorCount = layout)
    (agrees : typeOfMaxClust (layout.nClst + 2) = layout.fmt)
    (same : Rereads after next volume vol reopened) (attends : Attends next vol reopened false)
    (turns : Fuelled next.fuel (layout.nClst + 2) layout.allocsize) :
    Stocked vol reopened (next.files.file reopened.fd.node).size layout next
      (rootClusters root layout.fmt) := by
  have mapped : start.volumeContainers drive = some volume := serves.mapped
  obtain ⟨sound, _, write⟩ := fMkfs_layout mapped run
  rw [planned] at sound write
  obtain ⟨time, holds⟩ := mkfsWrite_holds sound serves full write
  have bPart := sound.bPart
  have bFat := sound.bFat
  have positive := sound.nFat_pos
  obtain ⟨twice, near⟩ := sound.bounds
  have shown {sector : Nat} (known : layout.Checked sector ∨ layout.Unchecked sector) :
      next.sectorBytes reopened sector =
        cut (layout.content start.build volumeLabel time sector) :=
    (same.holds (holds sector known)).sectorBytes
  have inFat {sector : Nat} (lower : layout.bFat ≤ sector)
      (upper : sector < layout.bFat + layout.nFat + layout.nFat) :
      next.sectorBytes reopened sector =
        cut (layout.content start.build volumeLabel time sector) :=
    shown (.inl (.inr (.inr ⟨lower, by omega⟩)))
  have entries (clst : Nat) (lower : 2 ≤ clst) (upper : clst < layout.nClst + 2) :
      fatEntry layout.fmt (fatBytes (next.sectorBytes reopened) layout.bFat) clst =
        emptyEntry layout.fmt clst := by
    rw [← fatEntry_content sound start.build volumeLabel time lower upper]
    refine fatEntry_congr (fun index inside => ?_) sound.capacity upper
    have sector : index / sectorSize < layout.nFat :=
      (Nat.div_lt_iff_lt_mul (by decide)).mpr inside
    rw [fatBytes, fatBytes, inFat (Nat.le_add_right _ _) (by omega),
      cut_inside (Nat.mod_lt _ (by decide))]
  have links := fatLinks_fresh sound entries
  refine ⟨attends, same.bytesPerSector.trans full, sound, ?_, ⟨volumeLabel, time, ?_⟩, agrees,
    Nat.le_refl _, ?_, turns, allotted_fresh root links, fun sector worked copy copied => ?_,
    fun fat32 => ?_⟩
  · obtain ⟨_, _, enough, _⟩ := (fMkfs_ok_iff mapped).mp run
    rw [mkfsLayout_auto start.build fmt enough] at planned
    rw [← planned]
    exact clusterSectors_power _
  · constructor
    · rw [← Layout.content_mbr start.build volumeLabel time layout]
      exact same.holds (holds 0 (.inl (.inl rfl)))
    · rw [← sound.content_boot start.build volumeLabel time]
      exact same.holds (holds layout.bPart (.inl (.inr (.inl rfl))))
  · have last := (same.holds (holds (layout.bFat + layout.nFat - 1)
      (.inl (.inr (.inr ⟨by omega, by omega⟩))))).inside
    rw [← Nat.sub_add_cancel (show 1 ≤ layout.bFat + layout.nFat by omega), Nat.succ_mul]
    exact (Nat.le_of_eq (Nat.add_right_comm _ _ _)).trans last
  · obtain ⟨fat, number, first, few, rfl⟩ := FatArea.mem_copies copied
    have lower : layout.bFat ≤ sector := worked.first
    have upper : sector < layout.bFat + layout.nFat := fat
    obtain rfl : number = 1 := by
      change number < nFats at few
      rw [nFats] at few
      omega
    change next.sectorBytes reopened (sector + 1 * layout.nFat) = _
    rw [inFat (by omega) (by omega), inFat lower (by omega)]
    by_cases head : sector = layout.bFat
    · rw [head, Nat.one_mul, sound.content_head _ _ _ (.inl rfl),
        sound.content_head _ _ _ (.inr rfl)]
    · rw [sound.content_zero _ _ _ (by omega) (by omega),
        sound.content_zero _ _ _ (by omega) (by omega)]
  · have clusters := sound.nClst_pos
    have few := sound.nClst_le.trans sound.nPart
    have word := start.build.le_word
    obtain ⟨signature, lead, struc⟩ := fsInfoSector_signature layout start.build
    obtain ⟨count, hint⟩ := fsInfoSector_counts layout start.build
    rw [start.build.sub_of_le (by omega) clusters, Nat.mod_eq_of_lt (by omega)] at count
    have free := @freeCount_fresh (layout.nClst + 2) _ fun clst => (links clst).trans
      (if_congr (and_iff_right fat32) rfl rfl)
    refine ⟨layout.nClst - 1, 0xFFFFFFFF, ?_, ?_⟩
    · rw [shown (.inr ⟨fat32, .inl rfl⟩), Layout.content_fsInfo _ _ _ fat32 (.inl rfl)]
      exact ⟨(Buffer.loadWord_congr (cut_inside (by decide)) (cut_inside (by decide))).trans
        signature, (loadDword_cut (by decide)).trans lead, (loadDword_cut (by decide)).trans struc,
        (loadDword_cut (by decide)).trans count, (loadDword_cut (by decide)).trans hint⟩
    · rw [free]
      omega

end Format

end Ff

end Hdfmonkey
