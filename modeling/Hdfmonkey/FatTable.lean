/-
This file proves that `get_fat` and `put_fat` work on the FAT as on an array of entries.

An entry of FAT12 has a byte and a half and shares a byte with its neighbour; it may lie
in two sectors, and then the window moves in between. An entry that was put is got back
in the width of the sub-type, every other entry stays, and so does every sector outside
the FAT. What the window does is not seen.
-/

import Hdfmonkey.FatVolume
import Hdfmonkey.SectorWindow

namespace Hdfmonkey

/-! ### The FAT as an array -/

/-- The bits of an entry. -/
def entryBits : FatType → Nat
  | .fat12 => 12
  | .fat16 => 16
  | .fat32 => 28

/-- `put_fat` on the bytes of a FAT. -/
def storeEntry (fmt : FatType) (fat : Buffer) (clst val : Nat) : Buffer :=
  match fmt with
  | .fat12 =>
    let bc := clst + clst / 2
    let low := if clst % 2 = 1 then (fat bc &&& 0x0F) ||| UInt8.ofNat (val * 2 ^ 4)
      else UInt8.ofNat val
    let high := if clst % 2 = 1 then UInt8.ofNat (val / 2 ^ 4)
      else (fat (bc + 1) &&& 0xF0) ||| (UInt8.ofNat (val / 2 ^ 8) &&& 0x0F)
    (fat.store bc low).store (bc + 1) high
  | .fat16 => fat.storeWord (clst * 2) val
  | .fat32 => fat.storeDword (clst * 4) val

section Entries

variable {fmt : FatType} {fat : Buffer} {clst other val : Nat}

theorem fatEntry_lt : fatEntry fmt fat clst < 2 ^ entryBits fmt := by
  cases fmt with
  | fat12 =>
    have pair := fat.loadWord_lt (clst + clst / 2)
    dsimp only [fatEntry, entryBits]
    split_ifs
    · omega
    · omega
  | fat16 => exact fat.loadWord_lt _
  | fat32 => exact Nat.mod_lt _ (by decide)

/-- The low half of a byte beside a new high half. -/
theorem toNat_low_or (p : UInt8) (val : Nat) :
    ((p &&& 0x0F) ||| UInt8.ofNat (val * 2 ^ 4)).toNat = p.toNat % 16 + 16 * (val % 16) := by
  have low : p.toNat &&& 15 = p.toNat % 16 := Nat.and_two_pow_sub_one_eq_mod _ 4
  have high : val * 2 ^ 4 % 256 = 2 ^ 4 * (val % 16) := by omega
  have small : p.toNat % 16 < 2 ^ 4 := Nat.mod_lt _ (by decide)
  rw [UInt8.toNat_or, UInt8.toNat_and, UInt8.toNat_ofNat', high]
  change p.toNat &&& 15 ||| _ = _
  rw [low, Nat.or_comm, ← Nat.two_pow_add_eq_or_of_lt small, Nat.add_comm]

theorem toNat_and_high (p : UInt8) : (p &&& 0xF0).toNat = 2 ^ 4 * (p.toNat / 16) := by
  have all : ∀ byte : Fin 256, byte.val &&& 240 = 2 ^ 4 * (byte.val / 16) := by decide +kernel
  rw [UInt8.toNat_and]
  exact all ⟨p.toNat, p.toNat_lt⟩

/-- The high half of a byte beside a new low half. -/
theorem toNat_high_or (p : UInt8) (val : Nat) :
    ((p &&& 0xF0) ||| (UInt8.ofNat val &&& 0x0F)).toNat = 16 * (p.toNat / 16) + val % 16 := by
  have low : (UInt8.ofNat val &&& 0x0F).toNat = val % 16 := by
    rw [UInt8.toNat_and, UInt8.toNat_ofNat']
    change val % 256 &&& 15 = _
    rw [Nat.and_two_pow_sub_one_eq_mod _ 4]
    omega
  have small : val % 16 < 2 ^ 4 := Nat.mod_lt _ (by decide)
  rw [UInt8.toNat_or, toNat_and_high, low, ← Nat.two_pow_add_eq_or_of_lt small]

/-- An entry that was put is got back, in the bits it has. -/
theorem fatEntry_storeEntry_self :
    fatEntry fmt (storeEntry fmt fat clst val) clst = val % 2 ^ entryBits fmt := by
  cases fmt with
  | fat12 =>
    dsimp only [fatEntry, storeEntry, entryBits]
    rw [Buffer.loadWord, Buffer.store_self, Buffer.store_of_ne _ _ (by omega), Buffer.store_self]
    by_cases odd : clst % 2 = 1
    · rw [if_pos odd, if_pos odd, if_pos odd, toNat_low_or, UInt8.toNat_ofNat']
      omega
    · rw [if_neg odd, if_neg odd, if_neg odd, toNat_high_or, UInt8.toNat_ofNat']
      omega
  | fat16 => exact Buffer.loadWord_storeWord _ _ _
  | fat32 =>
    dsimp only [fatEntry, storeEntry, entryBits]
    rw [Buffer.loadDword_storeDword]
    omega

/-- Every other entry stays, also the one that shares a byte with it. -/
theorem fatEntry_storeEntry_of_ne (different : other ≠ clst) :
    fatEntry fmt (storeEntry fmt fat clst val) other = fatEntry fmt fat other := by
  cases fmt with
  | fat12 =>
    dsimp only [fatEntry, storeEntry]
    by_cases before : other + 1 = clst ∧ clst % 2 = 1
    · -- the entry in front shares the first byte
      obtain ⟨next, odd⟩ := before
      have place : clst + clst / 2 = other + other / 2 + 1 := by omega
      have even : ¬other % 2 = 1 := by omega
      rw [place, if_pos odd, if_neg even, if_neg even,
        Buffer.loadWord, Buffer.loadWord, Buffer.store_of_ne _ _ (by omega),
        Buffer.store_of_ne _ _ (by omega), Buffer.store_of_ne _ _ (by omega), Buffer.store_self,
        toNat_low_or]
      omega
    · by_cases behind : other = clst + 1 ∧ clst % 2 = 0
      · -- the entry behind shares the second byte
        obtain ⟨next, even⟩ := behind
        have place : other + other / 2 = clst + clst / 2 + 1 := by omega
        have odd : other % 2 = 1 := by omega
        have plain : ¬clst % 2 = 1 := by omega
        rw [place, if_pos odd, if_pos odd, if_neg plain, if_neg plain, Buffer.loadWord,
          Buffer.loadWord, Buffer.store_self, Buffer.store_of_ne _ _ (by omega),
          Buffer.store_of_ne _ _ (by omega), toNat_high_or]
        omega
      · rw [Buffer.loadWord_store_past _ _ (by omega), Buffer.loadWord_store_past _ _ (by omega)]
  | fat16 => exact Buffer.loadWord_storeWord_past _ (by omega)
  | fat32 => exact congrArg (· % 2 ^ 28) (Buffer.loadDword_storeDword_past _ (by omega))

/-- The entries depend on the bytes of the FAT that have room for them. -/
theorem fatEntry_congr {first second : Buffer} {clusters length : Nat}
    (same : ∀ index, index < length → first index = second index)
    (room : fatLength fmt clusters ≤ length) (upper : clst < clusters) :
    fatEntry fmt first clst = fatEntry fmt second clst := by
  cases fmt with
  | fat12 =>
    rw [fatLength] at room
    rw [fatEntry, fatEntry, Buffer.loadWord_congr (same _ (by omega)) (same _ (by omega))]
  | fat16 =>
    rw [fatLength] at room
    exact Buffer.loadWord_congr (same _ (by omega)) (same _ (by omega))
  | fat32 =>
    rw [fatLength] at room
    exact congrArg (· % 2 ^ 28) (Buffer.loadDword_congr fun _ _ _ => same _ (by omega))

end Entries

namespace Ff

open Program

/-! ### The FAT of a drive -/

/-- The first FAT has room for all entries and lies in the image, and an entry for all numbers of
clusters. -/
structure Tabled (volume : VolumeContainer) (size : Nat) (fmt : FatType) (fs : Fatfs) : Prop where
  type : fs.fsType = some fmt
  kind : typeOfMaxClust fs.maxClust = fmt
  width : fs.maxClust < 2 ^ entryBits fmt
  begun : 1 < fs.maxClust
  room : fatLength fmt fs.maxClust ≤ fs.sectsFat * sectorSize
  inside : (fs.fatbase + fs.sectsFat) * sectorSize + volume.dataOffset ≤ size
  info : fmt = .fat32 → fs.fsiSector < fs.fatbase

/-- The bytes of an entry lie in the FAT. -/
theorem Tabled.entry_room {volume : VolumeContainer} {size clst : Nat} {fmt : FatType} {fs : Fatfs}
    (tabled : Tabled volume size fmt fs) (upper : clst < fs.maxClust) :
    match fmt with
    | .fat12 => clst + clst / 2 + 1 < fs.sectsFat * sectorSize
    | .fat16 => clst * 2 + 1 < fs.sectsFat * sectorSize
    | .fat32 => clst * 4 + 3 < fs.sectsFat * sectorSize := by
  have room := tabled.room
  cases fmt with
  | fat12 =>
    rw [fatLength] at room
    dsimp only
    omega
  | fat16 =>
    rw [fatLength] at room
    dsimp only
    omega
  | fat32 =>
    rw [fatLength] at room
    dsimp only
    omega

section Entry

variable {vol : Nat} {volume : VolumeContainer} {size : Nat} {build : Build} {fs : Fatfs}
  {disk : Nat → Buffer} {machine : Machine} {fmt : FatType} {index clst : Nat}

theorem Tabled.worked (tabled : Tabled volume size fmt fs)
    (sees : Sees vol volume size build fs disk machine)
    (inside : index < fs.sectsFat * sectorSize) :
    (fatArea fs).Worked volume size (fs.fatbase + index / sectorSize) := by
  have fats := sees.fats
  have fewest : fs.sectsFat ≤ fs.nFats * fs.sectsFat := Nat.le_mul_of_pos_left _ sees.one
  have sector : index / sectorSize < fs.sectsFat :=
    (Nat.div_lt_iff_lt_mul (by decide)).mpr inside
  have image := tabled.inside
  have last : (fs.fatbase + index / sectorSize) * sectorSize + sectorSize ≤
      (fs.fatbase + fs.sectsFat) * sectorSize := by
    rw [← Nat.succ_mul]
    exact Nat.mul_le_mul_right _ (by omega)
  exact ⟨Nat.le_add_right _ _, .inl (Nat.add_lt_add_left sector _), by omega, by omega⟩

/-- The sectors in front of the FAT and behind it. -/
def OutsideFat (fs : Fatfs) (sector : Nat) : Prop :=
  sector < fs.fatbase ∨ fs.fatbase + fs.sectsFat ≤ sector

/-- The sector of a byte of the FAT. -/
theorem fat_sector {index : Nat} (inside : index < fs.sectsFat * sectorSize) :
    ¬OutsideFat fs (fs.fatbase + index / sectorSize) := by
  have bound : index / sectorSize < fs.sectsFat := (Nat.div_lt_iff_lt_mul (by decide)).mpr inside
  rintro (before | behind)
  · exact absurd before (Nat.not_lt.mpr (Nat.le_add_right _ _))
  · exact absurd bound (Nat.not_lt.mpr (Nat.le_of_add_le_add_left behind))

/-- Where the window may be after calls on the FAT: where it was, nowhere, or in the FAT. -/
def Strays (fs : Fatfs) (winsect : Nat) : Prop :=
  winsect = fs.winsect ∨ winsect = 0 ∨ ¬OutsideFat fs winsect

/-- The window is moved to a byte of the FAT. It shows the FAT there. -/
theorem moveWindow_fat (sees : Sees vol volume size build fs disk machine)
    (tabled : Tabled volume size fmt fs) (index : Nat)
    (inside : index < fs.sectsFat * sectorSize) :
    ∃ win wflag after,
      (moveWindow vol (build.add fs.fatbase (index / sectorSize))).Outcome machine .ok after ∧
      Sees vol volume size build
        { fs with win, winsect := fs.fatbase + index / sectorSize, wflag } disk after ∧
      ∀ other, other / sectorSize = index / sectorSize →
        win (other % sectorSize) = fatBytes disk fs.fatbase other := by
  have worked := tabled.worked sees inside
  have word := build.le_word
  have sum : build.add fs.fatbase (index / sectorSize) = fs.fatbase + index / sectorSize :=
    build.add_of_lt (by
      have near := worked.near
      rw [reach] at near
      omega)
  rw [sum]
  obtain ⟨win, wflag, after, run, seesAfter⟩ := moveWindow_sees sees worked
  refine ⟨win, wflag, after, run, seesAfter, fun other same => ?_⟩
  have there : fs.fatbase + index / sectorSize ≠ 0 :=
    Nat.ne_of_gt (Nat.add_pos_left sees.behind _)
  have shown := (seesAfter.window there).2
  rw [fatBytes, same, ← shown, cut_inside (Nat.mod_lt _ (by decide))]

/-- `get_fat` delivers the entry that is seen. -/
theorem getFat_sees (sees : Sees vol volume size build fs disk machine)
    (tabled : Tabled volume size fmt fs) (lower : 2 ≤ clst) (upper : clst < fs.maxClust) :
    ∃ win winsect wflag after,
      (getFat vol clst).Outcome machine (fatEntry fmt (fatBytes disk fs.fatbase) clst) after ∧
      ¬OutsideFat fs winsect ∧
      Sees vol volume size build { fs with win, winsect, wflag } disk after := by
  have room := tabled.entry_room upper
  have range : ¬(clst < 2 ∨ clst ≥ fs.maxClust) := by omega
  cases fmt with
  | fat12 =>
    obtain ⟨win, wflag, middle, first, seesFirst, low⟩ := moveWindow_fat sees tabled
      (clst + clst / 2) (by dsimp only at room; omega)
    obtain ⟨win', wflag', after, second, seesSecond, high⟩ := moveWindow_fat seesFirst
      { tabled with } (clst + clst / 2 + 1) room
    refine ⟨win', _, wflag', after, ?_, fat_sector room, seesSecond⟩
    rw [getFat, outcome_fatfs_bind sees.registered, if_neg range, tabled.type]
    refine outcome_bind.mpr ⟨_, _, outcome_get.mpr ⟨rfl, rfl⟩, ?_⟩
    rw [sees.word]
    refine outcome_bind.mpr ⟨.ok, _, first, ?_⟩
    rw [if_neg (not_not.mpr rfl), outcome_fatfs_bind seesFirst.registered]
    refine outcome_bind.mpr ⟨.ok, _, second, ?_⟩
    rw [if_neg (not_not.mpr rfl), outcome_fatfs_bind seesSecond.registered]
    refine outcome_pure.mpr ⟨?_, rfl⟩
    dsimp only
    rw [low _ rfl, high _ rfl]
    rfl
  | fat16 =>
    obtain ⟨win, wflag, after, move, seesAfter, shown⟩ := moveWindow_fat sees tabled
      (clst * 2) (by dsimp only at room; omega)
    have sector : clst * 2 / sectorSize = clst / (sectorSize / 2) := by
      rw [sectorSize]
      omega
    rw [sector] at move shown seesAfter
    refine ⟨win, _, wflag, after, ?_, ?_, seesAfter⟩
    case refine_2 =>
      rw [← sector]
      exact fat_sector (by dsimp only at room; omega)
    rw [getFat, outcome_fatfs_bind sees.registered, if_neg range, tabled.type]
    refine outcome_bind.mpr ⟨_, _, outcome_get.mpr ⟨rfl, rfl⟩, ?_⟩
    rw [sees.word]
    refine outcome_bind.mpr ⟨.ok, _, move, ?_⟩
    rw [if_neg (not_not.mpr rfl), outcome_fatfs_bind seesAfter.registered]
    refine outcome_pure.mpr ⟨?_, rfl⟩
    refine Buffer.loadWord_shift fun index inside => ?_
    rw [← shown _ (show (clst * 2 + index) / sectorSize = _ by rw [sectorSize]; omega)]
    refine congrArg win ?_
    rw [sectorSize]
    omega
  | fat32 =>
    obtain ⟨win, wflag, after, move, seesAfter, shown⟩ := moveWindow_fat sees tabled
      (clst * 4) (by dsimp only at room; omega)
    have sector : clst * 4 / sectorSize = clst / (sectorSize / 4) := by
      rw [sectorSize]
      omega
    rw [sector] at move shown seesAfter
    refine ⟨win, _, wflag, after, ?_, ?_, seesAfter⟩
    case refine_2 =>
      rw [← sector]
      exact fat_sector (by dsimp only at room; omega)
    rw [getFat, outcome_fatfs_bind sees.registered, if_neg range, tabled.type]
    refine outcome_bind.mpr ⟨_, _, outcome_get.mpr ⟨rfl, rfl⟩, ?_⟩
    rw [sees.word]
    refine outcome_bind.mpr ⟨.ok, _, move, ?_⟩
    rw [if_neg (not_not.mpr rfl), outcome_fatfs_bind seesAfter.registered]
    refine outcome_pure.mpr ⟨?_, rfl⟩
    refine congrArg (· % 2 ^ 28) (Buffer.loadDword_shift fun index inside => ?_)
    rw [← shown _ (show (clst * 4 + index) / sectorSize = _ by rw [sectorSize]; omega)]
    refine congrArg win ?_
    rw [sectorSize]
    omega

/-- The FAT after its sector in the window was changed. -/
theorem fatBytes_update {start : Nat} {win fat : Buffer}
    (changed : ∀ other, other / sectorSize = index / sectorSize →
      win (other % sectorSize) = fat other)
    (kept : ∀ other, other / sectorSize ≠ index / sectorSize →
    fat other = fatBytes disk start other) : fatBytes
      (Function.update disk (start + index / sectorSize) (cut win)) start = fat := by
  funext other
  rw [fatBytes]
  by_cases same : other / sectorSize = index / sectorSize
  · rw [same, Function.update_self, cut_inside (Nat.mod_lt _ (by decide)), changed other same]
  · rw [Function.update_of_ne (by omega), kept other same]
    rfl

/-- A byte is stored in the window as in the FAT. -/
theorem store_window {win fat : Buffer} {place : Nat} (byte : UInt8)
    (shown : ∀ other, other / sectorSize = place / sectorSize →
      win (other % sectorSize) = fat other) (other : Nat)
    (same : other / sectorSize = place / sectorSize) :
    win.store (place % sectorSize) byte (other % sectorSize) = fat.store place byte other := by
  by_cases here : other = place
  · rw [here, Buffer.store_self, Buffer.store_self]
  · rw [sectorSize] at same
    rw [Buffer.store_of_ne _ _ here, Buffer.store_of_ne _ _ (by rw [sectorSize]; omega),
      shown other same]

/-- So is a word that lies in one sector. -/
theorem storeWord_window {win fat : Buffer} {place val : Nat}
    (single : place % sectorSize + 1 < sectorSize)
    (shown : ∀ other, other / sectorSize = place / sectorSize →
      win (other % sectorSize) = fat other) (other : Nat)
    (same : other / sectorSize = place / sectorSize) :
    win.storeWord (place % sectorSize) val (other % sectorSize) =
      fat.storeWord place val other := by
  have next : (place + 1) % sectorSize = place % sectorSize + 1 ∧
      (place + 1) / sectorSize = place / sectorSize := by
    rw [sectorSize] at single ⊢
    omega
  rw [Buffer.storeWord, Buffer.storeWord, ← next.1]
  exact store_window _ (fun other same => store_window _ shown other (same.trans next.2)) other
    (same.trans next.2.symm)

theorem storeDword_window {win fat : Buffer} {place val : Nat}
    (single : place % sectorSize + 3 < sectorSize)
    (shown : ∀ other, other / sectorSize = place / sectorSize →
      win (other % sectorSize) = fat other) (other : Nat)
    (same : other / sectorSize = place / sectorSize) :
    win.storeDword (place % sectorSize) val (other % sectorSize) =
      fat.storeDword place val other := by
  have next : (place + 2) % sectorSize = place % sectorSize + 2 ∧
      (place + 2) / sectorSize = place / sectorSize := by
    rw [sectorSize] at single ⊢
    omega
  rw [Buffer.storeDword, Buffer.storeDword, ← next.1]
  exact storeWord_window (by omega)
    (fun other same => storeWord_window (by omega) shown other (same.trans next.2)) other
    (same.trans next.2.symm)

/-- `put_fat` changes the entry that is seen, and nothing else. -/
theorem putFat_sees (sees : Sees vol volume size build fs disk machine)
    (mode : volume.fd.writeable = true) (tabled : Tabled volume size fmt fs) (lower : 2 ≤ clst)
    (upper : clst < fs.maxClust) (val : Nat) :
    ∃ win winsect after disk', (putFat vol clst val).Outcome machine .ok after ∧
      ¬OutsideFat fs winsect ∧
      Sees vol volume size build { fs with win, winsect, wflag := true } disk' after ∧
      fatBytes disk' fs.fatbase = storeEntry fmt (fatBytes disk fs.fatbase) clst val ∧
      ∀ sector, OutsideFat fs sector → disk' sector = disk sector := by
  have room := tabled.entry_room upper
  have range : ¬(clst < 2 ∨ clst ≥ fs.maxClust) := by omega
  have fat {place : Nat} (inside : place < fs.sectsFat * sectorSize) (sector : Nat)
      (outside : OutsideFat fs sector) : sector ≠ fs.fatbase + place / sectorSize := fun same =>
    fat_sector inside (same ▸ outside)
  cases fmt with
  | fat12 =>
    dsimp only at room
    have start : clst + clst / 2 < fs.sectsFat * sectorSize := by omega
    have there (place : Nat) : fs.fatbase + place / sectorSize ≠ 0 :=
      Nat.ne_of_gt (Nat.add_pos_left sees.behind _)
    -- the first byte
    obtain ⟨win, wflag, middle, first, seesFirst, shown⟩ := moveWindow_fat sees tabled _ start
    obtain ⟨low, lowByte⟩ : ∃ low, low = if clst % 2 = 1 then
        (win ((clst + clst / 2) % sectorSize) &&& 0x0F) ||| UInt8.ofNat (val * 2 ^ 4)
        else UInt8.ofNat val := ⟨_, rfl⟩
    have lowered := edit_sees seesFirst mode (there _)
      (win.store ((clst + clst / 2) % sectorSize) low)
    have lowFat := fatBytes_update (store_window low shown) fun other away =>
      Buffer.store_of_ne _ _ fun here => away (congrArg (· / sectorSize) here)
    -- the second byte
    obtain ⟨win', wflag', after, second, seesSecond, shown'⟩ := moveWindow_fat lowered
      { tabled with } _ room
    dsimp only at shown'
    rw [lowFat] at shown'
    obtain ⟨high, highByte⟩ : ∃ high, high = if clst % 2 = 1 then UInt8.ofNat (val / 2 ^ 4)
        else (win' ((clst + clst / 2 + 1) % sectorSize) &&& 0xF0) |||
          (UInt8.ofNat (val / 2 ^ 8) &&& 0x0F) := ⟨_, rfl⟩
    have edited := edit_sees seesSecond mode (there _)
      (win'.store ((clst + clst / 2 + 1) % sectorSize) high)
    have highFat := fatBytes_update (store_window high shown') fun other away =>
      (Buffer.store_of_ne _ _ fun here => away (congrArg (· / sectorSize) here)).trans
        (congrFun lowFat other).symm
    refine ⟨_, _, _, _, ?_, fat_sector room, edited, ?_, fun sector outside => ?_⟩
    · rw [putFat, outcome_fatfs_bind sees.registered, if_neg range]
      refine outcome_bind.mpr ⟨.ok, after.register vol (some { fs with
        win := win'.store ((clst + clst / 2 + 1) % sectorSize) high
        winsect := fs.fatbase + (clst + clst / 2 + 1) / sectorSize
        wflag := wflag' }), ?_, ?_⟩
      · rw [putEntry, tabled.type]
        refine outcome_bind.mpr ⟨_, _, outcome_get.mpr ⟨rfl, rfl⟩, ?_⟩
        rw [sees.word]
        refine outcome_bind.mpr ⟨.ok, _, first, ?_⟩
        rw [if_neg (not_not.mpr rfl), outcome_modifyFatfs_bind, seesFirst.registered]
        refine outcome_bind.mpr ⟨.ok, after, ?_, ?_⟩
        · rw [lowByte] at second
          exact second
        · rw [if_neg (not_not.mpr rfl), outcome_modifyFatfs_bind, seesSecond.registered,
            ← tabled.type, highByte]
          exact outcome_pure.mpr ⟨rfl, rfl⟩
      · rw [outcome_modifyFatfs_bind, Machine.fatFs_register, Machine.register_register]
        exact outcome_pure.mpr ⟨rfl, rfl⟩
    · rw [highFat, storeEntry]
      have lowShown := shown _ rfl
      have highShown := shown' _ rfl
      rw [Buffer.store_of_ne _ _ (by omega)] at highShown
      rw [lowShown] at lowByte
      rw [highShown] at highByte
      rw [lowByte, highByte]
    · rw [Function.update_of_ne (fat room sector outside),
        Function.update_of_ne (fat start sector outside)]
  | fat16 =>
    dsimp only at room
    obtain ⟨win, wflag, after, move, seesAfter, shown⟩ := moveWindow_fat sees tabled
      (clst * 2) (by omega)
    have sector : clst * 2 / sectorSize = clst / (sectorSize / 2) := by
      rw [sectorSize]
      omega
    have there : fs.fatbase + clst * 2 / sectorSize ≠ 0 :=
      Nat.ne_of_gt (Nat.add_pos_left sees.behind _)
    have edited := edit_sees seesAfter mode there (win.storeWord (clst * 2 % sectorSize) val)
    refine ⟨_, _, _, _, ?_, fat_sector (by omega), edited, ?_, fun sector outside =>
      Function.update_of_ne (fat (by omega) sector outside) _ _⟩
    · rw [putFat, outcome_fatfs_bind sees.registered, if_neg range]
      refine outcome_bind.mpr ⟨.ok, after.register vol (some { fs with
        win := win.storeWord (clst * 2 % sectorSize) val
        winsect := fs.fatbase + clst * 2 / sectorSize
        wflag }), ?_, ?_⟩
      · rw [putEntry, tabled.type]
        refine outcome_bind.mpr ⟨_, _, outcome_get.mpr ⟨rfl, rfl⟩, ?_⟩
        rw [sees.word]
        rw [sector] at move
        refine outcome_bind.mpr ⟨.ok, _, move, ?_⟩
        rw [if_neg (not_not.mpr rfl), outcome_modifyFatfs_bind, seesAfter.registered, ← tabled.type]
        exact outcome_pure.mpr ⟨rfl, rfl⟩
      · rw [outcome_modifyFatfs_bind, Machine.fatFs_register, Machine.register_register]
        exact outcome_pure.mpr ⟨rfl, rfl⟩
    · exact fatBytes_update (storeWord_window (by rw [sectorSize]; omega) shown) fun other away =>
        Buffer.storeWord_of_outside _ (by rw [sectorSize] at away; omega)
  | fat32 =>
    dsimp only at room
    obtain ⟨win, wflag, after, move, seesAfter, shown⟩ := moveWindow_fat sees tabled
      (clst * 4) (by omega)
    have sector : clst * 4 / sectorSize = clst / (sectorSize / 4) := by
      rw [sectorSize]
      omega
    have there : fs.fatbase + clst * 4 / sectorSize ≠ 0 :=
      Nat.ne_of_gt (Nat.add_pos_left sees.behind _)
    have edited := edit_sees seesAfter mode there (win.storeDword (clst * 4 % sectorSize) val)
    refine ⟨_, _, _, _, ?_, fat_sector (by omega), edited, ?_, fun sector outside =>
      Function.update_of_ne (fat (by omega) sector outside) _ _⟩
    · rw [putFat, outcome_fatfs_bind sees.registered, if_neg range]
      refine outcome_bind.mpr ⟨.ok, after.register vol (some { fs with
        win := win.storeDword (clst * 4 % sectorSize) val
        winsect := fs.fatbase + clst * 4 / sectorSize
        wflag }), ?_, ?_⟩
      · rw [putEntry, tabled.type]
        refine outcome_bind.mpr ⟨_, _, outcome_get.mpr ⟨rfl, rfl⟩, ?_⟩
        rw [sees.word]
        rw [sector] at move
        refine outcome_bind.mpr ⟨.ok, _, move, ?_⟩
        rw [if_neg (not_not.mpr rfl), outcome_modifyFatfs_bind, seesAfter.registered, ← tabled.type]
        exact outcome_pure.mpr ⟨rfl, rfl⟩
      · rw [outcome_modifyFatfs_bind, Machine.fatFs_register, Machine.register_register]
        exact outcome_pure.mpr ⟨rfl, rfl⟩
    · exact fatBytes_update (storeDword_window (by rw [sectorSize]; omega) shown) fun other away =>
        Buffer.storeDword_of_outside _ (by rw [sectorSize] at away; omega)

end Entry

end Ff

end Hdfmonkey
