/-
This file models the sectors `f_mkfs` builds in its window and `chk_mounted` reads
back: the master boot record with one partition, the boot record of each FAT
sub-type, the first sector of a FAT, and the FSInfo sector of FAT32.

Every sector starts as 512 zero bytes and is filled by storing fields. The lemmas
say what is loaded from each field that a mount looks at, whatever the volume
label and the serial number are.
-/

import Hdfmonkey.MkfsLayout

namespace Hdfmonkey

/-! ### Field offsets -/

/-- Offsets in the boot record that all sub-types share. -/
def bsJmpBoot : Nat := 0
def bpbBytsPerSec : Nat := 11
def bpbSecPerClus : Nat := 13
def bpbRsvdSecCnt : Nat := 14
def bpbNumFats : Nat := 16
def bpbRootEntCnt : Nat := 17
def bpbTotSec16 : Nat := 19
def bpbMedia : Nat := 21
def bpbFatSz16 : Nat := 22
def bpbSecPerTrk : Nat := 24
def bpbNumHeads : Nat := 26
def bpbHiddSec : Nat := 28
def bpbTotSec32 : Nat := 32
def bs55AA : Nat := 510

/-- Offsets in the boot record of FAT12 and FAT16. -/
def bsDrvNum : Nat := 36
def bsBootSig : Nat := 38
def bsVolId : Nat := 39
def bsVolLab : Nat := 43
def bsFilSysType : Nat := 54

/-- Offsets in the boot record of FAT32. -/
def bpbFatSz32 : Nat := 36
def bpbRootClus : Nat := 44
def bpbFsInfo : Nat := 48
def bpbBkBootSec : Nat := 50
def bsDrvNum32 : Nat := 64
def bsBootSig32 : Nat := 66
def bsVolId32 : Nat := 67
def bsVolLab32 : Nat := 71
def bsFilSysType32 : Nat := 82

/-- Offsets in the FSInfo sector. -/
def fsiLeadSig : Nat := 0
def fsiStrucSig : Nat := 484
def fsiFreeCount : Nat := 488
def fsiNxtFree : Nat := 492

/-- The partition table of the master boot record. -/
def mbrTable : Nat := 446

/-! ### The volume label -/

/-- `toupper` in the C locale. -/
def toUpper (char : UInt8) : UInt8 :=
  if 0x61 ≤ char ∧ char ≤ 0x7a then char - 0x20 else char

/-- `str_ncpy`: copy up to `cnt` characters of a string, in upper case, without its terminator. -/
def strNcpy (dst : Buffer) : (place cnt : Nat) → (src : List UInt8) → Buffer
  | place, cnt + 1, char :: rest =>
    if char = 0 then dst else strNcpy (dst.store place (toUpper char)) (place + 1) cnt rest
  | _, _, _ => dst

theorem strNcpy_outside (dst : Buffer) (src : List UInt8) {place cnt index : Nat}
    (outside : index < place ∨ place + cnt ≤ index) :
    strNcpy dst place cnt src index = dst index := by
  induction src generalizing dst place cnt with
  | nil => cases cnt <;> rfl
  | cons char rest inductionHypothesis =>
    cases cnt with
    | zero => rfl
    | succ cnt =>
      rw [strNcpy]
      split_ifs
      · rfl
      · rw [inductionHypothesis _ (by omega), Buffer.store_of_ne _ _ (by omega)]

theorem loadWord_strNcpy_past (dst : Buffer) (src : List UInt8) {place cnt other : Nat}
    (apart : place + cnt ≤ other ∨ other + 2 ≤ place) :
    (strNcpy dst place cnt src).loadWord other = dst.loadWord other :=
  Buffer.loadWord_congr (strNcpy_outside _ _ (by omega)) (strNcpy_outside _ _ (by omega))

theorem loadDword_strNcpy_past (dst : Buffer) (src : List UInt8) {place cnt other : Nat}
    (apart : place + cnt ≤ other ∨ other + 4 ≤ place) :
    (strNcpy dst place cnt src).loadDword other = dst.loadDword other :=
  Buffer.loadDword_congr fun _ _ _ => strNcpy_outside _ _ (by omega)

/-! ### The sectors -/

/-- The partition table: one partition from sector 63 to the end. -/
def mbrSector (layout : Layout) : Buffer :=
  let nDisk := layout.bPart + layout.nPart
  let table := Buffer.zero.storeDword mbrTable 0x00010180
  let table :=
    if nDisk < 63 * 255 * 1024 then
      let nDisk := nDisk / 63 / 255
      (table.store (mbrTable + 7) (UInt8.ofNat nDisk)).store (mbrTable + 6)
        (UInt8.ofNat (nDisk / 2 ^ 2 ||| 63))
    else table.storeWord (mbrTable + 6) 0xFFFF
  table
    |>.store (mbrTable + 5) 254
    |>.store (mbrTable + 4)
      (if layout.fmt ≠ .fat32 then if layout.nPart < 0x10000 then 0x04 else 0x06 else 0x0c)
    |>.storeDword (mbrTable + 8) 63
    |>.storeDword (mbrTable + 12) layout.nPart
    |>.storeWord (mbrTable + 64) 0xAA55

/-- The media descriptor, for a disk with or without a partition table. -/
def mediaByte (partition : Nat) : Nat := if partition = 0 then 0xF8 else 0xF0

/-- The fields of the boot record that all sub-types share. -/
def bootCommon (layout : Layout) (partition : Nat) : Buffer :=
  let boot := Buffer.zero
    |>.storeDword bsJmpBoot 0x90FEEB
    |>.storeWord bpbBytsPerSec sectorSize
    |>.store bpbSecPerClus (UInt8.ofNat layout.allocsize)
    |>.storeWord bpbRsvdSecCnt layout.nRsv
    |>.store bpbNumFats (UInt8.ofNat nFats)
    |>.storeWord bpbRootEntCnt (sectorSize / 32 * layout.nDir)
  let boot :=
    if layout.nPart < 0x10000 then boot.storeWord bpbTotSec16 layout.nPart
    else boot.storeDword bpbTotSec32 layout.nPart
  boot
    |>.store bpbMedia (UInt8.ofNat (mediaByte partition))
    |>.storeWord bpbSecPerTrk 63
    |>.storeWord bpbNumHeads 255
    |>.storeDword bpbHiddSec layout.bPart

/-- Eleven blanks and the name of a sub-type padded to eight characters. -/
def volLabAndType (fmt : FatType) : List UInt8 :=
  let digits : List UInt8 := match fmt with
    | .fat12 => [0x31, 0x32]
    | .fat16 => [0x31, 0x36]
    | .fat32 => [0x33, 0x32]
  List.replicate 11 0x20 ++ [0x46, 0x41, 0x54] ++ digits ++ [0x20, 0x20, 0x20]

/-- The label when none is given, "NO NAME". -/
def noName : List UInt8 := [0x4e, 0x4f, 0x20, 0x4e, 0x41, 0x4d, 0x45]

/-- The boot record. -/
def bootSector (layout : Layout) (partition : Nat) (volumeLabel : Option (List UInt8))
    (time : Nat) : Buffer :=
  let boot := bootCommon layout partition
  let boot := match layout.fmt with
    | .fat12 | .fat16 =>
      let boot := boot
        |>.storeDword bsVolId time
        |>.storeWord bpbFatSz16 layout.nFat
        |>.store bsDrvNum 0x80
        |>.store bsBootSig 0x29
        |>.storeList bsVolLab (volLabAndType layout.fmt)
      strNcpy boot bsVolLab 11 (volumeLabel.getD noName)
    | .fat32 =>
      let boot := boot
        |>.storeDword bsVolId32 time
        |>.storeDword bpbFatSz32 layout.nFat
        |>.storeDword bpbRootClus 2
        |>.storeWord bpbFsInfo 1
        |>.storeWord bpbBkBootSec 6
        |>.store bsDrvNum32 0x80
        |>.store bsBootSig32 0x29
        |>.storeList bsVolLab32 (volLabAndType layout.fmt)
      strNcpy boot bsVolLab32 11 (volumeLabel.getD noName)
  boot.storeWord bs55AA 0xAA55

/-- The first sector of a FAT: the entries of clusters 0 and 1 and, on FAT32, of the root
directory in cluster 2. -/
def fatHead (fmt : FatType) (partition : Nat) : Buffer :=
  match fmt with
  | .fat12 => Buffer.zero.storeDword 0 (0x00FFFF00 ||| mediaByte partition)
  | .fat16 => Buffer.zero.storeDword 0 (0xFFFFFF00 ||| mediaByte partition)
  | .fat32 => Buffer.zero
    |>.storeDword 0 0xFFFFFFF8
    |>.storeDword 4 0xFFFFFFFF
    |>.storeDword 8 0x0FFFFFFF

/-- The FSInfo sector. -/
def fsInfoSector (build : Build) (layout : Layout) : Buffer :=
  Buffer.zero
    |>.storeWord bs55AA 0xAA55
    |>.storeDword fsiLeadSig 0x41615252
    |>.storeDword fsiStrucSig 0x61417272
    |>.storeDword fsiFreeCount (build.sub layout.nClst 1)
    |>.storeDword fsiNxtFree 0xFFFFFFFF

/-! ### What is loaded back -/

theorem loadWord_zero (place : Nat) : Buffer.zero.loadWord place = 0 := rfl

theorem loadDword_zero (place : Nat) : Buffer.zero.loadDword place = 0 := rfl

section Mbr

variable (layout : Layout)

theorem mbrSector_signature : (mbrSector layout).loadWord bs55AA = 0xAA55 := by
  rw [mbrSector]
  exact Buffer.loadWord_storeWord _ _ _

theorem mbrSector_start : (mbrSector layout).loadDword (mbrTable + 8) = 63 := by
  simp (disch := decide) only [mbrSector, Buffer.loadDword_storeWord_past,
    Buffer.loadDword_storeDword_past, Buffer.loadDword_storeDword]
  rfl

theorem mbrSector_size (small : layout.nPart < 2 ^ 32) :
    (mbrSector layout).loadDword (mbrTable + 12) = layout.nPart := by
  simp (disch := decide) only [mbrSector, Buffer.loadDword_storeWord_past,
    Buffer.loadDword_storeDword]
  exact Nat.mod_eq_of_lt small

/-- The system identifier of the partition is not zero. -/
theorem mbrSector_type : mbrSector layout (mbrTable + 4) ≠ 0 := by
  simp (disch := decide) only [mbrSector, Buffer.storeWord_of_outside,
    Buffer.storeDword_of_outside, Buffer.store_self]
  split_ifs <;> decide

/-- The master boot record is not taken for a boot record of FAT. -/
theorem mbrSector_plain {place : Nat} (before : place + 4 ≤ mbrTable) :
    (mbrSector layout).loadDword place = 0 := by
  rw [mbrTable] at before
  have zero (index : Nat) (below : index < 446) : mbrSector layout index = 0 := by
    simp only [mbrSector, mbrTable]
    split_ifs <;> simp (disch := omega) only [Buffer.storeWord_of_outside,
      Buffer.storeDword_of_outside, Buffer.store_of_ne] <;> rfl
  rw [Buffer.loadDword_congr fun index _ _ => zero index (by omega)]
  exact loadDword_zero place

end Mbr

section Boot

variable (layout : Layout) (partition : Nat) (volumeLabel : Option (List UInt8)) (time : Nat)

theorem bootSector_signature :
    (bootSector layout partition volumeLabel time).loadWord bs55AA = 0xAA55 := by
  rw [bootSector]
  exact Buffer.loadWord_storeWord _ _ _

/-- In front of the fields of the sub-types the boot record is the common one. -/
theorem bootSector_common {index : Nat}
    (common : index < bpbFatSz16 ∨ bpbHiddSec ≤ index ∧ index < bsDrvNum) :
    bootSector layout partition volumeLabel time index = bootCommon layout partition index := by
  rw [bpbFatSz16, bpbHiddSec, bsDrvNum] at common
  obtain ⟨fmt, allocsize, bPart, nPart, nRsv, nFat, nDir, nClst⟩ := layout
  cases fmt <;>
    simp (disch := (simp only [bs55AA, bsVolLab, bsVolLab32, bsBootSig, bsBootSig32, bsDrvNum,
      bsDrvNum32, bpbFatSz16, bpbFatSz32, bsVolId, bsVolId32, bpbRootClus, bpbFsInfo,
      bpbBkBootSec]; omega)) only [bootSector, Buffer.storeWord_of_outside,
      Buffer.storeDword_of_outside, Buffer.store_of_ne, Buffer.storeList, strNcpy_outside,
      Buffer.blit_outside]

theorem bootSector_word {place : Nat} (common : place + 2 ≤ bpbFatSz16) :
    (bootSector layout partition volumeLabel time).loadWord place =
      (bootCommon layout partition).loadWord place :=
  Buffer.loadWord_congr (bootSector_common _ _ _ _ (Or.inl (by omega)))
    (bootSector_common _ _ _ _ (Or.inl (by omega)))

theorem bootSector_bytsPerSec :
    (bootSector layout partition volumeLabel time).loadWord bpbBytsPerSec = sectorSize := by
  rw [bootSector_word _ _ _ _ (by decide), bootCommon]
  split_ifs <;>
    simp (disch := decide) only [Buffer.loadWord_storeWord_past, Buffer.loadWord_storeDword_past,
      Buffer.loadWord_store_past, Buffer.loadWord_storeWord] <;> rfl

theorem bootSector_rsvdSecCnt (small : layout.nRsv < 2 ^ 16) :
    (bootSector layout partition volumeLabel time).loadWord bpbRsvdSecCnt = layout.nRsv := by
  rw [bootSector_word _ _ _ _ (by decide), bootCommon]
  split_ifs <;>
    simp (disch := decide) only [Buffer.loadWord_storeWord_past, Buffer.loadWord_storeDword_past,
      Buffer.loadWord_store_past, Buffer.loadWord_storeWord] <;>
    exact Nat.mod_eq_of_lt small

theorem bootSector_rootEntCnt (small : layout.nDir ≤ 32) :
    (bootSector layout partition volumeLabel time).loadWord bpbRootEntCnt = 16 * layout.nDir := by
  have width : sectorSize / 32 * layout.nDir % 2 ^ 16 = 16 * layout.nDir := by
    rw [sectorSize]
    omega
  rw [bootSector_word _ _ _ _ (by decide), bootCommon]
  split_ifs <;>
    simp (disch := decide) only [Buffer.loadWord_storeWord_past, Buffer.loadWord_storeDword_past,
      Buffer.loadWord_store_past, Buffer.loadWord_storeWord] <;>
    exact width

theorem bootSector_secPerClus (small : layout.allocsize < 2 ^ 8) :
    (bootSector layout partition volumeLabel time bpbSecPerClus).toNat = layout.allocsize := by
  rw [bootSector_common _ _ _ _ (by decide), bootCommon]
  split_ifs <;>
    simp (disch := decide) only [Buffer.storeWord_of_outside, Buffer.storeDword_of_outside,
      Buffer.store_of_ne, Buffer.store_self, UInt8.toNat_ofNat'] <;>
    exact Nat.mod_eq_of_lt small

theorem bootSector_numFats :
    (bootSector layout partition volumeLabel time bpbNumFats).toNat = nFats := by
  rw [bootSector_common _ _ _ _ (by decide), bootCommon]
  split_ifs <;>
    simp (disch := decide) only [Buffer.storeWord_of_outside, Buffer.storeDword_of_outside,
      Buffer.store_of_ne, Buffer.store_self] <;> rfl

/-- The total number of sectors is in the 16-bit field, or that is zero and it is in the 32-bit
field. -/
theorem bootSector_totSec (positive : 0 < layout.nPart) (small : layout.nPart < 2 ^ 32) :
    (if (bootSector layout partition volumeLabel time).loadWord bpbTotSec16 = 0 then
      (bootSector layout partition volumeLabel time).loadDword bpbTotSec32
    else (bootSector layout partition volumeLabel time).loadWord bpbTotSec16) = layout.nPart := by
  have long : (bootSector layout partition volumeLabel time).loadDword bpbTotSec32 =
      (bootCommon layout partition).loadDword bpbTotSec32 :=
    Buffer.loadDword_congr fun index lower upper =>
      bootSector_common _ _ _ _ (Or.inr ⟨Nat.le_trans (by decide) lower, upper⟩)
  rw [long, bootSector_word _ _ _ _ (by decide), bootCommon]
  by_cases short : layout.nPart < 0x10000
  · simp (disch := decide) only [if_pos short, Buffer.loadWord_storeWord_past,
      Buffer.loadWord_storeDword_past, Buffer.loadWord_store_past, Buffer.loadWord_storeWord]
    rw [if_neg (by omega)]
    exact Nat.mod_eq_of_lt short
  · simp (disch := decide) only [if_neg short, Buffer.loadWord_storeWord_past,
      Buffer.loadWord_storeDword_past, Buffer.loadWord_store_past, loadWord_zero,
      Buffer.loadDword_storeWord_past, Buffer.loadDword_storeDword_past,
      Buffer.loadDword_store_past, Buffer.loadDword_storeDword, if_true]
    exact Nat.mod_eq_of_lt small

/-- The number of sectors per FAT is in the 16-bit field, or that is zero and it is in the field
of FAT32. -/
theorem bootSector_fatSz (positive : 0 < layout.nFat) (small : layout.nFat < 2 ^ 16) :
    (if (bootSector layout partition volumeLabel time).loadWord bpbFatSz16 = 0 then
      (bootSector layout partition volumeLabel time).loadDword bpbFatSz32
    else (bootSector layout partition volumeLabel time).loadWord bpbFatSz16) = layout.nFat := by
  have word : layout.nFat % 2 ^ 16 = layout.nFat := Nat.mod_eq_of_lt small
  have dword : layout.nFat % 2 ^ 32 = layout.nFat := Nat.mod_eq_of_lt (by omega)
  obtain ⟨fmt, allocsize, bPart, nPart, nRsv, nFat, nDir, nClst⟩ := layout
  cases fmt with
  | fat32 =>
    have none : (bootCommon ⟨.fat32, allocsize, bPart, nPart, nRsv, nFat, nDir, nClst⟩
        partition).loadWord bpbFatSz16 = 0 := by
      rw [bootCommon]
      split_ifs <;>
        simp (disch := decide) only [Buffer.loadWord_storeWord_past,
          Buffer.loadWord_storeDword_past, Buffer.loadWord_store_past, loadWord_zero]
    simp (disch := decide) only [bootSector, Buffer.loadWord_storeWord_past, Buffer.storeList,
      Buffer.loadWord_storeDword_past, Buffer.loadWord_store_past, loadWord_strNcpy_past,
      Buffer.loadWord_blit_past, none, if_true, Buffer.loadDword_storeWord_past,
      Buffer.loadDword_storeDword_past, Buffer.loadDword_store_past, loadDword_strNcpy_past,
      Buffer.loadDword_blit_past, Buffer.loadDword_storeDword, dword]
  | fat12 =>
    simp (disch := decide) only [bootSector, Buffer.loadWord_storeWord_past, Buffer.storeList,
      Buffer.loadWord_store_past, loadWord_strNcpy_past, Buffer.loadWord_blit_past,
      Buffer.loadWord_storeWord, word]
    rw [if_neg (Nat.pos_iff_ne_zero.mp positive)]
  | fat16 =>
    simp (disch := decide) only [bootSector, Buffer.loadWord_storeWord_past, Buffer.storeList,
      Buffer.loadWord_store_past, loadWord_strNcpy_past, Buffer.loadWord_blit_past,
      Buffer.loadWord_storeWord, word]
    rw [if_neg (Nat.pos_iff_ne_zero.mp positive)]

/-- A sector says "FAT" at one of the places where a boot record names its sub-type. -/
def SaysFat (sector : Buffer) (place : Nat) : Prop :=
  sector.loadDword place % 2 ^ 24 = 0x544146

instance (sector : Buffer) (place : Nat) : Decidable (SaysFat sector place) :=
  inferInstanceAs (Decidable (_ = _))

theorem saysFat_of_bytes {sector : Buffer} {place : Nat} (first : sector place = 0x46)
    (second : sector (place + 1) = 0x41) (third : sector (place + 2) = 0x54) :
    SaysFat sector place := by
  rw [SaysFat, Buffer.loadDword, Buffer.loadWord, Buffer.loadWord, first, second, third]
  simp only [UInt8.reduceToNat]
  omega

theorem bootSector_saysFat :
    SaysFat (bootSector layout partition volumeLabel time)
      (match layout.fmt with
        | .fat12 | .fat16 => bsFilSysType
        | .fat32 => bsFilSysType32) := by
  obtain ⟨fmt, allocsize, bPart, nPart, nRsv, nFat, nDir, nClst⟩ := layout
  cases fmt <;> refine saysFat_of_bytes ?_ ?_ ?_ <;>
    simp (disch := decide) only [bootSector, Buffer.storeWord_of_outside, strNcpy_outside,
      Buffer.storeList, Buffer.blit_inside] <;> rfl

end Boot

section Fat32

variable (layout : Layout) (partition : Nat) (volumeLabel : Option (List UInt8)) (time : Nat)
  (build : Build)

theorem bootSector_rootClus (fat32 : layout.fmt = .fat32) :
    (bootSector layout partition volumeLabel time).loadDword bpbRootClus = 2 := by
  simp (disch := decide) only [bootSector, fat32, Buffer.storeList,
    Buffer.loadDword_storeWord_past, Buffer.loadDword_store_past, loadDword_strNcpy_past,
    Buffer.loadDword_blit_past, Buffer.loadDword_storeDword]
  rfl

theorem bootSector_fsInfo (fat32 : layout.fmt = .fat32) :
    (bootSector layout partition volumeLabel time).loadWord bpbFsInfo = 1 := by
  simp (disch := decide) only [bootSector, fat32, Buffer.storeList,
    Buffer.loadWord_storeWord_past, Buffer.loadWord_store_past, loadWord_strNcpy_past,
    Buffer.loadWord_blit_past, Buffer.loadWord_storeWord]
  rfl

theorem fsInfoSector_signature :
    (fsInfoSector build layout).loadWord bs55AA = 0xAA55 ∧
      (fsInfoSector build layout).loadDword fsiLeadSig = 0x41615252 ∧
      (fsInfoSector build layout).loadDword fsiStrucSig = 0x61417272 := by
  simp (disch := decide) only [fsInfoSector, Buffer.loadWord_storeDword_past,
    Buffer.loadWord_storeWord, Buffer.loadDword_storeDword_past, Buffer.loadDword_storeDword]
  decide

theorem fsInfoSector_counts :
    (fsInfoSector build layout).loadDword fsiFreeCount = build.sub layout.nClst 1 % 2 ^ 32 ∧
      (fsInfoSector build layout).loadDword fsiNxtFree = 0xFFFFFFFF := by
  simp (disch := decide) only [fsInfoSector, Buffer.loadDword_storeDword_past,
    Buffer.loadDword_storeDword]
  exact ⟨trivial, by decide⟩

end Fat32

end Hdfmonkey
