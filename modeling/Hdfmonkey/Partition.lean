/-
This file models `mbr.c`: the second decoder of partition tables the source has,
beside the one in `chk_mounted`, and the volume container it opens over a
partition of another container.

A container is an image file or a partition of a container, so an access goes
through as many offset additions as there are containers above the file. The
bytes of a partition record are put together in `int` arithmetic and then stored
in an `unsigned long`, so a number with its top bit set is extended by ones where
`unsigned long` is the wider type. `partition_open` fills some fields of the
container; the others keep what the memory held before.
-/

import Hdfmonkey.BootRecord
import Hdfmonkey.Transfer

namespace Hdfmonkey

/-- What the `close` field of a container points at. -/
inductive CloseFunction where
  | imageFileClose
  | partitionClose
  | unset (address : Nat)
  deriving DecidableEq, Repr

/-- A `volume_container`: over an image file, or over a partition of another container. -/
inductive Container where
  | file (volume : VolumeContainer)
  | partition (bytesPerSector sectorCount : Nat) (close : CloseFunction) (parent : Container)
    (dataOffset : Int)
  deriving Repr

namespace Container

def bytesPerSector : Container → Nat
  | .file volume => volume.bytesPerSector
  | .partition bytesPerSector _ _ _ _ => bytesPerSector

def sectorCount : Container → Nat
  | .file volume => volume.sectorCount
  | .partition _ sectorCount _ _ _ => sectorCount

def close : Container → CloseFunction
  | .file _ => .imageFileClose
  | .partition _ _ close _ _ => close

/-- `v->read`: `image_file_read`, or `partition_read`. -/
def read (sys : Schedule) (file : ByteFile) :
    Container → (position : Int) → Buffer → (count : Nat) → Option (Int × Buffer)
  | .file volume, position, buf, count => imageFileRead sys volume file position buf count
  | .partition _ _ _ parent dataOffset, position, buf, count =>
    parent.read sys file (position + dataOffset) buf count

/-- `v->write`: `image_file_write`, or `partition_write`. -/
def write (fuel : Nat) (sys : Schedule) (file : ByteFile) :
    Container → (position : Int) → Buffer → (count : Nat) → Option (Int × ByteFile)
  | .file volume, position, buf, count => imageFileWrite fuel sys volume file position buf count
  | .partition _ _ _ parent dataOffset, position, buf, count =>
    parent.write fuel sys file (position + dataOffset) buf count

end Container

/-- `partition_info`. -/
structure PartitionInfo where
  volume : Container
  status : UInt8
  type : UInt8
  startSector : Nat
  sectorCount : Nat
  deriving Repr

/-- `volume_is_bootable`. -/
def volumeIsBootable (sys : Schedule) (v : Container) (file : ByteFile) : Bool :=
  if v.bytesPerSector < 0x200 then false
  else match v.read sys file (0x1fe : Nat) .zero 2 with
    | some (result, signature) =>
      if result ≠ 2 then false else signature 0 == 0x55 && signature 1 == 0xaa
    | none => false

/-- Four bytes put together in `int` arithmetic. -/
def recordInt (record : Buffer) (field : Nat) : BitVec 32 :=
  (record field).toBitVec.setWidth 32 |||
    (record (field + 1)).toBitVec.setWidth 32 <<< 8 |||
    (record (field + 2)).toBitVec.setWidth 32 <<< 16 |||
    (record (field + 3)).toBitVec.setWidth 32 <<< 24

/-- An `int` stored in an `unsigned long`. -/
def unsignedLong (build : Build) (value : BitVec 32) : Nat :=
  (value.toInt % build.word).toNat

/-- `mbr_partition_info`, with the kernel's answers to each of its reads. There is no record where
it returns `-1`. -/
def mbrPartitionInfo (build : Build) (sys : Nat → Schedule) (v : Container) (file : ByteFile)
    (partitionNumber : Nat) : Option PartitionInfo :=
  if volumeIsBootable (sys 0) v file then
    match v.read (sys 1) file (0x1be + partitionNumber * 16 : Nat) .zero 16 with
    | some (result, recordData) =>
      if result ≠ 16 then none
      else some
        { volume := v
          status := recordData 0x00
          type := recordData 0x04
          startSector := unsignedLong build (recordInt recordData 0x08)
          sectorCount := unsignedLong build (recordInt recordData 0x0c) }
    | none => none
  else none

/-- `partition_info_is_fat`. -/
def partitionInfoIsFat (p : PartitionInfo) : Bool :=
  let t := p.type
  p.status == 0x80 && (t == 0x01 || t == 0x04 || t == 0x05 || t == 0x06 || t == 0x0b || t == 0x0c ||
    t == 0x0e)

/-- The fields of the container that `partition_open` leaves as the memory held them. -/
structure PartitionMemory where
  sectorCount : Nat
  close : CloseFunction

/-- `partition_open`. -/
def partitionOpen (build : Build) (p : PartitionInfo) (memory : PartitionMemory) : Container :=
  .partition p.volume.bytesPerSector memory.sectorCount memory.close p.volume
    (offT (build.mul p.startSector p.volume.bytesPerSector))

/-- `partition_close`. -/
def partitionClose (_partition : Container) : Int := 0

/-! ### The numbers of a record -/

/-- A byte put on top of shorter ones. -/
theorem or_shiftLeft_byte {low : BitVec 32} {value shift : Nat} (byte : UInt8)
    (same : low.toNat = value) (short : value < 2 ^ shift) (fits : shift + 8 ≤ 32) :
    (low ||| byte.toBitVec.setWidth 32 <<< shift).toNat = value + 2 ^ shift * byte.toNat := by
  subst same
  have small : 2 ^ shift * byte.toNat < 2 ^ 32 := by
    have top := Nat.mul_lt_mul_of_pos_left byte.toNat_lt (Nat.two_pow_pos shift)
    rw [← Nat.pow_add] at top
    exact Nat.lt_of_lt_of_le top (Nat.pow_le_pow_right (by decide) fits)
  have width : (byte.toBitVec.setWidth 32).toNat = byte.toNat :=
    (BitVec.toNat_setWidth _ _).trans (Nat.mod_eq_of_lt (Nat.lt_trans byte.toNat_lt (by decide)))
  rw [BitVec.toNat_or, BitVec.toNat_shiftLeft, width, Nat.shiftLeft_eq, Nat.mul_comm _ (2 ^ shift),
    Nat.mod_eq_of_lt small, Nat.or_comm, ← Nat.two_pow_add_eq_or_of_lt short, Nat.add_comm]

/-- The bits put together are those of the little-endian number. -/
theorem recordInt_toNat (record : Buffer) (field : Nat) :
    (recordInt record field).toNat = record.loadDword field := by
  have bytes (index : Nat) := (record index).toNat_lt
  have first : ((record field).toBitVec.setWidth 32).toNat = (record field).toNat :=
    (BitVec.toNat_setWidth _ _).trans (Nat.mod_eq_of_lt (Nat.lt_trans (bytes _) (by decide)))
  have low := bytes field
  have high := bytes (field + 1)
  have lowest := bytes (field + 2)
  have second := or_shiftLeft_byte (record (field + 1)) first (show _ < 2 ^ 8 by omega) (by decide)
  have third := or_shiftLeft_byte (record (field + 2)) second (show _ < 2 ^ 16 by omega) (by decide)
  have fourth := or_shiftLeft_byte (record (field + 3)) third (show _ < 2 ^ 24 by omega) (by decide)
  rw [recordInt, fourth, Buffer.loadDword, Buffer.loadWord, Buffer.loadWord,
    show field + 3 = field + 2 + 1 from rfl]
  omega

/-- An `unsigned long` of 64 bits holds a number below 2 ^ 31 as it is and extends any other. -/
theorem unsignedLong_lp64 (value : BitVec 32) :
    unsignedLong .lp64 value =
      if value.toNat < 2 ^ 31 then value.toNat else value.toNat + (2 ^ 64 - 2 ^ 32) := by
  have bound := value.isLt
  rw [unsignedLong, BitVec.toInt_eq_toNat_cond, Build.word]
  split_ifs <;> omega

theorem unsignedLong_eq_iff (value : BitVec 32) :
    unsignedLong .lp64 value = value.toNat ↔ value.toNat < 2 ^ 31 := by
  rw [unsignedLong_lp64]
  split_ifs with small
  · exact iff_of_true rfl small
  · exact iff_of_false (by omega) small

/-! ### The two decoders -/

/-- The first sector of the container can be read: a read inside it gives its bytes. -/
def Container.Shows (v : Container) (sys : Nat → Schedule) (file : ByteFile) (sector : Buffer) :
    Prop :=
  ∀ (call position count : Nat) (buf : Buffer), position + count ≤ 512 →
    v.read (sys call) file position buf count =
      some ((count : Int), buf.blit 0 count fun index => sector (position + index))

/-- Where the record of a partition stands in the first sector. -/
def recordPlace (partitionNumber : Nat) : Nat := mbrTable + partitionNumber * 16

/-- What the decoder of `mbr.c` finds in the first sector. -/
def decodedRecord (build : Build) (v : Container) (sector : Buffer) (partitionNumber : Nat) :
    PartitionInfo where
  volume := v
  status := sector (recordPlace partitionNumber)
  type := sector (recordPlace partitionNumber + 4)
  startSector := unsignedLong build (recordInt sector (recordPlace partitionNumber + 8))
  sectorCount := unsignedLong build (recordInt sector (recordPlace partitionNumber + 12))

/-- An access to a partition goes to its parent, a fixed number of bytes further on. -/
def Container.GoesTo (partition parent : Container) (offset : Nat) : Prop :=
  ∀ (fuel : Nat) (sys : Schedule) (file : ByteFile) (position : Int) (buf : Buffer) (count : Nat),
    partition.read sys file position buf count =
        parent.read sys file (offset + position) buf count ∧
      partition.write fuel sys file position buf count =
        parent.write fuel sys file (offset + position) buf count

/-- The decoder of `mbr.c` finds the numbers `LD_DWORD` reads from the record, and the partition
it opens starts at the first of them. -/
def DecodersAgree (sys : Nat → Schedule) (v : Container) (file : ByteFile) (sector : Buffer)
    (partitionNumber : Nat) : Prop :=
  ∃ info, mbrPartitionInfo .lp64 sys v file partitionNumber = some info ∧
    info.startSector = sector.loadDword (recordPlace partitionNumber + 8) ∧
    info.sectorCount = sector.loadDword (recordPlace partitionNumber + 12) ∧
    ∀ memory, (partitionOpen .lp64 info memory).GoesTo v
      (sector.loadDword (recordPlace partitionNumber + 8) * v.bytesPerSector)

/-- The decoder of `mbr.c` finds the partition `f_mkfs` has laid out and takes it for FAT. -/
def FindsLayout (sys : Nat → Schedule) (v : Container) (file : ByteFile) (layout : Layout) :
    Prop :=
  ∃ info, mbrPartitionInfo .lp64 sys v file 0 = some info ∧ info.startSector = 63 ∧
    info.sectorCount = layout.nPart ∧ partitionInfoIsFat info = true

section Decoders

variable {build : Build} {sys : Nat → Schedule} {v : Container} {file : ByteFile}
  {sector : Buffer} {partitionNumber : Nat}

theorem volumeIsBootable_shows (sectors : v.bytesPerSector = 512) (shows : v.Shows sys file sector)
    (signature : sector.loadWord bs55AA = 0xAA55) : volumeIsBootable (sys 0) v file = true := by
  have low := (sector 510).toNat_lt
  have high := (sector 511).toNat_lt
  rw [Buffer.loadWord, bs55AA, show 510 + 1 = 511 from rfl] at signature
  have first : sector 510 = 0x55 := UInt8.toNat_inj.mp (show (sector 510).toNat = 0x55 by omega)
  have second : sector 511 = 0xaa := UInt8.toNat_inj.mp (show (sector 511).toNat = 0xaa by omega)
  rw [volumeIsBootable, if_neg (by omega), shows 0 0x1fe 2 .zero (by decide)]
  simp [Buffer.blit_inside, first, second]

theorem mbrPartitionInfo_shows (sectors : v.bytesPerSector = 512) (shows : v.Shows sys file sector)
    (signature : sector.loadWord bs55AA = 0xAA55) (inTable : partitionNumber < 4) :
    mbrPartitionInfo build sys v file partitionNumber =
      some (decodedRecord build v sector partitionNumber) := by
  have bytes (field : Nat) (inside : field < 16) :
      Buffer.zero.blit 0 16 (fun index => sector (0x1be + partitionNumber * 16 + index)) field =
        sector (0x1be + partitionNumber * 16 + field) := by
    rw [Buffer.blit_inside _ _ _ _ (Nat.zero_le _) (by omega), Nat.sub_zero]
  have numbers (field : Nat) (inside : field + 3 < 16) :
      recordInt (Buffer.zero.blit 0 16 fun index => sector (0x1be + partitionNumber * 16 + index))
        field = recordInt sector (0x1be + partitionNumber * 16 + field) := by
    rw [recordInt, bytes _ (by omega), bytes _ (by omega), bytes _ (by omega), bytes _ inside]
    rfl
  rw [mbrPartitionInfo, if_pos (volumeIsBootable_shows sectors shows signature),
    shows 1 _ 16 .zero (by omega)]
  change (if ((16 : Nat) : Int) ≠ 16 then none else some (PartitionInfo.mk _ _ _ _ _)) = _
  rw [if_neg (by decide), bytes 0x00 (by decide), bytes 0x04 (by decide), numbers 0x08 (by decide),
    numbers 0x0c (by decide)]
  rfl

/-- The offset of a partition whose start fits in `unsigned long` and in `off_t` is the exact
product. -/
theorem partitionOpen_goesTo {info : PartitionInfo} (memory : PartitionMemory)
    (word : info.startSector * info.volume.bytesPerSector < build.word)
    (small : info.startSector * info.volume.bytesPerSector < 2 ^ 63) :
    (partitionOpen build info memory).GoesTo info.volume
      (info.startSector * info.volume.bytesPerSector) := by
  have offset : offT (build.mul info.startSector info.volume.bytesPerSector) =
      (info.startSector * info.volume.bytesPerSector : Nat) := by
    rw [Build.mul_of_lt _ word, offT_of_lt small]
  intro fuel sys file position buf count
  simp only [partitionOpen, Container.read, Container.write, offset,
    Int.add_comm position, true_and]

theorem decodersAgree_iff (sectors : v.bytesPerSector = 512) (shows : v.Shows sys file sector)
    (signature : sector.loadWord bs55AA = 0xAA55) (inTable : partitionNumber < 4) :
    DecodersAgree sys v file sector partitionNumber ↔
      sector.loadDword (recordPlace partitionNumber + 8) < 2 ^ 31 ∧
        sector.loadDword (recordPlace partitionNumber + 12) < 2 ^ 31 := by
  have decoded := @mbrPartitionInfo_shows .lp64 _ _ _ _ _ sectors shows signature inTable
  rw [← recordInt_toNat, ← recordInt_toNat, ← unsignedLong_eq_iff, ← unsignedLong_eq_iff]
  constructor
  · rintro ⟨info, found, start, count, _⟩
    obtain rfl := Option.some.inj (decoded.symm.trans found)
    exact ⟨start.trans (recordInt_toNat _ _).symm, count.trans (recordInt_toNat _ _).symm⟩
  · rintro ⟨start, count⟩
    refine ⟨_, decoded, start.trans (recordInt_toNat _ _), count.trans (recordInt_toNat _ _),
      fun memory => ?_⟩
    have near : (decodedRecord .lp64 v sector partitionNumber).startSector < 2 ^ 31 :=
      start.trans_lt ((unsignedLong_eq_iff _).mp start)
    have small : (decodedRecord .lp64 v sector partitionNumber).startSector *
        (decodedRecord .lp64 v sector partitionNumber).volume.bytesPerSector < 2 ^ 63 := by
      rw [show (decodedRecord .lp64 v sector partitionNumber).volume = v from rfl, sectors]
      omega
    have offset := @partitionOpen_goesTo .lp64 (decodedRecord .lp64 v sector partitionNumber) memory
      (Nat.lt_trans small (by decide)) small
    rwa [show (decodedRecord .lp64 v sector partitionNumber).startSector = _ from
      start.trans (recordInt_toNat _ _)] at offset

/-- The partition of `f_mkfs` is active and of a type of FAT. -/
theorem mbrSector_isFat (layout : Layout) :
    partitionInfoIsFat (decodedRecord build v (mbrSector layout) 0) = true := by
  have status : mbrSector layout mbrTable = 0x80 := by
    simp (disch := decide) only [mbrSector, Buffer.storeWord_of_outside,
      Buffer.storeDword_of_outside, Buffer.store_of_ne]
    split_ifs <;> simp (disch := decide) only [Buffer.storeWord_of_outside, Buffer.store_of_ne] <;>
      decide
  have type : mbrSector layout (mbrTable + 4) =
      if layout.fmt ≠ .fat32 then if layout.nPart < 0x10000 then 0x04 else 0x06 else 0x0c := by
    simp (disch := decide) only [mbrSector, Buffer.storeWord_of_outside,
      Buffer.storeDword_of_outside, Buffer.store_self]
  simp only [partitionInfoIsFat, decodedRecord, recordPlace, Nat.zero_mul, Nat.add_zero,
    status, type]
  split_ifs <;> rfl

/-- What `f_mkfs` lays out on a disk it accepts is a partition of fewer than 2 ^ 31 sectors. -/
theorem mkfsLayout_nPart_lt (build : Build) (allocsize : Nat) (fmt : Option FatType)
    {sectorCount : Nat} (enough : minSector ≤ sectorCount) :
    (mkfsLayout build 0 allocsize fmt sectorCount).nPart < 2 ^ 31 := by
  have word := build.le_word
  rw [minSector] at enough
  rw [mkfsLayout]
  dsimp only
  rw [if_pos rfl, build.sub_of_le (by rw [maxSector]; omega) (by rw [maxSector]; omega), maxSector]
  omega

theorem findsLayout_of_lt {layout : Layout} (sectors : v.bytesPerSector = 512)
    (shows : v.Shows sys file (mbrSector layout)) (short : layout.nPart < 2 ^ 31) :
    FindsLayout sys v file layout := by
  have decoded := @mbrPartitionInfo_shows .lp64 _ _ _ _ 0 sectors shows (mbrSector_signature layout)
    (by decide)
  have first : (recordInt (mbrSector layout) (recordPlace 0 + 8)).toNat = 63 :=
    (recordInt_toNat _ _).trans (mbrSector_start layout)
  have length : (recordInt (mbrSector layout) (recordPlace 0 + 12)).toNat = layout.nPart :=
    (recordInt_toNat _ _).trans (mbrSector_size layout (by omega))
  exact ⟨_, decoded, ((unsignedLong_eq_iff _).mpr (by rw [first]; decide)).trans first,
    ((unsignedLong_eq_iff _).mpr (by rwa [length])).trans length, mbrSector_isFat layout⟩

/-- The two decoders agree on a record if and only if its numbers are below 2 ^ 31, as they are in
every table `f_mkfs` writes. -/
theorem decoders_agree (sectors : v.bytesPerSector = 512) (shows : v.Shows sys file sector)
    (signature : sector.loadWord bs55AA = 0xAA55) (inTable : partitionNumber < 4) :
    (DecodersAgree sys v file sector partitionNumber ↔
        sector.loadDword (recordPlace partitionNumber + 8) < 2 ^ 31 ∧
          sector.loadDword (recordPlace partitionNumber + 12) < 2 ^ 31) ∧
      ∀ allocsize fmt sectorCount, minSector ≤ sectorCount →
        sector = mbrSector (mkfsLayout .lp64 0 allocsize fmt sectorCount) →
        FindsLayout sys v file (mkfsLayout .lp64 0 allocsize fmt sectorCount) := by
  refine ⟨decodersAgree_iff sectors shows signature inTable, ?_⟩
  rintro allocsize fmt sectorCount enough rfl
  exact findsLayout_of_lt sectors shows (mkfsLayout_nPart_lt .lp64 allocsize fmt enough)

end Decoders

/-! ### An image file -/

/-- The first sector of an image file that has one can be read. -/
theorem shows_file {volume : VolumeContainer} {file : ByteFile} {sys : Nat → Schedule}
    (steady : ∀ call, (sys call).Steady) (inside : volume.dataOffset + 512 ≤ file.size)
    (near : volume.dataOffset + 512 < 2 ^ 31) :
    (Container.file volume).Shows sys file fun index => file.byte (volume.dataOffset + index) := by
  intro call position count buf within
  rw [Container.read, imageFileRead_steady (steady call) buf (by omega) (by omega) (by omega)]
  simp only [Nat.add_comm position, Nat.add_assoc]

/-- The image that holds one sector. -/
def oneSector (sector : Buffer) : ByteFile := .ofBuffer 512 sector

theorem oneSector_shows (sector : Buffer) :
    (Container.file ⟨⟨0, true⟩, 0, 512, 1⟩).Shows (fun _ => .kernel) (oneSector sector) sector := by
  intro call position count buf within
  have steady : ∀ call : Nat, Schedule.kernel.Steady := fun _ => Schedule.kernel_steady
  have size : (oneSector sector).size = 512 := rfl
  rw [@shows_file ⟨⟨0, true⟩, 0, 512, 1⟩ _ _ steady (by rw [size]) (by decide) call _ _ _ within]
  refine congrArg (fun filled => some ((count : Int), filled))
    (Buffer.blit_congr _ _ _ _ _ fun index inside => ?_)
  change (oneSector sector).byte (0 + (position + index)) = sector (position + index)
  rw [Nat.zero_add, oneSector, ByteFile.ofBuffer, ByteFile.byte_write,
    Buffer.blit_inside _ _ _ _ (Nat.zero_le _) (by omega), Nat.sub_zero]

/-- The table of a disk of 1 GiB. -/
theorem decoders_agree_gibibyte :
    FindsLayout (fun _ => .kernel) (.file ⟨⟨0, true⟩, 0, 512, 1⟩)
      (oneSector (mbrSector (mkfsLayout .lp64 0 0 none 2097152)))
        (mkfsLayout .lp64 0 0 none 2097152) :=
  (@decoders_agree _ _ _ _ 0 rfl (oneSector_shows _) (mbrSector_signature _) (by decide)).2 0 none
    2097152 (by decide) rfl

/-- A table whose first record starts at sector 2 ^ 31. -/
def farTable : Buffer :=
  (Buffer.zero.storeDword (recordPlace 0 + 8) 0x80000000).storeWord bs55AA 0xAA55

/-- The decoder of `mbr.c` starts that partition at sector 2 ^ 64 - 2 ^ 31. -/
theorem not_decodersAgree :
    (Container.file ⟨⟨0, true⟩, 0, 512, 1⟩).Shows (fun _ => .kernel) (oneSector farTable) farTable ∧
      farTable.loadWord bs55AA = 0xAA55 ∧
      ¬DecodersAgree (fun _ => .kernel) (.file ⟨⟨0, true⟩, 0, 512, 1⟩) (oneSector farTable) farTable
        0 := by
  have signature : farTable.loadWord bs55AA = 0xAA55 := Buffer.loadWord_storeWord _ _ _
  refine ⟨oneSector_shows _, signature, fun agree => ?_⟩
  have near := (@decodersAgree_iff _ _ _ _ 0 rfl (oneSector_shows farTable) signature
    (by decide)).mp agree
  exact absurd near.1 (by decide)

end Hdfmonkey
