/-
This file models the HDF header: the 0x216 bytes `hdf_write_header` builds and
writes in front of the sectors of an HDF image, and the few of them that
`hdf_image_open` and `image_file_is_hdf` read back.

The header is a preamble (signature, version, sector flag, data offset) and an
ATA identity block at offset 0x16 with a made-up cylinder/head/sector geometry,
a model number, and the total number of sectors in identity words 60 and 61.
-/

import Hdfmonkey.Transfer

namespace Hdfmonkey

/-- `HDF_HEADER_SIZE`. -/
def hdfHeaderSize : Nat := 0x216

/-- `hdf_signature`, the bytes of "RS-IDE\x1a". -/
def hdfSignature : List UInt8 := [0x52, 0x53, 0x2d, 0x49, 0x44, 0x45, 0x1a]

/-- `HDF_PREAMBLE`: the signature, version 1.1, sector data not halved, data offset 0x216. -/
def hdfPreamble : List UInt8 := hdfSignature ++ [0x11, 0x00, 0x16, 0x02]

/-- `MODEL_NUMBER`, the bytes of "rCaeet dybh fdomknye" padded with blanks to 40. -/
def modelNumber : List UInt8 :=
  [0x72, 0x43, 0x61, 0x65, 0x65, 0x74, 0x20, 0x64, 0x79, 0x62,
   0x68, 0x20, 0x66, 0x64, 0x6f, 0x6d, 0x6b, 0x6e, 0x79, 0x65] ++ List.replicate 20 0x20

/-- The geometry fields of the identity block. -/
structure Geometry where
  cylCount : Nat
  headCount : Nat
  sectorsPerTrack : Nat
  deriving DecidableEq, Repr

/-- The dummy values for a large disk. -/
def largeDisk : Geometry where
  cylCount := 16383
  headCount := 16
  sectorsPerTrack := 63

/-- The two factor searches: count down from a limit to the first divisor, stopping at one. -/
def largestFactor (value : Nat) : Nat → Nat
  | 0 => 0
  | 1 => 1
  | limit + 2 => if value % (limit + 2) = 0 then limit + 2 else largestFactor value (limit + 1)

/-- The geometry `hdf_write_header` chooses. -/
def hdfGeometry (sectorCount : Nat) : Geometry :=
  if sectorCount ≥ 16383 * 16 * 63 then largeDisk
  else
    let headCount := largestFactor sectorCount 16
    let sectorsPerHead := sectorCount / headCount
    let sectorsPerTrack := largestFactor sectorsPerHead 63
    let cylCount := sectorsPerHead / sectorsPerTrack
    if cylCount > 16384 then largeDisk
    else { cylCount, headCount, sectorsPerTrack }

/-- The offset of the identity block in the header. -/
def identityOffset : Nat := 0x16

/-- The header bytes `hdf_write_header` builds. -/
def hdfHeader (sectorCount : Nat) : Buffer :=
  let geometry := hdfGeometry sectorCount
  Buffer.zero
    |>.storeList 0 hdfPreamble
    -- words 1, 3 and 6: cylinders, heads, sectors per track
    |>.store (identityOffset + 2) (UInt8.ofNat (geometry.cylCount % 2 ^ 8))
    |>.store (identityOffset + 3) (UInt8.ofNat (geometry.cylCount / 2 ^ 8))
    |>.store (identityOffset + 6) (UInt8.ofNat geometry.headCount)
    |>.store (identityOffset + 12) (UInt8.ofNat geometry.sectorsPerTrack)
    |>.storeList (identityOffset + 54) modelNumber
    -- word 49, bit 9: LBA supported
    |>.store (identityOffset + 99) 0x02
    -- words 60 and 61: total number of sectors
    |>.store (identityOffset + 120) (UInt8.ofNat (sectorCount % 2 ^ 8))
    |>.store (identityOffset + 121) (UInt8.ofNat (sectorCount / 2 ^ 8 % 2 ^ 8))
    |>.store (identityOffset + 122) (UInt8.ofNat (sectorCount / 2 ^ 16 % 2 ^ 8))
    |>.store (identityOffset + 123) (UInt8.ofNat (sectorCount / 2 ^ 24 % 2 ^ 8))

/-- `hdf_write_header`: the loop is the one of `image_file_write`, from the start of the file,
and only the sign of its result is kept. -/
def hdfWriteHeader (fuel : Nat) (sys : Schedule) (fd : Fd) (file : ByteFile)
    (sectorCount : Nat) : Option (Int × ByteFile) :=
  match imageFileWriteLoop sys fd.writeable (hdfHeader sectorCount) fuel 0 0 file 0
      hdfHeaderSize with
  | none => none
  | some (res, written) => if res < 0 then some (-1, written) else some (0, written)

/-! ### The bytes that are read back -/

/-- The first eleven bytes of the header are the preamble. -/
theorem hdfHeader_preamble (sectorCount : Nat) {index : Nat} (inside : index < 11) :
    hdfHeader sectorCount index = hdfPreamble.getD index 0 := by
  have away (offset : Nat) : index ≠ identityOffset + offset := by
    rw [identityOffset]
    omega
  have before (buffer source : Buffer) (count : Nat) :
      buffer.blit (identityOffset + 54) count source index = buffer index :=
    Buffer.blit_below _ _ _ _ (by rw [identityOffset]; omega)
  simp only [hdfHeader, Buffer.store_of_ne _ _ (away _), Buffer.storeList, before]
  exact Buffer.blit_inside _ _ _ _ (Nat.zero_le _) (by simpa [hdfPreamble, hdfSignature])

/-- Identity words 60 and 61 hold the sector count, low word first. -/
theorem hdfHeader_totalSectors (sectorCount : Nat) :
    (hdfHeader sectorCount).loadDword (identityOffset + 120) = sectorCount % 2 ^ 32 := by
  have at0 : hdfHeader sectorCount (identityOffset + 120) =
      UInt8.ofNat (sectorCount % 2 ^ 8) := by
    simp [hdfHeader, Buffer.store]
  have at1 : hdfHeader sectorCount (identityOffset + 120 + 1) =
      UInt8.ofNat (sectorCount / 2 ^ 8 % 2 ^ 8) := by
    simp [hdfHeader, Buffer.store]
  have at2 : hdfHeader sectorCount (identityOffset + 120 + 2) =
      UInt8.ofNat (sectorCount / 2 ^ 16 % 2 ^ 8) := by
    simp [hdfHeader, Buffer.store]
  have at3 : hdfHeader sectorCount (identityOffset + 120 + 2 + 1) =
      UInt8.ofNat (sectorCount / 2 ^ 24 % 2 ^ 8) := by
    simp [hdfHeader, Buffer.store]
  simp only [Buffer.loadDword, Buffer.loadWord, at0, at1, at2, at3, UInt8.toNat_ofNat']
  omega

/-! ### Writing the header -/

/-- A header that is reported written is in the file. -/
theorem hdfWriteHeader_spec {fuel : Nat} {sys : Schedule} {fd : Fd} {file written : ByteFile}
    {sectorCount : Nat}
    (run : hdfWriteHeader fuel sys fd file sectorCount = some (0, written)) :
    written = file.write 0 hdfHeaderSize (hdfHeader sectorCount) := by
  unfold hdfWriteHeader at run
  split at run
  · exact absurd run (by simp)
  · rename_i res result loop
    split_ifs at run with negative
    · exact absurd run (by simp)
    · simp only [Option.some.injEq, Prod.mk.injEq, true_and] at run
      subst run
      have ended := imageFileWriteLoop_spec _ _ _ _ _ _ _ 0 _ _ _ (by decide) loop
      simp only [Nat.zero_add] at ended
      rcases ended with ⟨_, _, whole⟩ | ⟨rfl, _⟩
      · exact whole
      · exact absurd (show (-1 : Int) < 0 by decide) negative

/-- With a steady kernel and a writeable descriptor the header is written. -/
theorem hdfWriteHeader_steady {fuel : Nat} {sys : Schedule} (steady : sys.Steady) {fd : Fd}
    (mode : fd.writeable = true) (file : ByteFile) (sectorCount : Nat)
    (enough : hdfHeaderSize ≤ fuel) :
    hdfWriteHeader fuel sys fd file sectorCount =
      some (0, file.write 0 hdfHeaderSize (hdfHeader sectorCount)) := by
  have ended := imageFileWriteLoop_steady steady (hdfHeader sectorCount) fuel 0 0 file 0
    hdfHeaderSize (by decide) enough
  simp only [Nat.zero_add] at ended
  unfold hdfWriteHeader
  rw [mode]
  simp only [Int.natCast_zero] at ended
  rw [ended]
  rfl

end Hdfmonkey
