/-
This file says what a sound and empty FAT volume is, in terms of the bytes in its
sectors only: the areas do not overlap, the FATs are large enough, equal and free,
the root directory is empty, and the boot record says where everything is.

`Layout.content`, the plan of a format, is one.
-/

import Hdfmonkey.FormatAgreement

namespace Hdfmonkey

/-! ### Areas -/

/-- A run of sectors. -/
structure Area where
  start : Nat
  size : Nat

def Area.Contains (area : Area) (sector : Nat) : Prop :=
  area.start ≤ sector ∧ sector < area.start + area.size

/-- The areas of the partition: the reserved sectors, the two FATs, the root directory and the
data. -/
def Layout.areas (layout : Layout) : List Area :=
  [⟨layout.bPart, layout.nRsv⟩, ⟨layout.bFat, layout.nFat⟩,
    ⟨layout.bFat + layout.nFat, layout.nFat⟩, ⟨layout.bDir, layout.nDir⟩,
    ⟨layout.bData, layout.nClst * layout.allocsize⟩]

/-- The partition table in front of the partition. -/
def mbrArea : Area := ⟨0, 1⟩

/-- No sector is in two areas. -/
def Apart (areas : List Area) : Prop :=
  areas.Pairwise fun first second => ∀ sector, first.Contains sector → ¬ second.Contains sector

/-! ### Entries of a FAT -/

/-- The bytes of a FAT that starts at a sector. -/
def fatBytes (content : Nat → Buffer) (start : Nat) : Buffer := fun index =>
  content (start + index / sectorSize) (index % sectorSize)

/-- The entry of a cluster, in the width of the sub-type. -/
def fatEntry (fmt : FatType) (fat : Buffer) (clst : Nat) : Nat :=
  match fmt with
  | .fat12 =>
    let pair := fat.loadWord (clst + clst / 2)
    if clst % 2 = 1 then pair / 2 ^ 4 else pair % 2 ^ 12
  | .fat16 => fat.loadWord (clst * 2)
  | .fat32 => fat.loadDword (clst * 4) % 2 ^ 28

/-- The bytes that the entries of the first clusters take up. -/
def fatLength (fmt : FatType) (clusters : Nat) : Nat :=
  match fmt with
  | .fat12 => (clusters * 3 + 1) / 2
  | .fat16 => clusters * 2
  | .fat32 => clusters * 4

/-- The entry of a cluster of a volume without files: the root directory of FAT32 is one cluster at
the end of its chain. -/
def emptyEntry (fmt : FatType) (clst : Nat) : Nat :=
  if fmt = .fat32 ∧ clst = 2 then 0x0FFFFFFF else 0

/-! ### Sound and empty volumes -/

/-- A volume with the given sectors is sound and empty. -/
structure EmptyVolume (build : Build) (layout : Layout) (sectorCount : Nat)
    (content : Nat → Buffer) : Prop where
  apart : Apart (mbrArea :: layout.areas)
  inside : ∀ area ∈ layout.areas, ∀ sector, area.Contains sector →
    (content 0).loadDword (mbrTable + 8) ≤ sector ∧
      sector < (content 0).loadDword (mbrTable + 8) + (content 0).loadDword (mbrTable + 12)
  partition : (content 0).loadDword (mbrTable + 8) + (content 0).loadDword (mbrTable + 12) ≤
    sectorCount
  capacity : fatLength layout.fmt (layout.nClst + 2) ≤ layout.nFat * sectorSize
  copies : ∀ index, index < layout.nFat * sectorSize →
    fatBytes content layout.bFat index = fatBytes content (layout.bFat + layout.nFat) index
  free : ∀ clst, 2 ≤ clst → clst < layout.nClst + 2 →
    fatEntry layout.fmt (fatBytes content layout.bFat) clst = emptyEntry layout.fmt clst
  root : ∀ sector, layout.RootSector sector → ∀ index, index < sectorSize →
    content sector index = 0
  rootCluster : layout.fmt = .fat32 → ∀ sector, layout.RootSector sector ↔
    Area.Contains ⟨layout.bData, layout.allocsize⟩ sector
  parsed : ∀ fs : Fatfs, Shows fs.win (content layout.bPart) →
    (initFatfs build layout.bPart fs).Matches layout
  fsInfo : layout.fmt = .fat32 →
    (content (layout.bPart + 1)).loadWord bs55AA = 0xAA55 ∧
      (content (layout.bPart + 1)).loadDword fsiLeadSig = 0x41615252 ∧
      (content (layout.bPart + 1)).loadDword fsiStrucSig = 0x61417272 ∧
      (content (layout.bPart + 1)).loadDword fsiFreeCount = layout.nClst - 1

section Content

variable {layout : Layout}

theorem Layout.Sound.data_le (sound : layout.Sound) :
    layout.bData + layout.nClst * layout.allocsize ≤ layout.bPart + layout.nPart := by
  have room := sound.room
  have whole : layout.nClst * layout.allocsize ≤
      layout.nPart - layout.nRsv - layout.nFat * nFats - layout.nDir := by
    rw [sound.nClst]
    exact Nat.div_mul_le_self _ _
  rw [Layout.bData, Layout.bDir, Layout.bFat]
  omega

theorem Layout.Sound.apart (sound : layout.Sound) : Apart (mbrArea :: layout.areas) := by
  have start := sound.bPart
  obtain ⟨twice, _⟩ := sound.bounds
  simp only [Apart, Layout.areas, mbrArea, List.pairwise_cons, List.mem_cons, List.not_mem_nil,
    or_false, forall_eq_or_imp, forall_eq, Area.Contains, Layout.bData]
  rw [Layout.bFat] at *
  refine ⟨⟨?_, ?_, ?_, ?_, ?_⟩, ⟨?_, ?_, ?_, ?_⟩, ⟨?_, ?_, ?_⟩, ⟨?_, ?_⟩, ?_, ?_⟩ <;>
    first
    | (intro sector first second; omega)
    | simp

theorem Layout.Sound.inside (sound : layout.Sound) {area : Area} (member : area ∈ layout.areas)
    {sector : Nat} (contains : area.Contains sector) :
    layout.bPart ≤ sector ∧ sector < layout.bPart + layout.nPart := by
  have data := sound.data_le
  obtain ⟨twice, _⟩ := sound.bounds
  obtain ⟨lower, upper⟩ := contains
  rw [Layout.bData] at data
  simp only [Layout.areas, List.mem_cons, List.not_mem_nil, or_false] at member
  rw [Layout.bFat] at *
  rcases member with rfl | rfl | rfl | rfl | rfl <;> dsimp only [Layout.bData] at lower upper <;>
    omega

theorem Layout.Sound.nClst_pos (sound : layout.Sound) : 1 ≤ layout.nClst := by
  have room := sound.room
  have size := sound.allocsize_le
  rw [sound.nClst]
  exact (Nat.one_le_div_iff sound.allocsize_pos).mpr (by omega)

theorem Layout.Sound.nClst_le (sound : layout.Sound) : layout.nClst ≤ layout.nPart := by
  rw [sound.nClst]
  exact Nat.le_trans (Nat.div_le_self _ _) (by omega)

/-- A FAT that was sized for all clusters of the partition has room for the entries of those that
the areas leave, and for the two reserved ones. -/
theorem Layout.Sound.capacity (sound : layout.Sound) :
    fatLength layout.fmt (layout.nClst + 2) ≤ layout.nFat * sectorSize := by
  have fewer : layout.nClst ≤ layout.nPart / layout.allocsize := by
    rw [sound.nClst]
    exact Nat.div_le_div_right (by omega)
  rw [sound.nFat]
  generalize layout.nPart / layout.allocsize = most at fewer ⊢
  cases layout.fmt <;> simp only [fatLength, fatSectors, sectorSize] <;> omega

/-- The bytes at the front of a FAT that are not free entries. -/
def headLength (fmt : FatType) : Nat :=
  match fmt with
  | .fat12 => 3
  | .fat16 => 4
  | .fat32 => 12

theorem fatHead_behind (fmt : FatType) {index : Nat} (behind : headLength fmt ≤ index) :
    fatHead fmt 0 index = 0 := by
  cases fmt with
  | fat12 =>
    rw [headLength] at behind
    by_cases last : index = 3
    · subst last
      rfl
    · exact Buffer.storeDword_of_outside _ (by omega)
  | fat16 => exact Buffer.storeDword_of_outside _ (Or.inr behind)
  | fat32 =>
    rw [headLength] at behind
    rw [fatHead, Buffer.storeDword_of_outside _ (by omega),
      Buffer.storeDword_of_outside _ (by omega), Buffer.storeDword_of_outside _ (by omega)]
    rfl

section Plan

variable (sound : layout.Sound) (build : Build) (volumeLabel : Option (List UInt8)) (time : Nat)

include sound

/-- Both FATs begin with the same sector and are zero from there on. -/
theorem fatBytes_content {start index : Nat}
    (fat : start = layout.bFat ∨ start = layout.bFat + layout.nFat)
    (inside : index < layout.nFat * sectorSize) :
    fatBytes (layout.content build volumeLabel time) start index =
      if index < sectorSize then fatHead layout.fmt 0 index else 0 := by
  rw [sectorSize] at inside
  rw [fatBytes]
  split_ifs with first
  · rw [Nat.div_eq_of_lt first, Nat.mod_eq_of_lt first, Nat.add_zero,
      sound.content_head build volumeLabel time fat]
  · rw [sectorSize] at first ⊢
    rw [sound.content_zero build volumeLabel time (by omega) (by omega)]
    rfl

theorem fatBytes_free {index : Nat} (behind : headLength layout.fmt ≤ index)
    (inside : index < layout.nFat * sectorSize) :
    fatBytes (layout.content build volumeLabel time) layout.bFat index = 0 := by
  rw [fatBytes_content sound build volumeLabel time (Or.inl rfl) inside]
  split_ifs
  · exact fatHead_behind _ behind
  · rfl

theorem fatEntry_content {clst : Nat} (lower : 2 ≤ clst) (upper : clst < layout.nClst + 2) :
    fatEntry layout.fmt (fatBytes (layout.content build volumeLabel time) layout.bFat) clst =
      emptyEntry layout.fmt clst := by
  have capacity := sound.capacity
  have free {index : Nat} (behind : headLength layout.fmt ≤ index)
      (inside : index < layout.nFat * sectorSize) :
      fatBytes (layout.content build volumeLabel time) layout.bFat index = Buffer.zero index :=
    fatBytes_free sound build volumeLabel time behind inside
  cases type : layout.fmt with
  | fat12 =>
    rw [type, fatLength] at capacity
    rw [type, headLength] at free
    have pair : (fatBytes (layout.content build volumeLabel time) layout.bFat).loadWord
        (clst + clst / 2) = 0 :=
      Buffer.loadWord_congr (free (by omega) (by omega)) (free (by omega) (by omega))
    have empty : emptyEntry .fat12 clst = 0 := if_neg fun both => FatType.noConfusion both.1
    rw [fatEntry, pair, empty]
    exact ite_self _
  | fat16 =>
    rw [type, fatLength] at capacity
    rw [type, headLength] at free
    have entry : (fatBytes (layout.content build volumeLabel time) layout.bFat).loadWord
        (clst * 2) = 0 :=
      Buffer.loadWord_congr (free (by omega) (by omega)) (free (by omega) (by omega))
    have empty : emptyEntry .fat16 clst = 0 := if_neg fun both => FatType.noConfusion both.1
    rw [fatEntry, entry, empty]
  | fat32 =>
    rw [type, fatLength] at capacity
    rw [type, headLength] at free
    rw [fatEntry]
    by_cases root : clst = 2
    · subst root
      have entry : (fatBytes (layout.content build volumeLabel time) layout.bFat).loadDword
          (2 * 4) = (fatHead .fat32 0).loadDword (2 * 4) :=
        Buffer.loadDword_congr fun index _ _ => by
          rw [fatBytes_content sound build volumeLabel time (Or.inl rfl) (by omega),
            if_pos (by rw [sectorSize]; omega), type]
      rw [entry, fatHead, Buffer.loadDword_storeDword]
      rfl
    · have entry : (fatBytes (layout.content build volumeLabel time) layout.bFat).loadDword
          (clst * 4) = 0 :=
        Buffer.loadDword_congr fun index _ _ => free (by omega) (by omega)
      have empty : emptyEntry .fat32 clst = 0 := if_neg fun both => root both.2
      rw [entry, empty, Nat.zero_mod]

/-- A format plans a sound and empty volume. -/
theorem emptyVolume_content {sectorCount : Nat}
    (enough : layout.bPart + layout.nPart ≤ sectorCount) :
    EmptyVolume build layout sectorCount (layout.content build volumeLabel time) := by
  have size := sound.nPart
  have start : (layout.content build volumeLabel time 0).loadDword (mbrTable + 8) =
      layout.bPart := by
    rw [Layout.content_mbr, mbrSector_start, sound.bPart]
  have length : (layout.content build volumeLabel time 0).loadDword (mbrTable + 12) =
      layout.nPart := by
    rw [Layout.content_mbr, mbrSector_size _ (by omega)]
  obtain ⟨twice, _⟩ := sound.bounds
  have positive := sound.nFat_pos
  refine ⟨sound.apart, ?_, ?_, sound.capacity, ?_, ?_, ?_, ?_, ?_, ?_⟩
  · intro area member sector contains
    rw [start, length]
    exact sound.inside member contains
  · rw [start, length]
    exact enough
  · intro index inside
    rw [fatBytes_content sound build volumeLabel time (Or.inl rfl) inside,
      fatBytes_content sound build volumeLabel time (Or.inr rfl) inside]
  · intro clst lower upper
    exact fatEntry_content sound build volumeLabel time lower upper
  · rintro sector ⟨lower, upper⟩ index inside
    rw [sound.content_zero build volumeLabel time (by omega) (by omega)]
    rfl
  · intro fat32 sector
    have passes := sound.rootPasses_eq
    have root := sound.nDir
    rw [if_pos fat32] at passes
    rw [fat32, rootSectors] at root
    rw [Layout.RootSector, Area.Contains, passes, Layout.bData, root, Nat.add_zero]
  · intro fs shows
    rw [sound.content_boot] at shows
    exact initFatfs_formatted sound shows build
  · intro fat32
    rw [Layout.content_fsInfo build volumeLabel time fat32 (Or.inl rfl)]
    obtain ⟨signature, lead, struc⟩ := fsInfoSector_signature layout build
    obtain ⟨count, _⟩ := fsInfoSector_counts layout build
    have clusters := sound.nClst_pos
    have fewer := sound.nClst_le
    have word := build.le_word
    refine ⟨signature, lead, struc, count.trans ?_⟩
    rw [build.sub_of_le (by omega) clusters]
    exact Nat.mod_eq_of_lt (by omega)

end Plan

end Content

end Hdfmonkey
