/-
This file proves that rebuilding a disk into the same geometry does not run out of room.

There is one exception. An entry with an extended character in its short name and no long
name gets a long one in the copy, and takes two slots for one. The tables of the source
must have a slot left for each of these, and a full one has not.
-/

import Hdfmonkey.CopyRoom

namespace Hdfmonkey

open NamedVolume

/-- What a copy of a volume has used when it ends or stops: no call found the volume full, no
directory has more slots or clusters than the one it was copied from, and all together take no more
clusters than the source. -/
structure RoomKept (source : ClusterVolume) (after : ClusterDrives) : Prop where
  calm : (after 1).starved = false
  within : ∀ target < (after 1).names.fresh, Within source (after 1) target
  total : ∃ clusters, source.Owns clusters ∧ (after 1).used.card ≤ clusters.length

section Rebuild

variable {source : ClusterVolume} {shape : Shape} {hint : Nat} {inner : List Nat}

/-- A chain of different clusters is no longer than the volume. -/
theorem length_le_clusters {clusters : List Nat} (distinct : clusters.Nodup)
    (holds : shape.Holds clusters) : clusters.length ≤ shape.maxClust - 2 := by
  have inside : clusters.toFinset ⊆ Finset.Ico 2 shape.maxClust := fun c member =>
    Finset.mem_Ico.mpr (holds c (List.mem_toFinset.mp member))
  have count := Finset.card_le_card inside
  rwa [List.toFinset_card_of_nodup distinct, Nat.card_Ico] at count

/-- The root directory has a cluster on FAT32 and only there. -/
theorem root_chain (valid : source.Valid) :
    (if source.fmt = .fat32 then 1 else 0) ≤ (source.tableChain 0).length := by
  split_ifs with large
  · refine List.length_pos_iff.mpr fun empty => ?_
    exact (valid.root.mpr empty).1 large
  · exact Nat.zero_le _

/-- A freshly formatted volume is ready for the copy. -/
theorem formatted_settled (valid : source.Valid) (same : source.toShape = shape)
    (holds : source.Holds (source.tableChain 0)) :
    Settled source (source.tableChain 0 ++ inner).length (roomDrives source shape hint) := by
  have root := root_chain valid
  have cluster : source.fmt = .fat32 → source.Holds [2] := by
    intro large
    rw [if_pos large] at root
    obtain ⟨c, others, chain⟩ := List.exists_cons_of_ne_nil (List.length_pos_iff.mp root)
    obtain ⟨lower, upper⟩ := holds c (chain ▸ List.mem_cons_self)
    exact List.forall_mem_singleton.mpr ⟨Nat.le_refl _, lower.trans_lt upper⟩
  subst same
  refine ⟨rfl, rfl, rfl, ⟨fun _ _ => nofun, fun _ _ => rfl⟩, fun table => ?_,
    fun _ _ => Shape.holds_nil, fun table present dynamic => ?_, fun target present => ?_, ?_⟩
  · show source.Holds (if source.fmt = .fat32 ∧ table = 0 then [2] else [])
    split_ifs with large
    · exact cluster large.1
    · exact Shape.holds_nil
  · obtain rfl : table = 0 := Nat.lt_one_iff.mp present
    have large : source.fmt = .fat32 := not_not.mp fun small => dynamic ⟨small, rfl⟩
    show (if source.fmt = .fat32 ∧ 0 = 0 then [2] else []) ≠ []
    rw [if_pos ⟨large, rfl⟩]
    exact List.cons_ne_nil _ _
  · obtain rfl : target = 0 := Nat.lt_one_iff.mp present
    refine ⟨[], 0, .root, .here, Nat.zero_le _, ?_⟩
    show (if source.fmt = .fat32 ∧ 0 = 0 then [2] else []).length ≤ _
    split_ifs at root ⊢ with large
    all_goals first | exact root | exact Nat.zero_le _ | simp_all
  · show (if source.fmt = .fat32 then ({2} : Finset Nat) else ∅).card ≤ _
    rw [List.length_append]
    split_ifs at root ⊢
    · rw [Finset.card_singleton]
      omega
    · exact Nat.zero_le _

/-- The copying starts at the root directories. -/
theorem formatted_at (valid : source.Valid) (same : source.toShape = shape) :
    At source (source.tableChain 0 ++ inner).length (roomDrives source shape hint) [] 0 0 0
      (inner.length + 0) := by
  have root := root_chain valid
  subst same
  have chain : ((roomDrives source source.toShape hint 1).tableChain 0).length =
      if source.fmt = .fat32 then 1 else 0 := by
    show (if source.fmt = .fat32 ∧ 0 = 0 then [2] else []).length = _
    rw [apply_ite List.length]
    exact if_congr (and_iff_left rfl) rfl rfl
  have card : (roomDrives source source.toShape hint 1).used.card =
      if source.fmt = .fat32 then 1 else 0 := by
    show (if source.fmt = .fat32 then ({2} : Finset Nat) else ∅).card = _
    rw [apply_ite Finset.card, Finset.card_singleton, Finset.card_empty]
  refine ⟨.root, Iff.rfl, .here, .here, fun _ => nofun, Nat.zero_lt_one, ?_, ?_, ?_⟩
  · rw [List.drop_zero, ClusterVolume.needs]
    exact Nat.add_le_add_right (Nat.zero_le _) _
  · rw [chain]
    exact root
  · rw [chain, card, List.length_append]
    omega

/-- A copy into a freshly formatted volume of the same shape does not run out of room, whatever the
driver takes for the cluster last used, and however far it comes. -/
theorem copyDir_room {layout : Layout} {build : Build} {fuel : Nat} {after : ClusterDrives}
    (valid : source.Valid) (spacious : source.Spacious) (same : source.toShape = layout.shape build)
    (run : (copyDir clustered fuel [0x30, 0x3a] [0x31, 0x3a]).Comes
      (roomDrives source (layout.shape build) hint) after) : RoomKept source after := by
  obtain ⟨clusters, ⟨inner, below, rfl⟩, distinct, holds⟩ := valid.chains
  have few := length_le_clusters distinct holds
  have some : source.maxClust = layout.nClst + 2 := congrArg Shape.maxClust same
  have settled := @formatted_settled source _ hint inner valid same
    fun c member => holds c (List.mem_append_left _ member)
  have position := @formatted_at source _ hint inner valid same
  have copied : ∀ fuel, Program.Guards (· = roomDrives source (layout.shape build) hint)
      (Settled source (source.tableChain 0 ++ inner).length)
      (copyDir clustered fuel [0x30, 0x3a] [0x31, 0x3a])
      fun _ => Settled source (source.tableChain 0 ++ inner).length := by
    intro fuel
    cases fuel with
    | zero => exact Program.guards_undefined fun state same => same ▸ settled
    | succ fuel =>
      have opened : Program.Guards (· = roomDrives source (layout.shape build) hint)
          (Settled source (source.tableChain 0 ++ inner).length) (clustered.fOpendir [0x30, 0x3a])
          fun outcome after => after = roomDrives source (layout.shape build) hint ∧
            outcome = .ok ⟨0, 0, 0⟩ := by
        rintro start rfl
        exact ⟨Function.update_eq_self _ _, rfl⟩
      rw [copyDir]
      refine Program.guards_orFail opened (fun code state failed => absurd failed.2 (by simp))
        fun dir => Program.guards_each fun state ready => ?_
      obtain ⟨rfl, same⟩ := ready
      obtain rfl := Except.ok.inj same
      exact Program.Guards.mono (copyEntries_room valid spacious (by omega) below settled position)
        (fun _ => id) (fun _ => id) fun _ _ done => done.1
  have ends := Program.Guards.comes (copied fuel) rfl run
  exact ⟨ends.calm, ends.within, _, ⟨inner, below, rfl⟩, ends.total⟩

end Rebuild

/-- Names that look-ups find at their own entries stand for one entry each. -/
theorem finds_own {volume : NamedVolume} {table index place : Nat} {entry found : DirEntry}
    (own : ∀ name, createName entry.shown = some name →
      dirFind (volume.labels table) name = some index)
    (finds : volume.Finds table entry.shown place found) : place = index := by
  obtain ⟨name, created, stops, _⟩ := finds
  exact Option.some.inj (stops.symm.trans (own name created))

/-- The disk of `nested`, with a cluster for its directory and one for its file. -/
def nestedDisk : ClusterVolume where
  toShape := ⟨.lp64, .fat12, 1, 1894, 512⟩
  names := nested
  used := {2, 3}
  tableChain table := if table = 1 then [2] else []
  fileChain table index := if table = 1 ∧ index = 0 then [3] else []
  lastClust := 3
  starved := false

theorem nestedDisk_directory {table : Nat} (directory : nestedDisk.Directory table) :
    table = 0 ∨ table = 1 := by
  obtain ⟨names, trail⟩ := directory
  induction trail with
  | root => exact .inl rfl
  | sub parent listed _ inductionHypothesis =>
    rcases inductionHypothesis with rfl | rfl
    · rw [List.mem_singleton.mp listed]
      exact .inr rfl
    · rw [List.mem_singleton.mp listed]
      exact .inl rfl

theorem nestedDisk_valid : nestedDisk.Valid where
  power := ⟨0, rfl⟩
  plain table directory entry member := by
    rcases nestedDisk_directory directory with rfl | rfl
    all_goals
      rw [List.mem_singleton.mp member]
      exact ⟨⟨by decide, by decide, by decide +kernel⟩, ⟨rfl, by decide, by decide +kernel⟩⟩
  distinct table directory index place entry found here finds := by
    have inside := (List.getElem?_eq_some_iff.mp here).1
    obtain ⟨_, _, _, present⟩ := finds
    have insideFound := (List.getElem?_eq_some_iff.mp present).1
    rcases nestedDisk_directory directory with rfl | rfl
    all_goals exact (Nat.lt_one_iff.mp insideFound).trans (Nat.lt_one_iff.mp inside).symm
  below table directory entry member kind := by
    rcases nestedDisk_directory directory with rfl | rfl
    · rw [List.mem_singleton.mp member]
      decide
    · rw [List.mem_singleton.mp member] at kind
      exact absurd kind (by decide)
  files table directory index entry here kind := by
    have inside := (List.getElem?_eq_some_iff.mp here).1
    rcases nestedDisk_directory directory with rfl | rfl
    all_goals
      obtain rfl := Nat.lt_one_iff.mp inside
      obtain rfl := Option.some.inj here
    · exact absurd kind (by decide)
    · decide
  root := ⟨fun _ => rfl, fun _ => ⟨by decide, rfl⟩⟩
  tables table directory := by
    rcases nestedDisk_directory directory with rfl | rfl <;> decide +kernel
  chains := by
    have file := @ClusterVolume.Below.file nestedDisk 1 0 _ _ rfl rfl (.ends rfl)
    have directory := @ClusterVolume.Below.dir nestedDisk 0 0 _ _ _ rfl rfl file (.ends rfl)
    exact ⟨[2, 3], ⟨[2, 3], directory, rfl⟩, by decide, by unfold Shape.Holds; decide⟩

/-- It is rebuilt without running out of room. -/
theorem copyDir_room_nested : ∃ after,
    (copyDir clustered 6 [0x30, 0x3a] [0x31, 0x3a]).Comes
      (roomDrives nestedDisk ((mkfsLayout .lp64 0 0 none 2000).shape .lp64) 0) after ∧
    RoomKept nestedDisk after := by
  have returns : ((copyDir clustered 6 [0x30, 0x3a] [0x31, 0x3a])
      (roomDrives nestedDisk ((mkfsLayout .lp64 0 0 none 2000).shape .lp64) 0)).toOption.map
        (·.1) = some 0 := by decide +kernel
  obtain ⟨result, after, run, _⟩ := Program.outcome_of_observed returns
  have spacious : nestedDisk.Spacious := fun table directory => by
    rcases nestedDisk_directory directory with rfl | rfl <;> decide +kernel
  exact ⟨after, .inl ⟨result, run⟩, copyDir_room nestedDisk_valid spacious (by decide +kernel)
    (.inl ⟨result, run⟩)⟩

/-- A file without contents and with a long name of one letter, apart from the first. -/
def longNamed (letter length : Nat) : DirEntry :=
  ⟨⟨UInt8.ofNat (0x41 + letter) ::
      [0x41, 0x41, 0x41, 0x41, 0x41, 0x7e, 0x31, 0x20, 0x20, 0x20],
    (0x61 + letter) :: List.replicate (length - 1) 0x61, false, false⟩, false, 0, []⟩

/-- A file without contents and with a short name that is the letter A with a diaeresis. -/
def umlaut : DirEntry := ⟨⟨0x8e :: List.replicate 10 0x20, [], false, false⟩, false, 0, []⟩

/-- A disk whose root directory has 26 files that fill its 512 slots. -/
def crowdedDisk : ClusterVolume where
  toShape := ⟨.lp64, .fat12, 1, 1894, 512⟩
  names :=
    { entries := fun table => if table = 0 then
        (List.range 24).map (longNamed · 253) ++ [longNamed 24 78, umlaut] else []
      fresh := 1 }
  used := ∅
  tableChain _ := []
  fileChain _ _ := []
  lastClust := 0
  starved := false

/-- What is to be checked of its entries one by one. -/
structure SoundEntry (labels : List Label) (index : Nat) (entry : DirEntry) : Prop where
  plain : entry.shown ≠ [] ∧ entry.shown.length < maxLfn ∧
    ∀ b ∈ entry.shown, endsSegment b = false
  short : entry.sfn.length = 11 ∧ entry.sfn.head? ≠ some 0x20 ∧
    ∀ c ∈ entry.sfn, c = 0x20 ∨ shortChar c = true
  own : ∀ name ∈ createName entry.shown, dirFind labels name = some index
  empty : entry.isDir = false ∧ entry.content = []

instance (labels : List Label) (index : Nat) (entry : DirEntry) :
    Decidable (SoundEntry labels index entry) :=
  decidable_of_iff
    ((entry.shown ≠ [] ∧ entry.shown.length < maxLfn ∧
        entry.shown.all (fun b => endsSegment b = false) = true) ∧
      (entry.sfn.length = 11 ∧ entry.sfn.head? ≠ some 0x20 ∧
        entry.sfn.all (fun c => c = 0x20 ∨ shortChar c = true) = true) ∧
      (∀ name ∈ createName entry.shown, dirFind labels name = some index) ∧
      (entry.isDir = false ∧ entry.content = []))
    (by
      simp only [List.all_eq_true, decide_eq_true_eq]
      exact ⟨fun h => ⟨h.1, h.2.1, h.2.2.1, h.2.2.2⟩, fun h => ⟨h.plain, h.short, h.own, h.empty⟩⟩)

theorem crowdedDisk_entry {index : Nat} {entry : DirEntry}
    (here : (crowdedDisk.names.entries 0)[index]? = some entry) :
    SoundEntry (crowdedDisk.names.labels 0) index entry := by
  have all : ∀ index < 26, ∀ entry ∈ (crowdedDisk.names.entries 0)[index]?,
      SoundEntry (crowdedDisk.names.labels 0) index entry := by decide +kernel
  exact all index (List.getElem?_eq_some_iff.mp here).1 entry here

theorem crowdedDisk_directory {table : Nat} (directory : crowdedDisk.Directory table) :
    table = 0 := by
  obtain ⟨names, trail⟩ := directory
  induction trail with
  | root => rfl
  | sub parent listed kind inductionHypothesis =>
    subst inductionHypothesis
    obtain ⟨index, here⟩ := List.getElem?_of_mem listed
    exact absurd (kind.symm.trans (crowdedDisk_entry here).empty.1) (by decide)

/-- Files without clusters take none. -/
theorem below_files {volume : ClusterVolume} {table index : Nat} (left : Nat)
    (regular : ∀ entry ∈ volume.names.entries table, entry.isDir = false)
    (empty : ∀ index, volume.fileChain table index = [])
    (few : (volume.names.entries table).length ≤ index + left) : volume.Below table index [] := by
  induction left generalizing index with
  | zero => exact .ends (List.getElem?_eq_none few)
  | succ left inductionHypothesis =>
    cases here : (volume.names.entries table)[index]? with
    | none => exact .ends here
    | some entry =>
      have file := ClusterVolume.Below.file here (regular entry (List.mem_of_getElem? here))
        (inductionHypothesis (by omega))
      rwa [empty] at file

theorem crowdedDisk_valid : crowdedDisk.Valid where
  power := ⟨0, rfl⟩
  plain table directory entry member := by
    obtain rfl := crowdedDisk_directory directory
    obtain ⟨index, here⟩ := List.getElem?_of_mem member
    obtain ⟨⟨nonempty, short, plain⟩, ⟨length, begins, chars⟩, _⟩ := crowdedDisk_entry here
    exact ⟨⟨nonempty, short, plain⟩, ⟨length, begins, chars⟩⟩
  distinct table directory index place entry found here finds := by
    obtain rfl := crowdedDisk_directory directory
    exact finds_own (crowdedDisk_entry here).own finds
  below table directory entry member kind := by
    obtain rfl := crowdedDisk_directory directory
    obtain ⟨index, here⟩ := List.getElem?_of_mem member
    exact absurd (kind.symm.trans (crowdedDisk_entry here).empty.1) (by decide)
  files table directory index entry here _ := by
    obtain rfl := crowdedDisk_directory directory
    rw [(crowdedDisk_entry here).empty.2]
    exact ⟨by decide, Nat.zero_le _⟩
  root := ⟨fun _ => rfl, fun _ => ⟨by decide, rfl⟩⟩
  tables table directory := by
    obtain rfl := crowdedDisk_directory directory
    decide +kernel
  chains := by
    refine ⟨[], ⟨[], below_files 26 (fun entry member => ?_) (fun _ => rfl) (Nat.le_refl _), rfl⟩,
      .nil, Shape.holds_nil⟩
    obtain ⟨index, here⟩ := List.getElem?_of_mem member
    exact (crowdedDisk_entry here).empty.1

/-- Its copy finds the root directory full at the last file, which takes a second slot there. -/
theorem not_copyDir_room : ¬ ∀ (source : ClusterVolume) (build : Build) (fmt : Option FatType)
    (sectorCount hint fuel : Nat) (after : ClusterDrives), source.Valid →
      source.toShape = (mkfsLayout build 0 0 fmt sectorCount).shape build →
      (copyDir clustered fuel [0x30, 0x3a] [0x31, 0x3a]).Comes
        (roomDrives source ((mkfsLayout build 0 0 fmt sectorCount).shape build) hint) after →
      (after 1).starved = false := by
  intro always
  have starves : ((copyDir clustered 40 [0x30, 0x3a] [0x31, 0x3a])
      (roomDrives crowdedDisk ((mkfsLayout .lp64 0 0 none 2000).shape .lp64) 0)).toOption.map
        (fun done => (done.2 1).starved) = some true := by decide +kernel
  obtain ⟨result, after, run, full⟩ := Program.outcome_of_observed starves
  have calm := always crowdedDisk .lp64 none 2000 0 40 after crowdedDisk_valid (by decide +kernel)
    (.inl ⟨result, run⟩)
  exact absurd (full.symm.trans calm) (by decide)

end Hdfmonkey
