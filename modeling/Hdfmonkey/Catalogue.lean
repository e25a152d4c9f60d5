/-
This file says when the tables of a volume and its FAT agree: every entry that a search
can stop at heads a list of clusters of its own, that of a table if it is a directory and
else that of a file, and there are no other lists. On such a volume `follow_path` stays
in tables and stops at an entry that is shown, or has looked through the table that the
last name of the path belongs into.

The owner of a list of clusters is named by the way it is found: a table by the number
that its entries give as its start, which is zero for the root directory, and a file by
the place of its entry.
-/

import Hdfmonkey.DirRegister

namespace Hdfmonkey

namespace Ff

open Program

/-- What clusters belong to. -/
inductive Holder where
  | table (start : Nat)
  | file (place : Nat × Nat)
  deriving DecidableEq

/-- The sector of an entry of a table, and its place there. -/
def slotPlace (fs : Fatfs) (cells : List Nat) (index : Nat) : Nat × Nat :=
  (tableSector fs cells (index / 16), index % 16 * 32)

/-- An entry names a table, or the first cluster of the file at its place. -/
def Heads (tables : Nat → Prop) (allocation : Allocation Holder) (place : Nat × Nat)
    (entry : Buffer) : Prop :=
  if entry dirAttr &&& amDir ≠ 0 then tables (startCluster entry 0)
  else startCluster entry 0 = (allocation.clusters (.file place)).headD 0

/-- A volume whose tables and whose FAT agree. -/
structure Catalogued (vol : Nat) (volume : VolumeContainer) (size : Nat) (build : Build)
    (fmt : FatType) (counts : Prop) (fs : Fatfs) (disk : Nat → Buffer) (machine : Machine)
    (tables : Nat → Prop) (allocation : Allocation Holder) : Prop where
  allots : Allots vol volume size build fmt counts fs disk machine allocation
  area : DataArea volume size fs
  mode : volume.fd.writeable = true
  power : ∃ bits, fs.csize = 2 ^ bits
  root : tables 0
  begins : ∀ start, tables start → (if start = 0 ∧ fmt = .fat32 then fs.dirbase else start) =
    (allocation.clusters (.table start)).headD 0
  fixed : ∀ start, tables start → allocation.clusters (.table start) = [] →
    fs.fatbase + fs.nFats * fs.sectsFat ≤ fs.dirbase ∧
      fs.dirbase + fs.nRootdir / 16 ≤ fs.database ∧ fs.nRootdir % 16 = 0
  nonempty : ∀ start, tables start → 0 < tableLength fs (allocation.clusters (.table start))
  entries : ∀ start index, tables start →
    ShownAt fs (allocation.clusters (.table start)) disk index →
    Heads tables allocation (slotPlace fs (allocation.clusters (.table start)) index)
      (tableSlot fs (allocation.clusters (.table start)) disk index)
  files : ∀ place, allocation.clusters (.file place) ≠ [] → ∃ start index, tables start ∧
    ShownAt fs (allocation.clusters (.table start)) disk index ∧
    place = slotPlace fs (allocation.clusters (.table start)) index

section Paths

variable {vol : Nat} {volume : VolumeContainer} {size : Nat} {build : Build} {fmt : FatType}
  {counts : Prop} {fs : Fatfs} {disk : Nat → Buffer} {machine after : Machine}
  {tables : Nat → Prop} {allocation : Allocation Holder} {start : Nat} {dj : Dir} {path : FatPath}
  {result : FResult × Dir}

theorem Catalogued.onDirectory
    (catalogued : Catalogued vol volume size build fmt counts fs disk machine tables allocation)
    (listed : tables start) :
    OnDirectory vol volume size build fmt counts fs disk machine allocation (Holder.table start)
      start :=
  ⟨catalogued.allots, catalogued.area, catalogued.mode, catalogued.power,
    catalogued.begins start listed, catalogued.fixed start listed, catalogued.nonempty start listed⟩

/-- The window may be anywhere. -/
theorem Catalogued.windowed {win : Buffer} {winsect : Nat} {wflag : Bool}
    (catalogued : Catalogued vol volume size build fmt counts fs disk machine tables allocation)
    (sees : Sees vol volume size build { fs with win, winsect, wflag } disk after) :
    Catalogued vol volume size build fmt counts { fs with win, winsect, wflag } disk after tables
      allocation :=
  ⟨catalogued.allots.data sees fun _ _ => rfl, { catalogued.area with }, catalogued.mode,
    catalogued.power, catalogued.root, catalogued.begins, catalogued.fixed, catalogued.nonempty,
    fun start index listed shown => catalogued.entries start index listed { shown with },
    fun place some => (catalogued.files place some).imp fun _ => .imp fun _ =>
      .imp_right (.imp_left fun shown => { shown with })⟩

/-- The buffer for long names may hold anything. -/
theorem Catalogued.named
    (catalogued : Catalogued vol volume size build fmt counts fs disk machine tables allocation)
    (lfnBuf : Nat → Nat) :
    Catalogued vol volume size build fmt counts fs disk { machine with lfnBuf } tables
      allocation :=
  { catalogued with
    allots := { catalogued.allots with
      sees := { catalogued.allots.sees with
        attends := { catalogued.allots.sees.attends with } } } }

/-- The start cluster of an entry in the window. -/
theorem Dir.Shows.startCluster {win slot : Buffer} (shows : dj.Shows win slot) :
    startCluster win dj.entry = startCluster slot 0 := by
  unfold Ff.startCluster
  rw [shows.loadWord (by decide), shows.loadWord (by decide), Nat.zero_add, Nat.zero_add]

/-- What is known of the object that a path leads to. -/
structure Led (vol : Nat) (fs : Fatfs) (disk : Nat → Buffer) (tables : Nat → Prop)
    (allocation : Allocation Holder) (result : FResult × Dir) : Prop where
  drive : result.2.fs = vol
  table : tables result.2.sclust
  name : result.1 = .noFile → result.2.fn.fn.length = 11
  found : result.1 = .ok → result.2.dir = none ∨ ∃ index,
    Found vol fs (allocation.clusters (.table result.2.sclust)) result.2.sclust disk result.2 index

/-- `follow_path` goes from table to table, by induction on its turns. -/
theorem followSegments_leads {fuel : Nat}
    (catalogued : Catalogued vol volume size build fmt counts fs disk machine tables allocation)
    (drive : dj.fs = vol) (listed : tables dj.sclust)
    (run : (followSegments fuel dj path).Outcome machine result after) :
    ∃ win winsect wflag, Catalogued vol volume size build fmt counts { fs with win, winsect, wflag }
      disk after tables allocation ∧
      (result.1 ≠ .invalidName →
        Led vol { fs with win, winsect, wflag } disk tables allocation result) := by
  induction fuel generalizing fs machine dj path with
  | zero => exact absurd run outcome_undefined
  | succ fuel inductionHypothesis =>
    rw [followSegments] at run
    dsimp only at run
    obtain ⟨_, _, stored, run⟩ := outcome_bind.mp run
    obtain rfl := outcome_modify.mp stored
    have named := catalogued.named
      (segmentLfn (path.takeWhile fun b => !endsSegment b) machine.lfnBuf)
    cases created : createName (path.takeWhile fun b => !endsSegment b) with
    | none =>
      rw [created] at run
      obtain ⟨rfl, rfl⟩ := outcome_pure.mp run
      exact ⟨_, _, _, named, fun valid => absurd rfl valid⟩
    | some fn =>
      rw [created] at run
      obtain ⟨found, looked, finding, run⟩ := outcome_bind.mp run
      have directory := named.onDirectory listed
      obtain ⟨stop, win, winsect, wflag, _, onTableLooked, _, object, missed, stops⟩ :=
        dirFind_walks directory.onTable (by exact drive) (by exact rfl) directory.nonempty finding
      obtain ⟨same, sclust, name⟩ := object
      have looking := named.windowed onTableLooked.sees
      have table : tables found.2.sclust := sclust ▸ listed
      by_cases failed : found.1 ≠ .ok
      · rw [if_pos failed] at run
        obtain ⟨rfl, rfl⟩ := outcome_pure.mp run
        refine ⟨_, _, _, looking, fun _ => ⟨same, table, fun _ => ?_, fun good => ?_⟩⟩
        · dsimp only
          rw [name]
          exact length_fn created
        · dsimp only at good
          split_ifs at good
          exact absurd good failed
      rw [if_neg failed] at run
      obtain ⟨index, rfl⟩ : ∃ index, stop = some index := by
        cases stop with
        | none => exact absurd (missed rfl) (by rw [not_not.mp failed]; decide)
        | some index => exact ⟨index, rfl⟩
      have at' := (stops index rfl).2
      split_ifs at run with last
      · obtain ⟨rfl, rfl⟩ := outcome_pure.mp run
        exact ⟨_, _, _, looking, fun _ => ⟨same, table, fun _ => name ▸ length_fn created, fun _ =>
          .inr ⟨index, sclust.symm ▸ at'⟩⟩⟩
      · rw [drive, outcome_fatfs_bind onTableLooked.sees.registered] at run
        dsimp only at run
        split_ifs at run with file
        · obtain ⟨rfl, rfl⟩ := outcome_pure.mp run
          exact ⟨_, _, _, looking, fun _ => ⟨same, table, fun missing => (by cases missing),
            fun good => (by cases good)⟩⟩
        · have heads := looking.entries dj.sclust index listed at'.shown
          rw [Heads, ← at'.shows dirAttr (by decide), if_pos file,
            ← at'.shows.startCluster] at heads
          have goesOn := inductionHypothesis looking (by exact same) (by exact heads) run
          exact goesOn

theorem followPath_leads
    (catalogued : Catalogued vol volume size build fmt counts fs disk machine tables allocation)
    (drive : dj.fs = vol) (run : (followPath dj path).Outcome machine result after) :
    ∃ win winsect wflag, Catalogued vol volume size build fmt counts { fs with win, winsect, wflag }
      disk after tables allocation ∧
      (result.1 ≠ .invalidName →
        Led vol { fs with win, winsect, wflag } disk tables allocation result) := by
  rw [followPath] at run
  generalize (if (path.head?.any fun b => b = 0x2f || b = 0x5c) = true then path.tail else path) =
    inner at run
  dsimp only at run
  split_ifs at run
  · have directory := catalogued.onDirectory catalogued.root
    obtain ⟨dj', win, winsect, wflag, sought, seeks, onTable, _, same⟩ :=
      @dirSeek_comes _ _ _ _ _ _ _ _ _ _ 0 { dj with sclust := 0 } directory.onTable drive rfl
        directory.nonempty
    obtain ⟨_, _, seeking, rest⟩ := outcome_bind.mp run
    obtain ⟨rfl, rfl⟩ := seeking.unique seeks
    obtain ⟨rfl, rfl⟩ := outcome_pure.mp rest
    refine ⟨win, winsect, wflag, catalogued.windowed onTable.sees, fun _ => ⟨?_, ?_,
      fun missing => (by cases missing), fun _ => .inl rfl⟩⟩
    · dsimp only
      rw [same]
      exact drive
    · dsimp only
      rw [same]
      exact catalogued.root
  · exact followSegments_leads catalogued (by exact drive) (by exact catalogued.root) run

end Paths

end Ff

end Hdfmonkey
