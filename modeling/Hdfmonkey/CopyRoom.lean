/-
This file shows that copying a directory does not run out of room on a destination of the
same shape.

The source is any volume whose tables and files lie in chains that hold them, no cluster
in two of them. What is in use on the destination and what is still to come stays within
the clusters of the source, over all the directories that are being copied at a time: a
directory of the copy takes the slots that its names took on the source, its table is
stretched only for slots in use, and a file takes the clusters of its bytes.
-/

import Hdfmonkey.ClusterCalls

namespace Hdfmonkey

open NamedVolume

/-! ### The source -/

namespace ClusterVolume

/-- The directories of a volume, with the names under which they are shown from the root on. -/
inductive Trail (volume : ClusterVolume) : List FatPath → Nat → Prop where
  | root : volume.Trail [] 0
  | sub {names : List FatPath} {table : Nat} {entry : DirEntry} (parent : volume.Trail names table)
      (listed : entry ∈ volume.names.entries table) (directory : entry.isDir = true) :
    volume.Trail (names ++ [entry.shown]) entry.table

def Directory (volume : ClusterVolume) (table : Nat) : Prop := ∃ names, volume.Trail names table

/-- The clusters of the entries of a directory from an index on, with all that is below them. -/
inductive Below (volume : ClusterVolume) : (table index : Nat) → List Nat → Prop where
  | ends {table index : Nat} (none : (volume.names.entries table)[index]? = none) :
    volume.Below table index []
  | file {table index : Nat} {entry : DirEntry} {clusters : List Nat}
      (here : (volume.names.entries table)[index]? = some entry) (regular : entry.isDir = false)
      (others : volume.Below table (index + 1) clusters) :
    volume.Below table index (volume.fileChain table index ++ clusters)
  | dir {table index : Nat} {entry : DirEntry} {inner clusters : List Nat}
      (here : (volume.names.entries table)[index]? = some entry) (directory : entry.isDir = true)
      (inside : volume.Below entry.table 0 inner)
      (others : volume.Below table (index + 1) clusters) :
    volume.Below table index (volume.tableChain entry.table ++ (inner ++ clusters))

/-- The clusters of all that is on a volume. -/
def Owns (volume : ClusterVolume) (clusters : List Nat) : Prop :=
  ∃ inner, volume.Below 0 0 inner ∧ clusters = volume.tableChain 0 ++ inner

/-- A volume that is in order: its directories form a tree, every chain holds what lies in it, no
cluster belongs to two chains, and every name stands for one entry. -/
structure Valid (volume : ClusterVolume) : Prop where
  power : ∃ k, volume.csize = 2 ^ k
  plain : ∀ table, volume.Directory table → ∀ entry ∈ volume.names.entries table,
    PlainName entry.shown ∧ ShortName entry.sfn
  distinct : ∀ table, volume.Directory table → ∀ (index place : Nat) (entry found : DirEntry),
    (volume.names.entries table)[index]? = some entry →
      volume.names.Finds table entry.shown place found → place = index
  below : ∀ table, volume.Directory table → ∀ entry ∈ volume.names.entries table,
    entry.isDir = true → entry.table ≠ 0
  files : ∀ table, volume.Directory table → ∀ (index : Nat) (entry : DirEntry),
    (volume.names.entries table)[index]? = some entry → entry.isDir = false →
      entry.content.length < 2 ^ 32 ∧ entry.content.length ≤
        (volume.fileChain table index).length * volume.clusterBytes
  root : volume.isStatic 0 ↔ volume.tableChain 0 = []
  tables : ∀ table, volume.Directory table → volume.slots table ≤ 2 ^ 16 ∧
    volume.slots table ≤ volume.tableSlots table (volume.tableChain table).length
  chains : ∃ clusters, volume.Owns clusters ∧ clusters.Nodup ∧
    volume.Holds clusters

/-- The slots that the entries of a directory take in a copy at most. -/
def needs (volume : ClusterVolume) (table : Nat) : Nat :=
  dotSlots table + ((volume.names.labels table).map Label.copySlots).sum

/-- Every table has a slot left for each of its entries with an extended short name only. -/
def Spacious (volume : ClusterVolume) : Prop :=
  ∀ table, volume.Directory table → volume.needs table ≤ 2 ^ 16 ∧
    volume.needs table ≤ volume.tableSlots table (volume.tableChain table).length

end ClusterVolume

/-! ### The destination -/

/-- A volume that was just formatted. What the driver takes for the cluster last used may be
anything. -/
def formatted (shape : Shape) (hint : Nat) : ClusterVolume where
  toShape := shape
  names := ⟨fun _ => [], 1⟩
  used := if shape.fmt = .fat32 then {2} else ∅
  tableChain table := if shape.fmt = .fat32 ∧ table = 0 then [2] else []
  fileChain _ _ := []
  lastClust := hint
  starved := false

/-- The drives when the copying starts. -/
def roomDrives (source : ClusterVolume) (shape : Shape) (hint : Nat) : ClusterDrives :=
  fun drive => if drive = 0 then source else formatted shape hint

/-- The names on the drives. -/
def namesOf (state : ClusterDrives) : NamedDrives := fun drive => (state drive).names

/-- A directory of the copy takes no more slots and clusters than one of the source that is shown
under the same names. -/
def Within (source copy : ClusterVolume) (target : Nat) : Prop :=
  ∃ names table, source.Trail names table ∧ copy.names.Leads 0 names target ∧
    copy.slots target ≤ source.needs table ∧
    (copy.tableChain target).length ≤ (source.tableChain table).length

/-- The copy has not run out of room so far, and has taken no more than the source. -/
structure Settled (source : ClusterVolume) (total : Nat) (state : ClusterDrives) : Prop where
  kept : state 0 = source
  shape : (state 1).toShape = source.toShape
  calm : (state 1).starved = false
  ordered : (state 1).names.Ordered
  tables : ∀ table, source.Holds ((state 1).tableChain table)
  files : ∀ table index, source.Holds ((state 1).fileChain table index)
  begun : ∀ table < (state 1).names.fresh, ¬ (state 1).isStatic table →
    (state 1).tableChain table ≠ []
  within : ∀ target < (state 1).names.fresh, Within source (state 1) target
  total : (state 1).used.card ≤ total

/-- Where the copy is: the entries of a directory of the source from an index on go into one of the
destination. There is room for their slots, and for the clusters of the table and others to come. -/
structure At (source : ClusterVolume) (total : Nat) (state : ClusterDrives) (names : List FatPath)
    (table target index ahead : Nat) : Prop where
  trail : source.Trail names table
  kind : table = 0 ↔ target = 0
  sourceLeads : source.names.Leads 0 names table
  leads : (state 1).names.Leads 0 names target
  plains : ∀ name ∈ names, PlainName name
  present : target < (state 1).names.fresh
  slots : (state 1).slots target +
    (((source.names.labels table).drop index).map Label.copySlots).sum ≤ source.needs table
  few : ((state 1).tableChain target).length ≤ (source.tableChain table).length
  budget : (state 1).used.card +
    ((source.tableChain table).length - ((state 1).tableChain target).length) + ahead ≤ total

/-- A part of a run that works on a directory of the destination: the other tables stay as long as
they are. -/
structure Passed (before after : ClusterDrives) (target : Nat) : Prop where
  reached : Reached (namesOf before) (namesOf after) target
  chains : ∀ table < (before 1).names.fresh, table ≠ target →
    (after 1).tableChain table = (before 1).tableChain table

theorem At.directory {source : ClusterVolume} {total : Nat} {state : ClusterDrives}
    {names : List FatPath} {table target index ahead : Nat}
    (position : At source total state names table target index ahead) : source.Directory table :=
  ⟨names, position.trail⟩

/-! ### Steps of a copy -/

section Steps

variable {source : ClusterVolume} {total : Nat} {state before middle after : ClusterDrives}
  {names : List FatPath} {table target index ahead : Nat}

theorem slots_eq {volume other : ClusterVolume} (same : other.names.labels table =
    volume.names.labels table) : other.slots table = volume.slots table := by
  rw [ClusterVolume.slots, ClusterVolume.slots, same]

theorem labels_store {volume : NamedVolume} {place : Nat} {content : List UInt8} :
    (volume.store target place content).labels table = volume.labels table := by
  by_cases same : table = target
  · subst same
    have kept := congrArg (List.map DirEntry.toLabel)
      (@skeleton_modify (volume.entries table) place content)
    rw [List.map_map, List.map_map] at kept
    rw [NamedVolume.labels, NamedVolume.labels, store, entries_change_self]
    exact kept
  · rw [NamedVolume.labels, NamedVolume.labels, store, entries_change_of_ne same]

theorem isStatic_iff {volume other : ClusterVolume} (same : other.toShape = volume.toShape) :
    other.isStatic table ↔ volume.isStatic table := by
  rw [ClusterVolume.isStatic, ClusterVolume.isStatic,
    show other.fmt = volume.fmt from congrArg Shape.fmt same]

theorem namesOf_update {next : ClusterVolume} :
    namesOf (Function.update before 1 next) = Function.update (namesOf before) 1 next.names := by
  funext drive
  rw [namesOf]
  by_cases same : drive = 1
  · subst same
    rw [Function.update_self, Function.update_self]
  · rw [Function.update_of_ne same, Function.update_of_ne same]
    rfl

theorem Passed.refl (ordered : (before 1).names.Ordered) : Passed before before target :=
  ⟨.refl ordered, fun _ _ _ => rfl⟩

theorem Passed.trans {later : Nat} (first : Passed before middle target)
    (second : Passed middle after later)
    (inside : later = target ∨ (before 1).names.fresh ≤ later) : Passed before after target where
  reached := first.reached.trans second.reached inside
  chains d old different := by
    have fresh : (before 1).names.fresh ≤ (middle 1).names.fresh := first.reached.fresh
    rw [second.chains d (by omega) (by omega), first.chains d old different]

/-- A directory that is left alone. -/
theorem Within.transfer {copy later : ClusterVolume} (within : Within source copy target)
    (grown : Grown copy.names later.names)
    (entries : later.names.entries target = copy.names.entries target)
    (chain : later.tableChain target = copy.tableChain target) : Within source later target := by
  obtain ⟨names, table, trail, leads, slots, few⟩ := within
  have labels : later.names.labels target = copy.names.labels target :=
    congrArg (List.map DirEntry.toLabel) entries
  exact ⟨names, table, trail, grown.leads leads, by rwa [slots_eq labels], chain ▸ few⟩

/-- Where the copy is once it has passed some entries. -/
theorem At.advance {index' ahead' later : Nat}
    (position : At source total before names table target index ahead)
    (passed : Passed before after later)
    (slots : (after 1).slots target +
      (((source.names.labels table).drop index').map Label.copySlots).sum ≤ source.needs table)
    (few : ((after 1).tableChain target).length ≤ (source.tableChain table).length)
    (budget : (after 1).used.card +
      ((source.tableChain table).length - ((after 1).tableChain target).length) + ahead' ≤ total) :
    At source total after names table target index' ahead' where
  trail := position.trail
  kind := position.kind
  sourceLeads := position.sourceLeads
  leads := passed.reached.grown.leads position.leads
  plains := position.plains
  present := position.present.trans_le passed.reached.fresh
  slots := slots
  few := few
  budget := budget

/-- A step that changes one directory of the destination, and the ones it makes. -/
theorem settled_step {next : ClusterVolume} {index' ahead' : Nat}
    (settled : Settled source total before)
    (position : At source total before names table target index ahead)
    (shape : next.toShape = (before 1).toShape) (starved : next.starved = (before 1).starved)
    (reached : Reached (namesOf before) (Function.update (namesOf before) 1 next.names) target)
    (others : ∀ d < (before 1).names.fresh, d ≠ target →
      next.tableChain d = (before 1).tableChain d)
    (longer : ((before 1).tableChain target).length ≤ (next.tableChain target).length)
    (tables : ∀ d, source.Holds (next.tableChain d))
    (files : ∀ d place, source.Holds (next.fileChain d place))
    (new : ∀ d, (before 1).names.fresh ≤ d → d < next.names.fresh →
      next.tableChain d ≠ [] ∧ Within source next d)
    (slots : next.slots target +
      (((source.names.labels table).drop index').map Label.copySlots).sum ≤ source.needs table)
    (few : (next.tableChain target).length ≤ (source.tableChain table).length)
    (budget : next.used.card +
      ((source.tableChain table).length - (next.tableChain target).length) + ahead' ≤ total) :
    Settled source total (Function.update before 1 next) ∧
      Passed before (Function.update before 1 next) target ∧
      At source total (Function.update before 1 next) names table target index' ahead' := by
  have written : Function.update before 1 next 1 = next := Function.update_self _ _ _
  have passed : Passed before (Function.update before 1 next) target :=
    ⟨by rw [namesOf_update]; exact reached, fun d old different => by
      rw [written]; exact others d old different⟩
  have grown : Grown (before 1).names next.names := by
    have grown := passed.reached.grown
    rwa [namesOf_update, Function.update_self] at grown
  have ordered : next.names.Ordered := by
    have ordered := reached.ordered
    rwa [Function.update_self] at ordered
  have frame : ∀ d < (before 1).names.fresh, d ≠ target →
      next.names.entries d = (before 1).names.entries d := by
    have frame := reached.frame
    rw [Function.update_self] at frame
    exact frame
  have advanced := @At.advance _ _ _ (Function.update before 1 next) _ _ _ _ _ index' ahead' _
    position passed (by rw [written]; exact slots) (by rw [written]; exact few)
    (by rw [written]; exact budget)
  refine ⟨?_, passed, advanced⟩
  constructor
  · rw [Function.update_of_ne (by decide)]
    exact settled.kept
  all_goals rw [written]
  · exact shape.trans settled.shape
  · exact starved.trans settled.calm
  · exact ordered
  · exact tables
  · exact files
  · intro d present dynamic
    by_cases old : d < (before 1).names.fresh
    · have begun := settled.begun d old fun static => dynamic ((isStatic_iff shape).mpr static)
      by_cases same : d = target
      · subst same
        exact List.length_pos_iff.mp ((List.length_pos_iff.mpr begun).trans_le longer)
      · rw [others d old same]
        exact begun
    · exact (new d (Nat.not_lt.mp old) present).1
  · intro d present
    by_cases old : d < (before 1).names.fresh
    · by_cases same : d = target
      · subst same
        have leads := advanced.leads
        rw [written] at leads
        exact ⟨names, table, position.trail, leads, by omega, few⟩
      · exact (settled.within d old).transfer grown (frame d old same) (others d old same)
    · exact (new d (Nat.not_lt.mp old) present).2
  · omega

end Steps

/-! ### The calls of a copy -/

section Calls

variable {source : ClusterVolume} {total : Nat} {before after : ClusterDrives}
  {names : List FatPath} {table target index ahead : Nat} {entry : DirEntry} {label : Label}

theorem clustered_fMkdir (path : FatPath) :
    clustered.fMkdir path = onPath path fun _ => ClusterVolume.fMkdir := rfl

theorem guards_onPath {Result : Type} {path : FatPath} {drive : Nat} {spelled : List FatPath}
    {during : ClusterDrives → Prop} {after : Except FResult Result → ClusterDrives → Prop}
    {call : Nat → FatPath → ClusterVolume → Except FResult Result × ClusterVolume}
    (spells : Spells path drive spelled) (inside : drive < drives)
    (holds : after (call drive (logicalDrive path).2 (before drive)).1
      (Function.update before drive (call drive (logicalDrive path).2 (before drive)).2)) :
    Program.Guards (· = before) during (onPath path call) after := by
  obtain ⟨rfl, _⟩ := spells
  rintro start rfl
  rw [onPath, if_neg (Nat.not_le.mpr inside)]
  exact holds

theorem Label.slots_pos : 0 < label.slots := by
  rw [Label.slots]
  split_ifs
  · exact Nat.one_pos
  · exact Nat.div_pos (by omega) (by decide)

/-- The slots of an entry and of those behind it. -/
theorem sum_drop_labels {volume : NamedVolume} {count : Label → Nat}
    (here : (volume.entries table)[index]? = some entry) :
    (((volume.labels table).drop index).map count).sum =
      count entry.toLabel + (((volume.labels table).drop (index + 1)).map count).sum := by
  obtain ⟨inside, rfl⟩ := List.getElem?_eq_some_iff.mp here
  have bound : index < (volume.labels table).length := by
    rw [NamedVolume.labels, List.length_map]
    exact inside
  rw [List.drop_eq_getElem_cons bound, List.map_cons, List.sum_cons]
  exact congrArg (fun label => count label + _) (List.getElem_map _)

/-- The slots that a table of the source has are those of the table it is copied to. -/
theorem At.tableSlots {volume : ClusterVolume} {clusters : Nat}
    (position : At source total before names table target index ahead)
    (shape : volume.toShape = source.toShape) :
    volume.tableSlots target clusters = source.tableSlots table clusters := by
  have fmt : volume.fmt = source.fmt := congrArg Shape.fmt shape
  have kind : volume.isStatic target ↔ source.isStatic table := by
    rw [ClusterVolume.isStatic, ClusterVolume.isStatic, fmt, position.kind]
  rw [ClusterVolume.tableSlots, ClusterVolume.tableSlots, shape]
  exact if_congr kind rfl rfl

/-- The slots of the next entry can be reserved. -/
theorem reserve_room {volume : ClusterVolume} (valid : source.Valid) (spacious : source.Spacious)
    (settled : Settled source total before)
    (position : At source total before names table target index ahead)
    (here : (source.names.entries table)[index]? = some entry)
    (admits : Admits ((before 1).names.labels target) entry.shown label)
    (shape : volume.toShape = source.toShape) (named : volume.names = (before 1).names)
    (chains : volume.tableChain = (before 1).tableChain)
    (room : volume.used.card + ((source.tableChain table).length -
      ((before 1).tableChain target).length) + 2 ≤ source.maxClust) :
    ∃ reserved, volume.reserve target label.slots = (.ok (), reserved) ∧
      ClusterVolume.Stretched target volume reserved ∧
      (reserved.tableChain target).length ≤ (source.tableChain table).length ∧
      (before 1).slots target + label.slots +
        (((source.names.labels table).drop (index + 1)).map Label.copySlots).sum ≤
          source.needs table := by
  obtain ⟨_, short⟩ := valid.plain table position.directory entry (List.mem_of_getElem? here)
  have slots := position.slots
  have entrySlots := slots_le short admits
  rw [sum_drop_labels here] at slots
  have same : volume.slots target = (before 1).slots target := slots_eq (by rw [named])
  obtain ⟨narrow, fits⟩ := spacious table position.directory
  have begun : ¬ volume.isStatic target → volume.tableChain target ≠ [] := by
    rw [chains]
    exact fun dynamic => settled.begun target position.present fun static =>
      dynamic ((isStatic_iff (shape.trans settled.shape.symm)).mpr static)
  obtain ⟨reserved, done, stretched, few⟩ := @ClusterVolume.reserve_ok volume target
    (source.tableChain table).length label.slots
    (by rw [shape]; exact valid.power) (by rw [chains, shape]; exact settled.tables target)
    begun Label.slots_pos (by omega) (by rw [position.tableSlots shape]; omega)
    (by rw [chains]; exact position.few) (by rw [chains, shape]; exact room)
  exact ⟨reserved, done, stretched, few, by omega⟩

theorem slots_append {volume other : ClusterVolume} {new : DirEntry}
    (entries : other.names.entries target = volume.names.entries target ++ [new]) :
    other.slots target = volume.slots target + new.slots := by
  rw [ClusterVolume.slots, ClusterVolume.slots, NamedVolume.labels, NamedVolume.labels, entries,
    List.map_append, List.map_append, List.sum_append, Nat.add_assoc]
  rfl

/-- What opening a file of the destination leads to. -/
def Opened (source : ClusterVolume) (total : Nat) (before : ClusterDrives) (names : List FatPath)
    (table target index ahead : Nat) (outcome : Except FResult NamedFile)
    (after : ClusterDrives) : Prop :=
  Settled source total after ∧ ∀ file, outcome = .ok file →
    ∃ place, file = ⟨1, target, place, [], some []⟩ ∧ (after 1).fileChain target place = [] ∧
      Passed before after target ∧ At source total after names table target index ahead

/-- A file of the destination is opened. -/
theorem fOpen_room (valid : source.Valid) (spacious : source.Spacious)
    (bound : total + 2 ≤ source.maxClust) (settled : Settled source total before)
    (position : At source total before names table target index ahead)
    (here : (source.names.entries table)[index]? = some entry) :
    Program.Guards (· = before) (Settled source total)
      (clustered.fOpen (destinationPath (names ++ [entry.shown])) .createAlways)
      (Opened source total before names table target (index + 1) ahead) := by
  obtain ⟨plain, _⟩ := valid.plain table position.directory entry (List.mem_of_getElem? here)
  have stays : ∀ code, Opened source total before names table target (index + 1) ahead
      (.error code) (Function.update before 1 (before 1)) := fun code => by
    rw [Function.update_eq_self]
    exact ⟨settled, nofun⟩
  have budget := position.budget
  refine guards_onPath (spells_destination _) (by decide) ?_
  dsimp only [ClusterVolume.fOpen, ClusterVolume.openAlways]
  rw [(spells_destination _).follow position.leads (segments position.plains) plain.segment]
  cases child : (before 1).names.child target entry.shown with
  | error code => exact stays code
  | ok followed =>
    cases followed with
    | root => exact stays _
    | missing table' name =>
      obtain ⟨rfl, admits⟩ := child_missing child
      dsimp only
      split
      · exact stays _
      · rename_i label registered
        obtain ⟨reserved, done, stretched, few, slots⟩ := reserve_room valid spacious settled
          position here (admits label registered) settled.shape rfl rfl (by omega)
        rw [done]
        dsimp only
        generalize next : ({ reserved.setChain table' ((before 1).names.entries table').length []
          with names := (before 1).names.change table' (· ++ [⟨label, false, 0, []⟩]) } :
            ClusterVolume) = opened
        have taken := stretched.taken
        have longer := stretched.longer
        have entries : opened.names.entries table' =
            (before 1).names.entries table' ++ [⟨label, false, 0, []⟩] := by
          rw [← next]
          exact Function.update_self _ _ _
        have tables : opened.tableChain = reserved.tableChain := by rw [← next]; rfl
        have used : opened.used = reserved.used := by rw [← next]; rfl
        obtain ⟨settled', passed, position'⟩ := @settled_step _ _ _ _ _ _ _ _ opened (index + 1)
          ahead settled position (by rw [← next]; exact stretched.shape)
          (by rw [← next]; exact stretched.starved)
          (by
            rw [← next]
            exact reached_append settled.ordered position.present (Nat.le_refl _) nofun)
          (fun d _ different => by rw [tables]; exact stretched.others d different)
          (by rw [tables]; exact longer)
          (fun d => by
            have holds := stretched.tables (by rw [settled.shape]; exact settled.tables) d
            rwa [settled.shape, ← tables] at holds)
          (fun d place => by
            rw [← next]
            refine ClusterVolume.holds_setChain (fun d place => ?_) Shape.holds_nil d place
            rw [stretched.fileChain]
            exact settled.files d place)
          (fun d old new => by
            rw [← next] at new
            exact absurd (new : d < (before 1).names.fresh) (Nat.not_lt.mpr old))
          (by rw [slots_append entries]; exact slots)
          (by rw [tables]; exact few)
          (by rw [tables, used]; omega)
        refine ⟨settled', fun file opened' => ?_⟩
        obtain rfl := Except.ok.inj opened'
        refine ⟨_, rfl, ?_, passed, position'⟩
        rw [Function.update_self, ← next]
        exact ClusterVolume.fileChain_setChain_self
    | entry table' place =>
      obtain ⟨rfl, _⟩ := child_entry child
      dsimp only
      split
      · exact stays _
      · rename_i found _
        split_ifs with directory
        · exact stays _
        · generalize next : ({ (before 1).emptyFile table' place with
            names := (before 1).names.store table' place [] } : ClusterVolume) = opened
          obtain ⟨shape, chains, starved, empty, card, files⟩ :=
            @ClusterVolume.emptyFile_spec (before 1) table' place
          have tables : opened.tableChain = (before 1).tableChain := by rw [← next]; exact chains
          have used : opened.used = ((before 1).emptyFile table' place).used := by rw [← next]
          have labels : opened.names.labels table' = (before 1).names.labels table' := by
            rw [← next]
            exact labels_store
          have slots := position.slots
          rw [sum_drop_labels here] at slots
          obtain ⟨settled', passed, position'⟩ := @settled_step _ _ _ _ _ _ _ _ opened (index + 1)
            ahead settled position (by rw [← next]; exact shape) (by rw [← next]; exact starved)
            (by rw [← next]; exact reached_store settled.ordered position.present)
            (fun d _ _ => by rw [tables]) (by rw [tables])
              (fun d => by rw [tables]; exact settled.tables d)
            (fun d place => by rw [← next]; exact files _ settled.files d place)
            (fun d old new => by
              rw [← next] at new
              exact absurd (new : d < (before 1).names.fresh) (Nat.not_lt.mpr old))
            (by rw [slots_eq labels]; omega) (by rw [tables]; exact position.few)
            (by rw [tables, used]; omega)
          refine ⟨settled', fun file opened' => ?_⟩
          obtain rfl := Except.ok.inj opened'
          refine ⟨_, rfl, ?_, passed, position'⟩
          rw [Function.update_self, ← next]
          exact empty

theorem At.less {fewer : Nat} (position : At source total before names table target index ahead)
    (le : fewer ≤ ahead) : At source total before names table target index fewer :=
  { position with budget := le_trans (Nat.add_le_add_left le _) position.budget }

/-- A write to the file takes the clusters of its bytes. -/
theorem fWrite_room {place : Nat} {written buff : List UInt8}
    (positive : 0 < source.clusterBytes) (bound : total + 2 ≤ source.maxClust)
    (settled : Settled source total before)
    (position : At source total before names table target index
      (clustersFor source.clusterBytes (written.length + buff.length) -
        clustersFor source.clusterBytes written.length + ahead))
    (chain : ((before 1).fileChain target place).length =
      clustersFor source.clusterBytes written.length)
    (small : written.length + buff.length < 2 ^ 32) :
    Program.Guards (· = before) (Settled source total)
      (clustered.fWrite ⟨1, target, place, [], some written⟩ buff) fun outcome after =>
        outcome = .ok (buff.length, ⟨1, target, place, [], some (written ++ buff)⟩) ∧
        Settled source total after ∧ Passed before after target ∧
        At source total after names table target index ahead ∧
        ((after 1).fileChain target place).length =
          clustersFor source.clusterBytes (written.length + buff.length) := by
  have budget := position.budget
  have bytes : (before 1).clusterBytes = source.clusterBytes := by rw [settled.shape]
  obtain ⟨next, wrote, lengthened⟩ := @ClusterVolume.writeFile_ok (before 1)
    ⟨1, target, place, [], some written⟩ written buff (by rw [bytes]; exact positive)
    (by rw [settled.shape]; exact settled.files target place) (by rw [bytes]; exact chain) small
    (by rw [bytes, settled.shape]; omega)
  rw [bytes] at lengthened
  have taken := lengthened.taken
  have labels : next.names.labels target = (before 1).names.labels target := by
    rw [lengthened.names]
  obtain ⟨settled', passed, position'⟩ := @settled_step _ _ _ _ _ _ _ _ next index ahead settled
    position lengthened.shape lengthened.starved
    (by rw [lengthened.names, show (before 1).names = namesOf before 1 from rfl,
      Function.update_eq_self]; exact .refl settled.ordered)
    (fun d _ _ => by rw [lengthened.tableChain]) (by rw [lengthened.tableChain])
    (fun d => by rw [lengthened.tableChain]; exact settled.tables d)
    (fun d place' => by
      have holds := lengthened.files (by rw [settled.shape]; exact settled.files) d place'
      rwa [settled.shape] at holds)
    (fun d old new => by
      rw [lengthened.names] at new
      exact absurd new (Nat.not_lt.mpr old))
    (by rw [slots_eq labels]; exact position.slots)
    (by rw [lengthened.tableChain]; exact position.few)
    (by rw [lengthened.tableChain]; omega)
  rintro start rfl
  have run : clustered.fWrite ⟨1, target, place, [], some written⟩ buff start =
      .ok (.ok (buff.length, ⟨1, target, place, [], some (written ++ buff)⟩),
        Function.update start 1 next) := by
    dsimp only [clustered, onVolume]
    rw [wrote]
  rw [run]
  refine ⟨rfl, settled', passed, position', ?_⟩
  have grows := ClusterVolume.clustersFor_mono source.clusterBytes
    (Nat.le_add_right written.length buff.length)
  have length : (next.fileChain target place).length =
      ((start 1).fileChain target place).length + _ := lengthened.length
  rw [Function.update_self, length]
  omega

/-- The file is closed. -/
theorem fClose_room {place : Nat} {written : List UInt8} (settled : Settled source total before)
    (position : At source total before names table target index ahead) :
    Program.Guards (· = before) (Settled source total)
      (clustered.fClose ⟨1, target, place, [], some written⟩) fun _ after =>
        Settled source total after ∧ Passed before after target ∧
          At source total after names table target index ahead := by
  have labels : ((before 1).names.store target place written).labels target =
      (before 1).names.labels target := labels_store
  have stored := @settled_step _ _ _ _ _ _ _ _
    { before 1 with names := (before 1).names.store target place written } index ahead settled
    position rfl rfl (reached_store settled.ordered position.present) (fun _ _ _ => rfl)
    (Nat.le_refl _) settled.tables settled.files
    (fun d old new => absurd (new : d < (before 1).names.fresh) (Nat.not_lt.mpr old))
    (by rw [slots_eq labels]; exact position.slots) position.few position.budget
  rintro start rfl
  exact stored

theorem fClose_reads {file : NamedFile} {during : ClusterDrives → Prop}
    (reading : file.written = none) :
    Program.Guards (· = before) during (clustered.fClose file) fun _ after => after = before := by
  rintro start rfl
  dsimp only [clustered]
  rw [reading]
  rfl

/-- The loop over the contents of a file: the clusters of all its bytes are among those to come. -/
theorem copyContents_room {fuel place : Nat} {sourceFile : NamedFile} {written : List UInt8}
    (positive : 0 < source.clusterBytes) (bound : total + 2 ≤ source.maxClust)
    (settled : Settled source total before) (reading : sourceFile.written = none)
    (position : At source total before names table target index
      (clustersFor source.clusterBytes (written.length + sourceFile.rest.length) -
        clustersFor source.clusterBytes written.length + ahead))
    (chain : ((before 1).fileChain target place).length =
      clustersFor source.clusterBytes written.length)
    (small : written.length + sourceFile.rest.length < 2 ^ 32) :
    Program.Guards (· = before) (Settled source total)
      (copyContents clustered fuel sourceFile ⟨1, target, place, [], some written⟩)
      fun result after => Settled source total after ∧ (result = 0 → Passed before after target ∧
        At source total after names table target index ahead) := by
  induction fuel generalizing before sourceFile written with
  | zero => exact Program.guards_undefined fun state same => by rw [same]; exact settled
  | succ fuel inductionHypothesis =>
    have read : Program.Guards (· = before) (Settled source total)
        (clustered.fRead sourceFile bufferSize) fun outcome after => after = before ∧
          outcome = .ok (sourceFile.rest.take bufferSize,
            { sourceFile with rest := sourceFile.rest.drop bufferSize }) := by
      rintro start rfl
      exact ⟨rfl, rfl⟩
    refine Program.guards_orFail read (fun code state failed => absurd failed.2 (by simp))
      fun taken => ?_
    refine Program.guards_each fun state ready => ?_
    obtain ⟨rfl, same⟩ := ready
    obtain rfl := Except.ok.inj same
    -- what is written and what is still to come
    generalize bytes : sourceFile.rest.take bufferSize = buff
    generalize left : ({ sourceFile with rest := sourceFile.rest.drop bufferSize } : NamedFile) =
      leftFile
    have rest : leftFile.rest = sourceFile.rest.drop bufferSize := by rw [← left]
    have reads : leftFile.written = none := by rw [← left]; exact reading
    have size : buff.length + leftFile.rest.length = sourceFile.rest.length := by
      rw [← bytes, rest, ← List.length_append, List.take_append_drop]
    have sum : written.length + sourceFile.rest.length =
        (written ++ buff).length + leftFile.rest.length := by
      rw [List.length_append]
      omega
    have later := ClusterVolume.clustersFor_mono source.clusterBytes
      (show (written ++ buff).length ≤ written.length + sourceFile.rest.length by omega)
    have sooner := ClusterVolume.clustersFor_mono source.clusterBytes
      (Nat.le_add_right written.length buff.length)
    rw [List.length_append] at later
    have split : clustersFor source.clusterBytes (written.length + buff.length) -
        clustersFor source.clusterBytes written.length +
          (clustersFor source.clusterBytes ((written ++ buff).length + leftFile.rest.length) -
            clustersFor source.clusterBytes (written ++ buff).length + ahead) =
        clustersFor source.clusterBytes (written.length + sourceFile.rest.length) -
          clustersFor source.clusterBytes written.length + ahead := by
      rw [← sum, List.length_append]
      omega
    rw [← split] at position
    refine Program.guards_orFail
      (fWrite_room positive bound settled position chain
        (show written.length + buff.length < 2 ^ 32 by omega))
      (fun code state failed => absurd failed.1 (by simp)) fun wrote =>
        Program.guards_each fun state ready => ?_
    obtain ⟨same, settled', passed, position', chain'⟩ := ready
    obtain rfl := Except.ok.inj same
    rw [← List.length_append] at chain'
    refine Program.guards_ite (fun _ => ?_) fun _ => ?_
    · refine Program.Guards.mono (inductionHypothesis settled' reads position' chain'
        (show (written ++ buff).length + leftFile.rest.length < 2 ^ 32 by omega))
        (fun _ => id) (fun _ => id) fun result finish done => ⟨done.1, fun good => ?_⟩
      obtain ⟨more, ends⟩ := done.2 good
      exact ⟨passed.trans more (.inl rfl), ends⟩
    · have closes := @fClose_room _ _ _ _ _ _ _ _ place (written ++ buff) settled'
        (position'.less (Nat.le_add_left _ _))
      refine Program.guards_bind (fClose_reads reads) fun _ => Program.guards_bind closes
        fun _ => Program.guards_pure fun finish done => ?_
      exact ⟨done.1, fun _ => ⟨passed.trans done.2.1 (.inl rfl), done.2.2⟩⟩

/-- A file of the source is opened. -/
theorem fOpen_source {during : ClusterDrives → Prop} (valid : source.Valid)
    (settled : Settled source total before)
    (position : At source total before names table target index ahead)
    (here : (source.names.entries table)[index]? = some entry) :
    Program.Guards (· = before) during
      (clustered.fOpen (sourcePath (names ++ [entry.shown])) .read) fun outcome after =>
        after = before ∧ ∀ file, outcome = .ok file →
          entry.isDir = false ∧ file = ⟨0, table, index, entry.content, none⟩ := by
  obtain ⟨plain, _⟩ := valid.plain table position.directory entry (List.mem_of_getElem? here)
  refine guards_onPath (spells_source _) (by decide) ?_
  dsimp only [ClusterVolume.fOpen, ClusterVolume.openExisting, NamedVolume.openExisting]
  rw [settled.kept, (spells_source _).follow position.sourceLeads (segments position.plains)
    plain.segment]
  have same : Function.update before 0 source = before := by
    rw [← settled.kept]
    exact Function.update_eq_self _ _
  cases child : source.names.child table entry.shown with
  | error code => exact ⟨same, nofun⟩
  | ok followed =>
    cases followed with
    | root => exact ⟨same, nofun⟩
    | missing _ _ => exact ⟨same, nofun⟩
    | entry table' place =>
      obtain ⟨rfl, finds⟩ := child_entry child
      cases present : (source.names.entries table')[place]? with
      | none =>
        dsimp only
        rw [present]
        exact ⟨same, nofun⟩
      | some found =>
        obtain rfl := valid.distinct table' position.directory index place entry found here
          (finds found present)
        obtain rfl := Option.some.inj (present.symm.trans here)
        dsimp only
        rw [present]
        dsimp only
        cases kind : found.isDir with
        | true => exact ⟨same, nofun⟩
        | false =>
          refine ⟨same, fun file opened => ⟨rfl, ?_⟩⟩
          exact (Except.ok.inj opened).symm

/-- A directory of the source is opened. -/
theorem fOpendir_source {during : ClusterDrives → Prop} (valid : source.Valid)
    (settled : Settled source total before) (directory : source.Directory table)
    (leads : source.names.Leads 0 names table) (plains : ∀ name ∈ names, PlainName name)
    (here : (source.names.entries table)[index]? = some entry) :
    Program.Guards (· = before) during
      (clustered.fOpendir (sourcePath (names ++ [entry.shown]))) fun outcome after =>
        after = before ∧ ∀ dir, outcome = .ok dir → dir = ⟨0, entry.table, 0⟩ ∧
          source.names.Leads 0 (names ++ [entry.shown]) entry.table := by
  obtain ⟨plain, _⟩ := valid.plain table directory entry (List.mem_of_getElem? here)
  refine guards_onPath (spells_source _) (by decide) ?_
  dsimp only [ClusterVolume.fOpendir, NamedVolume.fOpendir]
  rw [settled.kept, (spells_source _).follow leads (segments plains) plain.segment]
  have same : Function.update before 0 source = before := by
    rw [← settled.kept]
    exact Function.update_eq_self _ _
  cases child : source.names.child table entry.shown with
  | error code => exact ⟨same, nofun⟩
  | ok followed =>
    cases followed with
    | root => exact absurd child child_root
    | missing _ _ => exact ⟨same, nofun⟩
    | entry table' place =>
      obtain ⟨rfl, finds⟩ := child_entry child
      cases present : (source.names.entries table')[place]? with
      | none =>
        dsimp only
        rw [present]
        exact ⟨same, nofun⟩
      | some found =>
        have stops := finds found present
        obtain rfl := valid.distinct table' directory index place entry found here stops
        obtain rfl := Option.some.inj (present.symm.trans here)
        dsimp only
        rw [present]
        dsimp only
        cases kind : found.isDir with
        | false => exact ⟨same, nofun⟩
        | true =>
          refine ⟨same, fun dir opened => ⟨(Except.ok.inj opened).symm, ?_⟩⟩
          exact leads.concat stops kind

/-- The part of the copy for a regular file: its clusters on the source are enough. -/
theorem copyFile_room {fuel : Nat} (valid : source.Valid) (spacious : source.Spacious)
    (bound : total + 2 ≤ source.maxClust) (settled : Settled source total before)
    (position : At source total before names table target index
      ((source.fileChain table index).length + ahead))
    (here : (source.names.entries table)[index]? = some entry) :
    Program.Guards (· = before) (Settled source total)
      (copyFile clustered fuel (sourcePath (names ++ [entry.shown]))
        (destinationPath (names ++ [entry.shown])))
      fun result after => Settled source total after ∧ (result = 0 → Passed before after target ∧
        At source total after names table target (index + 1) ahead) := by
  have failed : (-1 : Int) ≠ 0 := by decide
  obtain ⟨k, power⟩ := valid.power
  have positive : 0 < source.clusterBytes := by
    rw [Shape.clusterBytes, power]
    exact Nat.mul_pos (Nat.two_pow_pos k) (by decide)
  refine Program.guards_orFail (fOpen_source valid settled position here)
    (fun code => Program.guards_pure fun state stays => ?_) fun sourceFile =>
      Program.guards_each fun state ready => ?_
  · exact ⟨stays.1 ▸ settled, fun good => absurd good failed⟩
  obtain ⟨rfl, opened⟩ := ready
  obtain ⟨regular, rfl⟩ := opened sourceFile rfl
  refine Program.guards_orFail (fOpen_room valid spacious bound settled position here)
    (fun code => Program.guards_each fun after stays => ?_) fun file =>
      Program.guards_each fun after ready => ?_
  · refine Program.guards_bind (fClose_reads rfl) fun _ => Program.guards_pure fun finish same => ?_
    exact ⟨same ▸ stays.1, fun good => absurd good failed⟩
  obtain ⟨settled', created⟩ := ready
  obtain ⟨place, rfl, empty, passed, position'⟩ := created file rfl
  obtain ⟨small, fits⟩ := valid.files table position.directory index entry here regular
  have enough := (clustersFor_le positive).mpr fits
  have nothing : clustersFor source.clusterBytes 0 = 0 := by
    rw [clustersFor, Nat.zero_add]
    exact Nat.div_eq_of_lt (Nat.sub_lt positive Nat.one_pos)
  have spent : clustersFor source.clusterBytes (([] : List UInt8).length + entry.content.length) -
      clustersFor source.clusterBytes ([] : List UInt8).length + ahead ≤
        (source.fileChain table index).length + ahead := by
    rw [List.length_nil, Nat.zero_add]
    omega
  have copied := @copyContents_room source total after names table target (index + 1) ahead fuel
    place ⟨0, table, index, entry.content, none⟩ [] positive bound settled' rfl
    (position'.less spent)
    (by rw [empty]; exact nothing.symm) (by rw [List.length_nil, Nat.zero_add]; exact small)
  refine Program.Guards.mono copied (fun _ => id) (fun _ => id) fun result finish done =>
    ⟨done.1, fun good => ?_⟩
  obtain ⟨more, ends⟩ := done.2 good
  exact ⟨passed.trans more (.inl rfl), ends⟩

/-- What making a directory leads to: the new one is empty, with a table of one cluster. -/
def Made (source : ClusterVolume) (total : Nat) (before : ClusterDrives) (names : List FatPath)
    (shown : FatPath) (table target index ahead : Nat) (outcome : Except FResult PUnit)
    (after : ClusterDrives) : Prop :=
  Settled source total after ∧ ∀ made, outcome = .ok made →
    Passed before after target ∧ At source total after names table target index ahead ∧
      (after 1).names.Leads 0 (names ++ [shown]) (before 1).names.fresh ∧
      (before 1).names.fresh < (after 1).names.fresh ∧
      (after 1).slots (before 1).names.fresh = 2 ∧
      ((after 1).tableChain (before 1).names.fresh).length = 1

/-- A table of a valid source that is not the root directory has a cluster. -/
theorem tableChain_pos (valid : source.Valid) (directory : source.Directory table)
    (below : table ≠ 0) : 0 < (source.tableChain table).length := by
  obtain ⟨_, fits⟩ := valid.tables table directory
  rw [ClusterVolume.tableSlots, if_neg (fun static => below static.2), ClusterVolume.slots,
    dotSlots, if_neg below] at fits
  refine Nat.pos_of_ne_zero fun empty => ?_
  rw [empty, Nat.zero_mul] at fits
  omega

/-- A directory of the destination is made. One of the clusters to come is its table. -/
theorem fMkdir_room (valid : source.Valid) (spacious : source.Spacious)
    (bound : total + 2 ≤ source.maxClust) (settled : Settled source total before)
    (position : At source total before names table target index
      ((source.tableChain entry.table).length + ahead))
    (here : (source.names.entries table)[index]? = some entry) (directory : entry.isDir = true) :
    Program.Guards (· = before) (Settled source total)
      (clustered.fMkdir (destinationPath (names ++ [entry.shown])))
      (Made source total before names entry.shown table target (index + 1)
        ((source.tableChain entry.table).length - 1 + ahead)) := by
  have listed := List.mem_of_getElem? here
  obtain ⟨plain, _⟩ := valid.plain table position.directory entry listed
  have trail := position.trail.sub listed directory
  have below := valid.below table position.directory entry listed directory
  have some := tableChain_pos valid ⟨_, trail⟩ below
  have budget := position.budget
  have stays : ∀ code, Made source total before names entry.shown table target (index + 1)
      ((source.tableChain entry.table).length - 1 + ahead)
      (.error code) (Function.update before 1 (before 1)) := fun code => by
    rw [Function.update_eq_self]
    exact ⟨settled, nofun⟩
  rw [clustered_fMkdir]
  refine guards_onPath (spells_destination _) (by decide) ?_
  dsimp only [ClusterVolume.fMkdir]
  rw [(spells_destination _).follow position.leads (segments position.plains) plain.segment]
  cases child : (before 1).names.child target entry.shown with
  | error code => exact stays code
  | ok followed =>
    cases followed with
    | root => exact stays _
    | entry _ _ => exact stays _
    | missing table' name =>
      obtain ⟨rfl, admits⟩ := child_missing child
      have none : (before 1).Holds [] := Shape.holds_nil
      obtain ⟨⟨dclst, volume⟩, taken⟩ := ClusterVolume.createChain_room none
        (by rw [settled.shape]; omega)
      obtain ⟨free, lower, upper, same⟩ := ClusterVolume.createChain_some none
        (by rw [settled.shape]; omega) taken
      dsimp only at free lower upper same
      rw [settled.shape] at upper
      have card := Finset.card_insert_of_notMem free
      dsimp only
      rw [taken]
      subst same
      dsimp only
      split
      · -- no numbered name is left: the cluster is given back
        have fewer : (insert dclst (before 1).used \ [dclst].toFinset).card ≤
            (before 1).used.card := by
          refine Finset.card_le_card fun c member => ?_
          obtain ⟨inserted, removed⟩ := Finset.mem_sdiff.mp member
          refine (Finset.mem_insert.mp inserted).resolve_left fun new => removed ?_
          rw [new]
          exact List.mem_toFinset.mpr (List.mem_singleton_self _)
        have gave := @settled_step _ _ _ _ _ _ _ _
          { before 1 with
            used := insert dclst (before 1).used \ [dclst].toFinset, lastClust := dclst }
          index _ settled position rfl rfl
          (by
            rw [show (before 1).names = namesOf before 1 from rfl, Function.update_eq_self]
            exact .refl settled.ordered)
          (fun _ _ _ => rfl) (Nat.le_refl _) settled.tables settled.files
          (fun d old new => absurd new (Nat.not_lt.mpr old)) position.slots position.few
          (show (insert dclst (before 1).used \ [dclst].toFinset).card +
            ((source.tableChain table).length - ((before 1).tableChain table').length) + ahead ≤
              total by omega)
        exact ⟨gave.1, nofun⟩
      · rename_i label registered
        obtain ⟨reserved, done, stretched, few, slots⟩ := @reserve_room _ _ _ _ _ _ _ _ _ label
          { before 1 with used := insert dclst (before 1).used, lastClust := dclst } valid spacious
          settled position here (admits label registered) settled.shape rfl rfl
          (show (insert dclst (before 1).used).card + _ + 2 ≤ source.maxClust by omega)
        have below' : table' ≠ (before 1).names.fresh := Nat.ne_of_lt position.present
        rw [done]
        dsimp only
        generalize next : ({ reserved with
          names := { (before 1).names.change table'
            (· ++ [⟨label, true, (before 1).names.fresh, []⟩]) with
              fresh := (before 1).names.fresh + 1 }
          tableChain := Function.update reserved.tableChain (before 1).names.fresh [dclst] } :
            ClusterVolume) = volume
        have taken := stretched.taken
        have longer := stretched.longer
        have reached : Reached (namesOf before) (Function.update (namesOf before) 1 volume.names)
            table' := by
          rw [← next]
          exact reached_append settled.ordered position.present (Nat.le_succ _)
            fun _ => ⟨position.present, Nat.lt_succ_self _⟩
        have entries : volume.names.entries table' =
            (before 1).names.entries table' ++ [⟨label, true, (before 1).names.fresh, []⟩] := by
          rw [← next]
          exact Function.update_self _ _ _
        have unused : volume.names.entries (before 1).names.fresh = [] := by
          rw [← next]
          exact (Function.update_of_ne below'.symm _ _).trans
            (settled.ordered.unused _ (Nat.le_refl _))
        have chain : volume.tableChain (before 1).names.fresh = [dclst] := by
          rw [← next]
          exact Function.update_self _ _ _
        have chains : ∀ d, d ≠ (before 1).names.fresh → volume.tableChain d =
            reserved.tableChain d := fun d different => by
          rw [← next]
          exact Function.update_of_ne different _ _
        have used : volume.used = reserved.used := by rw [← next]
        have empty : volume.slots (before 1).names.fresh = 2 := by
          rw [ClusterVolume.slots, NamedVolume.labels, unused, dotSlots,
            if_neg (by have present := position.present; omega)]
          rfl
        have grown : Grown (before 1).names volume.names := by
          have grown := reached.grown
          rwa [Function.update_self] at grown
        have leads : volume.names.Leads 0 (names ++ [entry.shown]) (before 1).names.fresh :=
          (admits label registered).leads plain grown position.leads entries
        have tables := stretched.tables (by exact settled.shape ▸ settled.tables)
        obtain ⟨settled', passed, position'⟩ := @settled_step _ _ _ _ _ _ _ _ volume (index + 1)
          ((source.tableChain entry.table).length - 1 + ahead) settled position
          (by rw [← next]; exact stretched.shape) (by rw [← next]; exact stretched.starved) reached
          (fun d old different => by
            rw [chains d (Nat.ne_of_lt old)]
            exact stretched.others d different)
          (by rw [chains _ below']; exact longer)
          (fun d => by
            by_cases same : d = (before 1).names.fresh
            · rw [same, chain]
              exact List.forall_mem_singleton.mpr ⟨lower, upper⟩
            · rw [chains d same]
              have holds := tables d
              rwa [show Shape.Holds _ _ = (before 1).Holds (reserved.tableChain d) from rfl,
                settled.shape] at holds)
          (fun d place => by
            rw [← next]
            dsimp only
            rw [stretched.fileChain]
            exact settled.files d place)
          (fun d old new => by
            have same : d = (before 1).names.fresh := by
              rw [← next] at new
              have new : d < (before 1).names.fresh + 1 := new
              omega
            subst same
            refine ⟨by rw [chain]; exact List.cons_ne_nil _ _,
              names ++ [entry.shown], entry.table, trail, leads, ?_, by rw [chain]; exact some⟩
            rw [empty, ClusterVolume.needs, dotSlots, if_neg below]
            exact Nat.le_add_right _ _)
          (by rw [slots_append entries]; exact slots) (by rw [chains _ below']; exact few)
          (by
            rw [chains _ below', used]
            have taken : reserved.used.card + ((before 1).tableChain table').length =
              (insert dclst (before 1).used).card + (reserved.tableChain table').length := taken
            omega)
        have fresh : volume.names.fresh = (before 1).names.fresh + 1 := by rw [← next]
        refine ⟨settled', fun made _ => ⟨passed, position', ?_⟩⟩
        rw [Function.update_self, empty, chain, fresh]
        exact ⟨leads, Nat.lt_succ_self _, rfl, rfl⟩

/-- An entry whose short name is in order is listed. -/
theorem fname_ne_nil {entry : DirEntry} (short : ShortName entry.sfn) :
    (fileInfo entry).fname ≠ [] := by
  obtain ⟨length, nonempty, _⟩ := short
  cases spelled : entry.sfn with
  | nil => exact absurd length (by rw [spelled]; decide)
  | cons c rest =>
    rw [spelled] at nonempty
    have visible : c ≠ 0x20 := fun blank => nonempty (congrArg some blank)
    have kanji : (if c = 0x05 then (0xe5 : UInt8) else c) ≠ 0x20 := by
      split_ifs
      · decide
      · exact visible
    dsimp only [fileInfo]
    rw [spelled, List.take_succ_cons, List.map_cons, shownPart,
      List.takeWhile_cons_of_pos (by exact decide_eq_true kanji)]
    exact List.append_ne_nil_of_left_ne_nil (List.cons_ne_nil _ _) _

/-- Reading the next entry of the source. -/
theorem fReaddir_room {during : ClusterDrives → Prop} (settled : Settled source total before)
    (short : ∀ entry ∈ source.names.entries table, ShortName entry.sfn) :
    Program.Guards (· = before) during (clustered.fReaddir ⟨0, table, index⟩) fun outcome after =>
      after = before ∧
        (((source.names.entries table)[index]? = none ∧
            outcome = .ok (none, ⟨0, table, index⟩)) ∨
          ∃ entry, (source.names.entries table)[index]? = some entry ∧
            outcome = .ok (some (fileInfo entry), ⟨0, table, index + 1⟩)) := by
  rintro start rfl
  have same : Function.update start 0 (start 0) = start := Function.update_eq_self _ _
  dsimp only [clustered, onVolume]
  rw [settled.kept] at same ⊢
  cases present : (source.names.entries table)[index]? with
  | none => exact ⟨same, .inl ⟨rfl, rfl⟩⟩
  | some entry =>
    have named := fname_ne_nil (short entry (List.mem_of_getElem? present))
    exact ⟨same, .inr ⟨entry, rfl, by
      dsimp only
      rw [FileInfo.listed_of_named named]⟩⟩

/-- A directory of the destination and its table are not changed by what happens below it. -/
theorem Passed.stays {later : Nat} (passed : Passed before after later)
    (present : target < (before 1).names.fresh) (different : target ≠ later) :
    (after 1).slots target = (before 1).slots target ∧
      (after 1).tableChain target = (before 1).tableChain target :=
  ⟨slots_eq (congrArg (List.map DirEntry.toLabel)
    (passed.reached.frame target present different)), passed.chains target present different⟩

/-- The loop over the entries of a directory, by induction on its turns and the levels below: the
clusters of the entries and of all below them are enough. -/
theorem copyEntries_room {fuel : Nat} {clusters : List Nat} (valid : source.Valid)
    (spacious : source.Spacious) (bound : total + 2 ≤ source.maxClust)
    (below : source.Below table index clusters) (settled : Settled source total before)
    (position : At source total before names table target index (clusters.length + ahead)) :
    Program.Guards (· = before) (Settled source total)
      (copyEntries clustered fuel (sourcePath names) (destinationPath names) ⟨0, table, index⟩)
      fun result after => Settled source total after ∧ (result = 0 →
        Passed before after target ∧ (after 1).used.card + ahead ≤ total) := by
  have failed : (-1 : Int) ≠ 0 := by decide
  induction fuel using Nat.strong_induction_on generalizing before names table target index ahead
    clusters with
  | _ fuel inductionHypothesis =>
  cases fuel with
  | zero => exact Program.guards_undefined fun state same => by rw [same]; exact settled
  | succ fuel =>
    rw [copyEntries]
    have short := fun entry member => (valid.plain table position.directory entry member).2
    refine Program.guards_orFail (fReaddir_room settled short)
      (fun code => Program.guards_pure fun state stays => ?_) fun read =>
        Program.guards_each fun state ready => ?_
    · exact ⟨stays.1 ▸ settled, fun good => absurd good failed⟩
    obtain ⟨rfl, ends | ⟨entry, here, same⟩⟩ := ready
    · -- the end of the directory
      obtain rfl := Except.ok.inj ends.2
      refine Program.guards_pure fun state same => ?_
      subst same
      have budget := position.budget
      exact ⟨settled, fun _ => ⟨.refl settled.ordered, by omega⟩⟩
    · obtain rfl := Except.ok.inj same
      have listed := List.mem_of_getElem? here
      obtain ⟨plain, _⟩ := valid.plain table position.directory entry listed
      have plainsBelow : ∀ name ∈ names ++ [entry.shown], PlainName name :=
        List.forall_mem_append.mpr ⟨position.plains, List.forall_mem_singleton.mpr plain⟩
      dsimp only
      rw [sourcePath_concat, destinationPath_concat,
        show (fileInfo entry).name = entry.shown from rfl]
      cases below with
      | ends none => exact absurd (here.symm.trans none) (Option.some_ne_none _)
      | @file _ _ entry' clusters here' regular others =>
        obtain rfl := Option.some.inj (here.symm.trans here')
        rw [List.length_append, Nat.add_assoc] at position
        refine Program.guards_ite (fun directory =>
          absurd (regular.symm.trans directory) (by decide))
          fun _ => Program.guards_bind
            (copyFile_room valid spacious bound settled position here) fun result =>
              Program.guards_ite (fun _ => Program.guards_pure fun after done => ?_) fun good => ?_
        · exact ⟨done.1, fun good => absurd good failed⟩
        · refine Program.guards_each fun middle done => ?_
          obtain ⟨settled', went⟩ := done
          obtain ⟨passed, position'⟩ := went (not_not.mp good)
          refine Program.Guards.mono (inductionHypothesis fuel (Nat.lt_succ_self _) others settled'
            position') (fun _ => id) (fun _ => id) fun result after done =>
              ⟨done.1, fun good => ?_⟩
          obtain ⟨more, rest⟩ := done.2 good
          exact ⟨passed.trans more (.inl rfl), rest⟩
      | @dir _ _ entry' inner clusters here' directory inside others =>
        obtain rfl := Option.some.inj (here.symm.trans here')
        have trail := position.trail.sub listed directory
        have under := valid.below table position.directory entry listed directory
        have some := tableChain_pos valid ⟨_, trail⟩ under
        rw [List.length_append, List.length_append, Nat.add_assoc, Nat.add_assoc] at position
        refine Program.guards_ite (fun _ => ?_) fun regular => absurd directory regular
        refine Program.guards_orFail
          (fMkdir_room valid spacious bound settled position here directory)
          (fun code => Program.guards_pure fun state stays => ?_) fun made =>
            Program.guards_each fun middle ready => ?_
        · exact ⟨stays.1, fun good => absurd good failed⟩
        obtain ⟨settledMade, went⟩ := ready
        obtain ⟨passed, position', leads, fresh, empty, single⟩ := went made rfl
        have budget := position'.budget
        -- the levels below, into the new directory
        have descends : Program.Guards (· = middle) (Settled source total)
            (copyDir clustered fuel (sourcePath (names ++ [entry.shown]))
              (destinationPath (names ++ [entry.shown])))
            fun result after => Settled source total after ∧ (result = 0 →
              Passed middle after (state 1).names.fresh ∧
                (after 1).used.card + ((source.tableChain table).length -
                  ((middle 1).tableChain target).length + (clusters.length + ahead)) ≤ total) := by
          cases fuel with
          | zero => exact Program.guards_undefined fun state same => by rw [same]; exact settledMade
          | succ fuel =>
            rw [copyDir]
            refine Program.guards_orFail (fOpendir_source valid settledMade position'.directory
              position'.sourceLeads position'.plains here)
              (fun code => Program.guards_pure fun state stays => ?_) fun dir =>
                Program.guards_each fun opened ready => ?_
            · exact ⟨stays.1 ▸ settledMade, fun good => absurd good failed⟩
            obtain ⟨rfl, entered⟩ := ready
            obtain ⟨rfl, sourceLeads⟩ := entered dir rfl
            refine inductionHypothesis fuel (by omega) inside settledMade ⟨trail, ?_, sourceLeads,
              leads, plainsBelow, fresh, ?_, ?_, ?_⟩
            · have present := position.present
              omega
            · rw [empty, List.drop_zero, ClusterVolume.needs, dotSlots, if_neg under]
            · rw [single]
              exact some
            · rw [single]
              omega
        refine Program.guards_bind descends fun result =>
          Program.guards_ite (fun _ => Program.guards_pure fun after done => ?_) fun good => ?_
        · exact ⟨done.1, fun good => absurd good failed⟩
        -- the other entries
        refine Program.guards_each fun below done => ?_
        obtain ⟨settledBelow, went⟩ := done
        obtain ⟨passedBelow, spent⟩ := went (not_not.mp good)
        have different : target ≠ (state 1).names.fresh := Nat.ne_of_lt position.present
        obtain ⟨slots, chain⟩ := passedBelow.stays position'.present different
        have position'' := @At.advance _ _ _ below _ _ _ _ _ (index + 1) (clusters.length + ahead) _
          position' passedBelow (by rw [slots]; exact position'.slots)
          (by rw [chain]; exact position'.few) (by rw [chain]; omega)
        have passed' := passed.trans passedBelow (.inr (Nat.le_refl _))
        refine Program.Guards.mono (inductionHypothesis fuel (Nat.lt_succ_self _) others
          settledBelow position'') (fun _ => id) (fun _ => id) fun result after done =>
            ⟨done.1, fun good => ?_⟩
        obtain ⟨more, rest⟩ := done.2 good
        exact ⟨passed'.trans more (.inl rfl), rest⟩

end Calls

end Hdfmonkey
