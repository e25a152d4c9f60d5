/-
This file proves when no entry of a rebuilt disk overwrites another.

`copy_dir` names an entry of the destination as the source shows it, by its long name if
it has one, and the short name that goes with it is chosen anew. A look-up matches
either, and a file is opened so that what it finds is overwritten. So whether two entries
meet is decided directory by directory, by the names in their order: the entries arrive
one for one with their bytes exactly if no name finds one of the names registered
before it, and every name of a file finds the right bytes on the source.
-/

import Hdfmonkey.NamedCalls

namespace Hdfmonkey

open NamedVolume

/-- The name of an entry as `copy_dir` uses it. -/
def DirEntry.shown (entry : DirEntry) : FatPath := (fileInfo entry).name

/-- The names on a volume are segments of paths, as the names that a FAT volume can hold are. -/
def NamedVolume.Plain (volume : NamedVolume) : Prop :=
  ∀ table, ∀ entry ∈ volume.listing table, PlainName entry.shown

/-- The entries of a directory of the copy are those of the source, one for one and in their order:
the files with their bytes, the directories with the entries of the directory that the name leads
to. -/
inductive Mirrors (source copy : NamedVolume) : Nat → List DirEntry → List DirEntry → Prop where
  | done {table : Nat} : Mirrors source copy table [] []
  | file {table : Nat} {entry entry' : DirEntry} {entries entries' : List DirEntry}
      (regular : entry.isDir = false) (regular' : entry'.isDir = false)
      (bytes : entry'.content = entry.content)
      (others : Mirrors source copy table entries entries') :
    Mirrors source copy table (entry :: entries) (entry' :: entries')
  | dir {table index : Nat} {entry entry' found : DirEntry} {entries entries' : List DirEntry}
      (directory : entry.isDir = true) (directory' : entry'.isDir = true)
      (finds : source.Finds table entry.shown index found) (directoryFound : found.isDir = true)
      (inside : Mirrors source copy found.table (source.listing found.table)
        (copy.entries entry'.table))
      (others : Mirrors source copy table entries entries') :
    Mirrors source copy table (entry :: entries) (entry' :: entries')

/-- The names of the entries do not meet the names registered before them, and the names of the
files find their bytes on the source. -/
inductive Separate (source : NamedVolume) : Nat → List Label → List DirEntry → Prop where
  | done {table : Nat} {labels : List Label} : Separate source table labels []
  | file {table index : Nat} {labels : List Label} {label : Label} {entry found : DirEntry}
      {entries : List DirEntry} (regular : entry.isDir = false)
      (admits : Admits labels entry.shown label)
      (finds : source.Finds table entry.shown index found) (regularFound : found.isDir = false)
      (bytes : found.content = entry.content)
      (others : Separate source table (labels ++ [label]) entries) :
    Separate source table labels (entry :: entries)
  | dir {table index : Nat} {labels : List Label} {label : Label} {entry found : DirEntry}
      {entries : List DirEntry} (directory : entry.isDir = true)
      (admits : Admits labels entry.shown label)
      (finds : source.Finds table entry.shown index found) (directoryFound : found.isDir = true)
      (inside : Separate source found.table [] (source.listing found.table))
      (others : Separate source table (labels ++ [label]) entries) :
    Separate source table labels (entry :: entries)

/-! ### Look-ups have one result -/

section Unique

variable {source copy : NamedVolume} {table : Nat}

theorem Mirrors.length {entries entries' : List DirEntry}
    (mirrors : Mirrors source copy table entries entries') :
    entries'.length = entries.length := by
  induction mirrors with
  | done => rfl
  | file _ _ _ _ others => rw [List.length_cons, List.length_cons, others]
  | dir _ _ _ _ _ _ _ others => rw [List.length_cons, List.length_cons, others]

variable {labels : List Label} {label : Label} {entry entry' found : DirEntry} {index : Nat}
  {entries entries' : List DirEntry}

theorem mirrors_file_iff (regular : entry.isDir = false) (regular' : entry'.isDir = false) :
    Mirrors source copy table (entry :: entries) (entry' :: entries') ↔
      entry'.content = entry.content ∧ Mirrors source copy table entries entries' := by
  constructor
  · intro mirrors
    cases mirrors with
    | file _ _ bytes others => exact ⟨bytes, others⟩
    | dir directory => exact absurd (regular.symm.trans directory) nofun
  · rintro ⟨bytes, others⟩
    exact .file regular regular' bytes others

theorem mirrors_dir_iff (directory : entry.isDir = true) (directory' : entry'.isDir = true)
    (finds : source.Finds table entry.shown index found) (directoryFound : found.isDir = true) :
    Mirrors source copy table (entry :: entries) (entry' :: entries') ↔
      Mirrors source copy found.table (source.listing found.table) (copy.entries entry'.table) ∧
        Mirrors source copy table entries entries' := by
  constructor
  · intro mirrors
    cases mirrors with
    | file regular => exact absurd (regular.symm.trans directory) nofun
    | dir _ _ finds' _ inside others =>
      obtain ⟨_, rfl⟩ := Finds.unique finds finds'
      exact ⟨inside, others⟩
  · rintro ⟨inside, others⟩
    exact .dir directory directory' finds directoryFound inside others

theorem separate_file_iff (regular : entry.isDir = false) (admits : Admits labels entry.shown label)
    (finds : source.Finds table entry.shown index found) (regularFound : found.isDir = false) :
    Separate source table labels (entry :: entries) ↔
      found.content = entry.content ∧ Separate source table (labels ++ [label]) entries := by
  constructor
  · intro separate
    cases separate with
    | file _ admits' finds' _ bytes others =>
      obtain rfl := Admits.unique admits admits'
      obtain ⟨_, rfl⟩ := Finds.unique finds finds'
      exact ⟨bytes, others⟩
    | dir directory => exact absurd (regular.symm.trans directory) nofun
  · rintro ⟨bytes, others⟩
    exact .file regular admits finds regularFound bytes others

theorem separate_dir_iff (directory : entry.isDir = true)
    (admits : Admits labels entry.shown label)
    (finds : source.Finds table entry.shown index found) (directoryFound : found.isDir = true) :
    Separate source table labels (entry :: entries) ↔
      Separate source found.table [] (source.listing found.table) ∧
        Separate source table (labels ++ [label]) entries := by
  constructor
  · intro separate
    cases separate with
    | file regular => exact absurd (regular.symm.trans directory) nofun
    | dir _ admits' finds' _ inside others =>
      obtain rfl := Admits.unique admits admits'
      obtain ⟨_, rfl⟩ := Finds.unique finds finds'
      exact ⟨inside, others⟩
  · rintro ⟨inside, others⟩
    exact .dir directory admits finds directoryFound inside others

/-- Entries whose names are separate are all admitted. -/
theorem Separate.admits (separate : Separate source table labels (entry :: entries)) :
    ∃ label, Admits labels entry.shown label := by
  cases separate with
  | file _ admits => exact ⟨_, admits⟩
  | dir _ admits => exact ⟨_, admits⟩

end Unique

/-! ### What a copy leaves in place -/

/-- The directories of a volume are numbered in the order in which they were made. -/
structure NamedVolume.Ordered (volume : NamedVolume) : Prop where
  ahead : ∀ table, ∀ entry ∈ (volume.entries table).map skeleton, entry.isDir = true →
    table < entry.table ∧ entry.table < volume.fresh
  unused : ∀ table, volume.fresh ≤ table → volume.entries table = []

/-- A part of a run that works on a directory of the destination: only this directory and new ones
change. -/
structure Reached (before after : NamedDrives) (target : Nat) : Prop where
  source : after 0 = before 0
  grown : Grown (before 1) (after 1)
  ordered : (after 1).Ordered
  fresh : (before 1).fresh ≤ (after 1).fresh
  frame : ∀ table < (before 1).fresh, table ≠ target →
    (after 1).entries table = (before 1).entries table

section Reached

variable {before middle after : NamedDrives} {target : Nat}

theorem Reached.refl (ordered : (before 1).Ordered) : Reached before before target :=
  ⟨rfl, .refl, ordered, Nat.le_refl _, fun _ _ _ => rfl⟩

/-- A part of a run after one that works on the same directory or on one made since. -/
theorem Reached.trans {later : Nat} (first : Reached before middle target)
    (second : Reached middle after later) (inside : later = target ∨ (before 1).fresh ≤ later) :
    Reached before after target where
  source := second.source.trans first.source
  grown := first.grown.trans second.grown
  ordered := second.ordered
  fresh := first.fresh.trans second.fresh
  frame table old different := by
    have fresh := first.fresh
    rw [second.frame table (by omega) (by omega), first.frame table old different]

/-- A change of a directory that keeps its entries in place and adds only new directories. -/
theorem reached_change {change : List DirEntry → List DirEntry} {fresh : Nat}
    (ordered : (before 1).Ordered) (present : target < (before 1).fresh)
    (later : (before 1).fresh ≤ fresh)
    (keeps : ((before 1).entries target).map skeleton <+:
      (change ((before 1).entries target)).map skeleton)
    (ahead : ∀ entry ∈ (change ((before 1).entries target)).map skeleton, entry.isDir = true →
      target < entry.table ∧ entry.table < fresh) :
    Reached before (Function.update before 1
      { (before 1).change target change with fresh }) target := by
  have written : (Function.update before 1 { (before 1).change target change with fresh }) 1 =
      { (before 1).change target change with fresh } := Function.update_self _ _ _
  refine ⟨Function.update_of_ne (by decide) _ _, ?_, ?_, ?_, ?_⟩
  all_goals rw [written]
  · exact fun table => grown_change keeps table
  · constructor
    · intro table entry member directory
      by_cases same : table = target
      · subst same
        rw [show ((_ : NamedVolume).entries table) = change ((before 1).entries table) from
          entries_change_self] at member
        exact ahead entry member directory
      · rw [show ((_ : NamedVolume).entries table) = (before 1).entries table from
          entries_change_of_ne same] at member
        obtain ⟨above, under⟩ := ordered.ahead table entry member directory
        exact ⟨above, under.trans_le later⟩
    · intro table beyond
      have old : (before 1).fresh ≤ table := later.trans beyond
      exact (entries_change_of_ne (by omega)).trans (ordered.unused table old)
  · exact later
  · exact fun table _ different => entries_change_of_ne different

/-- A new entry at the end of a directory. -/
theorem reached_append {entry : DirEntry} {fresh : Nat} (ordered : (before 1).Ordered)
    (present : target < (before 1).fresh) (later : (before 1).fresh ≤ fresh)
    (ahead : entry.isDir = true → target < entry.table ∧ entry.table < fresh) :
    Reached before (Function.update before 1
      { (before 1).change target (· ++ [entry]) with fresh }) target := by
  refine reached_change ordered present later ?_ ?_
  · rw [List.map_append]
    exact List.prefix_append _ _
  · rw [List.map_append, List.forall_mem_append]
    refine ⟨fun old member directory => ?_, List.forall_mem_singleton.mpr ahead⟩
    obtain ⟨above, under⟩ := ordered.ahead target old member directory
    exact ⟨above, under.trans_le later⟩

/-- New bytes in an entry of a directory. -/
theorem reached_store {index : Nat} {content : List UInt8} (ordered : (before 1).Ordered)
    (present : target < (before 1).fresh) :
    Reached before (Function.update before 1 ((before 1).store target index content)) target := by
  have same := @skeleton_modify ((before 1).entries target) index content
  have ahead := ordered.ahead target
  rw [← same] at ahead
  exact reached_change ordered present (Nat.le_refl _) (same.symm ▸ List.prefix_rfl) ahead

end Reached

/-- A directory of a copy is not changed by what leaves it and everything below it alone. -/
theorem Mirrors.transfer {source copy later : NamedVolume} {low high table : Nat}
    {entries entries' : List DirEntry}
    (closed : ∀ place, low ≤ place → place < high → ∀ entry ∈ copy.entries place,
      entry.isDir = true → low ≤ entry.table ∧ entry.table < high)
    (same : ∀ place, low ≤ place → place < high → later.entries place = copy.entries place)
    (mirrors : Mirrors source copy table entries entries')
    (inside : ∀ entry ∈ entries', entry.isDir = true → low ≤ entry.table ∧ entry.table < high) :
    Mirrors source later table entries entries' := by
  induction mirrors with
  | done => exact .done
  | file regular regular' bytes _ others =>
    exact .file regular regular' bytes (others (List.forall_mem_cons.mp inside).2)
  | dir directory directory' finds directoryFound _ _ below others =>
    obtain ⟨first, rest⟩ := List.forall_mem_cons.mp inside
    obtain ⟨above, under⟩ := first directory'
    refine .dir directory directory' finds directoryFound ?_ (others rest)
    rw [same _ above under]
    exact below (closed _ above under)

/-! ### Copying the rest of a directory -/

/-- What copying some entries of a directory makes of a directory of the destination: no entry is
added where two names meet, and where none do the entries are mirrored if they are separate. -/
structure Copied (source before after : NamedVolume) (table target : Nat)
    (rest : List DirEntry) : Prop where
  shorter : (after.entries target).length ≤ (before.entries target).length + rest.length
  whole : Separate source table (before.labels target) rest →
    (after.entries target).length = (before.entries target).length + rest.length
  mirrors : (after.entries target).length = (before.entries target).length + rest.length →
    ∃ added, after.entries target = before.entries target ++ added ∧
      (Mirrors source after table rest added ↔
        Separate source table (before.labels target) rest)

section Copied

variable {source before middle after : NamedVolume} {table target : Nat}
  {entry : DirEntry} {rest : List DirEntry}

theorem copied_nil : Copied source before before table target [] where
  shorter := Nat.le_refl _
  whole _ := rfl
  mirrors _ := ⟨[], (List.append_nil _).symm, iff_of_true .done .done⟩

/-- A whole directory, into one that was empty. -/
theorem Copied.iff (copied : Copied source before after table target rest)
    (empty : before.entries target = []) :
    Mirrors source after table rest (after.entries target) ↔ Separate source table [] rest := by
  have labels : before.labels target = [] := by rw [labels, empty, List.map_nil]
  by_cases full : (after.entries target).length = (before.entries target).length + rest.length
  · obtain ⟨added, entries, mirrors⟩ := copied.mirrors full
    rw [empty, List.nil_append] at entries
    rw [entries, ← labels]
    exact mirrors
  · refine iff_of_false (fun mirrors => full ?_) fun separate => full (copied.whole ?_)
    · rw [mirrors.length, empty, List.length_nil, Nat.zero_add]
    · rwa [labels]

/-- A name that is found adds no entry. -/
theorem copied_found {index place : Nat} {met : DirEntry} {content : List UInt8}
    (finds : before.Finds target entry.shown place met)
    (copied : Copied source (before.store target index content) after table target rest) :
    Copied source before after table target (entry :: rest) := by
  have shorter := copied.shorter
  have length : ((before.store target index content).entries target).length =
      (before.entries target).length := by
    rw [store, entries_change_self, List.length_modify]
  rw [length] at shorter
  refine ⟨?_, fun separate => ?_, fun full => ?_⟩
  · rw [List.length_cons]
    omega
  · obtain ⟨label, name, created, missing, _⟩ := separate.admits
    obtain ⟨name', created', found, _⟩ := finds
    obtain rfl := Option.some.inj (created.symm.trans created')
    exact absurd (missing.symm.trans found) (Option.some_ne_none _).symm
  · rw [List.length_cons] at full
    omega

/-- A name that is not found adds an entry, which is mirrored as the rest is. -/
theorem copied_new {copy : DirEntry} {headMirrors headSeparate : Prop}
    (entries : middle.entries target = before.entries target ++ [copy])
    (mirrors : ∀ added, Mirrors source after table (entry :: rest) (copy :: added) ↔
      headMirrors ∧ Mirrors source after table rest added)
    (separate : Separate source table (before.labels target) (entry :: rest) ↔
      headSeparate ∧
        Separate source table (before.labels target ++ [copy.toLabel]) rest)
    (head : headMirrors ↔ headSeparate)
    (copied : Copied source middle after table target rest) :
    Copied source before after table target (entry :: rest) := by
  have labels : middle.labels target = before.labels target ++ [copy.toLabel] := by
    rw [NamedVolume.labels, entries, List.map_append]
    rfl
  have length : (middle.entries target).length = (before.entries target).length + 1 := by
    rw [entries, List.length_append, List.length_singleton]
  obtain ⟨shorter, whole, rests⟩ := copied
  rw [length] at shorter whole rests
  rw [labels] at whole rests
  have count : (before.entries target).length + (entry :: rest).length =
      (before.entries target).length + 1 + rest.length := by
    rw [List.length_cons]
    omega
  rw [← count] at shorter whole rests
  refine ⟨shorter, fun all => whole (separate.mp all).2, fun full => ?_⟩
  obtain ⟨added, final, iff⟩ := rests full
  refine ⟨copy :: added, ?_, ?_⟩
  · rw [final, entries, List.append_assoc]
    rfl
  · rw [mirrors, separate, head, iff]

end Copied

/-! ### The run -/

section Run

variable {before middle after : NamedDrives} {names : List FatPath} {table target : Nat}
  {entry : DirEntry}

/-- What a volume holds from a directory on is the same after a part of a run that works on an
earlier one. -/
theorem Reached.mirrors_iff {source : NamedVolume} {place table : Nat} {entries : List DirEntry}
    (reached : Reached before after target) (ordered : (before 1).Ordered)
    (later : target < place) (present : place < (before 1).fresh) :
    Mirrors source (after 1) table entries ((after 1).entries place) ↔
      Mirrors source (before 1) table entries ((before 1).entries place) := by
  have same : ∀ table, place ≤ table → table < (before 1).fresh →
      (after 1).entries table = (before 1).entries table :=
    fun table above under => reached.frame table under (by omega)
  have closed : ∀ table, place ≤ table → ∀ entry ∈ (before 1).entries table,
      entry.isDir = true → place ≤ entry.table ∧ entry.table < (before 1).fresh := by
    intro table above entry member directory
    obtain ⟨ahead, under⟩ :=
      ordered.ahead table (skeleton entry) (List.mem_map_of_mem member) directory
    exact ⟨above.trans (Nat.le_of_lt ahead), under⟩
  rw [same place (Nat.le_refl _) present]
  constructor
  · refine fun mirrors => mirrors.transfer ?_
      (fun table above under => (same table above under).symm)
      (closed place (Nat.le_refl _))
    intro table above under
    rw [same table above under]
    exact closed table above
  · exact fun mirrors => mirrors.transfer (fun table above _ => closed table above) same
      (closed place (Nat.le_refl _))

/-- A file of the directory: it becomes a new entry, or the bytes of the one its name finds. -/
theorem copyFile_copied {fuel : Nat} (sourceLeads : (before 0).Leads 0 names table)
    (leads : (before 1).Leads 0 names target) (plains : ∀ name ∈ names, PlainName name)
    (plain : PlainName entry.shown) (regular : entry.isDir = false) (ordered : (before 1).Ordered)
    (present : target < (before 1).fresh)
    (run : (copyFile named fuel (sourcePath (names ++ [entry.shown]))
      (destinationPath (names ++ [entry.shown]))).Outcome before 0 middle) :
    Reached before middle target ∧
      ∀ after rest, Copied (before 0) (middle 1) after table target rest →
        Copied (before 0) (before 1) after table target (entry :: rest) := by
  obtain ⟨index, found, finds, regularFound, new | met⟩ :=
    copyFile_named sourceLeads leads (segments plains) plain.segment run
  · obtain ⟨label, admits, rfl⟩ := new
    refine ⟨reached_append ordered present (Nat.le_refl _) nofun, fun after rest copied => ?_⟩
    rw [Function.update_self] at copied
    have written : ((before 1).change target (· ++ [⟨label, false, 0, found.content⟩])).entries
        target = (before 1).entries target ++ [⟨label, false, 0, found.content⟩] :=
      entries_change_self
    exact copied_new written (fun added => mirrors_file_iff regular rfl)
      (separate_file_iff regular admits finds regularFound) Iff.rfl copied
  · obtain ⟨place, entry', finds', rfl⟩ := met
    refine ⟨reached_store ordered present, fun after rest copied => ?_⟩
    rw [Function.update_self] at copied
    exact copied_found finds' copied

/-- The directory made for one of the source: the path leads to it, and it is empty. -/
theorem fMkdir_reached {made : PUnit} (leads : (before 1).Leads 0 names target)
    (plains : ∀ name ∈ names, PlainName name) (plain : PlainName entry.shown)
    (ordered : (before 1).Ordered) (present : target < (before 1).fresh)
    (run : (named.fMkdir (destinationPath (names ++ [entry.shown]))).Outcome before (.ok made)
      middle) :
    Reached before middle target ∧ (middle 1).fresh = (before 1).fresh + 1 ∧
      (middle 1).Leads 0 (names ++ [entry.shown]) (before 1).fresh ∧
      (middle 1).entries (before 1).fresh = [] ∧
      ∃ label, Admits ((before 1).labels target) entry.shown label ∧
        (middle 1).entries target =
          (before 1).entries target ++ [⟨label, true, (before 1).fresh, []⟩] := by
  obtain ⟨label, admits, made⟩ :=
    fMkdir_good (spells_destination _) leads (segments plains) plain.segment run
  have reached : Reached before middle target :=
    made ▸ reached_append ordered present (Nat.le_succ _) fun _ => ⟨present, Nat.lt_succ_self _⟩
  have written := congrFun made 1
  rw [Function.update_self] at written
  have entries : (middle 1).entries target =
      (before 1).entries target ++ [⟨label, true, (before 1).fresh, []⟩] := by
    rw [written]
    exact Function.update_self _ _ _
  refine ⟨reached, written ▸ rfl, ?_, ?_, label, admits, entries⟩
  · exact admits.leads plain reached.grown leads entries
  · have different : (before 1).fresh ≠ target := by omega
    rw [written]
    exact (Function.update_of_ne different _ _).trans (ordered.unused _ (Nat.le_refl _))

/-- Copying a directory copies its entries from the first one on. -/
theorem copyDir_opens {fuel : Nat} {destinationDirname : FatPath}
    (sourceLeads : (before 0).Leads 0 names table) (plains : ∀ name ∈ names, PlainName name)
    (plain : PlainName entry.shown)
    (run : (copyDir named fuel (sourcePath (names ++ [entry.shown])) destinationDirname).Outcome
      before 0 after) :
    ∃ fewer < fuel, ∃ index found, (before 0).Finds table entry.shown index found ∧
      found.isDir = true ∧
      (copyEntries named fewer (sourcePath (names ++ [entry.shown])) destinationDirname
        ⟨0, found.table, 0⟩).Outcome before 0 after := by
  cases fuel with
  | zero => exact absurd run Program.outcome_undefined
  | succ fuel =>
    rw [copyDir] at run
    obtain ⟨_, _, opened, copied⟩ := (Program.outcome_orFail (by decide)).mp run
    obtain ⟨index, found, finds, directory, rfl, rfl⟩ :=
      fOpendir_good (spells_source _) sourceLeads (segments plains) plain.segment opened
    exact ⟨fuel, Nat.lt_succ_self _, index, found, finds, directory, copied⟩

/-- The loop over the entries of a directory, by induction on its turns and the levels below. -/
theorem copyEntries_copied {fuel index : Nat} (plain : (before 0).Plain)
    (sourceLeads : (before 0).Leads 0 names table) (leads : (before 1).Leads 0 names target)
    (plains : ∀ name ∈ names, PlainName name) (ordered : (before 1).Ordered)
    (present : target < (before 1).fresh) (behind : index ≤ ((before 0).listing table).length)
    (run : (copyEntries named fuel (sourcePath names) (destinationPath names)
      ⟨0, table, index⟩).Outcome before 0 after) :
    Reached before after target ∧ Copied (before 0) (before 1) (after 1) table target
      (((before 0).listing table).drop index) := by
  induction fuel using Nat.strong_induction_on generalizing before after names table target
    index with
  | _ fuel inductionHypothesis =>
  cases fuel with
  | zero => exact absurd run Program.outcome_undefined
  | succ fuel =>
    rw [copyEntries] at run
    obtain ⟨read, afterRead, reads, goesOn⟩ := (Program.outcome_orFail (by decide)).mp run
    obtain ⟨unchanged, ends | ⟨entry, here, rfl⟩⟩ := fReaddir_source behind reads
    · -- the end of what is listed
      rw [ends.2, unchanged] at goesOn
      obtain ⟨_, same⟩ := Program.outcome_pure.mp goesOn
      rw [List.drop_eq_nil_of_le (List.getElem?_eq_none_iff.mp ends.1), same]
      exact ⟨.refl ordered, copied_nil⟩
    · have listed : entry ∈ (before 0).listing table := List.mem_of_getElem? here
      have shown := plain table entry listed
      have turn : index < ((before 0).listing table).length :=
        (List.getElem?_eq_some_iff.mp here).1
      have rest : ((before 0).listing table).drop index =
          entry :: ((before 0).listing table).drop (index + 1) := by
        obtain ⟨inside, rfl⟩ := List.getElem?_eq_some_iff.mp here
        exact List.drop_eq_getElem_cons inside
      rw [rest]
      dsimp only at goesOn
      rw [sourcePath_concat, destinationPath_concat, unchanged] at goesOn
      cases kind : entry.isDir with
      | false =>
        rw [if_neg (by exact Bool.eq_false_iff.mp kind)] at goesOn
        obtain ⟨middle, copied, others⟩ := (Program.outcome_checked (by decide)).mp goesOn
        obtain ⟨reached, grows⟩ := copyFile_copied sourceLeads leads plains shown kind ordered
          present copied
        obtain ⟨reachedRest, copiedRest⟩ := inductionHypothesis fuel (Nat.lt_succ_self _)
          (reached.source ▸ plain) (reached.source ▸ sourceLeads) (reached.grown.leads leads) plains
          reached.ordered (present.trans_le reached.fresh) (reached.source ▸ turn) others
        rw [reached.source] at copiedRest
        exact ⟨reached.trans reachedRest (.inl rfl), grows _ _ copiedRest⟩
      | true =>
        rw [if_pos (by exact kind)] at goesOn
        obtain ⟨_, made, makes, inside⟩ := (Program.outcome_orFail (by decide)).mp goesOn
        obtain ⟨below, descends, others⟩ := (Program.outcome_checked (by decide)).mp inside
        obtain ⟨reachedMade, next, leadsMade, empty, label, admits, entries⟩ :=
          fMkdir_reached leads plains shown ordered present makes
        have sourceMade := reachedMade.source
        obtain ⟨fewer, less, place, found, finds, directory, run⟩ :=
          copyDir_opens (sourceMade ▸ sourceLeads) plains shown descends
        have plainsBelow : ∀ name ∈ names ++ [entry.shown], PlainName name :=
          List.forall_mem_append.mpr ⟨plains, List.forall_mem_singleton.mpr shown⟩
        -- the levels below, into the new directory
        obtain ⟨reachedBelow, copiedBelow⟩ := inductionHypothesis fewer (by omega)
          (sourceMade ▸ plain) ((sourceMade ▸ sourceLeads).concat finds directory) leadsMade
          plainsBelow reachedMade.ordered (by omega) (Nat.zero_le _) run
        rw [sourceMade] at copiedBelow finds
        have insideIff := copiedBelow.iff empty
        -- the other entries
        have reached := reachedMade.trans reachedBelow (.inr (Nat.le_refl _))
        obtain ⟨reachedRest, copiedRest⟩ := inductionHypothesis fuel (Nat.lt_succ_self _)
          (reached.source ▸ plain) (reached.source ▸ sourceLeads) (reached.grown.leads leads) plains
          reached.ordered (present.trans_le reached.fresh) (reached.source ▸ turn) others
        rw [reached.source] at copiedRest
        have stays : (below 1).entries target =
            (before 1).entries target ++ [⟨label, true, (before 1).fresh, []⟩] :=
          (reachedBelow.frame target (by omega) (by omega)).trans entries
        have grows := reachedBelow.fresh
        refine ⟨reached.trans reachedRest (.inl rfl),
          copied_new stays (fun added => mirrors_dir_iff kind rfl finds directory)
            (separate_dir_iff kind admits finds directory) ?_ copiedRest⟩
        exact (reachedRest.mirrors_iff reached.ordered present (by omega)).trans insideIff

end Run

/-! ### A rebuilt disk -/

/-- The volumes when the copying starts: the source, and a destination that was just formatted. -/
def rebuildDrives (source : NamedVolume) : NamedDrives := fun drive =>
  if drive = 0 then source else ⟨fun _ => [], 1⟩

theorem formatted_ordered (source : NamedVolume) : (rebuildDrives source 1).Ordered :=
  ⟨fun _ _ none => absurd none List.not_mem_nil, fun _ _ => rfl⟩

/-- Copying a disk copies the entries of its root directory from the first one on. -/
theorem copyDir_starts {source : NamedVolume} {fuel : Nat} {after : NamedDrives}
    (run : (copyDir named fuel [0x30, 0x3a] [0x31, 0x3a]).Outcome (rebuildDrives source) 0 after) :
    ∃ fewer, (copyEntries named fewer (sourcePath []) (destinationPath []) ⟨0, 0, 0⟩).Outcome
      (rebuildDrives source) 0 after := by
  cases fuel with
  | zero => exact absurd run Program.outcome_undefined
  | succ fuel =>
    rw [copyDir] at run
    obtain ⟨_, _, opened, copied⟩ := (Program.outcome_orFail (by decide)).mp run
    obtain ⟨same, unchanged⟩ := Prod.mk.inj (Except.ok.inj opened)
    rw [← Except.ok.inj same, ← unchanged] at copied
    have start : Function.update (rebuildDrives source) 0 (rebuildDrives source 0) =
        rebuildDrives source := Function.update_eq_self _ _
    exact ⟨fuel, start ▸ copied⟩

/-- A copy of a disk holds what it visits of the source, entry for entry, exactly if no name meets
one registered before it and the names of the files find their bytes. -/
theorem copyDir_mirrors_iff {source : NamedVolume} {fuel : Nat} {after : NamedDrives}
    (plain : source.Plain)
    (run : (copyDir named fuel [0x30, 0x3a] [0x31, 0x3a]).Outcome (rebuildDrives source) 0 after) :
    Mirrors source (after 1) 0 (source.listing 0) ((after 1).entries 0) ↔
      Separate source 0 [] (source.listing 0) := by
  obtain ⟨_, copied⟩ := copyDir_starts run
  exact (copyEntries_copied plain .here .here (fun _ none => absurd none List.not_mem_nil)
    (formatted_ordered source) Nat.zero_lt_one (Nat.zero_le _) copied).2.iff rfl

/-- Siblings have different short names and different long names. -/
def NamedVolume.Distinct (volume : NamedVolume) : Prop :=
  ∀ table, (volume.entries table).Pairwise fun entry entry' =>
    entry.sfn ≠ entry'.sfn ∧
      (entry.lfn = [] ∨ entry.lfn.map ffWtoupper ≠ entry'.lfn.map ffWtoupper)

/-- A directory with a file in it. -/
def nested : NamedVolume where
  entries
    | 0 => [⟨⟨[0x53, 0x55, 0x42, 0x20, 0x20, 0x20, 0x20, 0x20, 0x20, 0x20, 0x20], [], false, false⟩,
      true, 1, []⟩]
    | 1 => [⟨⟨[0x41, 0x20, 0x20, 0x20, 0x20, 0x20, 0x20, 0x20, 0x20, 0x20, 0x20], [], false, false⟩,
      false, 0, [1]⟩]
    | _ => []
  fresh := 2

/-- The disk of `nested` is rebuilt with its file in its directory. -/
theorem copyDir_mirrors_iff_nested :
    ∃ after, (copyDir named 6 [0x30, 0x3a] [0x31, 0x3a]).Outcome (rebuildDrives nested) 0 after ∧
      Mirrors nested (after 1) 0 (nested.listing 0) ((after 1).entries 0) := by
  have returns : ((copyDir named 6 [0x30, 0x3a] [0x31, 0x3a])
      (rebuildDrives nested)).toOption.map (·.1) = some 0 := by decide +kernel
  obtain ⟨_, after, run, rfl⟩ := Program.outcome_of_observed returns
  have plain : nested.Plain := by
    intro table entry member
    match table, member with
    | 0, member =>
      rw [List.mem_singleton.mp member]
      exact ⟨by decide, by decide, by decide +kernel⟩
    | 1, member =>
      rw [List.mem_singleton.mp member]
      exact ⟨by decide, by decide, by decide +kernel⟩
  have file : Separate nested 1 [] (nested.listing 1) :=
    .file rfl ⟨_, rfl, rfl, rfl⟩ ⟨_, rfl, rfl, rfl⟩ rfl rfl .done
  have directory : Separate nested 0 [] (nested.listing 0) :=
    .dir rfl ⟨_, rfl, rfl, rfl⟩ ⟨_, rfl, rfl, rfl⟩ rfl file .done
  exact ⟨after, run, (copyDir_mirrors_iff plain run).mpr directory⟩

/-- The file `foo bar.txt` with the alias `FOOBAR~2.TXT`, and behind it the file `FOOBAR~1.TXT`. -/
def aliased : NamedVolume where
  entries
    | 0 => [
      ⟨⟨[0x46, 0x4f, 0x4f, 0x42, 0x41, 0x52, 0x7e, 0x32, 0x54, 0x58, 0x54],
        [0x66, 0x6f, 0x6f, 0x20, 0x62, 0x61, 0x72, 0x2e, 0x74, 0x78, 0x74], false, false⟩,
        false, 0, [1]⟩,
      ⟨⟨[0x46, 0x4f, 0x4f, 0x42, 0x41, 0x52, 0x7e, 0x31, 0x54, 0x58, 0x54], [], false, false⟩,
        false, 0, [2]⟩]
    | _ => []
  fresh := 1

/-- The short name that `foo bar.txt` gets in the copy is found by the second name, whose file takes
its place. -/
theorem copyDir_not_mirrors_aliased :
    ¬ ∀ source : NamedVolume, source.Plain → source.Distinct → ∀ fuel after,
      (copyDir named fuel [0x30, 0x3a] [0x31, 0x3a]).Outcome (rebuildDrives source) 0 after →
        Mirrors source (after 1) 0 (source.listing 0) ((after 1).entries 0) := by
  intro always
  have returns : ((copyDir named 4 [0x30, 0x3a] [0x31, 0x3a])
      (rebuildDrives aliased)).toOption.map (fun x => (x.1, ((x.2 1).entries 0).length)) =
        some (0, 1) := by decide +kernel
  obtain ⟨_, after, run, same⟩ := Program.outcome_of_observed returns
  obtain ⟨rfl, single⟩ := Prod.mk.inj same
  have plain : aliased.Plain := by
    intro table entry member
    match table, member with
    | 0, member =>
      obtain rfl | second := List.mem_cons.mp member
      · exact ⟨by decide, by decide, by decide +kernel⟩
      · rw [List.mem_singleton.mp second]
        exact ⟨by decide, by decide, by decide +kernel⟩
  have distinct : aliased.Distinct := by
    intro table
    match table with
    | 0 => decide
    | table + 1 => exact .nil
  exact absurd (single.symm.trans (always aliased plain distinct 4 after run).length) (by decide)

end Hdfmonkey
