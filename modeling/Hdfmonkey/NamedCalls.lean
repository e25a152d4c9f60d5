/-
This file states what the calls of a copy do on volumes with names: one lemma for each
call on a path of plain names that leads somewhere, and from them what copying one file
does.
-/

import Hdfmonkey.CopyDir
import Hdfmonkey.NamedPaths

namespace Hdfmonkey

open NamedVolume

/-- The drives of the source and of the destination at the front of a path. -/
def sourcePath (names : List FatPath) : FatPath := [0x30, 0x3a] ++ joined names

def destinationPath (names : List FatPath) : FatPath := [0x31, 0x3a] ++ joined names

theorem sourcePath_concat (names : List FatPath) (name : FatPath) :
    concatFilename (sourcePath names) name = sourcePath (names ++ [name]) := by
  rw [sourcePath, sourcePath, joined_concat]
  rfl

theorem destinationPath_concat (names : List FatPath) (name : FatPath) :
    concatFilename (destinationPath names) name = destinationPath (names ++ [name]) := by
  rw [destinationPath, destinationPath, joined_concat]
  rfl

/-- A path on a drive that is made of some names, each behind a slash, which the first may miss. -/
def Spells (path : FatPath) (drive : Nat) (names : List FatPath) : Prop :=
  (logicalDrive path).1 = drive ∧
    ((logicalDrive path).2 = joined names ∨ (logicalDrive path).2 = (joined names).tail)

theorem spells_source (names : List FatPath) : Spells (sourcePath names) 0 names :=
  ⟨rfl, .inl rfl⟩

theorem spells_destination (names : List FatPath) : Spells (destinationPath names) 1 names :=
  ⟨rfl, .inl rfl⟩

/-! ### What is listed -/

/-- What a list that was cut off has at the places up to its end. -/
theorem getElem?_takeWhile {α : Type} {p : α → Bool} {list : List α} {index : Nat}
    (inside : index ≤ (list.takeWhile p).length) :
    (list.takeWhile p)[index]? = list[index]?.filter p := by
  induction list generalizing index with
  | nil => rfl
  | cons first rest inductionHypothesis =>
    by_cases here : p first = true
    · rw [List.takeWhile_cons_of_pos here] at inside ⊢
      cases index with
      | zero => exact (Option.filter_some_pos here).symm
      | succ index => exact inductionHypothesis (Nat.le_of_succ_le_succ inside)
    · rw [List.takeWhile_cons_of_neg here] at inside ⊢
      obtain rfl := Nat.le_zero.mp inside
      exact (Option.filter_some_neg (Bool.eq_false_iff.mpr here)).symm

/-- The entries that are listed, and behind them nothing or an entry without a short name. -/
theorem listing_getElem? {volume : NamedVolume} {table index : Nat}
    (inside : index ≤ (volume.listing table).length) :
    (volume.listing table)[index]? =
      (volume.entries table)[index]?.filter fun entry => (fileInfo entry).fname ≠ [] :=
  getElem?_takeWhile inside

theorem mem_listing {volume : NamedVolume} {table : Nat} {entry : DirEntry}
    (listed : entry ∈ volume.listing table) : entry ∈ volume.entries table :=
  (List.takeWhile_prefix _).subset listed

/-! ### The calls -/

theorem named_fOpen (path : FatPath) (mode : OpenMode) :
    named.fOpen path mode = onDrive path (NamedVolume.fOpen mode) := rfl

theorem named_fOpendir (path : FatPath) :
    named.fOpendir path = onDrive path NamedVolume.fOpendir := rfl

theorem named_fMkdir (path : FatPath) :
    named.fMkdir path = onDrive path fun _ => NamedVolume.fMkdir := rfl

/-- The name is not found among those in a directory, and these are the names it gets there. -/
def Admits (labels : List Label) (filename : FatPath) (label : Label) : Prop :=
  ∃ name, createName filename = some name ∧ dirFind labels name = none ∧
    dirRegister labels name = some label

/-- A name that a look-up can find: its long name fits in the buffer, or its short name is as
good. -/
def Findable (filename : FatPath) : Prop :=
  ∀ name, createName filename = some name → name.lfn.length < maxLfn ∨ name.loss = false

theorem PlainName.findable {filename : FatPath} (plain : PlainName filename) : Findable filename :=
  fun _ created => .inl (lt_of_le_of_lt (createName_spec created).2.2 plain.short)

section Admits

variable {labels : List Label} {filename : FatPath} {label label' : Label}

theorem Admits.unique
    (admits : Admits labels filename label) (admits' : Admits labels filename label') :
    label' = label := by
  obtain ⟨name, created, _, registered⟩ := admits
  obtain ⟨name', created', _, registered'⟩ := admits'
  obtain rfl := Option.some.inj (created.symm.trans created')
  exact Option.some.inj (registered'.symm.trans registered)

theorem dirFind_append_none {name : Name} (missing : dirFind labels name = none)
    (matched : label.matches name = true) :
    dirFind (labels ++ [label]) name = some labels.length := by
  rw [dirFind, List.findIdx?_append] at *
  rw [missing, List.findIdx?_cons, matched]
  exact congrArg some (Nat.zero_add _)

/-- A new entry is found by the name it was made for. -/
theorem Admits.matches (admits : Admits labels filename label) (findable : Findable filename) :
    ∃ name, createName filename = some name ∧
      dirFind (labels ++ [label]) name = some labels.length := by
  obtain ⟨name, created, missing, registered⟩ := admits
  obtain ⟨longLoss, nonempty, _⟩ := createName_spec created
  have fits := findable name created
  refine ⟨name, created, dirFind_append_none missing ?_⟩
  rw [dirRegister] at registered
  split at registered
  · exact absurd registered nofun
  · rename_i sfn chosen
    obtain rfl := Option.some.inj registered
    rw [Label.matches, decide_eq_true_eq]
    cases loss : name.loss with
    | true =>
      rw [loss] at fits
      rw [if_pos (longLoss loss)]
      exact .inl ⟨nonempty, fits.resolve_right nofun, rfl⟩
    | false =>
      rw [loss, if_neg Bool.false_ne_true] at chosen
      exact .inr ⟨rfl, (Option.some.inj chosen).symm⟩

/-- It is found at the end of its directory. -/
theorem Admits.finds {volume later : NamedVolume} {table : Nat} {made : DirEntry}
    (admits : Admits (volume.labels table) filename made.toLabel) (findable : Findable filename)
    (entries : later.entries table = volume.entries table ++ [made]) :
    later.Finds table filename (volume.entries table).length made := by
  obtain ⟨name, created, found⟩ := admits.matches findable
  refine ⟨name, created, ?_, entries ▸ List.getElem?_concat_length⟩
  rw [NamedVolume.labels, entries, List.map_append]
  exact found.trans (congrArg some (List.length_map _))

/-- The names lead into a directory that was added. -/
theorem Admits.leads {volume later : NamedVolume} {names : List FatPath} {target number : Nat}
    (admits : Admits (volume.labels target) filename label) (plain : PlainName filename)
    (grown : Grown volume later) (leads : volume.Leads 0 names target)
    (entries : later.entries target = volume.entries target ++ [⟨label, true, number, []⟩]) :
    later.Leads 0 (names ++ [filename]) number := by
  have finds : later.Finds target filename (volume.entries target).length
      ⟨label, true, number, []⟩ := admits.finds plain.findable entries
  exact (grown.leads leads).concat finds rfl

end Admits

section Calls

variable {volumes after : NamedDrives} {drive : Nat} {path : FatPath} {names : List FatPath}
  {filename : FatPath} {table : Nat}

theorem onDrive_ok {Result : Type} {result : Result}
    {call : Nat → FatPath → NamedVolume → Except FResult (Result × NamedVolume)}
    (spells : Spells path drive names)
    (run : (onDrive path call).Outcome volumes (.ok result) after) :
    ∃ volume, call drive (logicalDrive path).2 (volumes drive) = .ok (result, volume) ∧
      after = Function.update volumes drive volume := by
  obtain ⟨rfl, _⟩ := spells
  unfold Program.Outcome onDrive at run
  dsimp only at run
  split at run
  · simp at run
  · split at run
    · simp at run
    · rename_i done called
      simp only [Except.ok.injEq, Prod.mk.injEq] at run
      obtain ⟨rfl, rfl⟩ := run
      exact ⟨_, called, rfl⟩

/-- A path of segments is followed from the root directory. -/
theorem Spells.segments {volume : NamedVolume} (spells : Spells path drive names)
    (plains : ∀ name ∈ names, Segment name) (some : names ≠ []) :
    followPath volume (logicalDrive path).2 =
      followSegments volume ((joined names).tail.length + 1) 0 (joined names).tail := by
  obtain ⟨follow, relative⟩ := @followPath_segments volume names plains some
  obtain ⟨_, spelled | spelled⟩ := spells
  · rw [spelled, follow]
  · rw [spelled, relative]

/-- A path to a name in a directory that its other names lead to. -/
theorem Spells.follow {volume : NamedVolume} (spells : Spells path drive (names ++ [filename]))
    (leads : volume.Leads 0 names table) (plains : ∀ name ∈ names, Segment name)
    (plain : Segment filename) :
    followPath volume (logicalDrive path).2 = volume.child table filename := by
  have all : ∀ name ∈ names ++ [filename], Segment name :=
    List.forall_mem_append.mpr ⟨plains, List.forall_mem_singleton.mpr plain⟩
  rw [spells.segments all (List.append_ne_nil_of_right_ne_nil _ (List.cons_ne_nil _ _)),
    followSegments_leads leads plains plain]

/-- A name at which a look-up stops. -/
theorem child_entry {volume : NamedVolume} {table' index : Nat}
    (child : volume.child table filename = .ok (.entry table' index)) :
    table' = table ∧ ∀ entry, (volume.entries table)[index]? = some entry →
      volume.Finds table filename index entry := by
  unfold NamedVolume.child at child
  split at child
  · exact absurd child nofun
  · rename_i name created
    split at child
    · simp at child
    · rename_i place found
      simp only [Except.ok.injEq, Followed.entry.injEq] at child
      obtain ⟨rfl, rfl⟩ := child
      exact ⟨rfl, fun entry present => ⟨name, created, found, present⟩⟩

/-- A name that a directory does not have. -/
theorem child_missing {volume : NamedVolume} {table' : Nat} {name : Name}
    (child : volume.child table filename = .ok (.missing table' name)) :
    table' = table ∧ ∀ label, dirRegister (volume.labels table) name = some label →
      Admits (volume.labels table) filename label := by
  unfold NamedVolume.child at child
  split at child
  · exact absurd child nofun
  · rename_i name' created
    split at child
    · rename_i missing
      simp only [Except.ok.injEq, Followed.missing.injEq] at child
      obtain ⟨rfl, rfl⟩ := child
      exact ⟨rfl, fun label registered => ⟨name', created, missing, registered⟩⟩
    · simp at child

theorem child_root {volume : NamedVolume} : volume.child table filename ≠ .ok .root := by
  unfold NamedVolume.child
  split
  · exact nofun
  · split <;> simp

/-- Opening a file to read it. -/
theorem fOpen_reading {file : NamedFile} (spells : Spells path drive (names ++ [filename]))
    (leads : (volumes drive).Leads 0 names table) (plains : ∀ name ∈ names, Segment name)
    (plain : Segment filename) (run : (named.fOpen path .read).Outcome volumes (.ok file) after) :
    ∃ index entry, (volumes drive).Finds table filename index entry ∧ entry.isDir = false ∧
      file = ⟨drive, table, index, entry.content, none⟩ ∧ after = volumes := by
  rw [named_fOpen] at run
  obtain ⟨volume, called, rfl⟩ := onDrive_ok spells run
  dsimp only [NamedVolume.fOpen, NamedVolume.openExisting] at called
  rw [spells.follow leads plains plain] at called
  cases child : (volumes drive).child table filename with
  | error code =>
    rw [child] at called
    exact absurd called nofun
  | ok followed =>
    rw [child] at called
    cases followed with
    | root => exact absurd called nofun
    | missing _ _ => exact absurd called nofun
    | entry table' index =>
      obtain ⟨rfl, finds⟩ := child_entry child
      dsimp only at called
      split at called
      · exact absurd called nofun
      · rename_i entry present
        split_ifs at called with directory
        obtain ⟨rfl, rfl⟩ := Prod.mk.inj (Except.ok.inj called)
        exact ⟨index, entry, finds entry present, Bool.eq_false_iff.mpr directory, rfl,
          Function.update_eq_self _ _⟩

/-- Opening a directory. -/
theorem fOpendir_good {dir : NamedDir} (spells : Spells path drive (names ++ [filename]))
    (leads : (volumes drive).Leads 0 names table) (plains : ∀ name ∈ names, Segment name)
    (plain : Segment filename) (run : (named.fOpendir path).Outcome volumes (.ok dir) after) :
    ∃ index entry, (volumes drive).Finds table filename index entry ∧ entry.isDir = true ∧
      dir = ⟨drive, entry.table, 0⟩ ∧ after = volumes := by
  rw [named_fOpendir] at run
  obtain ⟨volume, called, rfl⟩ := onDrive_ok spells run
  unfold NamedVolume.fOpendir at called
  rw [spells.follow leads plains plain] at called
  cases child : (volumes drive).child table filename with
  | error code =>
    rw [child] at called
    exact absurd called nofun
  | ok followed =>
    rw [child] at called
    cases followed with
    | root => exact absurd child child_root
    | missing _ _ => exact absurd called nofun
    | entry table' index =>
      obtain ⟨rfl, finds⟩ := child_entry child
      dsimp only at called
      split at called
      · exact absurd called nofun
      · rename_i entry present
        split_ifs at called with directory
        obtain ⟨rfl, rfl⟩ := Prod.mk.inj (Except.ok.inj called)
        exact ⟨index, entry, finds entry present, directory, rfl, Function.update_eq_self _ _⟩

/-- Opening a file to write it: it is new, or what the name finds is emptied. -/
theorem fOpen_writing {file : NamedFile} (spells : Spells path drive (names ++ [filename]))
    (leads : (volumes drive).Leads 0 names table) (plains : ∀ name ∈ names, Segment name)
    (plain : Segment filename)
    (run : (named.fOpen path .createAlways).Outcome volumes (.ok file) after) :
    (∃ label, Admits ((volumes drive).labels table) filename label ∧
      file = ⟨drive, table, ((volumes drive).entries table).length, [], some []⟩ ∧
      after = Function.update volumes drive
        ((volumes drive).change table (· ++ [⟨label, false, 0, []⟩]))) ∨
    ∃ index entry, (volumes drive).Finds table filename index entry ∧ entry.isDir = false ∧
      file = ⟨drive, table, index, [], some []⟩ ∧
      after = Function.update volumes drive ((volumes drive).store table index []) := by
  rw [named_fOpen] at run
  obtain ⟨volume, called, rfl⟩ := onDrive_ok spells run
  dsimp only [NamedVolume.fOpen, NamedVolume.openAlways] at called
  rw [spells.follow leads plains plain] at called
  cases child : (volumes drive).child table filename with
  | error code =>
    rw [child] at called
    exact absurd called nofun
  | ok followed =>
    rw [child] at called
    cases followed with
    | root => exact absurd called nofun
    | missing table' name =>
      obtain ⟨rfl, admits⟩ := child_missing child
      dsimp only at called
      split at called
      · exact absurd called nofun
      · rename_i label registered
        obtain ⟨rfl, rfl⟩ := Prod.mk.inj (Except.ok.inj called)
        exact .inl ⟨label, admits label registered, rfl, rfl⟩
    | entry table' index =>
      obtain ⟨rfl, finds⟩ := child_entry child
      dsimp only at called
      split at called
      · exact absurd called nofun
      · rename_i entry present
        split_ifs at called with directory
        obtain ⟨rfl, rfl⟩ := Prod.mk.inj (Except.ok.inj called)
        exact .inr ⟨index, entry, finds entry present, Bool.eq_false_iff.mpr directory, rfl, rfl⟩

/-- Making a directory. -/
theorem fMkdir_good {made : PUnit} (spells : Spells path drive (names ++ [filename]))
    (leads : (volumes drive).Leads 0 names table) (plains : ∀ name ∈ names, Segment name)
    (plain : Segment filename) (run : (named.fMkdir path).Outcome volumes (.ok made) after) :
    ∃ label, Admits ((volumes drive).labels table) filename label ∧
      after = Function.update volumes drive { (volumes drive).change table
        (· ++ [⟨label, true, (volumes drive).fresh, []⟩]) with
          fresh := (volumes drive).fresh + 1 } := by
  rw [named_fMkdir] at run
  obtain ⟨volume, called, rfl⟩ := onDrive_ok spells run
  dsimp only [NamedVolume.fMkdir] at called
  rw [spells.follow leads plains plain] at called
  cases child : (volumes drive).child table filename with
  | error code =>
    rw [child] at called
    exact absurd called nofun
  | ok followed =>
    rw [child] at called
    cases followed with
    | root => exact absurd called nofun
    | entry _ _ => exact absurd called nofun
    | missing table' name =>
      obtain ⟨rfl, admits⟩ := child_missing child
      dsimp only at called
      split at called
      · exact absurd called nofun
      · rename_i label registered
        obtain ⟨_, rfl⟩ := Prod.mk.inj (Except.ok.inj called)
        exact ⟨label, admits label registered, rfl⟩

/-- Reading an entry of the source, or the end of what is listed. -/
theorem fReaddir_source {index : Nat} {read : Option FileInfo × NamedDir}
    (inside : index ≤ ((volumes 0).listing table).length)
    (run : (named.fReaddir ⟨0, table, index⟩).Outcome volumes (.ok read) after) :
    after = volumes ∧
      ((((volumes 0).listing table)[index]? = none ∧ read.1 = none) ∨
        ∃ entry, ((volumes 0).listing table)[index]? = some entry ∧
          read = (some (fileInfo entry), ⟨0, table, index + 1⟩)) := by
  have next := listing_getElem? inside
  unfold Program.Outcome at run
  dsimp only [named] at run
  split at run
  · rename_i ends
    rw [ends] at next
    simp only [Except.ok.injEq, Prod.mk.injEq] at run
    obtain ⟨rfl, rfl⟩ := run
    exact ⟨rfl, .inl ⟨next, rfl⟩⟩
  · rename_i entry present
    rw [present] at next
    simp only [Except.ok.injEq, Prod.mk.injEq] at run
    obtain ⟨rfl, rfl⟩ := run
    by_cases nameless : (fileInfo entry).fname = []
    · rw [Option.filter_some_neg (by simpa using nameless)] at next
      exact ⟨rfl, .inl ⟨next, FileInfo.listed_of_nameless nameless⟩⟩
    · rw [Option.filter_some_pos (by simpa using nameless)] at next
      exact ⟨rfl, .inr ⟨entry, next, by rw [FileInfo.listed_of_named nameless]⟩⟩

theorem fClose_reading {file : NamedFile} {result : Except FResult PUnit}
    (reading : file.written = none) (run : (named.fClose file).Outcome volumes result after) :
    after = volumes := by
  unfold Program.Outcome at run
  dsimp only [named] at run
  rw [reading] at run
  exact (Prod.mk.inj (Except.ok.inj run)).2.symm

theorem fClose_writing {drive index : Nat} {rest written : List UInt8}
    {result : Except FResult PUnit}
    (run : (named.fClose ⟨drive, table, index, rest, some written⟩).Outcome volumes result after) :
    after = Function.update volumes drive ((volumes drive).store table index written) :=
  (Prod.mk.inj (Except.ok.inj run)).2.symm

/-- The loop over the contents writes all that is left of the source file. -/
theorem copyContents_named {fuel : Nat} {sourceFile : NamedFile} {index : Nat}
    {written : List UInt8} (reading : sourceFile.written = none)
    (run : (copyContents named fuel sourceFile ⟨1, table, index, [], some written⟩).Outcome
      volumes 0 after) :
    after = Function.update volumes 1
      ((volumes 1).store table index (written ++ sourceFile.rest)) := by
  induction fuel generalizing sourceFile written with
  | zero => exact absurd run Program.outcome_undefined
  | succ fuel inductionHypothesis =>
    obtain ⟨_, _, read, run⟩ := (Program.outcome_orFail (by decide)).mp run
    obtain ⟨same, rfl⟩ := Program.outcome_pure.mp read
    obtain rfl := Except.ok.inj same
    obtain ⟨_, _, write, run⟩ := (Program.outcome_orFail (by decide)).mp run
    obtain ⟨same, rfl⟩ := Program.outcome_pure.mp write
    obtain rfl := Except.ok.inj same
    dsimp only at run
    split_ifs at run with full
    · rw [inductionHypothesis (by exact reading) run, List.append_assoc, List.take_append_drop]
    · obtain ⟨_, _, closedSource, afterSource⟩ := Program.outcome_bind.mp run
      obtain rfl := fClose_reading (by exact reading) closedSource
      obtain ⟨_, _, closed, ended⟩ := Program.outcome_bind.mp afterSource
      obtain ⟨_, rfl⟩ := Program.outcome_pure.mp ended
      have last : sourceFile.rest.take bufferSize = sourceFile.rest := by
        refine List.take_of_length_le ?_
        rw [List.length_take] at full
        omega
      rw [fClose_writing closed, last]

/-- Copying a file: its bytes go into a new entry, or into the one that the name finds. -/
theorem copyFile_named {fuel target : Nat} (sourceLeads : (volumes 0).Leads 0 names table)
    (leads : (volumes 1).Leads 0 names target) (plains : ∀ name ∈ names, Segment name)
    (plain : Segment filename)
    (run : (copyFile named fuel (sourcePath (names ++ [filename]))
      (destinationPath (names ++ [filename]))).Outcome volumes 0 after) :
    ∃ index found, (volumes 0).Finds table filename index found ∧ found.isDir = false ∧
      ((∃ label, Admits ((volumes 1).labels target) filename label ∧
        after = Function.update volumes 1
          ((volumes 1).change target (· ++ [⟨label, false, 0, found.content⟩]))) ∨
      ∃ place entry, (volumes 1).Finds target filename place entry ∧
        after = Function.update volumes 1 ((volumes 1).store target place found.content)) := by
  obtain ⟨_, _, openedSource, afterSource⟩ := (Program.outcome_orFail (by decide)).mp run
  obtain ⟨index, found, finds, regular, rfl, rfl⟩ :=
    fOpen_reading (spells_source _) sourceLeads plains plain openedSource
  obtain ⟨_, _, opened, copied⟩ := (Program.outcome_orFail (by decide)).mp afterSource
  refine ⟨index, found, finds, regular, ?_⟩
  obtain ⟨label, admits, rfl, rfl⟩ | ⟨place, entry, finds', _, rfl, rfl⟩ :=
    fOpen_writing (spells_destination _) leads plains plain opened
  · refine .inl ⟨label, admits, ?_⟩
    rw [copyContents_named rfl copied, Function.update_self, Function.update_idem,
      List.nil_append, store_append]
  · refine .inr ⟨place, entry, finds', ?_⟩
    rw [copyContents_named rfl copied, Function.update_self, Function.update_idem,
      List.nil_append, store_store]

end Calls

end Hdfmonkey
