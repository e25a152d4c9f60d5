/-
This file proves what `ls` prints for a directory table that lies in the sectors of a
volume: one line for each entry that is meant to be seen, in the order of the table and up
to the first one whose short name is blank, with the name, the size and the kind that the
entry has. Long names are printed as the names of the entries they stand in front of.

Listing changes nothing that is seen of the volume.
-/

import Hdfmonkey.TableWalks
import Hdfmonkey.LongNames
import Hdfmonkey.ImageCommands

namespace Hdfmonkey

open Ff

/-! ### What a loop over `f_readdir` gets -/

/-- What successive calls of `f_readdir` show, up to the first that shows no name. -/
inductive Yields : Walk → (Nat → Nat) → List Filinfo → Prop
  | ended {walk next : Walk} {lfnBuf after : Nat → Nat} {info : Filinfo}
      (shown : walkReaddir walk lfnBuf = some (info, next, after)) (nameless : info.fname = []) :
      Yields walk lfnBuf []
  | next {walk next : Walk} {lfnBuf after : Nat → Nat} {info : Filinfo} {infos : List Filinfo}
      (shown : walkReaddir walk lfnBuf = some (info, next, after)) (named : info.fname ≠ [])
      (rest : Yields next after infos) : Yields walk lfnBuf (info :: infos)

/-- The entries that a loop over `f_readdir` gets to. -/
def listed (index : Nat) (ahead : List Buffer) : List Buffer :=
  (liveEntries index ahead).takeWhile fun entry => ¬Blank entry

section Walking

variable {entry : Buffer} {ahead : List Buffer} {index lfnIdx : Nat} {scan : Scan}
  {lfnBuf : Nat → Nat} {walk : Walk}

/-- A loop over `f_readdir` gets the live entries up to one without a name, by induction on their
number. -/
theorem yields_listed {passed : List Buffer} (proper : walk.Proper)
    (apart : ∀ ord sum, ¬Counted passed ord sum)
    (readable : Readable passed walk.index walk.ahead) :
    ∃ infos, Yields walk lfnBuf infos ∧ List.Forall₂ Lists
      (listed walk.index walk.ahead) infos := by
  generalize count : (liveEntries walk.index walk.ahead).length = number
  induction number generalizing walk lfnBuf passed with
  | zero =>
    have none := List.eq_nil_of_length_eq_zero count
    obtain ⟨info, next, after, run⟩ :=
      (@walkReaddir_readable passed lfnBuf walk proper apart).1 readable
    obtain ⟨_, ⟨_, nameless⟩ | ⟨entry, _, _, first⟩⟩ := walkReaddir_first proper run
    · refine ⟨[], .ended run nameless, ?_⟩
      rw [listed, none, List.takeWhile_nil]
      exact .nil
    · exact absurd (none.symm.trans first) (List.cons_ne_nil _ _).symm
  | succ number inductionHypothesis =>
    obtain ⟨defined, behind⟩ := @walkReaddir_readable passed lfnBuf walk proper apart
    obtain ⟨info, next, after, run⟩ := defined readable
    obtain ⟨properNext, ⟨none, _⟩ | ⟨entry, lists, blank, first⟩⟩ := walkReaddir_first proper run
    · rw [none] at count
      exact absurd count (Nat.succ_ne_zero _).symm
    · obtain ⟨front, apartNext, iff⟩ := (behind _ _ _ run).2
        (by rw [first]; exact List.cons_ne_nil _ _)
      rw [first, List.length_cons] at count
      rw [listed, first]
      by_cases nameless : info.fname = []
      · refine ⟨[], .ended run nameless, ?_⟩
        rw [List.takeWhile_cons_of_neg (by simpa using blank.mp nameless)]
        exact .nil
      · obtain ⟨infos, yields, all⟩ := @inductionHypothesis after next front properNext apartNext
          (iff.mp readable) (Nat.succ.inj count)
        refine ⟨info :: infos, .next run nameless yields, ?_⟩
        rw [List.takeWhile_cons_of_pos (by simpa using mt blank.mpr nameless)]
        exact .cons lists all

end Walking

/-! ### Tables with names -/

/-- An entry that is passed by: a deleted one, one that starts with a dot, or a volume label. -/
def PassedBy (entry : Buffer) : Prop :=
  entry 0 ≠ 0 ∧ (entry 0 = 0xE5 ∨ entry 0 = 0x2e ∨ isLabel (entry dirAttr &&& amMask) = true)

/-- The entries of a table from an index number on: files and directories with their sizes, each of
them with its long name in front, and others that are passed by. -/
inductive Filed : Nat → List (DirEntry × Nat) → List Buffer → Prop
  | ended {index : Nat} {slots : List Buffer} (zero : ∀ slot ∈ slots.head?, slot 0 = 0) :
      Filed index [] slots
  | passed {index : Nat} {entries : List (DirEntry × Nat)} {slot : Buffer} {slots : List Buffer}
      (dead : PassedBy slot) (inside : index + 1 < 2 ^ 16)
      (rest : Filed (index + 1) entries slots) : Filed index entries (slot :: slots)
  | entry {index length : Nat} {entry : DirEntry} {entries : List (DirEntry × Nat)} {slot : Buffer}
      {slots behind : List Buffer} (long : LongName entry.lfn)
        (carries : Carries entry.lfn slots slot)
      (short : ShortEntry entry slot) (shown : ¬Blank slot)
        (size : slot.loadDword dirFileSize = length)
      (inside : index + slots.length + 1 < 2 ^ 16)
      (rest : Filed (index + slots.length + 1) entries behind) :
      Filed index ((entry, length) :: entries) (slots ++ slot :: behind)

/-- The information on a file or directory. -/
def entryInfo (entry : DirEntry × Nat) : Filinfo := ⟨fileInfo entry.1, entry.2⟩

section Names

variable {index lfnIdx : Nat} {entries : List (DirEntry × Nat)} {ahead : List Buffer}
  {lfnBuf : Nat → Nat}

/-- An entry that is passed by leaves no trace. -/
theorem walkRead_passed {slot : Buffer} (dead : PassedBy slot) (inside : index + 1 < 2 ^ 16) :
    walkRead (slot :: ahead) index ⟨0xFF, 0xFF, lfnIdx⟩ lfnBuf =
      walkRead ahead (index + 1) ⟨0xFF, 0xFF, lfnIdx⟩ lfnBuf := by
  obtain ⟨present, kind⟩ := dead
  have turn : readEntry lfnBuf slot (entryDir index lfnIdx) ⟨0xFF, 0xFF, lfnIdx⟩ =
      some (false, ⟨0xFF, 0xFF, lfnIdx⟩, lfnBuf) := by
    have place : (entryDir index lfnIdx).entry = 0 := rfl
    have attr : attributes slot (entryDir index lfnIdx) = slot dirAttr &&& amMask := rfl
    rw [readEntry, place, attr, if_pos kind]
  rw [walkRead, if_neg present, turn, Option.bind_some, if_neg Bool.false_ne_true,
    if_neg (by omega)]

/-- Passing by an entry shows the same, and leaves the same to be shown. -/
theorem yields_passed {slot : Buffer} {infos : List Filinfo} (dead : PassedBy slot)
    (inside : index + 1 < 2 ^ 16) (yields : Yields ⟨ahead, index + 1, lfnIdx⟩ lfnBuf infos) :
    Yields ⟨slot :: ahead, index, lfnIdx⟩ lfnBuf infos := by
  have same := @walkRead_passed index lfnIdx ahead lfnBuf slot dead inside
  have goesOn {entry : Buffer} {at' : Walk} {buffer : Nat → Nat}
      (read : walkRead ahead (index + 1) ⟨0xFF, 0xFF, lfnIdx⟩ lfnBuf =
      some (some (entry, at'), buffer)) : walkReaddir ⟨slot :: ahead, index, lfnIdx⟩ lfnBuf =
        walkReaddir ⟨ahead, index + 1, lfnIdx⟩ lfnBuf := by
    rw [walkReaddir, walkReaddir, same, read, Option.map_some, Option.map_some]
  have ends {buffer : Nat → Nat}
      (read : walkRead ahead (index + 1) ⟨0xFF, 0xFF, lfnIdx⟩ lfnBuf = some (none, buffer)) :
      walkReaddir ⟨slot :: ahead, index, lfnIdx⟩ lfnBuf =
        some (⟨⟨[], [], false⟩, 0⟩, ⟨[], index, lfnIdx⟩, buffer) := by
    rw [walkReaddir, same, read, Option.map_some]
  cases yields with
  | ended shown nameless =>
    obtain ⟨⟨found, buffer⟩, read, _⟩ := Option.map_eq_some_iff.mp shown
    cases found with
    | none => exact .ended (ends read) rfl
    | some stop => exact .ended ((goesOn read).trans shown) nameless
  | next shown named rest =>
    obtain ⟨⟨found, buffer⟩, read, result⟩ := Option.map_eq_some_iff.mp shown
    cases found with
    | none => exact absurd (congrArg (fun read => read.1.fname) result).symm named
    | some stop => exact .next ((goesOn read).trans shown) named rest

/-- An entry with a long name is shown as what it is on the volume, and the next one is ahead. -/
theorem walkReaddir_entry {entry : DirEntry} {slots behind : List Buffer} {slot : Buffer}
    {length : Nat}
    (long : LongName entry.lfn) (carries : Carries entry.lfn slots slot)
    (short : ShortEntry entry slot)
    (size : slot.loadDword dirFileSize = length) (inside : index + slots.length + 1 < 2 ^ 16) :
    ∃ start after, walkReaddir ⟨slots ++ slot :: behind, index, lfnIdx⟩ lfnBuf =
      some (entryInfo (entry, length), ⟨behind, index + slots.length + 1, start⟩, after) := by
  obtain ⟨start, after, run, _⟩ := @walkRead_carries entry.lfn index slot slots behind
    ⟨0xFF, 0xFF, lfnIdx⟩ lfnBuf long carries (by omega)
  have info := @walkReaddir_fileInfo entry slots behind slot index lfnIdx lfnBuf long carries short
    (by omega)
  rw [walkReaddir, run, Option.map_some, Option.map_some, Option.some.injEq] at info
  refine ⟨start, after, ?_⟩
  rw [walkReaddir, run, Option.map_some, Option.some.injEq]
  dsimp only at info ⊢
  rw [entriesBehind, if_neg (by omega)]
  refine Prod.ext ?_ rfl
  have whole : (getFileinfo after slot (entryDir (index + slots.length) start)) =
      ⟨(getFileinfo after slot (entryDir (index + slots.length) start)).toFileInfo,
        slot.loadDword dirFileSize⟩ := rfl
  rw [whole, info, size]
  rfl

/-- A loop over `f_readdir` gets the files and directories of a table, by induction on them. -/
theorem Filed.yields (filed : Filed index entries ahead) :
    Yields ⟨ahead, index, lfnIdx⟩ lfnBuf (entries.map entryInfo) := by
  induction filed generalizing lfnIdx lfnBuf with
  | @ended index slots zero =>
    have none : walkRead slots index ⟨0xFF, 0xFF, lfnIdx⟩ lfnBuf = some (none, lfnBuf) := by
      cases slots with
      | nil => rfl
      | cons slot rest => rw [walkRead, if_pos (zero slot rfl)]
    have shown : walkReaddir ⟨slots, index, lfnIdx⟩ lfnBuf =
        some (⟨⟨[], [], false⟩, 0⟩, ⟨[], index, lfnIdx⟩, lfnBuf) := by
      rw [walkReaddir, none, Option.map_some]
    exact .ended shown rfl
  | passed dead inside _ inductionHypothesis =>
    exact yields_passed dead inside inductionHypothesis
  | @entry index length entry entries slot slots behind long carries short visible size inside _
      inductionHypothesis =>
    obtain ⟨start, after, shown⟩ := @walkReaddir_entry index lfnIdx lfnBuf entry slots behind
      slot length
      long carries short size inside
    refine .next shown ?_ inductionHypothesis
    have blank := @getFileinfo_fname_eq_nil slot index start lfnBuf carries.present
    rw [getFileinfo_fname short lfnBuf index start] at blank
    exact mt blank.mp visible

end Names

/-! ### The lines that are printed -/

namespace Ff

open Program

section Lines

variable {vol : Nat} {volume : VolumeContainer} {size : Nat} {build : Build} {fmt : FatType}
  {fs : Fatfs} {disk : Nat → Buffer} {machine : Machine} {cells : List Nat} {start fuel : Nat}
  {dj : Dir}
  {walk : Walk} {infos : List Filinfo}

/-- The loop of `ls` prints a line for all that is shown, by induction on what is. -/
theorem lsLoop_yields {lfnBuf : Nat → Nat} (yields : Yields walk lfnBuf infos)
    (onTable : OnTable vol volume size build fmt fs disk machine cells start)
    (inStep : InStep vol fs cells start disk dj walk) (named : machine.lfnBuf = lfnBuf)
    (enough : infos.length < fuel) (lines : List (List UInt8)) :
    ∃ win winsect wflag after,
      (lsLoop fuel dj lines).Outcome machine (0, lines ++ infos.map (lsLine build)) after ∧
      OnTable vol volume size build fmt { fs with win, winsect, wflag } disk after cells start := by
  induction yields generalizing fs machine dj fuel lines with
  | ended shown nameless =>
    obtain ⟨fuel, rfl⟩ := Nat.exists_eq_add_of_lt enough
    subst named
    obtain ⟨dj', win, winsect, wflag, after, run, onTableAfter, _⟩ :=
      fReaddir_walks onTable inStep shown
    refine ⟨win, winsect, wflag, after, ?_, onTableAfter⟩
    rw [lsLoop]
    refine outcome_bind.mpr ⟨_, _, run, ?_⟩
    rw [if_neg (not_not.mpr rfl), if_pos nameless, List.map_nil, List.append_nil]
    exact outcome_pure.mpr ⟨rfl, rfl⟩
  | @next walk next _ buffer info infos shown present rest inductionHypothesis =>
    obtain ⟨turns, rfl⟩ := Nat.exists_eq_add_of_lt enough
    subst named
    obtain ⟨dj', win, winsect, wflag, middle, run, onTableMiddle, kept, inStepMiddle⟩ :=
      fReaddir_walks onTable inStep shown
    have line : lines ++ (info :: infos).map (lsLine build) =
        lines ++ [lsLine build info] ++ infos.map (lsLine build) := by
      rw [List.map_cons, List.append_assoc, List.singleton_append]
    obtain ⟨win, winsect, wflag, after, goesOn, onTableAfter⟩ := @inductionHypothesis _ middle
      ((info :: infos).length + turns) dj' onTableMiddle inStepMiddle kept
      (by rw [List.length_cons]; omega) (lines ++ [lsLine build info])
    refine ⟨win, winsect, wflag, after, ?_, onTableAfter⟩
    rw [lsLoop, line]
    refine outcome_bind.mpr ⟨_, _, run, ?_⟩
    rw [if_neg (not_not.mpr rfl), if_neg present]
    refine outcome_bind.mpr ⟨_, _, outcome_get.mpr ⟨rfl, rfl⟩, ?_⟩
    rw [onTableMiddle.sees.word]
    exact goesOn

theorem InStep.proper (inStep : InStep vol fs cells start disk dj walk) : walk.Proper := by
  rcases inStep.place with ⟨_, none⟩ | reaches
  · exact .inr none
  · exact .inl reaches.small

/-- Whatever a table holds, the loop of `ls` prints a line for each entry that is meant to be seen,
in order and up to one with a blank name, and leaves what is seen of the volume as it was. -/
theorem lsLoop_lists (onTable : OnTable vol volume size build fmt fs disk machine cells start)
    (inStep : InStep vol fs cells start disk dj walk)
    (readable : Readable [] walk.index walk.ahead)
    (enough : (listed walk.index walk.ahead).length < fuel) (lines : List (List UInt8)) :
    ∃ infos win winsect wflag after,
      (lsLoop fuel dj lines).Outcome machine (0, lines ++ infos.map (lsLine build)) after ∧
      List.Forall₂ Lists (listed walk.index walk.ahead) infos ∧
      OnTable vol volume size build fmt { fs with win, winsect, wflag } disk after cells start := by
  obtain ⟨infos, yields, all⟩ := @yields_listed machine.lfnBuf walk
    [] inStep.proper not_counted_nil readable
  obtain ⟨win, winsect, wflag, after, run, onTableAfter⟩ :=
    lsLoop_yields yields onTable inStep rfl (all.length_eq ▸ enough) lines
  exact ⟨infos, win, winsect, wflag, after, run, all, onTableAfter⟩

/-- Of a table of files and directories with long names the loop of `ls` prints their names, with
the sizes of the files, in the order of the table. -/
theorem lsLoop_names {entries : List (DirEntry × Nat)}
    (onTable : OnTable vol volume size build fmt fs disk machine cells start)
    (inStep : InStep vol fs cells start disk dj walk) (filed : Filed walk.index entries walk.ahead)
    (enough : entries.length < fuel) (lines : List (List UInt8)) :
    ∃ win winsect wflag after,
      (lsLoop fuel dj lines).Outcome machine
        (0, lines ++ entries.map fun entry => lsLine build (entryInfo entry)) after ∧
      OnTable vol volume size build fmt { fs with win, winsect, wflag } disk after cells start := by
  obtain ⟨win, winsect, wflag, after, run, onTableAfter⟩ :=
    lsLoop_yields filed.yields onTable inStep rfl (by rwa [List.length_map]) lines
  rw [List.map_map] at run
  exact ⟨win, winsect, wflag, after, run, onTableAfter⟩

end Lines

end Ff

end Hdfmonkey
