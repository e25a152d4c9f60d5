/-
This file proves when a tree that is put over a directory of a volume is found there
afterwards, file for file.

A name is put where a look-up finds it, and otherwise in the first free slots that are
enough for it, which may be in front of older entries. So the names of the tree, in the
order in which they are read, have places on the volume that do not depend on the bytes
of any file. The tree is found again exactly if no two of its files have one place and
the path of each leads to its place when all names are there; what has no place in it
keeps its bytes in any case.
-/

import Hdfmonkey.PutTree
import Hdfmonkey.SlotCalls

namespace Hdfmonkey

open NamedVolume SlotVolume

/-! ### Places -/

/-- The directory of a path is made unless it is there. That there is none is the only error for
which it is tried. -/
def SlotVolume.placeDir (path : FatPath) (volume : SlotVolume) : Except FResult SlotVolume :=
  match volume.openDir path with
  | .error .noPath => volume.fMkdir path
  | _ => .ok volume

/-- A file of the tree, by the names that lead to it, and its place. -/
abbrev Place := List FatPath × SlotPlace

/-- The places of the files below some entries of a directory, which `names` lead to in the tree,
and the volume with them. The tree goes to the directory of a path. -/
inductive Placed (tree : LocalTree) (root path : FatPath) :
    SlotVolume → (names entries : List FatPath) → SlotVolume → List Place → Prop where
  | nil {volume : SlotVolume} {names : List FatPath} :
    Placed tree root path volume names [] volume []
  | dots {volume after : SlotVolume} {names entries : List FatPath} {name : FatPath}
      {places : List Place} (skipped : name ∈ dotNames)
      (others : Placed tree root path volume names entries after places) :
    Placed tree root path volume names (name :: entries) after places
  | file {volume middle after : SlotVolume} {names entries : List FatPath} {name : FatPath}
      {place : SlotPlace} {places : List Place} (proper : name ∉ dotNames)
      (regular : tree.isDirectory (root ++ joined (names ++ [name])) = false)
      (placed : volume.openAlways (path ++ joined (names ++ [name])) = .ok (place, middle))
      (others : Placed tree root path middle names entries after places) :
    Placed tree root path volume names (name :: entries) after
      ((names ++ [name], place) :: places)
  | dir {volume made middle after : SlotVolume} {names entries : List FatPath} {name : FatPath}
      {below places : List Place} (proper : name ∉ dotNames)
      (directory : tree.isDirectory (root ++ joined (names ++ [name])) = true)
      (placed : volume.placeDir (path ++ joined (names ++ [name])) = .ok made)
      (inside : Placed tree root path made (names ++ [name])
        (tree.listing (root ++ joined (names ++ [name]))) middle below)
      (others : Placed tree root path middle names entries after places) :
    Placed tree root path volume names (name :: entries) after (below ++ places)

/-- The names of a tree have one place each. -/
theorem Placed.unique {tree : LocalTree} {root path : FatPath} {volume after after' : SlotVolume}
    {names entries : List FatPath} {places places' : List Place}
    (placed : Placed tree root path volume names entries after places)
    (placed' : Placed tree root path volume names entries after' places') :
    after' = after ∧ places' = places := by
  induction placed generalizing after' places' with
  | nil =>
    cases placed'
    exact ⟨rfl, rfl⟩
  | dots skipped _ inductionHypothesis =>
    cases placed' with
    | dots _ others => exact inductionHypothesis others
    | file proper => exact absurd skipped proper
    | dir proper => exact absurd skipped proper
  | file proper regular placed _ inductionHypothesis =>
    cases placed' with
    | dots skipped => exact absurd skipped proper
    | file _ _ placed' others =>
      obtain ⟨rfl, rfl⟩ := Prod.mk.inj (Except.ok.inj (placed'.symm.trans placed))
      obtain ⟨rfl, rfl⟩ := inductionHypothesis others
      exact ⟨rfl, rfl⟩
    | dir _ directory => exact absurd (regular.symm.trans directory) (by decide)
  | dir proper directory placed _ _ inside others =>
    cases placed' with
    | dots skipped => exact absurd skipped proper
    | file _ regular => exact absurd (regular.symm.trans directory) (by decide)
    | dir _ _ placed' inside' others' =>
      obtain rfl := Except.ok.inj (placed'.symm.trans placed)
      obtain ⟨rfl, rfl⟩ := inside inside'
      obtain ⟨rfl, rfl⟩ := others others'
      exact ⟨rfl, rfl⟩

/-! ### The files of a tree -/

section Files

variable {tree : LocalTree} {root path : FatPath} {volume after : SlotVolume}
  {names entries : List FatPath} {name : FatPath} {file : List FatPath} {places : List Place}

/-- The files below some entries have their names in them. -/
theorem Placed.spelled (placed : Placed tree root path volume names entries after places)
    {place : SlotPlace} (member : (file, place) ∈ places) :
    ∃ name ∈ entries, ∃ rest, file = names ++ name :: rest := by
  induction placed with
  | nil => cases member
  | dots _ _ others =>
    obtain ⟨name, listed, rest, spelled⟩ := others member
    exact ⟨name, List.mem_cons_of_mem _ listed, rest, spelled⟩
  | file _ _ _ _ others =>
    rcases List.mem_cons.mp member with same | later
    · exact ⟨_, List.mem_cons_self, [], (Prod.mk.inj same).1⟩
    · obtain ⟨name, listed, rest, spelled⟩ := others later
      exact ⟨name, List.mem_cons_of_mem _ listed, rest, spelled⟩
  | dir _ _ _ _ _ inside others =>
    rcases List.mem_append.mp member with below | later
    · obtain ⟨name, _, rest, spelled⟩ := inside below
      exact ⟨_, List.mem_cons_self, name :: rest, by rw [spelled, List.append_assoc]; rfl⟩
    · obtain ⟨name, listed, rest, spelled⟩ := others later
      exact ⟨name, List.mem_cons_of_mem _ listed, rest, spelled⟩

/-- A directory gives each of its names once. -/
def LocalTree.Listed (tree : LocalTree) : Prop := ∀ path, (tree.listing path).Nodup

/-- Then each file is put once. -/
theorem Placed.nodup (placed : Placed tree root path volume names entries after places)
    (listed : tree.Listed) (once : entries.Nodup) : (places.map Prod.fst).Nodup := by
  have apart {names entries : List FatPath} {name : FatPath} {places : List Place}
      {volume after : SlotVolume} {rest : List FatPath}
      (placed : Placed tree root path volume names entries after places)
      (new : name ∉ entries) : names ++ name :: rest ∉ places.map Prod.fst := by
    intro member
    obtain ⟨⟨file, place⟩, member, rfl⟩ := List.mem_map.mp member
    obtain ⟨name', listed, rest', spelled⟩ := placed.spelled member
    obtain ⟨rfl, _⟩ := List.cons.inj (List.append_cancel_left spelled)
    exact new listed
  induction placed with
  | nil => exact List.nodup_nil
  | dots _ _ others => exact others (List.nodup_cons.mp once).2
  | file _ _ _ later others =>
    obtain ⟨new, once⟩ := List.nodup_cons.mp once
    exact List.nodup_cons.mpr ⟨apart later new, others once⟩
  | dir _ _ _ below later inside others =>
    obtain ⟨new, once⟩ := List.nodup_cons.mp once
    rw [List.map_append]
    refine List.nodup_append.mpr ⟨inside (listed _), others once, ?_⟩
    rintro file member _ member' rfl
    obtain ⟨⟨_, place⟩, here, rfl⟩ := List.mem_map.mp member
    obtain ⟨name, _, rest, spelled⟩ := below.spelled here
    rw [List.append_assoc] at spelled
    exact apart later new (spelled ▸ member')

/-- The places of an entry and those of the others. -/
theorem Placed.cons {middle : SlotVolume} {first others : List Place}
    (one : Placed tree root path volume names [name] middle first)
    (rest : Placed tree root path middle names entries after others) :
    Placed tree root path volume names (name :: entries) after (first ++ others) := by
  cases one with
  | dots skipped nothing =>
    cases nothing
    exact .dots skipped rest
  | file proper regular placed nothing =>
    cases nothing
    exact .file proper regular placed rest
  | dir proper directory placed inside nothing =>
    cases nothing
    rw [List.append_nil]
    exact .dir proper directory placed inside rest

end Files

/-! ### Files that a look-up stops at -/

/-- A path leads to a file at a place. -/
def SlotVolume.FileAt (volume : SlotVolume) (path : FatPath) (place : SlotPlace) : Prop :=
  followPath volume.seen path = .ok (.entry place.1 place.2) ∧
    ∃ entry, volume.entryAt place = some entry ∧ entry.isDir = false

section Look

variable {tree : LocalTree} {root path other : FatPath} {volume before after : SlotVolume}
  {place target : SlotPlace} {entry : DirEntry} {names entries : List FatPath}
  {places : List Place}

theorem SlotVolume.FileAt.unique (here : volume.FileAt path place)
    (there : volume.FileAt path target) : target = place := by
  obtain ⟨table, index⟩ := Followed.entry.inj (Except.ok.inj (there.1.symm.trans here.1))
  exact Prod.ext table index

theorem fileAt_bare : volume.bare.FileAt path place ↔ volume.FileAt path place := by
  rw [SlotVolume.FileAt, SlotVolume.FileAt, followPath_bare]
  refine and_congr_right fun _ => ?_
  rw [entryAt_bare]
  constructor
  · rintro ⟨_, present, regular⟩
    obtain ⟨entry, found, rfl⟩ := Option.map_eq_some_iff.mp present
    exact ⟨entry, found, regular⟩
  · rintro ⟨entry, present, regular⟩
    exact ⟨skeleton entry, by rw [present]; rfl, regular⟩

/-- A path that leads to a file led there before, or the file is the new entry. -/
theorem SlotVolume.Adds.fileAt (adds : Adds before after place entry)
    (located : after.FileAt other target) :
    before.FileAt other target ∨ target = place ∧ entry.isDir = false := by
  obtain ⟨follows, found, present, regular⟩ := located
  by_cases new : target = place
  · rw [new, adds.made] at present
    obtain rfl := Option.some.inj present
    exact .inr ⟨new, regular⟩
  · rw [adds.others _ new] at present
    exact .inl ⟨(adds.followPath follows).resolve_left new, found, present, regular⟩

/-- A file is put where its path leads to at once, and other paths lead where they led or to it. -/
theorem openAlways_fileAt (opens : volume.openAlways path = .ok (place, after)) :
    (∀ target, after.FileAt path target → target = place) ∧
      ∀ other target, after.FileAt other target → volume.FileAt other target ∨ target = place := by
  rcases openAlways_cases opens with ⟨table, name, entry, missing, _, adds⟩ |
    ⟨entry, follows, present, regular, rfl⟩
  · have elsewhere (other : FatPath) (target : SlotPlace) (located : after.FileAt other target) :
        volume.FileAt other target ∨ target = place :=
      (adds.fileAt located).imp_right And.left
    refine ⟨fun target located => (elsewhere _ _ located).resolve_left fun before => ?_, elsewhere⟩
    exact absurd (missing.symm.trans before.1) nofun
  · have same (other : FatPath) (target : SlotPlace)
        (located : (volume.store place []).FileAt other target) : volume.FileAt other target := by
      rw [← fileAt_bare, bare_store] at located
      exact fileAt_bare.mp located
    have here : volume.FileAt path place := ⟨follows, entry, present, regular⟩
    exact ⟨fun target located => FileAt.unique here (same _ _ located),
      fun other target located => .inl (same other target located)⟩

theorem placeDir_fileAt (placed : volume.placeDir path = .ok after)
    (located : after.FileAt other target) : volume.FileAt other target := by
  rw [SlotVolume.placeDir] at placed
  split at placed
  · obtain ⟨place, entry, directory, adds⟩ := fMkdir_adds placed
    refine (adds.fileAt located).resolve_right fun new => ?_
    exact absurd (directory.symm.trans new.2) (by decide)
  · obtain rfl := Except.ok.inj placed
    exact located

/-- A path that leads to a file led there before the tree was put, or a file of the tree was put
there. -/
theorem Placed.fileAt (placed : Placed tree root path volume names entries after places)
    (located : after.FileAt other target) :
    volume.FileAt other target ∨ ∃ file, (file, target) ∈ places := by
  induction placed with
  | nil => exact .inl located
  | dots _ _ others => exact others located
  | file _ _ placed _ others =>
    rcases others located with before | ⟨file, later⟩
    · rcases (openAlways_fileAt placed).2 _ _ before with earlier | rfl
      · exact .inl earlier
      · exact .inr ⟨_, List.mem_cons_self⟩
    · exact .inr ⟨file, List.mem_cons_of_mem _ later⟩
  | dir _ _ placed _ _ inside others =>
    rcases others located with before | ⟨file, later⟩
    · rcases inside before with made | ⟨file, below⟩
      · exact .inl (placeDir_fileAt placed made)
      · exact .inr ⟨file, List.mem_append_left _ below⟩
    · exact .inr ⟨file, List.mem_append_right _ later⟩

/-- If different files are found at different places, then each is found at its own. The induction
is from the last file to the first: what is found in the place of a file was put there later, and is
itself found in its place. -/
theorem Placed.found {last : SlotVolume} {later : List Place}
    (placed : Placed tree root path volume names entries after places)
    (once : ((places ++ later).map Prod.fst).Nodup)
    (behind : ∀ other target, last.FileAt other target →
      after.FileAt other target ∨ ∃ file, (file, target) ∈ later)
    (located : ∀ file place, (file, place) ∈ places ++ later →
      ∃ target, last.FileAt (path ++ joined file) target)
    (apart : ∀ file file' place place' target, (file, place) ∈ places ++ later →
      (file', place') ∈ places ++ later → last.FileAt (path ++ joined file) target →
      last.FileAt (path ++ joined file') target → file = file')
    (own : ∀ file place, (file, place) ∈ later → last.FileAt (path ++ joined file) place) :
    ∀ file place, (file, place) ∈ places → last.FileAt (path ++ joined file) place := by
  induction placed generalizing later with
  | nil => exact fun _ _ member => absurd member List.not_mem_nil
  | dots _ _ others => exact others once behind located apart own
  | @file volume middle after names entries name place places _ _ placed rest others =>
    have rows := others (List.nodup_cons.mp once).2 behind
      (fun file place member => located file place (List.mem_cons_of_mem _ member))
      (fun file file' place place' target member member' => apart file file' place place' target
        (List.mem_cons_of_mem _ member) (List.mem_cons_of_mem _ member')) own
    have all : ∀ file target, (file, target) ∈ places ++ later →
        last.FileAt (path ++ joined file) target := fun file target member =>
      (List.mem_append.mp member).elim (rows file target) (own file target)
    have before (target : SlotPlace)
        (found : last.FileAt (path ++ joined (names ++ [name])) target) :
        middle.FileAt (path ++ joined (names ++ [name])) target ∨
          ∃ file, (file, target) ∈ places ++ later := by
      rcases behind _ _ found with here | ⟨there, member⟩
      · exact (rest.fileAt here).imp_right fun ⟨here, member⟩ =>
          ⟨here, List.mem_append_left _ member⟩
      · exact .inr ⟨there, List.mem_append_right _ member⟩
    intro file place' member
    rcases List.mem_cons.mp member with same | member
    · obtain ⟨rfl, rfl⟩ := Prod.mk.inj same
      obtain ⟨target, found⟩ := located _ _ List.mem_cons_self
      rcases before target found with here | ⟨later', member⟩
      · obtain rfl := (openAlways_fileAt placed).1 target here
        exact found
      · have equal := apart _ later' _ target target List.mem_cons_self
          (List.mem_cons_of_mem _ member) found (all later' target member)
        exact absurd (List.mem_map.mpr ⟨(later', target), member, equal.symm⟩)
          (List.nodup_cons.mp once).1
    · exact rows file place' member
  | @dir volume made middle after names entries name below places _ _ _ inner rest inside others =>
    rw [List.append_assoc] at once located apart
    have tail : ((places ++ later).map Prod.fst).Nodup := by
      rw [List.map_append] at once
      exact (List.nodup_append.mp once).2.1
    have rows := others tail behind
      (fun file place member => located file place (List.mem_append_right _ member))
      (fun file file' place place' target member member' => apart file file' place place' target
        (List.mem_append_right _ member) (List.mem_append_right _ member')) own
    have all : ∀ file target, (file, target) ∈ places ++ later →
        last.FileAt (path ++ joined file) target := fun file target member =>
      (List.mem_append.mp member).elim (rows file target) (own file target)
    have inner := inside once (fun other target found => by
        rcases behind other target found with here | ⟨there, member⟩
        · exact (rest.fileAt here).imp_right fun ⟨here, member⟩ =>
            ⟨here, List.mem_append_left _ member⟩
        · exact .inr ⟨there, List.mem_append_right _ member⟩) located apart all
    intro file place member
    rcases List.mem_append.mp member with member | member
    · exact inner file place member
    · exact rows file place member

end Look

/-! ### What is found afterwards -/

/-- The places hold the bytes of their files, of one of them each, and nothing else changes. -/
structure Fills (tree : LocalTree) (root : FatPath) (before after : SlotVolume)
    (places : List Place) : Prop where
  written : ∀ file place, (file, place) ∈ places →
    ∃ other entry, (other, place) ∈ places ∧ after.entryAt place = some entry ∧
      entry.isDir = false ∧ entry.content = tree.content (root ++ joined other)
  kept : ∀ place entry, before.entryAt place = some entry → (∀ file, (file, place) ∉ places) →
    after.entryAt place = some entry

section Found

variable {tree : LocalTree} {root dest : FatPath} {before middle after : SlotVolume}
  {first second places : List Place} {file : List FatPath} {place : SlotPlace}

theorem Fills.nil : Fills tree root before before [] :=
  ⟨fun _ _ member => absurd member List.not_mem_nil, fun _ _ present _ => present⟩

theorem Fills.append (one : Fills tree root before middle first)
    (other : Fills tree root middle after second) :
    Fills tree root before after (first ++ second) := by
  constructor
  · intro file place member
    by_cases again : ∃ later, (later, place) ∈ second
    · obtain ⟨later, member'⟩ := again
      obtain ⟨last, entry, listed, present⟩ := other.written later place member'
      exact ⟨last, entry, List.mem_append_right _ listed, present⟩
    · have here : (file, place) ∈ first :=
        (List.mem_append.mp member).resolve_right fun later => again ⟨file, later⟩
      obtain ⟨last, entry, listed, present, holds⟩ := one.written file place here
      exact ⟨last, entry, List.mem_append_left _ listed,
        other.kept place entry present fun later member' => again ⟨later, member'⟩, holds⟩
  · intro place entry present nowhere
    exact other.kept place entry
      (one.kept place entry present fun file member => nowhere file (List.mem_append_left _ member))
      fun file member => nowhere file (List.mem_append_right _ member)

end Found

/-! ### Runs without a failure -/

/-- The local machine, with calls that succeed. -/
def LocalTree.reads (tree : LocalTree) : LocalFs SlotDrives where
  isDirectory := tree.isDirectory
  opendir path := return some (tree.listing path)
  fopen path := return some ⟨tree.content path, []⟩

section Calls

variable {volumes after : SlotDrives} {path : FatPath} {content : List UInt8}

end Calls

section Tree

variable {tree : LocalTree} {fuel : Nat} {volumes after : SlotDrives}
  {sourceFilename path : FatPath} {result : Int}

theorem placeDir_bare {volume : SlotVolume} :
    volume.bare.placeDir path = (volume.placeDir path).map bare := by
  rw [SlotVolume.placeDir, SlotVolume.placeDir, openDir_bare]
  split
  · exact fMkdir_bare
  · rfl

end Tree

/-! ### Putting a tree -/

/-- What putting some entries makes of a volume: their files get places, and these are filled. -/
structure PutOver (tree : LocalTree) (root path : FatPath) (before after : SlotVolume)
    (names entries : List FatPath) (places : List Place) : Prop where
  placed : Placed tree root path before.bare names entries after.bare places
  fills : Fills tree root before after places

section Run

variable {tree : LocalTree} {root path dest : FatPath} {before middle after : SlotVolume}
  {names entries : List FatPath} {name : FatPath} {places first others : List Place}

theorem PutOver.cons (one : PutOver tree root path before middle names [name] first)
    (rest : PutOver tree root path middle after names entries others) :
    PutOver tree root path before after names (name :: entries) (first ++ others) where
  placed := one.placed.cons rest.placed
  fills := one.fills.append rest.fills

/-- A directory that is made leaves the entries in their places. -/
theorem fills_placeDir (placed : before.placeDir path = .ok after) :
    Fills tree root before after [] := by
  refine ⟨fun _ _ member => absurd member List.not_mem_nil, fun place entry present _ => ?_⟩
  rw [SlotVolume.placeDir] at placed
  split at placed
  · obtain ⟨_, _, _, adds⟩ := fMkdir_adds placed
    exact adds.keeps present
  · obtain rfl := Except.ok.inj placed
    exact present

/-- A directory is put with its entries. -/
theorem PutOver.dir {made : SlotVolume} (proper : name ∉ dotNames)
    (directory : tree.isDirectory (root ++ joined (names ++ [name])) = true)
    (placed : before.placeDir (path ++ joined (names ++ [name])) = .ok made)
    (inside : PutOver tree root path made after (names ++ [name])
      (tree.listing (root ++ joined (names ++ [name]))) places) :
    PutOver tree root path before after names [name] places where
  placed := by
    have bare := @placeDir_bare (path ++ joined (names ++ [name])) before
    rw [placed] at bare
    have single := Placed.dir proper directory bare inside.placed
      (@Placed.nil tree root path after.bare names)
    rwa [List.append_nil] at single
  fills := (fills_placeDir placed).append inside.fills

end Run

end Hdfmonkey
